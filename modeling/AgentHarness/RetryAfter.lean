import AgentHarness.RateLimiter
import Mathlib.Data.Rat.Floor

/-!
# RetryAfter — whether a rejected caller may come back when it was told

A rejection names a whole number of seconds: the rest of the time that the oldest call keeps in the window,
rounded towards zero, and at least one.  The window still holds a call at its far edge.  So the number is
honest only where it was raised to one.
-/

namespace AgentHarness

open Lib

namespace InMemoryRateLimiter

variable {l : Limits} {s : RateRequests} {c c' : AllowCall} {calls pre mid : List AllowCall} {key : String}
  {now t : Rat} {times hits : List Rat}

/-! ## What the limiter holds -/

theorem first_le (hclock : Clocked (c :: calls)) : ∀ c' ∈ c :: calls, c.now ≤ c'.now := by
  intro c' hc'
  rcases List.mem_cons.mp hc' with rfl | hc'
  · exact le_rfl
  · exact (List.pairwise_cons.mp hclock).1 c' hc'

/-- A history leaves times that agree with those of the calls it admitted. -/
theorem after_agree (hclock : Clocked calls) (hlater : ∀ c ∈ calls, now ≤ c.now) (hlast : ∀ c ∈ calls, c.now ≤ t)
    (hnow : now ≤ t) (hagree : AgreeOn l now (s key) times) :
    AgreeOn l t (after l s calls key) (times ++ admitted l key s calls) := by
  induction calls generalizing s times now with
  | nil =>
    show AgreeOn l t (s key) (times ++ [])
    rw [List.append_nil]
    exact hagree.later hnow
  | cons c cs ih =>
    obtain ⟨hfirst, hclock⟩ := List.pairwise_cons.mp hclock
    have hagree : AgreeOn l c.now (s key) times := hagree.later (hlater c List.mem_cons_self)
    have hrest : ∀ c' ∈ cs, c'.now ≤ t := fun c' hc' => hlast c' (List.mem_cons_of_mem c hc')
    rw [admitted_cons, ← List.append_assoc]
    refine ih hclock hfirst hrest (hlast c List.mem_cons_self) ?_
    show AgreeOn l c.now ((allow l s c).2 key) _
    by_cases hkey : c.key = key
    · subst hkey
      have hleft := allowHits_agree (l := l) hagree
      rw [allow_key]
      by_cases hadmits : (allow l s c).1.1 = true
      · rw [if_pos ⟨rfl, hadmits⟩]
        rwa [if_pos (show (allowHits l c.now (s c.key)).1.1 = true from hadmits)] at hleft
      · rw [if_neg fun h => hadmits h.2]
        rwa [if_neg (show ¬ (allowHits l c.now (s c.key)).1.1 = true from hadmits)] at hleft
    · rw [if_neg fun h => hkey h.1, List.append_nil, allow_ne hkey]
      exact hagree

theorem admitted_sublist : (admitted l key s calls).Sublist (calls.map (·.now)) := by
  induction calls generalizing s with
  | nil => exact List.Sublist.refl _
  | cons c cs ih =>
    rw [admitted_cons, List.map_cons]
    by_cases h : c.key = key ∧ (allow l s c).1.1 = true
    · rw [if_pos h]
      exact ih.cons_cons c.now
    · rw [if_neg h]
      exact ih.cons c.now

theorem admitted_bounded (hclock : Clocked calls) (key : String) :
    WindowBounded (l.windowSeconds : Rat) l.capacity (admitted l key .empty calls) := by
  cases calls with
  | nil => exact .nil
  | cons c cs =>
    have hempty : AgreeOn l c.now (RateRequests.empty key) [] := rfl
    exact windowBounded_admitted hclock (first_le hclock) hempty .nil

/-- The times of the calls on a key that the window holds when `c` arrives. -/
def held (l : Limits) (pre : List AllowCall) (c : AllowCall) : List Rat :=
  recent c.now l.windowSeconds (admitted l c.key .empty pre)

theorem held_eq (hclock : Clocked (pre ++ [c])) :
    recent c.now l.windowSeconds (after l .empty pre c.key) = held l pre c := by
  obtain ⟨hpre, -, hlast⟩ := List.pairwise_append.mp hclock
  have hlast : ∀ d ∈ pre, d.now ≤ c.now := fun d hd => hlast d hd c List.mem_cons_self
  cases pre with
  | nil => rfl
  | cons d pre =>
    have hempty : AgreeOn l d.now (RateRequests.empty c.key) [] := rfl
    exact after_agree hpre (first_le hpre) hlast (hlast d List.mem_cons_self) hempty

theorem held_sorted (hclock : Clocked (pre ++ [c])) : (held l pre c).Pairwise (· ≤ ·) := by
  have htimes : (pre.map (·.now)).Pairwise (· ≤ ·) :=
    List.pairwise_map.mpr (List.pairwise_append.mp hclock).1
  exact (htimes.sublist admitted_sublist).sublist List.filter_sublist

/-- The window never holds more than the capacity. -/
theorem held_length (hclock : Clocked (pre ++ [c])) : (held l pre c).length ≤ l.capacity := by
  obtain ⟨hpre, -, hlast⟩ := List.pairwise_append.mp hclock
  have hwindow := admitted_bounded (l := l) hpre c.key (c.now - l.windowSeconds)
  refine le_trans (le_of_eq ?_) hwindow
  refine congrArg List.length (List.filter_congr fun ts hts => ?_)
  have hts : ts ≤ c.now := by
    obtain ⟨d, hd, rfl⟩ := List.mem_map.mp (admitted_sublist.subset hts)
    exact hlast d hd c List.mem_cons_self
  simp [hts]

/-! ## The rejection -/

theorem truncRat_le {x : Rat} (h : 1 < truncRat x) : (truncRat x : Rat) ≤ x := by
  have hnum : 0 ≤ x.num := by
    by_contra hneg
    have hopposite : 0 ≤ (-x.num).tdiv x.den := Int.tdiv_nonneg (by omega) (Int.natCast_nonneg _)
    rw [Int.neg_tdiv] at hopposite
    unfold truncRat at h
    omega
  have hfloor : truncRat x = ⌊x⌋ := by
    rw [Rat.floor_def']
    exact Int.tdiv_eq_ediv_of_nonneg hnum
  rw [hfloor]
  exact Int.floor_le x

/-- Calls on other keys leave the times of a key alone. -/
theorem after_others (hmid : ∀ d ∈ mid, d.key ≠ key) : after l s mid key = s key := by
  induction mid generalizing s with
  | nil => rfl
  | cons d mid ih =>
    have hrest := ih (s := (allow l s d).2) fun e he => hmid e (List.mem_cons_of_mem d he)
    exact hrest.trans (allow_ne (hmid d List.mem_cons_self))

theorem after_append : after l s (pre ++ mid) = after l (after l s pre) mid := List.foldl_append

/-- What a rejected call is told. -/
theorem rejected_retryAfter (hclock : Clocked (pre ++ [c])) (h : (allow l (after l .empty pre) c).1.1 = false) :
    (allow l (after l .empty pre) c).1.2 =
      max 1 (truncRat (l.windowSeconds - (c.now - (held l pre c).headD 0))) := by
  have h : (allowHits l c.now (after l .empty pre c.key)).1.1 = false := h
  show (allowHits l c.now (after l .empty pre c.key)).1.2 = _
  unfold allowHits at h ⊢
  dsimp only at h ⊢
  rw [← held_eq hclock]
  unfold recent
  split at h
  · rename_i hfull
    rw [if_pos hfull]
  · cases h

/-- A later call on the key is admitted when one of the times that were held has left the window. -/
theorem admitted_later (hclock : Clocked (pre ++ [c])) (h : (allow l (after l .empty pre) c).1.1 = false)
    (hmid : ∀ d ∈ mid, d.key ≠ c.key) (hkey : c'.key = c.key) :
    (allow l (after l .empty (pre ++ c :: mid)) c').1.1 = true ↔
      ∃ ts ∈ held l pre c, ts < c'.now - l.windowSeconds := by
  have hfull : l.capacity ≤ (held l pre c).length := by
    have hroom := mt allowHits_admits.mpr (Bool.eq_false_iff.mp h)
    rw [held_eq hclock] at hroom
    exact not_lt.mp hroom
  have hstate : after l .empty (pre ++ c :: mid) c.key = held l pre c := by
    have hcall : (allow l (after l .empty pre) c).2 c.key = held l pre c := by
      have h : (allowHits l c.now (after l .empty pre c.key)).1.1 = false := h
      rw [allow_key, allowHits_recent, h, held_eq hclock]
      exact List.append_nil _
    rw [after_append]
    exact (after_others hmid).trans hcall
  have hlength := held_length (l := l) hclock
  show (allowHits l c'.now (after l .empty (pre ++ c :: mid) c'.key)).1.1 = true ↔ _
  rw [allowHits_admits, hkey, hstate]
  unfold recent
  constructor
  · intro hroom
    by_contra! hnone
    rw [List.filter_eq_self.mpr fun ts hts => decide_eq_true (hnone ts hts)] at hroom
    omega
  · rintro ⟨ts, hts, hleft⟩
    have hdrop : (held l pre c).filter (fun a => c'.now - l.windowSeconds ≤ a) ≠ held l pre c := by
      intro heq
      have := List.filter_eq_self.mp heq ts hts
      exact absurd (of_decide_eq_true this) (not_le.mpr hleft)
    have hsub : ((held l pre c).filter fun a => c'.now - l.windowSeconds ≤ a).Sublist (held l pre c) :=
      List.filter_sublist
    have hshort := hsub.length_le
    refine lt_of_lt_of_le (lt_of_le_of_ne hshort fun heq => hdrop (hsub.eq_of_length heq)) hlength

/-- Waiting the number of seconds that a rejection names is enough. -/
def Honest (l : Limits) (pre : List AllowCall) (c : AllowCall) : Prop :=
  ∀ mid c', Clocked (pre ++ c :: mid ++ [c']) → (∀ d ∈ mid, d.key ≠ c.key) → c'.key = c.key →
    c.now + (allow l (after l .empty pre) c).1.2 ≤ c'.now →
    (allow l (after l .empty (pre ++ c :: mid)) c').1.1 = true

/-- **Retry-After.**  In every history, a rejection is honest exactly when the window holds a call on the key that
leaves it within a second. -/
theorem retry_after_honest_iff (l : Limits) (pre : List AllowCall) (c : AllowCall) (hclock : Clocked (pre ++ [c]))
    (h : (allow l (after l .empty pre) c).1.1 = false) :
    Honest l pre c ↔ ∃ ts ∈ held l pre c, l.windowSeconds - (c.now - ts) < 1 := by
  have htold := rejected_retryAfter hclock h
  have hle : ∀ c' : AllowCall, c.now + (allow l (after l .empty pre) c).1.2 ≤ c'.now → c.now + 1 ≤ c'.now := by
    intro c' hc'
    have hone : (1 : Rat) ≤ ((allow l (after l .empty pre) c).1.2 : Rat) := by
      rw [htold]
      exact_mod_cast le_max_left _ _
    linarith
  constructor
  · intro honest
    obtain ⟨r, hr⟩ : ∃ r : Int, (allow l (after l .empty pre) c).1.2 = r := ⟨_, rfl⟩
    have hone : c.now + 1 ≤ c.now + (r : Rat) := by
      have := hle ⟨c.key, c.now + r⟩ (by rw [hr])
      exact this
    have hagain : Clocked (pre ++ c :: [] ++ [⟨c.key, c.now + r⟩]) := by
      refine List.pairwise_append.mpr ⟨hclock, List.pairwise_singleton .., fun d hd e he => ?_⟩
      obtain rfl := List.mem_singleton.mp he
      have hd : d.now ≤ c.now := by
        rcases List.mem_append.mp hd with hd | hd
        · exact (List.pairwise_append.mp hclock).2.2 d hd c List.mem_cons_self
        · exact (congrArg AllowCall.now (List.mem_singleton.mp hd)).le
      show d.now ≤ c.now + r
      linarith
    have hback := honest [] ⟨c.key, c.now + r⟩ hagain (fun d hd => absurd hd List.not_mem_nil) rfl (by rw [hr])
    obtain ⟨ts, hts, hleft⟩ := (admitted_later hclock h (fun d hd => absurd hd List.not_mem_nil)
      (show (AllowCall.mk c.key (c.now + r)).key = c.key from rfl)).mp hback
    have hleft : ts < c.now + r - l.windowSeconds := hleft
    refine ⟨ts, hts, ?_⟩
    by_cases hsecond : r = 1
    · rw [hsecond] at hleft
      norm_num at hleft
      linarith
    · -- the number was not raised, so it is at most the time that the oldest call has left
      have hfirst : (held l pre c).headD 0 ≤ ts := by
        have hsorted := held_sorted (l := l) hclock
        revert hts hsorted
        cases held l pre c with
        | nil => exact fun hts => absurd hts List.not_mem_nil
        | cons a rest =>
          intro hts hsorted
          rcases List.mem_cons.mp hts with rfl | hts
          · exact le_rfl
          · exact (List.pairwise_cons.mp hsorted).1 ts hts
      rw [hr] at htold
      have htrunc : r = truncRat (l.windowSeconds - (c.now - (held l pre c).headD 0)) := by omega
      have hbelow := truncRat_le (x := l.windowSeconds - (c.now - (held l pre c).headD 0)) (by omega)
      rw [← htrunc] at hbelow
      linarith
  · rintro ⟨ts, hts, hsoon⟩ mid c' hclock' hmid hkey hwait
    have hlater := hle c' hwait
    exact (admitted_later hclock h hmid hkey).mpr ⟨ts, hts, by linarith⟩

/-- One call a minute: a call at 59.5 s is told to wait a second, and the window then is empty. -/
theorem retry_after_honest_soon : Honest ⟨1, 0, 60⟩ [⟨"k", 0⟩] ⟨"k", 119 / 2⟩ ↔
    ∃ ts ∈ held ⟨1, 0, 60⟩ [⟨"k", 0⟩] ⟨"k", 119 / 2⟩, ((60 : Int) : Rat) - (119 / 2 - ts) < 1 :=
  retry_after_honest_iff ⟨1, 0, 60⟩ [⟨"k", 0⟩] ⟨"k", 119 / 2⟩ (by unfold Clocked; decide +kernel) (by decide +kernel)

/-- At half a minute it is told to wait the other half, and is then rejected again. -/
theorem retry_after_too_soon : ¬ ∀ (l : Limits) (pre : List AllowCall) (c : AllowCall), Clocked (pre ++ [c]) →
    (allow l (after l .empty pre) c).1.1 = false → Honest l pre c := by
  intro honest
  have hearly := honest ⟨1, 0, 60⟩ [⟨"k", 0⟩] ⟨"k", 30⟩ (by unfold Clocked; decide +kernel) (by decide +kernel)
    [] ⟨"k", 60⟩ (by unfold Clocked; decide +kernel) (fun d hd => absurd hd List.not_mem_nil) rfl (by decide +kernel)
  revert hearly
  decide +kernel

end InMemoryRateLimiter

end AgentHarness
