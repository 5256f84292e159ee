import AgentHarness.Lib.Window
import Mathlib.Algebra.Order.Ring.Rat
import Mathlib.Logic.Function.Basic

/-!
# RateLimiter — `InMemoryRateLimiter`

The limiter keeps, for every key, the times of the calls that it admitted, and drops those that have left
the window at the next call on the key.  A history of calls is read with a clock that does not go back.
-/

namespace AgentHarness

open Lib

/-- The limits of a call. -/
structure Limits where
  maxRequests : Int
  burst : Int
  windowSeconds : Int

/-- `max(1, max_requests + max(0, burst))` -/
def Limits.capacity (l : Limits) : Nat := (max 1 (l.maxRequests + max 0 l.burst)).toNat

/-- One call of `allow`, at the reading of its clock. -/
structure AllowCall where
  key : String
  now : Rat

/-- `int(x)` -/
def truncRat (x : Rat) : Int := x.num.tdiv x.den

/-- `_requests` -/
abbrev RateRequests := String → List Rat

namespace InMemoryRateLimiter

variable (l : Limits)

/-- `allow` on the times of one key. -/
def allowHits (now : Rat) (times : List Rat) : (Bool × Int) × List Rat :=
  let hits := times.filter fun ts => now - l.windowSeconds ≤ ts
  if l.capacity ≤ hits.length then
    ((false, max 1 (truncRat (l.windowSeconds - (now - hits.headD 0)))), hits)
  else ((true, 0), hits ++ [now])

def allow (s : RateRequests) (c : AllowCall) : (Bool × Int) × RateRequests :=
  ((allowHits l c.now (s c.key)).1, Function.update s c.key (allowHits l c.now (s c.key)).2)

/-- What a history of calls is answered. -/
def outcomes (s : RateRequests) : List AllowCall → List (Bool × Int)
  | [] => []
  | c :: cs => (allow l s c).1 :: outcomes (allow l s c).2 cs

/-- The state that a history leaves. -/
def after (s : RateRequests) (calls : List AllowCall) : RateRequests :=
  calls.foldl (fun s c => (allow l s c).2) s

/-- The times of the admitted calls on a key. -/
def admitted (key : String) (s : RateRequests) (calls : List AllowCall) : List Rat :=
  (calls.zip (outcomes l s calls)).filterMap fun x => if x.1.key = key ∧ x.2.1 = true then some x.1.now else none

end InMemoryRateLimiter

/-- A process that has served no call. -/
def RateRequests.empty : RateRequests := fun _ => []

namespace InMemoryRateLimiter

variable {l : Limits} {s s' : RateRequests} {c : AllowCall} {cs calls : List AllowCall} {key : String}
  {now now' : Rat} {times times' : List Rat}

theorem one_le_capacity : 1 ≤ l.capacity := by
  unfold Limits.capacity
  omega

/-! ## One call -/

theorem allowHits_recent : (allowHits l now times).2 =
    recent now l.windowSeconds times ++ if (allowHits l now times).1.1 = true then [now] else [] := by
  unfold allowHits recent
  dsimp only
  split <;> simp

theorem allowHits_admits :
    (allowHits l now times).1.1 = true ↔ (recent now l.windowSeconds times).length < l.capacity := by
  unfold allowHits recent
  dsimp only
  split
  · simp only [Bool.false_eq_true, false_iff, not_lt]
    assumption
  · simp only [true_iff]
    omega

/-- The answer depends on the recent times only. -/
theorem allowHits_congr (h : recent now l.windowSeconds times = recent now l.windowSeconds times') :
    allowHits l now times = allowHits l now times' := by
  unfold allowHits
  unfold recent at h
  rw [h]

theorem allow_ne (h : c.key ≠ key) : (allow l s c).2 key = s key :=
  Function.update_of_ne (Ne.symm h) _ _

theorem allow_key : (allow l s c).2 c.key = (allowHits l c.now (s c.key)).2 := Function.update_self ..

@[simp] theorem outcomes_length : (outcomes l s cs).length = cs.length := by
  induction cs generalizing s with
  | nil => rfl
  | cons c cs ih => simp [outcomes, ih]

theorem outcomes_append (pre post : List AllowCall) :
    outcomes l s (pre ++ post) = outcomes l s pre ++ outcomes l (after l s pre) post := by
  induction pre generalizing s with
  | nil => rfl
  | cons c pre ih => simp [outcomes, after, ih]

theorem admitted_cons : admitted l key s (c :: cs) =
    (if c.key = key ∧ (allow l s c).1.1 = true then [c.now] else []) ++ admitted l key (allow l s c).2 cs := by
  unfold admitted
  rw [outcomes, List.zip_cons_cons, List.filterMap_cons]
  by_cases h : c.key = key ∧ (allow l s c).1.1 = true
  · rw [if_pos h, if_pos h]
    rfl
  · rw [if_neg h, if_neg h]
    rfl

/-! ## The window -/

/-- The clock of a history does not go back. -/
def Clocked (calls : List AllowCall) : Prop := calls.Pairwise fun c c' => c.now ≤ c'.now

/-- The states agree on what counts from `now` on. -/
def AgreeOn (l : Limits) (now : Rat) (times times' : List Rat) : Prop :=
  recent now l.windowSeconds times = recent now l.windowSeconds times'

theorem AgreeOn.later (h : AgreeOn l now times times') (hle : now ≤ now') : AgreeOn l now' times times' := by
  unfold AgreeOn at h ⊢
  rw [← recent_recent hle, h, recent_recent hle]

/-- A call leaves times that agree with the old ones and its own, if it was admitted. -/
theorem allowHits_agree (h : AgreeOn l now times times') :
    AgreeOn l now (allowHits l now times).2
      (times' ++ if (allowHits l now times).1.1 = true then [now] else []) := by
  unfold AgreeOn at h ⊢
  rw [allowHits_recent, recent_append, recent_append, recent_recent le_rfl, h]

/-- **The bound**, from a state that agrees with the times admitted so far. -/
theorem windowBounded_admitted (hclock : Clocked calls) (hlater : ∀ c ∈ calls, now ≤ c.now)
    (hagree : AgreeOn l now (s key) times) (hb : WindowBounded (l.windowSeconds : Rat) l.capacity times) :
    WindowBounded (l.windowSeconds : Rat) l.capacity (times ++ admitted l key s calls) := by
  induction calls generalizing s times now with
  | nil => simpa [admitted] using hb
  | cons c cs ih =>
    obtain ⟨hfirst, hclock⟩ := List.pairwise_cons.mp hclock
    have hagree : AgreeOn l c.now (s key) times := hagree.later (hlater c List.mem_cons_self)
    rw [admitted_cons, ← List.append_assoc]
    by_cases hkey : c.key = key
    · subst hkey
      refine ih hclock hfirst ?_ ?_
      · rw [allow_key]
        simpa [allow] using allowHits_agree hagree
      · by_cases hadmits : (allow l s c).1.1 = true
        · rw [if_pos ⟨rfl, hadmits⟩]
          refine hb.concat ?_
          rw [← hagree]
          exact allowHits_admits.mp hadmits
        · rw [if_neg fun h => hadmits h.2, List.append_nil]
          exact hb
    · rw [if_neg fun h => hkey h.1, List.append_nil]
      refine ih hclock hfirst ?_ hb
      rw [allow_ne hkey]
      exact hagree

/-! ## Rejected calls, and other keys -/

/-- States that agree from now on are not told apart by a later history. -/
theorem outcomes_congr (hclock : Clocked calls) (hlater : ∀ c ∈ calls, now ≤ c.now)
    (hagree : ∀ key, AgreeOn l now (s key) (s' key)) : outcomes l s calls = outcomes l s' calls := by
  induction calls generalizing s s' now with
  | nil => rfl
  | cons c cs ih =>
    obtain ⟨hfirst, hclock⟩ := List.pairwise_cons.mp hclock
    have hagree : ∀ key, AgreeOn l c.now (s key) (s' key) :=
      fun key => (hagree key).later (hlater c List.mem_cons_self)
    have hsame : allowHits l c.now (s c.key) = allowHits l c.now (s' c.key) := allowHits_congr (hagree c.key)
    have hrest : outcomes l (allow l s c).2 cs = outcomes l (allow l s' c).2 cs := by
      refine ih hclock hfirst fun key => ?_
      by_cases hkey : c.key = key
      · subst hkey
        rw [allow_key, allow_key, hsame]
        rfl
      · rw [allow_ne hkey, allow_ne hkey]
        exact hagree key
    show (allowHits l c.now (s c.key)).1 :: _ = (allowHits l c.now (s' c.key)).1 :: _
    rw [hsame, hrest]

/-- A rejected call leaves a state that agrees with the one before. -/
theorem agree_of_rejected (h : (allow l s c).1.1 = false) (key : String) :
    AgreeOn l c.now (s key) ((allow l s c).2 key) := by
  by_cases hkey : c.key = key
  · subst hkey
    have hleft : AgreeOn l c.now (allowHits l c.now (s c.key)).2
        (s c.key ++ if (allowHits l c.now (s c.key)).1.1 = true then [c.now] else []) := allowHits_agree rfl
    have h : (allowHits l c.now (s c.key)).1.1 = false := h
    rw [h, if_neg Bool.false_ne_true, List.append_nil] at hleft
    rw [allow_key]
    exact hleft.symm
  · rw [allow_ne hkey]
    rfl

/-- Without a rejected call the others are answered the same. -/
theorem outcomes_of_rejected {pre post : List AllowCall} (hclock : Clocked (pre ++ c :: post))
    (h : (allow l (after l s pre) c).1.1 = false) :
    outcomes l s (pre ++ post) = (outcomes l s (pre ++ c :: post)).eraseIdx pre.length := by
  obtain ⟨-, hlast, -⟩ := List.pairwise_append.mp hclock
  obtain ⟨hfirst, hpost⟩ := List.pairwise_cons.mp hlast
  have hrest : outcomes l (after l s pre) post = outcomes l (allow l (after l s pre) c).2 post :=
    outcomes_congr hpost hfirst (agree_of_rejected h)
  rw [outcomes_append, outcomes_append, hrest, List.eraseIdx_append_of_length_le (by simp)]
  simp [outcomes]

/-- The answers to the calls on a key. -/
def outcomesOn (l : Limits) (key : String) (s : RateRequests) (calls : List AllowCall) : List (Bool × Int) :=
  (calls.zip (outcomes l s calls)).filterMap fun x => if x.1.key = key then some x.2 else none

/-- The calls on a key are answered as if there were no others. -/
theorem outcomesOn_eq (hsame : s key = s' key) :
    outcomesOn l key s calls = outcomes l s' (calls.filter fun c => c.key = key) := by
  induction calls generalizing s s' with
  | nil => rfl
  | cons c cs ih =>
    unfold outcomesOn
    rw [outcomes, List.zip_cons_cons, List.filterMap_cons]
    by_cases hkey : c.key = key
    · subst hkey
      rw [if_pos rfl, List.filter_cons_of_pos (by simp), outcomes]
      have hcall : (allow l s c).1 = (allow l s' c).1 := by
        show (allowHits l c.now (s c.key)).1 = (allowHits l c.now (s' c.key)).1
        rw [hsame]
      rw [hcall]
      refine congrArg _ (ih ?_)
      rw [allow_key, allow_key, hsame]
    · rw [if_neg hkey, List.filter_cons_of_neg (by simpa using hkey)]
      refine ih ?_
      rw [allow_ne hkey]
      exact hsame

/-- **The limiter.**  For every history with a clock that does not go back: every window of the configured
length holds at most the capacity of admitted calls on a key, a rejected call might as well not have been
made, and the calls on a key are answered as if there were no others. -/
theorem limiter_window_bound (l : Limits) (calls : List AllowCall) (hclock : Clocked calls) :
    (∀ key, WindowBounded (l.windowSeconds : Rat) l.capacity (admitted l key .empty calls)) ∧
    (∀ pre c post, calls = pre ++ c :: post → (allow l (after l .empty pre) c).1.1 = false →
      outcomes l .empty (pre ++ post) = (outcomes l .empty calls).eraseIdx pre.length) ∧
    ∀ key, outcomesOn l key .empty calls = outcomes l .empty (calls.filter fun c => c.key = key) := by
  refine ⟨fun key => ?_, fun pre c post hcalls h => ?_, fun key => outcomesOn_eq rfl⟩
  · cases calls with
    | nil => exact .nil
    | cons c cs =>
      have hlater : ∀ c' ∈ c :: cs, c.now ≤ c'.now := by
        intro c' hc'
        rcases List.mem_cons.mp hc' with rfl | hc'
        · exact le_rfl
        · exact (List.pairwise_cons.mp hclock).1 c' hc'
      exact windowBounded_admitted hclock hlater (show AgreeOn l c.now (RateRequests.empty key) [] from rfl) .nil
  · subst hcalls
    exact outcomes_of_rejected hclock h

/-- Three calls on one key a minute apart at most, where two are allowed. -/
theorem limiter_window_bound_demo :
    WindowBounded 60 2 (admitted ⟨1, 1, 60⟩ "k" .empty [⟨"k", 0⟩, ⟨"k", 30⟩, ⟨"k", 60⟩]) :=
  (limiter_window_bound ⟨1, 1, 60⟩ [⟨"k", 0⟩, ⟨"k", 30⟩, ⟨"k", 60⟩] (by unfold Clocked; decide)).1 "k"

end InMemoryRateLimiter

end AgentHarness
