import Mathlib.Algebra.Order.Floor.Ring
import Mathlib.Algebra.Order.Group.Defs
import Mathlib.Data.List.Basic
import Mathlib.Order.Basic
import Mathlib.Tactic.Linarith

/-!
# Lib.Window — how many of a list of times lie in a window

`recent t w ts` are the times of the last `w` before `t`, both ends included.  `WindowBounded w n ts` says
that every window of length `w` holds at most `n` of the times, wherever it begins.  A time that comes last
keeps the bound if fewer than `n` times are recent at it.  A window meets two of the buckets of its length.
-/

namespace AgentHarness.Lib

variable {K : Type} [AddCommGroup K] [LinearOrder K]

def recent (t w : K) (ts : List K) : List K := ts.filter fun a => t - w ≤ a

def WindowBounded (w : K) (n : Nat) (ts : List K) : Prop :=
  ∀ s, (ts.filter fun a => s ≤ a ∧ a ≤ s + w).length ≤ n

variable {t t' w s : K} {n : Nat} {ts ts' : List K}

theorem mem_recent {a : K} : a ∈ recent t w ts ↔ a ∈ ts ∧ t - w ≤ a := by
  simp [recent]

theorem recent_append : recent t w (ts ++ ts') = recent t w ts ++ recent t w ts' := List.filter_append ..

theorem recent_singleton (h : t - w ≤ s) : recent t w [s] = [s] :=
  List.filter_cons_of_pos (decide_eq_true h)

theorem WindowBounded.nil : WindowBounded w n ([] : List K) := fun _ => Nat.zero_le _

variable [IsOrderedAddMonoid K]

/-- What is recent later is recent now. -/
theorem recent_recent (h : t ≤ t') : recent t' w (recent t w ts) = recent t' w ts := by
  unfold recent
  rw [List.filter_filter]
  refine List.filter_congr fun a _ => ?_
  have hcut : t - w ≤ t' - w := sub_le_sub_right h w
  by_cases ha : t' - w ≤ a
  · simp [ha, hcut.trans ha]
  · simp [ha]

/-- A window of negative length is empty. -/
theorem WindowBounded.of_neg (h : w < 0) : WindowBounded w n ts := by
  intro s
  have hempty : (ts.filter fun a => s ≤ a ∧ a ≤ s + w) = [] := by
    refine List.filter_eq_nil_iff.mpr fun a _ => ?_
    simp only [decide_eq_true_eq, not_and]
    intro hs ha
    have : s + w < s := add_lt_of_neg_right s h
    exact absurd (hs.trans ha) (not_le.mpr this)
  rw [hempty]
  exact Nat.zero_le _

/-- **One more time.**  It comes last, and fewer than `n` times are recent at it. -/
theorem WindowBounded.concat (h : WindowBounded w n ts) (hroom : (recent t w ts).length < n) :
    WindowBounded w n (ts ++ [t]) := by
  intro s
  rw [List.filter_append, List.length_append]
  by_cases ht : s ≤ t ∧ t ≤ s + w
  · -- the window holds the new time, so what else it holds is recent
    have hsub : (ts.filter fun a => s ≤ a ∧ a ≤ s + w).length ≤ (recent t w ts).length := by
      refine (List.monotone_filter_right ts fun a ha => ?_).length_le
      simp only [decide_eq_true_eq] at ha ⊢
      have : t - w ≤ s := sub_le_iff_le_add.mpr ht.2
      exact this.trans ha.1
    have hone : ([t].filter fun a => s ≤ a ∧ a ≤ s + w).length ≤ 1 := List.length_filter_le _ _
    omega
  · have hnone : ([t].filter fun a => s ≤ a ∧ a ≤ s + w) = [] := by
      simp [ht]
    rw [hnone, List.length_nil, Nat.add_zero]
    exact h s

theorem length_filter_le_add {α : Type} {p q r : α → Prop} [DecidablePred p] [DecidablePred q] [DecidablePred r]
    {l : List α} (h : ∀ a ∈ l, p a → q a ∨ r a) :
    (l.filter p).length ≤ (l.filter q).length + (l.filter r).length := by
  induction l with
  | nil => simp
  | cons a l ih =>
    have ih := ih fun b hb => h b (List.mem_cons_of_mem a hb)
    have ha := h a List.mem_cons_self
    by_cases hp : p a
    · by_cases hq : q a
      · by_cases hr : r a <;> simp [hp, hq, hr] <;> omega
      · have hr : r a := (ha hp).resolve_left hq
        simp [hp, hq, hr]
        omega
    · by_cases hq : q a <;> by_cases hr : r a <;> simp [hp, hq, hr] <;> omega

theorem bucket_of_window {F : Type} [Field F] [LinearOrder F] [IsStrictOrderedRing F] [FloorRing F] {w s a : F}
    (hw : 0 < w) (hs : s ≤ a) (ha : a ≤ s + w) : ⌊a / w⌋ = ⌊s / w⌋ ∨ ⌊a / w⌋ = ⌊s / w⌋ + 1 := by
  have hlow : ⌊s / w⌋ ≤ ⌊a / w⌋ := Int.floor_le_floor ((div_le_div_iff_of_pos_right hw).mpr hs)
  have hhigh : ⌊a / w⌋ ≤ ⌊s / w⌋ + 1 := by
    have hdiv : a / w ≤ s / w + 1 := by
      rw [div_add_one hw.ne']
      exact (div_le_div_iff_of_pos_right hw).mpr ha
    have := Int.floor_le_floor hdiv
    rwa [Int.floor_add_one] at this
  omega

end AgentHarness.Lib
