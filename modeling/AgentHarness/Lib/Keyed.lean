import Mathlib.Algebra.BigOperators.Group.List.Basic
import Mathlib.Data.List.Nodup
import Mathlib.Data.List.Sort
import Mathlib.Order.Basic

/-!
# Lib.Keyed — values collected under keys

`modifyAt` changes the value of a key, and starts with `init` where there is none.  `collect` does so for each
item of a stream.  What it has under a key depends on the items with that key only (`lookup_collect`), so a
stream that mixes the items of several keys is taken apart again.  `inOrder` lists the values by their keys.
-/

namespace AgentHarness.Lib.Keyed

variable {K V A : Type} [DecidableEq K]

def modifyAt (init : V) (f : V → V) (k : K) : List (K × V) → List (K × V)
  | [] => [(k, f init)]
  | (k', v) :: acc => if k' = k then (k', f v) :: acc else (k', v) :: modifyAt init f k acc

def lookup (k : K) : List (K × V) → Option V
  | [] => none
  | (k', v) :: acc => if k' = k then some v else lookup k acc

def collect (init : V) (key : A → K) (step : V → A → V) (acc : List (K × V)) (xs : List A) : List (K × V) :=
  xs.foldl (fun acc x => modifyAt init (fun v => step v x) (key x) acc) acc

variable {init : V} {f : V → V} {key : A → K} {step : V → A → V} {acc : List (K × V)} {xs : List A} {k k' : K} {x : A}

theorem lookup_modifyAt_self : lookup k (modifyAt init f k acc) = some (f ((lookup k acc).getD init)) := by
  induction acc with
  | nil => simp [modifyAt, lookup]
  | cons entry acc ih =>
    obtain ⟨k', v⟩ := entry
    unfold modifyAt
    by_cases h : k' = k
    · simp [lookup, h]
    · rw [if_neg h]
      simp only [lookup, if_neg h]
      exact ih

theorem lookup_modifyAt_ne (h : k' ≠ k) : lookup k (modifyAt init f k' acc) = lookup k acc := by
  induction acc with
  | nil => simp [modifyAt, lookup, h]
  | cons entry acc ih =>
    obtain ⟨k'', v⟩ := entry
    unfold modifyAt
    by_cases h' : k'' = k'
    · rw [if_pos h']
      simp only [lookup, h', if_neg h]
    · rw [if_neg h']
      simp only [lookup, ih]

theorem mem_keys_modifyAt : k ∈ (modifyAt init f k' acc).map Prod.fst ↔ k = k' ∨ k ∈ acc.map Prod.fst := by
  induction acc with
  | nil => simp [modifyAt]
  | cons entry acc ih =>
    obtain ⟨k'', v⟩ := entry
    unfold modifyAt
    by_cases h : k'' = k'
    · rw [if_pos h, List.map_cons, List.map_cons, List.mem_cons, h]
      tauto
    · rw [if_neg h, List.map_cons, List.map_cons, List.mem_cons, List.mem_cons, ih]
      tauto

theorem nodup_modifyAt (h : (acc.map Prod.fst).Nodup) : ((modifyAt init f k acc).map Prod.fst).Nodup := by
  induction acc with
  | nil => simp [modifyAt]
  | cons entry acc ih =>
    obtain ⟨k', v⟩ := entry
    obtain ⟨hnew, hrest⟩ := List.nodup_cons.mp h
    unfold modifyAt
    by_cases hk : k' = k
    · rw [if_pos hk]
      exact h
    · rw [if_neg hk, List.map_cons, List.nodup_cons, mem_keys_modifyAt]
      exact ⟨fun hmem => hmem.elim hk hnew, ih hrest⟩

theorem exists_lookup (h : k ∈ acc.map Prod.fst) : ∃ v, lookup k acc = some v := by
  induction acc with
  | nil => exact absurd h List.not_mem_nil
  | cons entry acc ih =>
    obtain ⟨k', v⟩ := entry
    by_cases hk : k' = k
    · exact ⟨v, if_pos hk⟩
    · obtain ⟨v', hv'⟩ := ih ((List.mem_cons.mp h).resolve_left (Ne.symm hk))
      exact ⟨v', (if_neg hk).trans hv'⟩

theorem forall_modifyAt {P : V → Prop} (h : ∀ entry ∈ acc, P entry.2) (hf : ∀ v, P (f v)) :
    ∀ entry ∈ modifyAt init f k acc, P entry.2 := by
  induction acc with
  | nil => simpa [modifyAt] using hf init
  | cons entry acc ih =>
    obtain ⟨k', v⟩ := entry
    obtain ⟨hv, hacc⟩ := List.forall_mem_cons.mp h
    unfold modifyAt
    split_ifs
    · exact List.forall_mem_cons.mpr ⟨hf v, hacc⟩
    · exact List.forall_mem_cons.mpr ⟨hv, ih hacc⟩

theorem mem_of_lookup {v : V} (h : lookup k acc = some v) : (k, v) ∈ acc := by
  induction acc with
  | nil => cases h
  | cons entry acc ih =>
    obtain ⟨k', v'⟩ := entry
    unfold lookup at h
    split_ifs at h with hk
    · cases h
      rw [hk]
      exact List.mem_cons_self
    · exact List.mem_cons_of_mem _ (ih h)

theorem lookup_of_mem {v : V} (hnodup : (acc.map Prod.fst).Nodup) (h : (k, v) ∈ acc) : lookup k acc = some v := by
  induction acc with
  | nil => cases h
  | cons entry acc ih =>
    obtain ⟨k', v'⟩ := entry
    obtain ⟨hnew, hrest⟩ := List.nodup_cons.mp hnodup
    unfold lookup
    rcases List.mem_cons.mp h with heq | hmem
    · cases heq
      exact if_pos rfl
    · have hk : k' ≠ k := by
        rintro rfl
        exact hnew (List.mem_map.mpr ⟨(k', v), hmem, rfl⟩)
      rw [if_neg hk]
      exact ih hrest hmem

/-- Without its entry a key is not found. -/
theorem lookup_filter_self : lookup k (acc.filter fun entry => entry.1 ≠ k) = none := by
  induction acc with
  | nil => rfl
  | cons entry acc ih =>
    obtain ⟨k', v⟩ := entry
    by_cases h : k' = k
    · rw [List.filter_cons_of_neg (by simpa using h)]
      exact ih
    · rw [List.filter_cons_of_pos (by simpa using h)]
      exact (if_neg h).trans ih

theorem lookup_filter_ne (h : k' ≠ k) : lookup k (acc.filter fun entry => entry.1 ≠ k') = lookup k acc := by
  induction acc with
  | nil => rfl
  | cons entry acc ih =>
    obtain ⟨k'', v⟩ := entry
    by_cases hk : k'' = k'
    · rw [List.filter_cons_of_neg (by simpa using hk), ih]
      exact (if_neg (hk ▸ h)).symm
    · rw [List.filter_cons_of_pos (by simpa using hk)]
      unfold lookup
      rw [ih]

theorem collect_cons : collect init key step acc (x :: xs) =
    collect init key step (modifyAt init (fun v => step v x) (key x) acc) xs := rfl

theorem nodup_collect (h : (acc.map Prod.fst).Nodup) : ((collect init key step acc xs).map Prod.fst).Nodup := by
  induction xs generalizing acc with
  | nil => exact h
  | cons x xs ih => exact ih (nodup_modifyAt h)

theorem mem_keys_collect : k ∈ (collect init key step acc xs).map Prod.fst ↔
    k ∈ acc.map Prod.fst ∨ ∃ x ∈ xs, key x = k := by
  induction xs generalizing acc with
  | nil => simp [collect]
  | cons x xs ih =>
    rw [collect_cons, ih, mem_keys_modifyAt, List.exists_mem_cons_iff]
    constructor
    · rintro ((rfl | h) | h)
      · exact .inr (.inl rfl)
      · exact .inl h
      · exact .inr (.inr h)
    · rintro (h | rfl | h)
      · exact .inl (.inr h)
      · exact .inl (.inl rfl)
      · exact .inr h

/-- **Taking apart.**  The value of a key is made from the items with that key, in their order. -/
theorem lookup_collect (h : ∃ x ∈ xs, key x = k) : lookup k (collect init key step acc xs) =
    some ((xs.filter fun x => key x = k).foldl step ((lookup k acc).getD init)) := by
  have hmixed : (lookup k (collect init key step acc xs)).getD init =
      (xs.filter fun x => key x = k).foldl step ((lookup k acc).getD init) := by
    clear h
    induction xs generalizing acc with
    | nil => rfl
    | cons x xs ih =>
      rw [collect_cons, ih]
      by_cases hk : key x = k
      · subst hk
        rw [lookup_modifyAt_self, List.filter_cons_of_pos (by simp), List.foldl_cons]
        rfl
      · rw [lookup_modifyAt_ne hk, List.filter_cons_of_neg (by simpa using hk)]
  obtain ⟨v, hv⟩ := exists_lookup (mem_keys_collect.mpr (.inr h))
  rw [← hmixed, hv]
  rfl

/-! ## Totals -/

section
variable {M : Type} [AddCommMonoid M] {μ : V → M} {w : A → M}

theorem sum_modifyAt {d : M} (hinit : μ init = 0) (hf : ∀ v, μ (f v) = μ v + d) :
    ((modifyAt init f k acc).map fun entry => μ entry.2).sum = (acc.map fun entry => μ entry.2).sum + d := by
  induction acc with
  | nil =>
    show μ (f init) + 0 = 0 + d
    rw [hf, hinit, add_zero]
  | cons entry acc ih =>
    obtain ⟨k', v⟩ := entry
    unfold modifyAt
    by_cases h : k' = k
    · rw [if_pos h, List.map_cons, List.sum_cons, List.map_cons, List.sum_cons, hf, add_right_comm]
    · rw [if_neg h, List.map_cons, List.sum_cons, List.map_cons, List.sum_cons, ih, add_assoc]

/-- What the keys have together is what the items bring. -/
theorem sum_collect (hinit : μ init = 0) (hstep : ∀ v x, μ (step v x) = μ v + w x) :
    ((collect init key step acc xs).map fun entry => μ entry.2).sum =
      (acc.map fun entry => μ entry.2).sum + (xs.map w).sum := by
  induction xs generalizing acc with
  | nil => exact (add_zero _).symm
  | cons x xs ih =>
    rw [collect_cons, ih, sum_modifyAt hinit fun v => hstep v x, List.map_cons, List.sum_cons, add_assoc]

theorem foldl_eq_add_sum {T : Type} {ν : T → M} {count : T → A → T} {t : T}
    (hcount : ∀ t x, ν (count t x) = ν t + w x) : ν (xs.foldl count t) = ν t + (xs.map w).sum := by
  induction xs generalizing t with
  | nil => exact (add_zero _).symm
  | cons x xs ih => rw [List.foldl_cons, ih, hcount, List.map_cons, List.sum_cons, add_assoc]

/-- **Adding up.**  The keys have together what one count over all items has. -/
theorem sum_collect_eq_foldl {T : Type} {ν : T → M} {count : T → A → T} {t : T} (hinit : μ init = 0)
    (hstep : ∀ v x, μ (step v x) = μ v + w x) (ht : ν t = 0) (hcount : ∀ t x, ν (count t x) = ν t + w x) :
    ((collect init key step [] xs).map fun entry => μ entry.2).sum = ν (xs.foldl count t) := by
  rw [sum_collect hinit hstep, foldl_eq_add_sum hcount, ht]
  rfl

end

/-! ## In the order of the keys -/

variable [LinearOrder K]

/-- `[acc[key] for key in sorted(acc)]` -/
def inOrder (acc : List (K × V)) : List V :=
  ((acc.map Prod.fst).mergeSort fun a b => a ≤ b).filterMap fun k => lookup k acc

omit [DecidableEq K] in
/-- Items with distinct keys have an order by their keys. -/
theorem exists_ordered {Y : Type} {ys : List Y} {keyOf : Y → K} (h : (ys.map keyOf).Nodup) :
    ∃ ordered : List Y, ordered.Perm ys ∧ (ordered.map keyOf).Pairwise (· < ·) := by
  have hperm : (ys.mergeSort fun a b => keyOf a ≤ keyOf b).Perm ys := List.mergeSort_perm _ _
  have hle : (ys.mergeSort fun a b => keyOf a ≤ keyOf b).Pairwise fun a b => keyOf a ≤ keyOf b := by
    have hsorted := @List.pairwise_mergeSort _ (fun a b => decide (keyOf a ≤ keyOf b))
      (fun a b c hab hbc => by simp only [decide_eq_true_eq] at hab hbc ⊢; exact hab.trans hbc)
      (fun a b => by simpa using le_total (keyOf a) (keyOf b)) ys
    exact hsorted.imp fun hab => of_decide_eq_true hab
  have hne : ((ys.mergeSort fun a b => keyOf a ≤ keyOf b).map keyOf).Nodup := (hperm.map keyOf).nodup_iff.mpr h
  refine ⟨_, hperm, List.pairwise_map.mpr ?_⟩
  exact (hle.and (List.pairwise_map.mp hne)).imp fun hab => lt_of_le_of_ne hab.1 hab.2

/-- Items `ys` that are listed by their keys, one for each key. -/
theorem inOrder_eq {Y : Type} {ys : List Y} {keyOf : Y → K} {value : Y → V} (hacc : (acc.map Prod.fst).Nodup)
    (hys : (ys.map keyOf).Pairwise (· < ·)) (hkeys : ∀ k, k ∈ acc.map Prod.fst ↔ k ∈ ys.map keyOf)
    (hvalue : ∀ y ∈ ys, lookup (keyOf y) acc = some (value y)) : inOrder acc = ys.map value := by
  have hsorted : ((acc.map Prod.fst).mergeSort fun a b => a ≤ b) = ys.map keyOf := by
    have hnodup : (ys.map keyOf).Nodup := hys.imp ne_of_lt
    have hperm : ((acc.map Prod.fst).mergeSort fun a b => a ≤ b).Perm (ys.map keyOf) :=
      (List.mergeSort_perm _ _).trans ((List.perm_ext_iff_of_nodup hacc hnodup).mpr hkeys)
    refine hperm.eq_of_pairwise' ?_ (hys.imp le_of_lt)
    exact List.pairwise_mergeSort' (· ≤ ·) _
  unfold inOrder
  rw [hsorted, List.filterMap_map]
  have hall : ys.filterMap ((fun k => lookup k acc) ∘ keyOf) = ys.filterMap fun y => some (value y) :=
    List.filterMap_congr fun y hy => hvalue y hy
  rw [hall, List.filterMap_eq_map']

end AgentHarness.Lib.Keyed
