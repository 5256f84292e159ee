import Mathlib.Data.List.Nodup
import Mathlib.Order.Basic

/-!
# Lib.Table — the statements of a relational store on the rows of a table

A table is the list of its rows.  Where a row stands in the list means nothing: an engine visits the rows in an order of its
own (`Scan`), which shows where `ORDER BY` leaves a tie.  `orderDesc_map` is the one case in which it does not: no two rows
have the same key.
-/

namespace AgentHarness.Lib

/-- The order in which an engine visits the rows. -/
structure Scan (ρ : Type) where
  visit : List ρ → List ρ
  perm : ∀ t, (visit t).Perm t

/-- The engine that visits the rows in the order they were inserted. -/
def Scan.inserted (ρ : Type) : Scan ρ := ⟨id, List.Perm.refl⟩

namespace Table

variable {ρ σ κ : Type}

/-- `UPDATE … SET … WHERE …`; its row count is `t.countP p`. -/
def update (p : ρ → Bool) (f : ρ → ρ) (t : List ρ) : List ρ := t.map fun r => if p r then f r else r

/-- `ORDER BY key DESC` -/
def orderDesc (cmp : κ → κ → Ordering) (key : ρ → κ) (scan : Scan ρ) (t : List ρ) : List ρ :=
  (scan.visit t).mergeSort fun a b => (cmp (key a) (key b)).isGE

/-- `ORDER BY key ASC` -/
def orderAsc (cmp : κ → κ → Ordering) (key : ρ → κ) (scan : Scan ρ) (t : List ρ) : List ρ :=
  (scan.visit t).mergeSort fun a b => (cmp (key a) (key b)).isLE

theorem find?_congr {p q : ρ → Bool} {t : List ρ} (h : ∀ r ∈ t, p r = q r) : t.find? p = t.find? q := by
  induction t with
  | nil => rfl
  | cons r t ih =>
    rw [List.find?_cons, List.find?_cons, h r List.mem_cons_self,
      ih fun a ha => h a (List.mem_cons_of_mem _ ha)]

theorem mem_update {p : ρ → Bool} {f : ρ → ρ} {t : List ρ} {r : ρ} :
    r ∈ update p f t ↔ ∃ a ∈ t, (if p a then f a else a) = r := List.mem_map

theorem update_of_none {p : ρ → Bool} {f : ρ → ρ} {t : List ρ} (h : t.any p = false) : update p f t = t := by
  have hall : ∀ r ∈ t, (if p r then f r else r) = r := by
    intro r hr
    rw [if_neg (List.any_eq_false.mp h r hr)]
  unfold update
  rw [List.map_congr_left hall, List.map_id']

theorem update_congr {p q : ρ → Bool} {f : ρ → ρ} {t : List ρ} (h : ∀ r ∈ t, p r = q r) :
    update p f t = update q f t := by
  refine List.map_congr_left fun r hr => ?_
  rw [h r hr]

/-- An update that leaves a key alone leaves the keys of the table alone. -/
theorem map_update {key : ρ → κ} {p : ρ → Bool} {f : ρ → ρ} {t : List ρ}
    (hkey : ∀ r ∈ t, p r = true → key (f r) = key r) : (update p f t).map key = t.map key := by
  unfold update
  rw [List.map_map]
  refine List.map_congr_left fun r hr => ?_
  rw [Function.comp_apply]
  split
  · rename_i hp
    exact hkey r hr hp
  · rfl

/-- The row found by a key stands at the first place of the key. -/
theorem find?_eq_getElem? [DecidableEq κ] {key : ρ → κ} {k : κ} {t : List ρ} :
    (t.find? fun r => key r = k) = t[(t.map key).idxOf k]? := by
  induction t with
  | nil => rfl
  | cons r t ih =>
    rw [List.map_cons, List.idxOf_cons, List.find?_cons]
    by_cases h : key r = k
    · rw [h, beq_self_eq_true, decide_eq_true rfl]
      rfl
    · rw [beq_false_of_ne h, decide_eq_false h]
      exact ih

/-- Of rows with distinct keys, the update of a key changes the one at its place. -/
theorem update_eq_modify [DecidableEq κ] {key : ρ → κ} {k : κ} {f : ρ → ρ} {t : List ρ} (hd : (t.map key).Nodup) :
    update (fun r => key r = k) f t = t.modify ((t.map key).idxOf k) f := by
  induction t with
  | nil => rfl
  | cons r t ih =>
    rw [List.map_cons, List.nodup_cons] at hd
    rw [List.map_cons, List.idxOf_cons]
    by_cases h : key r = k
    · -- no other row has the key
      have hrest : update (fun r => key r = k) f t = t := by
        refine update_of_none (List.any_eq_false.mpr fun a ha hk => hd.1 ?_)
        rw [h, ← of_decide_eq_true hk]
        exact List.mem_map_of_mem ha
      rw [h, beq_self_eq_true]
      show (if decide (key r = k) = true then f r else r) :: update (fun r => key r = k) f t = f r :: t
      rw [hrest, if_pos (decide_eq_true h)]
    · rw [beq_false_of_ne h]
      show (if decide (key r = k) = true then f r else r) :: update (fun r => key r = k) f t =
        r :: t.modify ((t.map key).idxOf k) f
      rw [ih hd.2, if_neg (by rw [decide_eq_false h]; decide)]

/-- Two tables that match row by row match after the same row is changed in both. -/
theorem forall₂_modify {R : ρ → σ → Prop} {f : ρ → ρ} {g : σ → σ} (hfg : ∀ a b, R a b → R (f a) (g b)) {t : List ρ}
    {u : List σ} (h : List.Forall₂ R t u) (i : ℕ) : List.Forall₂ R (t.modify i f) (u.modify i g) := by
  induction h generalizing i with
  | nil =>
    rw [List.modify_nil, List.modify_nil]
    exact .nil
  | cons hab h ih =>
    cases i with
    | zero => exact .cons (hfg _ _ hab) h
    | succ i => exact .cons hab (ih i)

/-- An update of the rows is the update of what they stand for. -/
theorem update_map {enc : ρ → σ} {p : ρ → Bool} {f : ρ → ρ} {q : σ → Bool} {g : σ → σ} {t : List ρ}
    (hq : ∀ r ∈ t, q (enc r) = p r) (hg : ∀ r ∈ t, p r = true → g (enc r) = enc (f r)) :
    update q g (t.map enc) = (update p f t).map enc := by
  unfold update
  rw [List.map_map, List.map_map]
  refine List.map_congr_left fun r hr => ?_
  show (if q (enc r) then g (enc r) else enc r) = enc (if p r then f r else r)
  rw [hq r hr]
  split
  · rename_i hp
    exact hg r hr hp
  · rfl

theorem countP_map {enc : ρ → σ} {p : ρ → Bool} {q : σ → Bool} {t : List ρ} (hq : ∀ r ∈ t, q (enc r) = p r) :
    (t.map enc).countP q = t.countP p := by
  rw [List.countP_map]
  refine List.countP_congr fun r hr => ?_
  rw [Function.comp_apply, hq r hr]

theorem isGE_total {cmp : κ → κ → Ordering} [Std.OrientedCmp cmp] (a b : κ) :
    ((cmp a b).isGE || (cmp b a).isGE) = true := by
  have hswap : cmp b a = (cmp a b).swap := Std.OrientedCmp.eq_swap
  rw [hswap]
  cases cmp a b <;> rfl

theorem pairwise_mergeSort {cmp : κ → κ → Ordering} [Std.TransCmp cmp] (key : ρ → κ) (t : List ρ) :
    (t.mergeSort fun a b => (cmp (key a) (key b)).isGE).Pairwise fun a b => (cmp (key a) (key b)).isGE = true :=
  List.pairwise_mergeSort (fun _ _ _ => Std.TransCmp.isGE_trans) (fun _ _ => isGE_total _ _) t

/-- Rows with distinct keys come in one order, whichever way they are visited. -/
theorem orderDesc_map {enc : ρ → σ} {cmp : κ → κ → Ordering} [Std.TransCmp cmp] {key : σ → κ} (scan : Scan σ)
    {t l : List ρ} (hl : l.Perm t) (hsorted : l.Pairwise fun a b => (cmp (key (enc a)) (key (enc b))).isGE = true)
    (hd : ∀ a ∈ t, ∀ b ∈ t, cmp (key (enc a)) (key (enc b)) = .eq → a = b) :
    orderDesc cmp key scan (t.map enc) = l.map enc := by
  have hperm : (orderDesc cmp key scan (t.map enc)).Perm (t.map enc) :=
    (List.mergeSort_perm _ _).trans (scan.perm _)
  refine List.Perm.eq_of_pairwise ?_ (pairwise_mergeSort key _) (List.pairwise_map.mpr hsorted)
    (hperm.trans (hl.map enc).symm)
  intro a b ha hb hab hba
  obtain ⟨a, hat, rfl⟩ := List.mem_map.mp (hperm.mem_iff.mp ha)
  obtain ⟨b, hbl, rfl⟩ := List.mem_map.mp hb
  rw [hd a hat b (hl.mem_iff.mp hbl) (Std.OrientedCmp.isGE_antisymm hab hba)]

/-- Rows with distinct keys come in one order, from whichever comparison of the same order and whichever engine. -/
theorem orderDesc_eq {cmp : κ → κ → Ordering} [Std.TransCmp cmp] {κ' : Type} {cmp' : κ' → κ' → Ordering}
    [Std.TransCmp cmp'] {key : ρ → κ} {key' : ρ → κ'} (hkey : ∀ a b, cmp (key a) (key b) = cmp' (key' a) (key' b))
    (scan scan' : Scan ρ) {t : List ρ} (hd : ∀ a ∈ t, ∀ b ∈ t, cmp (key a) (key b) = .eq → a = b) :
    orderDesc cmp key scan t = orderDesc cmp' key' scan' t := by
  have hperm : (t.mergeSort fun a b => (cmp (key a) (key b)).isGE).Perm t := List.mergeSort_perm _ _
  have hsorted : (t.mergeSort fun a b => (cmp (key a) (key b)).isGE).Pairwise
      fun a b => (cmp (key a) (key b)).isGE = true := pairwise_mergeSort key t
  have hfirst : orderDesc cmp key scan (t.map id) = (t.mergeSort fun a b => (cmp (key a) (key b)).isGE).map id :=
    orderDesc_map scan hperm hsorted hd
  have hsecond : orderDesc cmp' key' scan' (t.map id) = (t.mergeSort fun a b => (cmp (key a) (key b)).isGE).map id := by
    refine orderDesc_map scan' hperm (hsorted.imp fun {a b} hge => ?_) fun a ha b hb heq => ?_
    · rwa [hkey] at hge
    · exact hd a ha b hb ((hkey a b).trans heq)
  rw [List.map_id, List.map_id] at hfirst hsecond
  rw [hfirst, hsecond]

theorem perm_orderDesc {cmp : κ → κ → Ordering} {key : ρ → κ} {scan : Scan ρ} {t : List ρ} :
    (orderDesc cmp key scan t).Perm t := (List.mergeSort_perm _ _).trans (scan.perm t)

/-- The order of ascending keys, as that of descending keys in the opposite comparison. -/
theorem orderAsc_eq {cmp : κ → κ → Ordering} [Std.OrientedCmp cmp] {key : ρ → κ} {scan : Scan ρ} {t : List ρ} :
    orderAsc cmp key scan t = orderDesc (fun a b => cmp b a) key scan t := by
  have hle : ∀ a b : ρ, (cmp (key a) (key b)).isLE = (cmp (key b) (key a)).isGE := by
    intro a b
    have hswap : cmp (key b) (key a) = (cmp (key a) (key b)).swap := Std.OrientedCmp.eq_swap
    rw [hswap]
    cases cmp (key a) (key b) <;> rfl
  unfold orderAsc orderDesc
  simp only [hle]

theorem orderAsc_congr {cmp : κ → κ → Ordering} [Std.TransCmp cmp] {κ' : Type} {cmp' : κ' → κ' → Ordering}
    [Std.TransCmp cmp'] {key : ρ → κ} {key' : ρ → κ'} (hkey : ∀ a b, cmp (key a) (key b) = cmp' (key' a) (key' b))
    (scan scan' : Scan ρ) {t : List ρ} (hd : ∀ a ∈ t, ∀ b ∈ t, cmp (key a) (key b) = .eq → a = b) :
    orderAsc cmp key scan t = orderAsc cmp' key' scan' t := by
  rw [orderAsc_eq, orderAsc_eq]
  exact @orderDesc_eq ρ κ (fun a b => cmp b a) _ κ' (fun a b => cmp' b a) _ key key' (fun a b => hkey b a) scan scan' t
    fun a ha b hb hab => (hd b hb a ha hab).symm

end Table

end AgentHarness.Lib
