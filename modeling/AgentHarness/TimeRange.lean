import AgentHarness.Lib.IsoTime

/-!
# TimeRange — the events between two times

The SQLite stores keep a timestamp as its `isoformat` text and compare it with the text of the bound as it came in; the
Postgres store compares instants.  `select_inRange_iff` says for which events the two differ: a blank before the time of a
bound puts it before every event of its day, and a bound that is written shorter or longer than `isoformat` writes it misses
the events of exactly its own instant.
-/

namespace AgentHarness

open Lib

/-- A condition on the column `timestamp`, with its parameter. -/
inductive TimeCondition
  | atLeast (param : List Char)
  | atMost (param : List Char)

/-- `timestamp >= ?` and `timestamp <= ?` -/
def TimeCondition.holds (stored : List Char) : TimeCondition → Bool
  | .atLeast param => (compare stored param).isGE
  | .atMost param => (compare stored param).isLE

/-- `datetime.fromisoformat`, on texts that carry the offset of the stored timestamps. -/
def fromisoformat (offset text : List Char) : Option DateTime := (readBound offset text).map Bound.instant

/-- `_time_conditions`; `query_events` of the audit store makes the same ones. -/
def timeConditions (offset : List Char) (startTime endTime : Option (List Char)) : List TimeCondition :=
  (match startTime with
    | some text => if (fromisoformat offset text).isSome then [.atLeast text] else []
    | none => []) ++
  (match endTime with
    | some text => if (fromisoformat offset text).isSome then [.atMost text] else []
    | none => [])

/-- `limit` as `query_events` takes it. -/
def queryLimit (limit : ℤ) : ℕ := if limit ≤ 0 then 100 else if 10000 < limit then 10000 else limit.toNat

section
variable {α : Type} (timestamp : α → DateTime) (other : α → Bool) (offset : List Char)
variable (startTime endTime : Option (List Char)) (events : List α)

/-- The rows that satisfy the `WHERE` of the SQLite store: its conditions on other columns, and those on the time. -/
def sqliteSelect : List α :=
  events.filter fun e =>
    other e && (timeConditions offset startTime endTime).all (·.holds ((timestamp e).isoformat offset))

/-- The rows that the filters of the Postgres store leave. -/
def postgresSelect : List α :=
  events.filter fun e =>
    other e && ((startTime.bind (fromisoformat offset)).all fun x => ((timestamp e).compare x).isGE) &&
      ((endTime.bind (fromisoformat offset)).all fun y => ((timestamp e).compare y).isLE)

/-- `query_events`, with `ORDER BY timestamp DESC LIMIT ?` -/
def SQLiteAuditStore.queryEvents (limit : ℤ) : List α :=
  ((sqliteSelect timestamp other offset startTime endTime events).mergeSort fun a b =>
    (compare ((timestamp a).isoformat offset) ((timestamp b).isoformat offset)).isGE).take (queryLimit limit)

/-- `query_events` -/
def PostgresAuditStore.queryEvents (limit : ℤ) : List α :=
  ((postgresSelect timestamp other offset startTime endTime events).mergeSort fun a b =>
    ((timestamp a).compare (timestamp b)).isGE).take (queryLimit limit)

end

/-- The instant lies between the two. -/
def InRange (x y e : DateTime) : Prop := (e.compare x).isGE = true ∧ (e.compare y).isLE = true

instance (x y e : DateTime) : Decidable (InRange x y e) := instDecidableAnd

/-! ## The events that a text misses -/

/-- Of the day of the bound and before it, but behind the blank of its text. -/
def BehindBlank (x : Bound) (e : DateTime) : Prop :=
  x.form.blank = true ∧ e.date.compare x.instant.date = .eq ∧ e.compare x.instant = .lt

/-- At the instant of the bound, which its text writes longer. -/
def MissedAtStart (x : Bound) (e : DateTime) : Prop :=
  x.form.blank = false ∧ e.compare x.instant = .eq ∧ x.form.rank = .lt

/-- Of the day of the bound, behind the blank of its text; or at its instant, which its text writes shorter. -/
def MissedAtEnd (y : Bound) (e : DateTime) : Prop :=
  (y.form.blank = true ∧ e.date.compare y.instant.date = .eq) ∨
    (y.form.blank = false ∧ e.compare y.instant = .eq ∧ y.form.rank = .gt)

/-- An event in the range is missed at neither end, and one that stands behind a blank at the start is not selected. -/
def WellPlaced (x y : Bound) (e : DateTime) : Prop :=
  (InRange x.instant y.instant e → ¬ MissedAtStart x e ∧ ¬ MissedAtEnd y e) ∧
    (BehindBlank x e → (e.compare y.instant).isLE = true → MissedAtEnd y e)

theorem place_isGE (x : Bound) (e : DateTime) :
    (x.place e).isGE = true ↔ ((e.compare x.instant).isGE = true ∧ ¬ MissedAtStart x e) ∨ BehindBlank x e := by
  unfold Bound.place MissedAtStart BehindBlank
  cases hb : x.form.blank with
  | true =>
    unfold DateTime.compare
    cases e.date.compare x.instant.date <;> cases e.clock.compare x.instant.clock <;> simp
  | false =>
    cases e.compare x.instant <;> cases x.form.rank <;> simp

theorem place_isLE (y : Bound) (e : DateTime) :
    (y.place e).isLE = true ↔ (e.compare y.instant).isLE = true ∧ ¬ MissedAtEnd y e := by
  unfold Bound.place MissedAtEnd
  cases hb : y.form.blank with
  | true =>
    unfold DateTime.compare
    cases e.date.compare y.instant.date <;> cases e.clock.compare y.instant.clock <;> simp
  | false =>
    cases e.compare y.instant <;> cases y.form.rank <;> simp

/-- An event is selected as it should be, or it is not well placed. -/
theorem wellPlaced_iff (x y : Bound) (e : DateTime) :
    ((x.place e).isGE = true ∧ (y.place e).isLE = true ↔ InRange x.instant y.instant e) ↔ WellPlaced x y e := by
  rw [place_isGE, place_isLE]
  unfold WellPlaced InRange
  have hlt : BehindBlank x e → (e.compare x.instant).isGE = false := by
    rintro ⟨-, -, hlt⟩
    rw [hlt]
    rfl
  constructor
  · intro h
    refine ⟨fun hin => ?_, fun hearly hle => ?_⟩
    · obtain ⟨hge | hearly, -, hend⟩ := h.mpr hin
      · exact ⟨hge.2, hend⟩
      · rw [hlt hearly] at hin
        cases hin.1
    · by_contra hend
      have hin := h.mp ⟨.inr hearly, hle, hend⟩
      rw [hlt hearly] at hin
      cases hin.1
  · rintro ⟨hmissed, hearly⟩
    constructor
    · rintro ⟨hge | hblank, hle, hend⟩
      · exact ⟨hge.1, hle⟩
      · exact absurd (hearly hblank hle) hend
    · intro hin
      exact ⟨.inl ⟨hin.1, (hmissed hin).1⟩, hin.2, (hmissed hin).2⟩

/-! ## The two stores -/

section
variable {α : Type} {timestamp : α → DateTime} {other : α → Bool} {offset start finish : List Char}
variable {x y : Bound} {events : List α}

theorem fromisoformat_of_read {text : List Char} {b : Bound} (h : readBound offset text = some b) :
    fromisoformat offset text = some b.instant := by
  unfold fromisoformat
  rw [h]
  rfl

theorem sqliteSelect_eq (ho : IsOffset offset) (hx : readBound offset start = some x)
    (hy : readBound offset finish = some y) : sqliteSelect timestamp other offset start finish events =
      events.filter fun e => other e && ((x.place (timestamp e)).isGE && (y.place (timestamp e)).isLE) := by
  unfold sqliteSelect timeConditions
  dsimp only
  rw [fromisoformat_of_read hx, fromisoformat_of_read hy, readBound_some hx, readBound_some hy]
  refine List.filter_congr fun e _ => ?_
  show (other e && ((compare _ _).isGE && ((compare _ _).isLE && true))) = _
  rw [compare_text ho, compare_text ho, Bool.and_true]

theorem postgresSelect_eq (hx : readBound offset start = some x) (hy : readBound offset finish = some y) :
    postgresSelect timestamp other offset start finish events =
      events.filter fun e => other e && decide (InRange x.instant y.instant (timestamp e)) := by
  unfold postgresSelect
  rw [Option.bind_some, Option.bind_some, fromisoformat_of_read hx, fromisoformat_of_read hy]
  refine List.filter_congr fun e _ => ?_
  rw [Option.all_some, Option.all_some, Bool.eq_iff_iff, Bool.and_eq_true, Bool.and_eq_true, Bool.and_eq_true,
    decide_eq_true_iff, and_assoc]
  exact Iff.rfl

theorem filter_eq_filter_iff {p q : α → Bool} : events.filter p = events.filter q ↔ ∀ e ∈ events, p e = q e := by
  constructor
  · intro h e he
    have hmem : e ∈ events.filter p ↔ e ∈ events.filter q := by rw [h]
    rw [List.mem_filter, List.mem_filter] at hmem
    exact Bool.eq_iff_iff.mpr ⟨fun hp => (hmem.mp ⟨he, hp⟩).2, fun hq => (hmem.mpr ⟨he, hq⟩).2⟩
  · exact List.filter_congr

/-- The SQLite store selects what lies in the range exactly if what the other conditions leave is well placed. -/
theorem sqliteSelect_iff (ho : IsOffset offset) (hx : readBound offset start = some x)
    (hy : readBound offset finish = some y) : sqliteSelect timestamp other offset start finish events =
        events.filter (fun e => other e && decide (InRange x.instant y.instant (timestamp e))) ↔
      ∀ e ∈ events, other e = true → WellPlaced x y (timestamp e) := by
  rw [sqliteSelect_eq ho hx hy, filter_eq_filter_iff]
  refine forall₂_congr fun e _ => ?_
  rw [← wellPlaced_iff]
  cases other e with
  | false => simp
  | true =>
    rw [Bool.true_and, Bool.true_and, Bool.eq_iff_iff, Bool.and_eq_true, decide_eq_true_iff]
    simp

/-- Where all events are well placed, the two stores answer a query alike. -/
theorem queryEvents_agree (ho : IsOffset offset) (hx : readBound offset start = some x)
    (hy : readBound offset finish = some y) (hplaced : ∀ e ∈ events, other e = true → WellPlaced x y (timestamp e))
    (limit : ℤ) : SQLiteAuditStore.queryEvents timestamp other offset start finish events limit =
      PostgresAuditStore.queryEvents timestamp other offset start finish events limit := by
  unfold SQLiteAuditStore.queryEvents PostgresAuditStore.queryEvents
  rw [(sqliteSelect_iff ho hx hy).mpr hplaced, postgresSelect_eq hx hy]
  simp only [compare_isoformat ho]

end

/-- An audit event of 2024-01-02 at nine, with the offset of its text. -/
def nine : DateTime := .ofHour 2024 1 2 9 (by decide)

def noon : DateTime := .ofHour 2024 1 2 12 (by decide)

end AgentHarness
