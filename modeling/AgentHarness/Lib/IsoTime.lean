import Mathlib.Tactic.Linarith
import Mathlib.Data.List.Basic

/-!
# Lib.IsoTime — instants, their ISO texts, and the order of the texts

A `DateTime` is a civil time down to the microsecond.  `isoformat` writes it (the fraction is left out when it is zero), and
`Bound` is a text that names one in any of the extended forms: a date, or a date and a time with `T` or a blank between them,
the time down to the hour, the minute, the second or any number of decimals.  Texts are compared character by character.
`compare_isoformat`: the order of two `isoformat` texts is the order of the instants.  `compare_text`: where the text of an
instant stands to the text of a bound.
-/

namespace AgentHarness.Lib

/-! ## Decimal digits of a fixed width -/

/-- `n` in `w` decimal digits. -/
def pad : ℕ → ℕ → List Char
  | 0, _ => []
  | w + 1, n => Nat.digitChar (n / 10 ^ w) :: pad w (n % 10 ^ w)

/-- The number that digits write. -/
def digitsValue : List Char → ℕ
  | [] => 0
  | c :: cs => (c.toNat - 48) * 10 ^ cs.length + digitsValue cs

/-- `w` digits at the head of a text. -/
def readDigits (w : ℕ) (text : List Char) : Option (ℕ × List Char) :=
  if (text.take w).length = w ∧ (text.take w).all Char.isDigit then some (digitsValue (text.take w), text.drop w)
  else none

theorem pad_length (w n : ℕ) : (pad w n).length = w := by
  induction w generalizing n with
  | zero => rfl
  | succ w ih => simp [pad, ih]

theorem compare_digitChar {a b : ℕ} (ha : a < 10) (hb : b < 10) :
    compare (Nat.digitChar a) (Nat.digitChar b) = compare a b := by
  have hall : ∀ a < 10, ∀ b < 10, compare (Nat.digitChar a) (Nat.digitChar b) = compare a b := by decide
  exact hall a ha b hb

/-- Two numbers compare as their quotients do, and then as their remainders. -/
theorem compare_div_mod (k a b : ℕ) :
    compare a b = (compare (a / k) (b / k)).then (compare (a % k) (b % k)) := by
  have hab := Nat.div_add_mod a k
  have hbb := Nat.div_add_mod b k
  rcases lt_trichotomy (a / k) (b / k) with h | h | h
  · have hlt : a < b := lt_of_not_ge fun hle => absurd (Nat.div_le_div_right (c := k) hle) (by omega)
    rw [Nat.compare_eq_lt.mpr h, Nat.compare_eq_lt.mpr hlt]
    rfl
  · rw [Nat.compare_eq_eq.mpr h, Ordering.then]
    rw [h] at hab
    rcases lt_trichotomy (a % k) (b % k) with hr | hr | hr
    · rw [Nat.compare_eq_lt.mpr hr, Nat.compare_eq_lt.mpr (by omega)]
    · rw [Nat.compare_eq_eq.mpr hr, Nat.compare_eq_eq.mpr (by omega)]
    · rw [Nat.compare_eq_gt.mpr hr, Nat.compare_eq_gt.mpr (by omega)]
  · have hlt : b < a := lt_of_not_ge fun hle => absurd (Nat.div_le_div_right (c := k) hle) (by omega)
    rw [Nat.compare_eq_gt.mpr h, Nat.compare_eq_gt.mpr hlt]
    rfl

/-- Numbers of one width compare before what stands behind them does. -/
theorem compare_pad {w a b : ℕ} (ha : a < 10 ^ w) (hb : b < 10 ^ w) (s t : List Char) :
    compare (pad w a ++ s) (pad w b ++ t) = (compare a b).then (compare s t) := by
  induction w generalizing a b with
  | zero =>
    obtain rfl : a = 0 := by omega
    obtain rfl : b = 0 := by omega
    rfl
  | succ w ih =>
    have hpos : 0 < 10 ^ w := Nat.pow_pos (by omega)
    have hdiv : ∀ n < 10 ^ (w + 1), n / 10 ^ w < 10 := by
      intro n hn
      rw [Nat.div_lt_iff_lt_mul hpos, Nat.mul_comm, ← Nat.pow_succ]
      exact hn
    unfold pad
    rw [List.cons_append, List.cons_append, List.compare_cons_cons, compare_digitChar (hdiv a ha) (hdiv b hb),
      ih (Nat.mod_lt _ hpos) (Nat.mod_lt _ hpos), compare_div_mod (10 ^ w) a b, Ordering.then_assoc]

theorem digitChar_toNat {c : Char} (h : c.isDigit = true) : Nat.digitChar (c.toNat - 48) = c := by
  have hrange : 48 ≤ c.toNat ∧ c.toNat ≤ 57 := by
    simpa [Char.isDigit, UInt32.le_iff_toNat_le] using h
  apply Char.toNat_inj.mp
  rw [Nat.toNat_digitChar_of_lt_ten (by omega)]
  omega

theorem toNat_digit_lt {c : Char} (h : c.isDigit = true) : c.toNat - 48 < 10 := by
  have hrange : 48 ≤ c.toNat ∧ c.toNat ≤ 57 := by
    simpa [Char.isDigit, UInt32.le_iff_toNat_le] using h
  omega

theorem digitsValue_lt {text : List Char} (h : text.all Char.isDigit = true) : digitsValue text < 10 ^ text.length := by
  induction text with
  | nil => decide
  | cons c cs ih =>
    rw [List.all_cons, Bool.and_eq_true] at h
    have hc := toNat_digit_lt h.1
    have hrest := ih h.2
    have hle : (c.toNat - 48) * 10 ^ cs.length ≤ 9 * 10 ^ cs.length := Nat.mul_le_mul_right _ (by omega)
    rw [digitsValue, List.length_cons, Nat.pow_succ]
    omega

theorem pad_digitsValue {text : List Char} (h : text.all Char.isDigit = true) :
    pad text.length (digitsValue text) = text := by
  induction text with
  | nil => rfl
  | cons c cs ih =>
    rw [List.all_cons, Bool.and_eq_true] at h
    have hrest := digitsValue_lt h.2
    have hpos : 0 < 10 ^ cs.length := Nat.pow_pos (by omega)
    rw [digitsValue, List.length_cons, pad, Nat.add_comm, Nat.add_mul_div_right _ _ hpos,
      Nat.div_eq_of_lt hrest, Nat.zero_add, Nat.add_mul_mod_self_right, Nat.mod_eq_of_lt hrest, digitChar_toNat h.1, ih h.2]

theorem readDigits_spec {w n : ℕ} {text rest : List Char} (h : readDigits w text = some (n, rest)) :
    text = pad w n ++ rest ∧ n < 10 ^ w := by
  unfold readDigits at h
  split at h
  · rename_i hd
    obtain ⟨hlen, hall⟩ := hd
    obtain ⟨rfl, rfl⟩ := Prod.mk.inj (Option.some.inj h)
    have hpad := pad_digitsValue hall
    have hlt := digitsValue_lt hall
    rw [hlen] at hpad hlt
    refine ⟨?_, hlt⟩
    rw [hpad, List.take_append_drop]
  · cases h

/-- The digits of a number, cut in two. -/
theorem pad_add {k j n : ℕ} (h : n < 10 ^ (k + j)) : pad (k + j) n = pad k (n / 10 ^ j) ++ pad j (n % 10 ^ j) := by
  induction k generalizing n with
  | zero =>
    rw [Nat.zero_add] at h ⊢
    rw [Nat.mod_eq_of_lt h]
    rfl
  | succ k ih =>
    have hpos : 0 < 10 ^ (k + j) := Nat.pow_pos (by omega)
    have hpow : 10 ^ (k + j) = 10 ^ j * 10 ^ k := by rw [Nat.add_comm, Nat.pow_add]
    rw [Nat.add_right_comm, pad, ih (Nat.mod_lt _ hpos), hpow, Nat.mod_mul_right_div_self, Nat.mod_mul_right_mod,
      ← Nat.div_div_eq_div_mul]
    rfl

/-! ## Instants -/

def daysIn (year month : ℕ) : ℕ :=
  if month = 2 then if year % 4 = 0 ∧ (year % 100 ≠ 0 ∨ year % 400 = 0) then 29 else 28
  else if month = 4 ∨ month = 6 ∨ month = 9 ∨ month = 11 then 30
  else 31

theorem daysIn_le (year month : ℕ) : daysIn year month ≤ 31 := by
  unfold daysIn
  split_ifs <;> omega

structure Date where
  year : ℕ
  month : ℕ
  day : ℕ
  year_range : 1 ≤ year ∧ year ≤ 9999
  month_range : 1 ≤ month ∧ month ≤ 12
  day_range : 1 ≤ day ∧ day ≤ daysIn year month

structure Clock where
  hour : ℕ
  minute : ℕ
  second : ℕ
  microsecond : ℕ
  hour_lt : hour < 24
  minute_lt : minute < 60
  second_lt : second < 60
  microsecond_lt : microsecond < 10 ^ 6

structure DateTime where
  date : Date
  clock : Clock

/-- A full hour of a day. -/
def DateTime.ofHour (year month day hour : ℕ)
    (valid : ((1 ≤ year ∧ year ≤ 9999) ∧ (1 ≤ month ∧ month ≤ 12) ∧ 1 ≤ day ∧ day ≤ daysIn year month) ∧ hour < 24) :
    DateTime where
  date := ⟨year, month, day, valid.1.1, valid.1.2.1, valid.1.2.2⟩
  clock := ⟨hour, 0, 0, 0, valid.2, by decide, by decide, by decide⟩

def Date.compare (a b : Date) : Ordering :=
  (Ord.compare a.year b.year).then ((Ord.compare a.month b.month).then (Ord.compare a.day b.day))

def Clock.compare (a b : Clock) : Ordering :=
  (Ord.compare a.hour b.hour).then ((Ord.compare a.minute b.minute).then
    ((Ord.compare a.second b.second).then (Ord.compare a.microsecond b.microsecond)))

/-- The earlier instant is the smaller one. -/
def DateTime.compare (a b : DateTime) : Ordering := (a.date.compare b.date).then (a.clock.compare b.clock)

/-! ## Texts -/

def Date.text (d : Date) : List Char := pad 4 d.year ++ '-' :: (pad 2 d.month ++ '-' :: pad 2 d.day)

/-- The decimals of a second, none of them if they are all zero. -/
def fraction (microsecond : ℕ) : List Char := if microsecond = 0 then [] else '.' :: pad 6 microsecond

def Clock.text (t : Clock) : List Char :=
  pad 2 t.hour ++ ':' :: (pad 2 t.minute ++ ':' :: (pad 2 t.second ++ fraction t.microsecond))

/-- `isoformat`, with the offset as it is written behind the time. -/
def DateTime.isoformat (e : DateTime) (offset : List Char) : List Char :=
  e.date.text ++ 'T' :: (e.clock.text ++ offset)

/-- An offset is not written, or begins with its sign. -/
def IsOffset (offset : List Char) : Prop := ∀ c ∈ offset.head?, c = '+' ∨ c = '-'

instance (offset : List Char) : Decidable (IsOffset offset) := Option.decidableForallMem offset.head?

/-- What is written of a time. -/
inductive Precision
  | hour
  | minute
  | second
  | decimals (digits : List Char)

/-- The microseconds that decimals name; those behind the sixth are dropped. -/
def micro (digits : List Char) : ℕ := digitsValue (digits.take 6) * 10 ^ (6 - digits.length)

def Precision.text (t : Clock) : Precision → List Char
  | .hour => pad 2 t.hour
  | .minute => pad 2 t.hour ++ ':' :: pad 2 t.minute
  | .second => pad 2 t.hour ++ ':' :: (pad 2 t.minute ++ ':' :: pad 2 t.second)
  | .decimals digits => pad 2 t.hour ++ ':' :: (pad 2 t.minute ++ ':' :: (pad 2 t.second ++ '.' :: digits))

/-- What is not written is zero. -/
def Precision.Fits (t : Clock) : Precision → Prop
  | .hour => t.minute = 0 ∧ t.second = 0 ∧ t.microsecond = 0
  | .minute => t.second = 0 ∧ t.microsecond = 0
  | .second => t.microsecond = 0
  | .decimals digits => digits ≠ [] ∧ digits.all Char.isDigit = true ∧ t.microsecond = micro digits

/-- How an instant is written: its date alone, or a time behind `T` or a blank. -/
inductive Form
  | date
  | time (blank : Bool) (precision : Precision)

def Form.Fits (t : Clock) : Form → Prop
  | .date => t.hour = 0 ∧ Precision.hour.Fits t
  | .time _ precision => precision.Fits t

/-- An instant and a way to write it. -/
structure Bound where
  instant : DateTime
  form : Form
  fits : form.Fits instant.clock

def Bound.text (b : Bound) (offset : List Char) : List Char :=
  b.instant.date.text ++
    match b.form with
    | .date => []
    | .time blank precision =>
      (if blank then ' ' else 'T') :: (precision.text b.instant.clock ++ offset)

/-! ## The order of the texts -/

/-- Where the text of an instant stands to a bound that names the same instant. -/
def Precision.rank : Precision → Ordering
  | .hour => .gt
  | .minute => .gt
  | .second => .eq
  | .decimals digits => if micro digits = 0 then .lt else Ord.compare 6 digits.length

def Form.rank : Form → Ordering
  | .date => .gt
  | .time _ precision => precision.rank

/-- A blank stands before the time. -/
def Form.blank : Form → Bool
  | .date => false
  | .time blank _ => blank

/-- Where the text of an instant stands to the text of a bound: behind a blank, only the dates count. -/
def Bound.place (b : Bound) (e : DateTime) : Ordering :=
  if b.form.blank then (e.date.compare b.instant.date).then .gt else (e.compare b.instant).then b.form.rank

variable {offset : List Char}

/-- Signs stand before points, colons and digits. -/
theorem compare_offset (ho : IsOffset offset) {c : Char} (hc : '-' < c) (text : List Char) :
    compare offset (c :: text) = .lt := by
  cases offset with
  | nil => rfl
  | cons d rest =>
    have hlt : d < c := by
      rcases ho d rfl with rfl | rfl
      · exact Char.lt_trans (by decide) hc
      · exact hc
    have hcompare : compare d c = .lt := compareOfLessAndEq_eq_lt.mpr hlt
    rw [List.compare_cons_cons, hcompare]
    rfl

theorem compare_offset_gt (ho : IsOffset offset) {c : Char} (hc : '-' < c) (text : List Char) :
    compare (c :: text) offset = .gt := by
  exact Std.OrientedCmp.gt_iff_lt.mpr (compare_offset ho hc text)

theorem hyphen_lt_digit {c : Char} (h : c.isDigit = true) : '-' < c := by
  have hrange : 48 ≤ c.toNat ∧ c.toNat ≤ 57 := by
    simpa [Char.isDigit, UInt32.le_iff_toNat_le] using h
  show 45 < c.toNat
  omega

theorem compare_zero_then (n : ℕ) : (compare n 0).then .gt = .gt := by
  cases n with
  | zero => rfl
  | succ n => rw [Nat.compare_eq_gt.mpr (Nat.succ_pos n)]; rfl

/-- The text of a number of positive width begins with a digit. -/
theorem pad_cons {w n : ℕ} (hw : 0 < w) (hn : n < 10 ^ w) : ∃ c text, c.isDigit = true ∧ pad w n = c :: text := by
  obtain ⟨w, rfl⟩ := Nat.exists_eq_succ_of_ne_zero (by omega : w ≠ 0)
  have hdiv : n / 10 ^ w < 10 := by
    rw [Nat.div_lt_iff_lt_mul (Nat.pow_pos (by omega)), Nat.mul_comm, ← Nat.pow_succ]
    exact hn
  have hdigit : ∀ d < 10, (Nat.digitChar d).isDigit = true := by decide
  exact ⟨_, _, hdigit _ hdiv, rfl⟩

theorem compare_fraction (ho : IsOffset offset) {a b : ℕ} (ha : a < 10 ^ 6) (hb : b < 10 ^ 6) :
    compare (fraction a ++ offset) (fraction b ++ offset) = compare a b := by
  unfold fraction
  split_ifs with ha0 hb0 hb0
  · rw [ha0, hb0, List.nil_append, Std.ReflOrd.compare_self]
    rfl
  · rw [ha0, List.nil_append, List.cons_append, compare_offset ho (by decide), Nat.compare_eq_lt.mpr (by omega)]
  · rw [hb0, List.nil_append, List.cons_append, compare_offset_gt ho (by decide), Nat.compare_eq_gt.mpr (by omega)]
  · rw [List.cons_append, List.cons_append, List.compare_cons_cons, Std.ReflOrd.compare_self, compare_pad ha hb,
      Std.ReflOrd.compare_self]
    exact Ordering.then_eq

/-- Six digits against as many as there are. -/
theorem compare_digits (ho : IsOffset offset) {a : ℕ} (ha : a < 10 ^ 6) {digits : List Char}
    (hd : digits.all Char.isDigit = true) : compare (pad 6 a ++ offset) (digits ++ offset) =
      (compare a (micro digits)).then (compare 6 digits.length) := by
  have htake : (digits.take 6).all Char.isDigit = true :=
    List.all_eq_true.mpr fun c hc => List.all_eq_true.mp hd c (List.mem_of_mem_take hc)
  have hlt := digitsValue_lt htake
  have hpad := pad_digitsValue htake
  rw [List.length_take] at hlt hpad
  unfold micro
  rcases lt_or_ge digits.length 6 with hlen | hlen
  · -- the digits are the first ones, and the others stand against the offset
    obtain ⟨j, hj⟩ : ∃ j, 6 = digits.length + (j + 1) := ⟨5 - digits.length, by omega⟩
    have hsub : 6 - digits.length = j + 1 := by omega
    have hpos : 0 < 10 ^ (j + 1) := Nat.pow_pos (by omega)
    have hmod : a % 10 ^ (j + 1) < 10 ^ (j + 1) := Nat.mod_lt _ hpos
    have hall : digits.take 6 = digits := List.take_of_length_le (by omega)
    rw [Nat.min_eq_right (by omega), hall] at hlt hpad
    have hdiv : a / 10 ^ (j + 1) < 10 ^ digits.length := by
      rw [Nat.div_lt_iff_lt_mul hpos, ← Nat.pow_add, ← hj]
      exact ha
    obtain ⟨c, text, hc, hcons⟩ := pad_cons (by omega : 0 < j + 1) hmod
    have hleft : pad 6 a ++ offset =
        pad digits.length (a / 10 ^ (j + 1)) ++ (c :: (text ++ offset)) := by
      rw [hj] at ha
      rw [hj, pad_add ha, hcons, List.append_assoc]
      rfl
    rw [hleft, hall, hsub]
    nth_rewrite 2 [← hpad]
    rw [compare_pad hdiv hlt, compare_offset_gt ho (hyphen_lt_digit hc), Nat.compare_eq_gt.mpr hlen,
      compare_div_mod (10 ^ (j + 1)) a, Nat.mul_div_cancel _ hpos, Nat.mul_mod_left, Ordering.then_assoc,
      compare_zero_then]
  · rw [Nat.min_eq_left hlen] at hlt hpad
    have hsub : 6 - digits.length = 0 := by omega
    rw [hsub, Nat.pow_zero, Nat.mul_one]
    nth_rewrite 1 [← List.take_append_drop 6 digits]
    rw [List.append_assoc]
    nth_rewrite 1 [← hpad]
    rw [compare_pad ha hlt]
    cases hdrop : digits.drop 6 with
    | nil =>
      have hzero := congrArg List.length hdrop
      rw [List.length_drop, List.length_nil] at hzero
      rw [List.nil_append, Std.ReflOrd.compare_self, Nat.compare_eq_eq.mpr (by omega : 6 = digits.length)]
    | cons c rest =>
      have hlong := congrArg List.length hdrop
      rw [List.length_drop, List.length_cons] at hlong
      have hc : c.isDigit = true :=
        List.all_eq_true.mp hd c (List.mem_of_mem_drop (i := 6) (by rw [hdrop]; exact List.mem_cons_self))
      rw [List.cons_append, compare_offset ho (hyphen_lt_digit hc),
        Nat.compare_eq_lt.mpr (by omega : 6 < digits.length)]

/-- The fraction of a second against decimals: none of them stand before a point. -/
theorem compare_decimals (ho : IsOffset offset) {a : ℕ} (ha : a < 10 ^ 6) {digits : List Char}
    (hd : digits.all Char.isDigit = true) :
    compare (fraction a ++ offset) ('.' :: digits ++ offset) =
      (compare a (micro digits)).then (Precision.rank (.decimals digits)) := by
  have hpoint : compare ('.' :: pad 6 a ++ offset) ('.' :: digits ++ offset) =
      (compare a (micro digits)).then (compare 6 digits.length) := by
    rw [List.cons_append, List.cons_append, List.compare_cons_cons, Std.ReflOrd.compare_self,
      compare_digits ho ha hd]
    rfl
  have hnone : compare offset ('.' :: digits ++ offset) = .lt := compare_offset ho (by decide) _
  unfold fraction
  by_cases ha0 : a = 0
  · rw [if_pos ha0, List.nil_append, hnone, ha0]
    rcases Nat.eq_zero_or_pos (micro digits) with hm | hm
    · rw [Precision.rank, hm, if_pos rfl]
      rfl
    · rw [Nat.compare_eq_lt.mpr hm]
      rfl
  · rw [if_neg ha0, hpoint]
    rcases Nat.eq_zero_or_pos (micro digits) with hm | hm
    · rw [hm, Nat.compare_eq_gt.mpr (Nat.pos_of_ne_zero ha0)]
      rfl
    · rw [Precision.rank, if_neg (by omega)]

theorem Date.year_digits (d : Date) : d.year < 10 ^ 4 := by
  have hrange := d.year_range
  omega

theorem Date.month_digits (d : Date) : d.month < 10 ^ 2 := by
  have hrange := d.month_range
  omega

theorem Date.day_digits (d : Date) : d.day < 10 ^ 2 := by
  have hrange := d.day_range
  have hle := daysIn_le d.year d.month
  omega

theorem Date.compare_text (a b : Date) (s t : List Char) :
    Ord.compare (a.text ++ s) (b.text ++ t) = (a.compare b).then (Ord.compare s t) := by
  unfold Date.text Date.compare
  simp only [List.append_assoc, List.cons_append, compare_pad a.year_digits b.year_digits,
    compare_pad a.month_digits b.month_digits, compare_pad a.day_digits b.day_digits, List.compare_cons_cons, Std.ReflOrd.compare_self, Ordering.then_assoc,
    Ordering.eq_then]

theorem Clock.hour_digits (t : Clock) : t.hour < 10 ^ 2 := by
  have hlt := t.hour_lt
  omega

theorem Clock.minute_digits (t : Clock) : t.minute < 10 ^ 2 := by
  have hlt := t.minute_lt
  omega

theorem Clock.second_digits (t : Clock) : t.second < 10 ^ 2 := by
  have hlt := t.second_lt
  omega

/-- Two clock times, with what follows their seconds. -/
theorem Clock.compare_seconds (a b : Clock) (s t : List Char) :
    Ord.compare (pad 2 a.hour ++ ':' :: (pad 2 a.minute ++ ':' :: (pad 2 a.second ++ s)))
        (pad 2 b.hour ++ ':' :: (pad 2 b.minute ++ ':' :: (pad 2 b.second ++ t))) =
      (Ord.compare a.hour b.hour).then ((Ord.compare a.minute b.minute).then
        ((Ord.compare a.second b.second).then (Ord.compare s t))) := by
  simp only [compare_pad a.hour_digits b.hour_digits, compare_pad a.minute_digits b.minute_digits,
    compare_pad a.second_digits b.second_digits, List.compare_cons_cons, Std.ReflOrd.compare_self, Ordering.eq_then]

theorem Clock.compare_text (ho : IsOffset offset) (a b : Clock) :
    Ord.compare (a.text ++ offset) (b.text ++ offset) = a.compare b := by
  have hseconds := a.compare_seconds b (fraction a.microsecond ++ offset) (fraction b.microsecond ++ offset)
  rw [compare_fraction ho a.microsecond_lt b.microsecond_lt] at hseconds
  unfold Clock.text Clock.compare
  simpa only [List.append_assoc, List.cons_append] using hseconds

/-- **The order of the texts is the order of the instants.** -/
theorem compare_isoformat (ho : IsOffset offset) (a b : DateTime) :
    compare (a.isoformat offset) (b.isoformat offset) = a.compare b := by
  unfold DateTime.isoformat DateTime.compare
  rw [Date.compare_text, List.compare_cons_cons, Std.ReflOrd.compare_self, Ordering.eq_then, Clock.compare_text ho]

theorem DateTime.compare_eq (a b : DateTime) : a.compare b = Ord.compare (a.isoformat []) (b.isoformat []) :=
  (compare_isoformat (by decide) a b).symm

instance : Std.TransCmp DateTime.compare where
  eq_swap {a b} := by
    rw [DateTime.compare_eq, DateTime.compare_eq]
    exact Std.OrientedCmp.eq_swap
  isLE_trans {a b c} hab hbc := by
    rw [DateTime.compare_eq] at hab hbc ⊢
    exact Std.TransCmp.isLE_trans hab hbc

/-- A clock time against a text of some precision. -/
theorem Precision.compare_text (ho : IsOffset offset) (a b : Clock) (precision : Precision)
    (hfits : precision.Fits b) :
    Ord.compare (a.text ++ offset) (precision.text b ++ offset) = (a.compare b).then precision.rank := by
  cases precision with
  | hour =>
    obtain ⟨hm, hs, hu⟩ := hfits
    unfold Clock.text Precision.text Precision.rank Clock.compare
    simp only [List.append_assoc, List.cons_append]
    rw [compare_pad a.hour_digits b.hour_digits, compare_offset_gt ho (by decide), hm, hs, hu]
    simp only [Ordering.then_assoc, compare_zero_then]
  | minute =>
    obtain ⟨hs, hu⟩ := hfits
    unfold Clock.text Precision.text Precision.rank Clock.compare
    simp only [List.append_assoc, List.cons_append]
    rw [compare_pad a.hour_digits b.hour_digits, List.compare_cons_cons, Std.ReflOrd.compare_self, Ordering.eq_then,
      compare_pad a.minute_digits b.minute_digits, compare_offset_gt ho (by decide), hs, hu]
    simp only [Ordering.then_assoc, compare_zero_then]
  | second =>
    have hseconds := a.compare_seconds b (fraction a.microsecond ++ offset) (fraction b.microsecond ++ offset)
    rw [compare_fraction ho a.microsecond_lt b.microsecond_lt] at hseconds
    have hnone : fraction b.microsecond = [] := if_pos hfits
    rw [hnone, List.nil_append] at hseconds
    unfold Clock.text Precision.text Precision.rank Clock.compare
    simp only [List.append_assoc, List.cons_append, Ordering.then_eq]
    exact hseconds
  | decimals digits =>
    obtain ⟨-, hd, hu⟩ := hfits
    have hseconds := a.compare_seconds b (fraction a.microsecond ++ offset) ('.' :: digits ++ offset)
    rw [compare_decimals ho a.microsecond_lt hd, ← hu] at hseconds
    unfold Clock.text Precision.text Clock.compare
    simp only [List.append_assoc, List.cons_append, Ordering.then_assoc] at hseconds ⊢
    exact hseconds

/-- **The text of an instant against the text of a bound.** -/
theorem compare_text (ho : IsOffset offset) (e : DateTime) (b : Bound) :
    compare (e.isoformat offset) (b.text offset) = b.place e := by
  obtain ⟨x, form, hfits⟩ := b
  unfold DateTime.isoformat Bound.text
  rw [Date.compare_text]
  cases form with
  | date =>
    obtain ⟨hh, hm, hs, hu⟩ := hfits
    show (e.date.compare x.date).then .gt = ((e.date.compare x.date).then (e.clock.compare x.clock)).then .gt
    unfold Clock.compare
    rw [hh, hm, hs, hu]
    simp only [Ordering.then_assoc, compare_zero_then]
  | time blank precision =>
    cases blank with
    | true =>
      show (e.date.compare x.date).then (compare ('T' :: _) (' ' :: _)) = (e.date.compare x.date).then .gt
      rw [List.compare_cons_cons]
      rfl
    | false =>
      show (e.date.compare x.date).then (compare ('T' :: _) ('T' :: (precision.text x.clock ++ offset))) =
        ((e.date.compare x.date).then (e.clock.compare x.clock)).then precision.rank
      rw [List.compare_cons_cons, Std.ReflOrd.compare_self, Ordering.eq_then,
        precision.compare_text ho e.clock x.clock hfits, Ordering.then_assoc]

/-! ## Reading a text -/

def expect (c : Char) : List Char → Option (List Char)
  | [] => none
  | d :: rest => if d = c then some rest else none

def Date.ofFields (year month day : ℕ) : Option Date :=
  if h : (1 ≤ year ∧ year ≤ 9999) ∧ (1 ≤ month ∧ month ≤ 12) ∧ (1 ≤ day ∧ day ≤ daysIn year month) then
    some ⟨year, month, day, h.1, h.2.1, h.2.2⟩
  else none

def readDate (text : List Char) : Option (Date × List Char) := do
  let (year, rest) ← readDigits 4 text
  let rest ← expect '-' rest
  let (month, rest) ← readDigits 2 rest
  let rest ← expect '-' rest
  let (day, rest) ← readDigits 2 rest
  let date ← Date.ofFields year month day
  some (date, rest)

/-- The fields of a time, how much of it is written, and what follows. -/
structure TimeFields where
  hour : ℕ
  minute : ℕ
  second : ℕ
  precision : Precision
  rest : List Char

def readSeconds (hour minute : ℕ) (text : List Char) : Option TimeFields := do
  let (second, rest) ← readDigits 2 text
  match expect '.' rest with
  | none => some ⟨hour, minute, second, .second, rest⟩
  | some rest => some ⟨hour, minute, second, .decimals (rest.takeWhile Char.isDigit), rest.dropWhile Char.isDigit⟩

def readMinutes (hour : ℕ) (text : List Char) : Option TimeFields := do
  let (minute, rest) ← readDigits 2 text
  match expect ':' rest with
  | none => some ⟨hour, minute, 0, .minute, rest⟩
  | some rest => readSeconds hour minute rest

def readTime (text : List Char) : Option TimeFields := do
  let (hour, rest) ← readDigits 2 text
  match expect ':' rest with
  | none => some ⟨hour, 0, 0, .hour, rest⟩
  | some rest => readMinutes hour rest

def Precision.microsecond : Precision → ℕ
  | .decimals digits => micro digits
  | _ => 0

instance (t : Clock) (precision : Precision) : Decidable (precision.Fits t) :=
  match precision with
  | .hour => by unfold Precision.Fits; infer_instance
  | .minute => by unfold Precision.Fits; infer_instance
  | .second => by unfold Precision.Fits; infer_instance
  | .decimals _ => by unfold Precision.Fits; infer_instance

/-- A point without digits fits no time. -/
def Bound.ofFields (date : Date) (blank : Bool) (t : TimeFields) : Option Bound :=
  if h : t.hour < 24 ∧ t.minute < 60 ∧ t.second < 60 ∧ t.precision.microsecond < 10 ^ 6 then
    let clock : Clock := ⟨t.hour, t.minute, t.second, t.precision.microsecond, h.1, h.2.1, h.2.2.1, h.2.2.2⟩
    if hfits : t.precision.Fits clock then some ⟨⟨date, clock⟩, .time blank t.precision, hfits⟩ else none
  else none

def Clock.midnight : Clock := ⟨0, 0, 0, 0, by decide, by decide, by decide, by decide⟩

/-- The bound that a text names, if it is one with this offset or a date. -/
def readBound (offset text : List Char) : Option Bound := do
  let (date, rest) ← readDate text
  match rest with
  | [] => some ⟨⟨date, .midnight⟩, .date, rfl, rfl, rfl, rfl⟩
  | separator :: rest =>
    if separator = 'T' ∨ separator = ' ' then
      let t ← readTime rest
      if t.rest = offset then Bound.ofFields date (separator = ' ') t else none
    else none

theorem expect_some {c : Char} {text rest : List Char} (h : expect c text = some rest) : text = c :: rest := by
  cases text with
  | nil => cases h
  | cons d ds =>
    have h : (if d = c then some ds else none) = some rest := h
    split_ifs at h with hd
    rw [hd, Option.some.inj h]

theorem Date.ofFields_some {year month day : ℕ} {d : Date} (h : Date.ofFields year month day = some d) :
    d.year = year ∧ d.month = month ∧ d.day = day := by
  unfold Date.ofFields at h
  split at h
  · obtain rfl := Option.some.inj h
    exact ⟨rfl, rfl, rfl⟩
  · cases h

theorem readDate_some {text rest : List Char} {d : Date} (h : readDate text = some (d, rest)) :
    text = d.text ++ rest := by
  unfold readDate at h
  simp only [Option.bind_eq_bind, Option.bind_eq_some_iff, Prod.exists] at h
  obtain ⟨year, r1, h1, r2, h2, month, r3, h3, r4, h4, day, r5, h5, date, hdate, h⟩ := h
  obtain ⟨rfl, rfl⟩ := Prod.mk.inj (Option.some.inj h)
  obtain ⟨hy, hm, hd⟩ := Date.ofFields_some hdate
  rw [(readDigits_spec h1).1, expect_some h2, (readDigits_spec h3).1, expect_some h4, (readDigits_spec h5).1]
  unfold Date.text
  rw [hy, hm, hd]
  simp

/-- The text that the fields of a time are read from. -/
def TimeFields.text (t : TimeFields) : List Char :=
  match t.precision with
  | .hour => pad 2 t.hour ++ t.rest
  | .minute => pad 2 t.hour ++ ':' :: (pad 2 t.minute ++ t.rest)
  | .second => pad 2 t.hour ++ ':' :: (pad 2 t.minute ++ ':' :: (pad 2 t.second ++ t.rest))
  | .decimals digits =>
    pad 2 t.hour ++ ':' :: (pad 2 t.minute ++ ':' :: (pad 2 t.second ++ '.' :: (digits ++ t.rest)))

theorem readTime_some {text : List Char} {t : TimeFields} (h : readTime text = some t) : text = t.text := by
  unfold readTime at h
  simp only [Option.bind_eq_bind, Option.bind_eq_some_iff, Prod.exists] at h
  obtain ⟨hour, r1, h1, h⟩ := h
  rw [(readDigits_spec h1).1]
  cases hc : expect ':' r1 with
  | none =>
    rw [hc] at h
    obtain rfl := Option.some.inj h
    rfl
  | some r2 =>
    rw [hc] at h
    dsimp only at h
    unfold readMinutes at h
    simp only [Option.bind_eq_bind, Option.bind_eq_some_iff, Prod.exists] at h
    obtain ⟨minute, r3, h3, h⟩ := h
    rw [expect_some hc, (readDigits_spec h3).1]
    cases hc' : expect ':' r3 with
    | none =>
      rw [hc'] at h
      obtain rfl := Option.some.inj h
      rfl
    | some r4 =>
      rw [hc'] at h
      dsimp only at h
      unfold readSeconds at h
      simp only [Option.bind_eq_bind, Option.bind_eq_some_iff, Prod.exists] at h
      obtain ⟨second, r5, h5, h⟩ := h
      rw [expect_some hc', (readDigits_spec h5).1]
      cases hp : expect '.' r5 with
      | none =>
        rw [hp] at h
        obtain rfl := Option.some.inj h
        rfl
      | some r6 =>
        rw [hp] at h
        obtain rfl := Option.some.inj h
        rw [expect_some hp]
        unfold TimeFields.text
        dsimp only
        rw [List.takeWhile_append_dropWhile]

theorem Bound.ofFields_some {date : Date} {blank : Bool} {t : TimeFields} {b : Bound}
    (h : Bound.ofFields date blank t = some b) :
    b.text t.rest = date.text ++ (if blank then ' ' else 'T') :: t.text := by
  obtain ⟨hour, minute, second, precision, rest⟩ := t
  unfold Bound.ofFields at h
  split at h
  · dsimp only at h
    split_ifs at h with hfits
    obtain rfl := Option.some.inj h
    unfold Bound.text TimeFields.text
    dsimp only
    cases precision <;> unfold Precision.text <;> simp
  · cases h

/-- A text that is read is the text of its bound. -/
theorem readBound_some {text : List Char} {b : Bound} (h : readBound offset text = some b) :
    text = b.text offset := by
  unfold readBound at h
  simp only [Option.bind_eq_bind, Option.bind_eq_some_iff, Prod.exists] at h
  obtain ⟨date, rest, hdate, h⟩ := h
  rw [readDate_some hdate]
  cases rest with
  | nil =>
    obtain rfl := Option.some.inj h
    rfl
  | cons separator rest =>
    dsimp only at h
    split_ifs at h with hsep
    simp only [Option.bind_eq_some_iff] at h
    obtain ⟨t, ht, h⟩ := h
    split_ifs at h with hrest
    rw [← hrest, Bound.ofFields_some h, readTime_some ht]
    rcases hsep with rfl | rfl <;> rfl

theorem digitsValue_pad {w n : ℕ} (h : n < 10 ^ w) : digitsValue (pad w n) = n := by
  induction w generalizing n with
  | zero =>
    obtain rfl : n = 0 := by omega
    rfl
  | succ w ih =>
    have hpos : 0 < 10 ^ w := Nat.pow_pos (by omega)
    have hdiv : n / 10 ^ w < 10 := by
      rw [Nat.div_lt_iff_lt_mul hpos, Nat.mul_comm, ← Nat.pow_succ]
      exact h
    rw [pad, digitsValue, ih (Nat.mod_lt _ hpos), pad_length, Nat.toNat_digitChar_of_lt_ten hdiv, Nat.add_sub_cancel_left,
      Nat.div_add_mod']

theorem pad_digits (w : ℕ) {n : ℕ} (h : n < 10 ^ w) : (pad w n).all Char.isDigit = true := by
  induction w generalizing n with
  | zero => rfl
  | succ w ih =>
    have hpos : 0 < 10 ^ w := Nat.pow_pos (by omega)
    have hdiv : n / 10 ^ w < 10 := by
      rw [Nat.div_lt_iff_lt_mul hpos, Nat.mul_comm, ← Nat.pow_succ]
      exact h
    have hdigit : ∀ d < 10, (Nat.digitChar d).isDigit = true := by decide
    rw [pad, List.all_cons, hdigit _ hdiv, ih (Nat.mod_lt _ hpos)]
    rfl

theorem readDigits_pad {w n : ℕ} (h : n < 10 ^ w) (rest : List Char) : readDigits w (pad w n ++ rest) = some (n, rest) := by
  have htake : (pad w n ++ rest).take w = pad w n := List.take_left' (pad_length w n)
  have hdrop : (pad w n ++ rest).drop w = rest := List.drop_left' (pad_length w n)
  unfold readDigits
  rw [htake, hdrop, if_pos ⟨pad_length w n, pad_digits w h⟩, digitsValue_pad h]

theorem expect_cons (c : Char) (rest : List Char) : expect c (c :: rest) = some rest := if_pos rfl

theorem readDate_text (d : Date) (rest : List Char) : readDate (d.text ++ rest) = some (d, rest) := by
  have hfields : Date.ofFields d.year d.month d.day = some d := dif_pos ⟨d.year_range, d.month_range, d.day_range⟩
  unfold readDate Date.text
  simp only [List.append_assoc, List.cons_append, readDigits_pad d.year_digits, readDigits_pad d.month_digits,
    readDigits_pad d.day_digits, Option.bind_eq_bind, Option.bind_some, expect_cons, hfields]

/-- What follows a time is not one of its own characters. -/
theorem expect_offset (ho : IsOffset offset) {c : Char} (hc : '-' < c) : expect c offset = none := by
  cases offset with
  | nil => rfl
  | cons d ds =>
    have hne : d ≠ c := by
      rintro rfl
      rcases ho d rfl with rfl | rfl
      · exact absurd hc (by decide)
      · exact absurd hc (by decide)
    exact if_neg hne

theorem readTime_text (ho : IsOffset offset) (t : Clock) (precision : Precision) (hfits : precision.Fits t) :
    readTime (precision.text t ++ offset) = some ⟨t.hour, t.minute, t.second, precision, offset⟩ := by
  unfold readTime
  cases precision with
  | hour =>
    obtain ⟨hm, hs, -⟩ := hfits
    unfold Precision.text
    simp only [readDigits_pad t.hour_digits, Option.bind_eq_bind, Option.bind_some, expect_offset ho (by decide : '-' < ':'),
      hm, hs]
  | minute =>
    obtain ⟨hs, -⟩ := hfits
    unfold Precision.text
    simp only [List.append_assoc, List.cons_append, readDigits_pad t.hour_digits, readDigits_pad t.minute_digits,
      Option.bind_eq_bind, Option.bind_some, expect_cons, readMinutes, expect_offset ho (by decide : '-' < ':'), hs]
  | second =>
    unfold Precision.text
    simp only [List.append_assoc, List.cons_append, readDigits_pad t.hour_digits, readDigits_pad t.minute_digits,
      readDigits_pad t.second_digits, Option.bind_eq_bind, Option.bind_some, expect_cons, readMinutes, readSeconds,
      expect_offset ho (by decide : '-' < '.')]
  | decimals digits =>
    obtain ⟨-, hd, -⟩ := hfits
    have hall := List.all_eq_true.mp hd
    obtain ⟨htake, hdrop⟩ : offset.takeWhile Char.isDigit = [] ∧ offset.dropWhile Char.isDigit = offset := by
      cases offset with
      | nil => exact ⟨rfl, rfl⟩
      | cons c cs => rcases ho c rfl with rfl | rfl <;> exact ⟨rfl, rfl⟩
    have htake : (digits ++ offset).takeWhile Char.isDigit = digits := by
      rw [List.takeWhile_append_of_pos hall, htake, List.append_nil]
    have hdrop : (digits ++ offset).dropWhile Char.isDigit = offset := by
      rw [List.dropWhile_append_of_pos hall, hdrop]
    unfold Precision.text
    simp only [List.append_assoc, List.cons_append, readDigits_pad t.hour_digits, readDigits_pad t.minute_digits,
      readDigits_pad t.second_digits, Option.bind_eq_bind, Option.bind_some, expect_cons, readMinutes, readSeconds,
      htake, hdrop]

/-- **The texts that are read are the texts of the bounds.** -/
theorem readBound_iff (ho : IsOffset offset) (text : List Char) (b : Bound) :
    readBound offset text = some b ↔ text = b.text offset := by
  refine ⟨readBound_some, ?_⟩
  rintro rfl
  obtain ⟨⟨date, t⟩, form, hfits⟩ := b
  unfold readBound Bound.text
  cases form with
  | date =>
    obtain ⟨hour, minute, second, microsecond, _, _, _, _⟩ := t
    obtain ⟨hh, hm, hs, hu⟩ := hfits
    dsimp only at hh hm hs hu
    subst hh hm hs hu
    have hdate := readDate_text date []
    simp only [hdate, Option.bind_eq_bind, Option.bind_some]
    rfl
  | time blank precision =>
    have hfields : Bound.ofFields date blank ⟨t.hour, t.minute, t.second, precision, offset⟩ =
        some ⟨⟨date, t⟩, .time blank precision, hfits⟩ := by
      obtain ⟨hour, minute, second, microsecond, h1, h2, h3, h4⟩ := t
      have hmicro : precision.microsecond = microsecond := by
        cases precision with
        | hour => exact hfits.2.2.symm
        | minute => exact hfits.2.symm
        | second => exact hfits.symm
        | decimals digits => exact hfits.2.2.symm
      subst hmicro
      unfold Bound.ofFields
      rw [dif_pos ⟨h1, h2, h3, h4⟩]
      exact dif_pos hfits
    simp only [readDate_text, Option.bind_eq_bind, Option.bind_some, readTime_text ho t precision hfits, if_true]
    cases blank with
    | true => exact hfields
    | false => exact hfields

end AgentHarness.Lib
