import Mathlib.Data.List.Basic

/-!
# Lib.Utf8Stream — decoding UTF-8 that comes in pieces

The decoder works byte by byte and keeps, between two bytes, what it has read of a character.  So a text may be
cut anywhere, also inside a character: `decode_append`.  Bytes that are no UTF-8 decode to the replacement
character.  `TextDecoder` drops a byte order mark in front of the stream.
-/

namespace AgentHarness.Lib

/-- The bytes of a text. -/
def utf8 (text : List Char) : List UInt8 := text.flatMap String.utf8EncodeChar

/-- What has been read of a character: its bits so far, the number of bytes to come, and the range of the next. -/
structure Utf8Decoder where
  codePoint : Nat
  needed : Nat
  lower : Nat
  upper : Nat
deriving DecidableEq

namespace Utf8Decoder

/-- Between two characters. -/
def start : Utf8Decoder := ⟨0, 0, 0x80, 0xBF⟩

def replacement : Char := '\uFFFD'

/-- A byte where a character begins. -/
def lead (b : Nat) : List Char × Utf8Decoder :=
  if b ≤ 0x7F then ([Char.ofNat b], start)
  else if 0xC2 ≤ b ∧ b ≤ 0xDF then ([], ⟨b % 0x20, 1, 0x80, 0xBF⟩)
  else if 0xE0 ≤ b ∧ b ≤ 0xEF then
    ([], ⟨b % 0x10, 2, if b = 0xE0 then 0xA0 else 0x80, if b = 0xED then 0x9F else 0xBF⟩)
  else if 0xF0 ≤ b ∧ b ≤ 0xF4 then
    ([], ⟨b % 0x08, 3, if b = 0xF0 then 0x90 else 0x80, if b = 0xF4 then 0x8F else 0xBF⟩)
  else ([replacement], start)

def byte (d : Utf8Decoder) (b : Nat) : List Char × Utf8Decoder :=
  if d.needed = 0 then lead b
  else if b < d.lower ∨ d.upper < b then
    -- the character is given up, and the byte begins the next
    (replacement :: (lead b).1, (lead b).2)
  else if d.needed = 1 then ([Char.ofNat (d.codePoint * 64 + b % 64)], start)
  else ([], ⟨d.codePoint * 64 + b % 64, d.needed - 1, 0x80, 0xBF⟩)

def decode (d : Utf8Decoder) : List UInt8 → List Char × Utf8Decoder
  | [] => ([], d)
  | b :: bytes =>
    let (text, d) := d.byte b.toNat
    let (rest, d) := decode d bytes
    (text ++ rest, d)

variable {d : Utf8Decoder} {b b₁ b₂ b₃ cp : Nat} {bytes bytes' : List UInt8} {c : Char} {text : List Char}

/-- A cut makes no difference. -/
theorem decode_append : d.decode (bytes ++ bytes') =
    ((d.decode bytes).1 ++ ((d.decode bytes).2.decode bytes').1, ((d.decode bytes).2.decode bytes').2) := by
  induction bytes generalizing d with
  | nil => rfl
  | cons b bytes ih =>
    have hcons : ∀ l, d.decode (b :: l) =
        ((d.byte b.toNat).1 ++ ((d.byte b.toNat).2.decode l).1, ((d.byte b.toNat).2.decode l).2) := fun _ => rfl
    rw [List.cons_append, hcons, hcons, ih, List.append_assoc]

/-! ## Characters -/

/-- A byte that continues a character, where `n` more are to come after it. -/
theorem byte_continue {n lower upper : Nat} (hl : lower ≤ b) (hu : b ≤ upper) :
    byte ⟨cp, n + 2, lower, upper⟩ b = ([], ⟨cp * 64 + b % 64, n + 1, 0x80, 0xBF⟩) := by
  have hin : ¬ (b < lower ∨ upper < b) := by omega
  unfold byte
  dsimp only
  rw [if_neg (by omega), if_neg hin, if_neg (by omega)]
  rfl

theorem byte_last {lower upper : Nat} (hl : lower ≤ b) (hu : b ≤ upper) :
    byte ⟨cp, 1, lower, upper⟩ b = ([Char.ofNat (cp * 64 + b % 64)], start) := by
  have hin : ¬ (b < lower ∨ upper < b) := by omega
  unfold byte
  dsimp only
  rw [if_neg (by omega), if_neg hin, if_pos rfl]

theorem byte_start : start.byte b = lead b := rfl

theorem decode_cons {x : UInt8} {out : List Char} {d' : Utf8Decoder} (h : d.byte x.toNat = (out, d')) :
    d.decode (x :: bytes) = (out ++ (d'.decode bytes).1, (d'.decode bytes).2) := by
  show ((d.byte x.toNat).1 ++ ((d.byte x.toNat).2.decode bytes).1, ((d.byte x.toNat).2.decode bytes).2) = _
  rw [h]

theorem ofNat_byte (h : b < 256) : (UInt8.ofNat b).toNat = b := by
  rw [UInt8.toNat_ofNat']
  omega

/-- The code points of characters are no surrogates. -/
theorem codePoint_range : c.toNat < 0xD800 ∨ 0xDFFF < c.toNat ∧ c.toNat < 0x110000 := c.valid

theorem decode_char : start.decode (String.utf8EncodeChar c) = ([c], start) := by
  have hrange := @codePoint_range c
  have hc : Char.ofNat c.toNat = c := Char.ofNat_toNat c
  unfold String.utf8EncodeChar
  have hv : c.val.toNat = c.toNat := rfl
  rw [hv]
  dsimp only
  generalize c.toNat = v at hrange hc
  split_ifs with h₁ h₂ h₃
  · have hlead : start.byte (UInt8.ofNat v).toNat = ([Char.ofNat v], start) := by
      rw [ofNat_byte (by omega), byte_start, lead, if_pos h₁]
    rw [decode_cons hlead, hc]
    rfl
  · have hlead : start.byte (UInt8.ofNat (v / 64 % 0x20 + 0xC0)).toNat = ([], ⟨v / 64, 1, 0x80, 0xBF⟩) := by
      rw [ofNat_byte (by omega), byte_start, lead, if_neg (by omega), if_pos (by omega)]
      have hbits : (v / 64 % 0x20 + 0xC0) % 0x20 = v / 64 := by omega
      rw [hbits]
    have hlast : byte ⟨v / 64, 1, 0x80, 0xBF⟩ (UInt8.ofNat (v % 0x40 + 0x80)).toNat = ([c], start) := by
      rw [ofNat_byte (by omega), byte_last (by omega) (by omega)]
      have hbits : v / 64 * 64 + (v % 0x40 + 0x80) % 64 = v := by omega
      rw [hbits, hc]
    rw [decode_cons hlead, decode_cons hlast]
    rfl
  · obtain ⟨lower, upper, hlead, hlow, hup⟩ : ∃ lower upper,
        start.byte (UInt8.ofNat (v / 4096 % 0x10 + 0xE0)).toNat = ([], ⟨v / 4096, 2, lower, upper⟩) ∧
          lower ≤ v / 64 % 0x40 + 0x80 ∧ v / 64 % 0x40 + 0x80 ≤ upper := by
      have hbits : (v / 4096 % 0x10 + 0xE0) % 0x10 = v / 4096 := by omega
      rw [ofNat_byte (by omega), byte_start, lead, if_neg (by omega), if_neg (by omega), if_pos (by omega), hbits]
      refine ⟨_, _, rfl, ?_, ?_⟩
      · split_ifs <;> omega
      · split_ifs <;> omega
    have hnext : byte ⟨v / 4096, 2, lower, upper⟩ (UInt8.ofNat (v / 64 % 0x40 + 0x80)).toNat =
        ([], ⟨v / 64, 1, 0x80, 0xBF⟩) := by
      rw [ofNat_byte (by omega), byte_continue hlow hup]
      have hbits : v / 4096 * 64 + (v / 64 % 0x40 + 0x80) % 64 = v / 64 := by omega
      rw [hbits]
    have hlast : byte ⟨v / 64, 1, 0x80, 0xBF⟩ (UInt8.ofNat (v % 0x40 + 0x80)).toNat = ([c], start) := by
      rw [ofNat_byte (by omega), byte_last (by omega) (by omega)]
      have hbits : v / 64 * 64 + (v % 0x40 + 0x80) % 64 = v := by omega
      rw [hbits, hc]
    rw [decode_cons hlead, decode_cons hnext, decode_cons hlast]
    rfl
  · obtain ⟨lower, upper, hlead, hlow, hup⟩ : ∃ lower upper,
        start.byte (UInt8.ofNat (v / 262144 % 0x08 + 0xF0)).toNat = ([], ⟨v / 262144, 3, lower, upper⟩) ∧
          lower ≤ v / 4096 % 0x40 + 0x80 ∧ v / 4096 % 0x40 + 0x80 ≤ upper := by
      have hbits : (v / 262144 % 0x08 + 0xF0) % 0x08 = v / 262144 := by omega
      rw [ofNat_byte (by omega), byte_start, lead, if_neg (by omega), if_neg (by omega), if_neg (by omega),
        if_pos (by omega), hbits]
      refine ⟨_, _, rfl, ?_, ?_⟩
      · split_ifs <;> omega
      · split_ifs <;> omega
    have hnext : byte ⟨v / 262144, 3, lower, upper⟩ (UInt8.ofNat (v / 4096 % 0x40 + 0x80)).toNat =
        ([], ⟨v / 4096, 2, 0x80, 0xBF⟩) := by
      rw [ofNat_byte (by omega), byte_continue hlow hup]
      have hbits : v / 262144 * 64 + (v / 4096 % 0x40 + 0x80) % 64 = v / 4096 := by omega
      rw [hbits]
    have hthird : byte ⟨v / 4096, 2, 0x80, 0xBF⟩ (UInt8.ofNat (v / 64 % 0x40 + 0x80)).toNat =
        ([], ⟨v / 64, 1, 0x80, 0xBF⟩) := by
      rw [ofNat_byte (by omega), byte_continue (by omega) (by omega)]
      have hbits : v / 4096 * 64 + (v / 64 % 0x40 + 0x80) % 64 = v / 64 := by omega
      rw [hbits]
    have hlast : byte ⟨v / 64, 1, 0x80, 0xBF⟩ (UInt8.ofNat (v % 0x40 + 0x80)).toNat = ([c], start) := by
      rw [ofNat_byte (by omega), byte_last (by omega) (by omega)]
      have hbits : v / 64 * 64 + (v % 0x40 + 0x80) % 64 = v := by omega
      rw [hbits, hc]
    rw [decode_cons hlead, decode_cons hnext, decode_cons hthird, decode_cons hlast]
    rfl

theorem decode_utf8 : start.decode (utf8 text) = (text, start) := by
  induction text with
  | nil => rfl
  | cons c text ih =>
    show start.decode (String.utf8EncodeChar c ++ utf8 text) = _
    rw [decode_append, decode_char, ih]
    rfl

end Utf8Decoder

/-! ## `TextDecoder` -/

structure TextDecoder where
  decoder : Utf8Decoder
  bomSeen : Bool

namespace TextDecoder

def new : TextDecoder := ⟨.start, false⟩

def byteOrderMark : Char := '\uFEFF'

/-- `decode(value, { stream: true })` -/
def decode (d : TextDecoder) (value : List UInt8) : List Char × TextDecoder :=
  let (text, decoder) := d.decoder.decode value
  match text with
  | [] => ([], ⟨decoder, d.bomSeen⟩)
  | c :: rest => (if d.bomSeen = false ∧ c = byteOrderMark then rest else c :: rest, ⟨decoder, true⟩)

/-- The text of the chunks so far. -/
def decodeAll (d : TextDecoder) : List (List UInt8) → List Char × TextDecoder
  | [] => ([], d)
  | value :: chunks =>
    let (text, d) := d.decode value
    let (rest, d) := decodeAll d chunks
    (text ++ rest, d)

theorem decode_append {d : TextDecoder} {value value' : List UInt8} : d.decode (value ++ value') =
    ((d.decode value).1 ++ ((d.decode value).2.decode value').1, ((d.decode value).2.decode value').2) := by
  unfold decode
  rw [Utf8Decoder.decode_append]
  rcases d.decoder.decode value with ⟨_ | ⟨c, text⟩, decoder⟩
  · rfl
  · dsimp only [List.cons_append]
    rcases decoder.decode value' with ⟨_ | ⟨c', text'⟩, decoder'⟩
    · simp
    · split_ifs <;> simp

theorem decodeAll_eq {d : TextDecoder} {chunks : List (List UInt8)} : d.decodeAll chunks = d.decode chunks.flatten := by
  induction chunks generalizing d with
  | nil =>
    unfold decodeAll decode
    rfl
  | cons value chunks ih =>
    rw [List.flatten_cons, decode_append, ← ih]
    rfl

/-- The text that was encoded, if it does not begin with a byte order mark. -/
theorem decode_utf8 {text : List Char} (h : ∀ rest, text ≠ byteOrderMark :: rest) :
    (new.decode (utf8 text)).1 = text := by
  unfold decode new
  rw [Utf8Decoder.decode_utf8]
  cases text with
  | nil => rfl
  | cons c rest =>
    have hc : c ≠ byteOrderMark := fun hc => h rest (hc ▸ rfl)
    simp [hc]

end TextDecoder

end AgentHarness.Lib
