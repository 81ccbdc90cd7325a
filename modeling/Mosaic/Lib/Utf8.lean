/-
Text as a byte stream: UTF-8, written in one go and read in chunks.

The reader is the streaming decoder of the Encoding standard
(`TextDecoder` without options): a machine that takes one byte at a time,
replaces what is not UTF-8 by U+FFFD, and drops a byte order mark at the
start of the text. What it has emitted after some bytes does not depend on
how they were cut into chunks (`feed_append`), and it reads back what the
writer wrote (`feed_encode`).
-/
import Mathlib

namespace Mosaic.Lib.Utf8

/-- The bytes of a text. -/
def encode (text : List Char) : List UInt8 := text.flatMap String.utf8EncodeChar

/-- U+FFFD. -/
def replacement : Char := Char.ofNat 0xFFFD

/-- U+FEFF. -/
def byteOrderMark : Char := Char.ofNat 0xFEFF

-- =============================================================== decoder

/-- Where the decoder stands inside a character: the continuation bytes it
needs and has seen, the bits so far, and the range of the next byte. -/
structure Decoder where
  needed : Nat
  seen : Nat
  point : Nat
  lower : Nat
  upper : Nat
deriving Repr, DecidableEq

/-- Between two characters. -/
def Decoder.start : Decoder :=
  { needed := 0, seen := 0, point := 0, lower := 0x80, upper := 0xBF }

/-- The first byte of a character. -/
def Decoder.lead (b : Nat) : Decoder × List Char :=
  if b ≤ 0x7F then (.start, [Char.ofNat b])
  else if 0xC2 ≤ b ∧ b ≤ 0xDF then
    ({ Decoder.start with needed := 1, point := b - 0xC0 }, [])
  else if 0xE0 ≤ b ∧ b ≤ 0xEF then
    ({ Decoder.start with
        needed := 2, point := b - 0xE0
        lower := if b = 0xE0 then 0xA0 else 0x80
        upper := if b = 0xED then 0x9F else 0xBF }, [])
  else if 0xF0 ≤ b ∧ b ≤ 0xF4 then
    ({ Decoder.start with
        needed := 3, point := b - 0xF0
        lower := if b = 0xF0 then 0x90 else 0x80
        upper := if b = 0xF4 then 0x8F else 0xBF }, [])
  else (.start, [replacement])

/-- One byte: the decoder after it and the characters it completes. -/
def Decoder.byte (d : Decoder) (b : Nat) : Decoder × List Char :=
  if d.needed = 0 then lead b
  else if b < d.lower ∨ d.upper < b then
    -- the byte starts a character of its own
    ((lead b).1, replacement :: (lead b).2)
  else if d.seen + 1 = d.needed then (.start, [Char.ofNat (d.point * 64 + (b - 0x80))])
  else
    ({ d with seen := d.seen + 1, point := d.point * 64 + (b - 0x80)
              lower := 0x80, upper := 0xBF }, [])

def Decoder.feed (d : Decoder) : List UInt8 → Decoder × List Char
  | [] => (d, [])
  | b :: bytes =>
      let (d, out) := d.byte b.toNat
      let (d, rest) := d.feed bytes
      (d, out ++ rest)

/-- What an incomplete character at the end is read as. -/
def Decoder.flush (d : Decoder) : List Char :=
  if d.needed = 0 then [] else [replacement]

/-- A `TextDecoder` during a stream. -/
structure TextDecoder where
  decoder : Decoder
  bomSeen : Bool
deriving Repr, DecidableEq

def TextDecoder.start : TextDecoder := { decoder := .start, bomSeen := false }

/-- The first character of the text is dropped if it is a byte order
mark. -/
def TextDecoder.emit (bomSeen : Bool) : List Char → Bool × List Char
  | [] => (bomSeen, [])
  | c :: text =>
      (true, if bomSeen = false ∧ c = byteOrderMark then text else c :: text)

/-- `decode(chunk, { stream: true })`. -/
def TextDecoder.decode (t : TextDecoder) (chunk : List UInt8) :
    TextDecoder × List Char :=
  let (decoder, out) := t.decoder.feed chunk
  let (bomSeen, out) := emit t.bomSeen out
  ({ decoder, bomSeen }, out)

/-- `decode()`. -/
def TextDecoder.finish (t : TextDecoder) : List Char :=
  (emit t.bomSeen t.decoder.flush).2

-- =============================================================== chunks

/-- Two chunks are read as one. -/
theorem Decoder.feed_append (d : Decoder) (xs ys : List UInt8) :
    d.feed (xs ++ ys)
      = (((d.feed xs).1.feed ys).1, (d.feed xs).2 ++ ((d.feed xs).1.feed ys).2) := by
  induction xs generalizing d with
  | nil => rfl
  | cons b xs ih =>
      simp only [List.cons_append, feed, ih, List.append_assoc]

theorem TextDecoder.emit_append (bomSeen : Bool) (xs ys : List Char) :
    emit bomSeen (xs ++ ys)
      = ((emit (emit bomSeen xs).1 ys).1,
          (emit bomSeen xs).2 ++ (emit (emit bomSeen xs).1 ys).2) := by
  cases xs with
  | nil => rfl
  | cons c xs =>
      cases ys with
      | nil => simp [emit]
      | cons c' ys =>
          by_cases hc : bomSeen = false ∧ c = byteOrderMark
          · simp [emit, hc]
          · simp [emit, hc]

theorem TextDecoder.decode_append (t : TextDecoder) (xs ys : List UInt8) :
    t.decode (xs ++ ys)
      = (((t.decode xs).1.decode ys).1,
          (t.decode xs).2 ++ ((t.decode xs).1.decode ys).2) := by
  simp only [decode, Decoder.feed_append, emit_append]

-- ============================================================ round trip

/-- The scalar values. -/
theorem toNat_range (c : Char) :
    c.val.toNat < 0xD800 ∨ 0xDFFF < c.val.toNat ∧ c.val.toNat < 0x110000 := c.valid

theorem toNat_byte {n : Nat} (h : n < 256) : (UInt8.ofNat n).toNat = n :=
  UInt8.toNat_ofNat_of_lt' h

theorem Decoder.lead_two {b : Nat} (h : 0xC2 ≤ b ∧ b ≤ 0xDF) :
    lead b = ({ Decoder.start with needed := 1, point := b - 0xC0 }, []) := by
  rw [lead, if_neg (by omega), if_pos h]

theorem Decoder.lead_three {b : Nat} (h : 0xE0 ≤ b ∧ b ≤ 0xEF) :
    lead b = ({ Decoder.start with
        needed := 2, point := b - 0xE0
        lower := if b = 0xE0 then 0xA0 else 0x80
        upper := if b = 0xED then 0x9F else 0xBF }, []) := by
  rw [lead, if_neg (by omega), if_neg (by omega), if_pos h]

theorem Decoder.lead_four {b : Nat} (h : 0xF0 ≤ b ∧ b ≤ 0xF4) :
    lead b = ({ Decoder.start with
        needed := 3, point := b - 0xF0
        lower := if b = 0xF0 then 0x90 else 0x80
        upper := if b = 0xF4 then 0x8F else 0xBF }, []) := by
  rw [lead, if_neg (by omega), if_neg (by omega), if_neg (by omega), if_pos h]

/-- A continuation byte that is not the last. -/
theorem Decoder.byte_more {d : Decoder} {b : Nat} (hneeded : d.needed ≠ 0)
    (hrange : d.lower ≤ b ∧ b ≤ d.upper) (hseen : d.seen + 1 ≠ d.needed) :
    d.byte b = ({ d with seen := d.seen + 1, point := d.point * 64 + (b - 0x80)
                         lower := 0x80, upper := 0xBF }, []) := by
  rw [byte, if_neg hneeded, if_neg (by omega), if_neg hseen]

/-- The last continuation byte. -/
theorem Decoder.byte_last {d : Decoder} {b : Nat} (hneeded : d.needed ≠ 0)
    (hrange : d.lower ≤ b ∧ b ≤ d.upper) (hseen : d.seen + 1 = d.needed) :
    d.byte b = (.start, [Char.ofNat (d.point * 64 + (b - 0x80))]) := by
  rw [byte, if_neg hneeded, if_neg (by omega), if_pos hseen]

theorem Decoder.start_byte (b : Nat) : Decoder.start.byte b = lead b := if_pos rfl

theorem Decoder.feed_step {d d' : Decoder} {b : Nat} {out : List Char}
    {bytes : List UInt8} (hb : b < 256) (h : d.byte b = (d', out)) :
    d.feed (UInt8.ofNat b :: bytes) = ((d'.feed bytes).1, out ++ (d'.feed bytes).2) := by
  rw [feed, toNat_byte hb, h]

theorem Decoder.feed_two {v : Nat} (h : 0x80 ≤ v ∧ v ≤ 0x7FF) :
    Decoder.start.feed [UInt8.ofNat (v / 64 % 32 + 192), UInt8.ofNat (v % 64 + 128)]
      = (.start, [Char.ofNat v]) := by
  have hpoint : (v / 64 % 32 + 192 - 192) * 64 + (v % 64 + 128 - 128) = v := by omega
  rw [feed_step (by omega) ((start_byte _).trans (lead_two (by omega))),
    feed_step (by omega) (byte_last (by simp) ⟨by simp [start], by simp [start]; omega⟩
      (by simp [start]))]
  dsimp only
  rw [hpoint]
  rfl

/-- Below U+10000 the first two bytes rule out overlong forms and
surrogates. -/
theorem Decoder.feed_three {v : Nat} (h : 0x800 ≤ v ∧ v ≤ 0xFFFF)
    (hscalar : v < 0xD800 ∨ 0xDFFF < v) :
    Decoder.start.feed [UInt8.ofNat (v / 4096 % 16 + 224),
        UInt8.ofNat (v / 64 % 64 + 128), UInt8.ofNat (v % 64 + 128)]
      = (.start, [Char.ofNat v]) := by
  have hpoint : ((v / 4096 % 16 + 224 - 224) * 64 + (v / 64 % 64 + 128 - 128)) * 64
      + (v % 64 + 128 - 128) = v := by omega
  have hlower : (if v / 4096 % 16 + 224 = 0xE0 then 0xA0 else 0x80)
      ≤ v / 64 % 64 + 128 := by
    split <;> omega
  have hupper : v / 64 % 64 + 128
      ≤ if v / 4096 % 16 + 224 = 0xED then 0x9F else 0xBF := by
    split <;> omega
  rw [feed_step (by omega) ((start_byte _).trans (lead_three (by omega))),
    feed_step (by omega) (byte_more (by simp) ⟨hlower, hupper⟩ (by simp [start])),
    feed_step (by omega) (byte_last (by simp) ⟨by simp, by simp; omega⟩
      (by simp [start]))]
  dsimp only
  rw [hpoint]
  rfl

theorem Decoder.feed_four {v : Nat} (h : 0x10000 ≤ v ∧ v < 0x110000) :
    Decoder.start.feed [UInt8.ofNat (v / 262144 % 8 + 240),
        UInt8.ofNat (v / 4096 % 64 + 128), UInt8.ofNat (v / 64 % 64 + 128),
        UInt8.ofNat (v % 64 + 128)]
      = (.start, [Char.ofNat v]) := by
  have hpoint : (((v / 262144 % 8 + 240 - 240) * 64 + (v / 4096 % 64 + 128 - 128)) * 64
      + (v / 64 % 64 + 128 - 128)) * 64 + (v % 64 + 128 - 128) = v := by omega
  have hlower : (if v / 262144 % 8 + 240 = 0xF0 then 0x90 else 0x80)
      ≤ v / 4096 % 64 + 128 := by
    split <;> omega
  have hupper : v / 4096 % 64 + 128
      ≤ if v / 262144 % 8 + 240 = 0xF4 then 0x8F else 0xBF := by
    split <;> omega
  rw [feed_step (by omega) ((start_byte _).trans (lead_four (by omega))),
    feed_step (by omega) (byte_more (by simp) ⟨hlower, hupper⟩ (by simp [start])),
    feed_step (by omega) (byte_more (by simp) ⟨by simp, by simp; omega⟩
      (by simp [start])),
    feed_step (by omega) (byte_last (by simp) ⟨by simp, by simp; omega⟩
      (by simp [start]))]
  dsimp only
  rw [hpoint]
  rfl

/-- A character is read back, whatever its length. -/
theorem Decoder.feed_encodeChar (c : Char) :
    Decoder.start.feed (String.utf8EncodeChar c) = (.start, [c]) := by
  have hrange := toNat_range c
  have hchar : Char.ofNat c.val.toNat = c := Char.ofNat_toNat c
  unfold String.utf8EncodeChar
  generalize c.val.toNat = v at hrange hchar
  dsimp only
  by_cases h1 : v ≤ 0x7F
  · rw [if_pos h1]
    simp [feed, toNat_byte (show v < 256 by omega), start_byte, lead, h1, hchar]
  · rw [if_neg h1]
    by_cases h2 : v ≤ 0x7FF
    · rw [if_pos h2, feed_two (by omega), hchar]
    · rw [if_neg h2]
      by_cases h3 : v ≤ 0xFFFF
      · rw [if_pos h3, feed_three (by omega) (by omega), hchar]
      · rw [if_neg h3, feed_four (by omega), hchar]

/-- What was written is read. -/
theorem Decoder.feed_encode (text : List Char) :
    Decoder.start.feed (encode text) = (.start, text) := by
  induction text with
  | nil => rfl
  | cons c text ih =>
      show Decoder.start.feed (String.utf8EncodeChar c ++ encode text) = _
      rw [feed_append, feed_encodeChar, ih]
      rfl

/-- A text that does not start with a byte order mark is read whole. -/
theorem TextDecoder.decode_encode {text : List Char}
    (h : text.head? ≠ some byteOrderMark) :
    ∃ bomSeen, TextDecoder.start.decode (encode text)
      = ({ decoder := .start, bomSeen }, text) := by
  simp only [decode, start, Decoder.feed_encode]
  cases text with
  | nil => exact ⟨false, rfl⟩
  | cons c text =>
      refine ⟨true, ?_⟩
      have hc : c ≠ byteOrderMark := fun hc => h (congrArg some hc)
      simp [emit, hc]

end Mosaic.Lib.Utf8
