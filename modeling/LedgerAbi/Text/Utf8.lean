/-
The UTF-8 form of texts.

* `Text.toUtf8` writes each code point in one to four bytes. A lone surrogate gets the three bytes of
  its number, which no reader accepts, so writers ask `Text.isScalar` first.
* `Text.ofUtf8?` reads strictly: no overlong form, no surrogate, nothing past the last code point.
-/
import LedgerAbi.Text.Basic

namespace LedgerAbi

/-- A sequence of bytes. -/
abbrev Bytes := List UInt8

namespace Text

/-- The bytes of the code point with a number. -/
def utf8Bytes (n : Nat) : Bytes :=
  if n < 0x80 then [n.toUInt8]
  else if n < 0x800 then [(0xC0 + n / 64).toUInt8, (0x80 + n % 64).toUInt8]
  else if n < 0x10000 then
    [(0xE0 + n / 4096).toUInt8, (0x80 + n / 64 % 64).toUInt8, (0x80 + n % 64).toUInt8]
  else
    [(0xF0 + n / 262144).toUInt8, (0x80 + n / 4096 % 64).toUInt8, (0x80 + n / 64 % 64).toUInt8,
      (0x80 + n % 64).toUInt8]

def toUtf8 (t : Text) : Bytes := t.flatMap fun c => utf8Bytes c.toNat

/-- The six low bits of a continuation byte. -/
def continuation? (b : UInt8) : Option Nat :=
  if 0x80 ≤ b.toNat ∧ b.toNat < 0xC0 then some (b.toNat - 0x80) else none

/-- A character whose number lies in a range. -/
def scalar? (low n : Nat) : Option CodePoint :=
  if low ≤ n ∧ n < 0x110000 ∧ ¬ (0xD800 ≤ n ∧ n < 0xE000) then some (.char (Char.ofNat n)) else none

/-- The text that some bytes are the UTF-8 form of. -/
def ofUtf8? : Bytes → Option Text
  | [] => some []
  | b :: rest =>
    let n := b.toNat
    if n < 0x80 then (ofUtf8? rest).map (.char (Char.ofNat n) :: ·)
    else if n < 0xC0 then none
    else if n < 0xE0 then
      match rest with
      | b₁ :: rest => do
        let c ← scalar? 0x80 ((n - 0xC0) * 64 + (← continuation? b₁))
        (ofUtf8? rest).map (c :: ·)
      | _ => none
    else if n < 0xF0 then
      match rest with
      | b₁ :: b₂ :: rest => do
        let c ← scalar? 0x800 ((n - 0xE0) * 4096 + (← continuation? b₁) * 64 + (← continuation? b₂))
        (ofUtf8? rest).map (c :: ·)
      | _ => none
    else if n < 0xF8 then
      match rest with
      | b₁ :: b₂ :: b₃ :: rest => do
        let c ← scalar? 0x10000 ((n - 0xF0) * 262144 + (← continuation? b₁) * 4096
          + (← continuation? b₂) * 64 + (← continuation? b₃))
        (ofUtf8? rest).map (c :: ·)
      | _ => none
    else none

/-- The text of bytes below 128. -/
def ofAscii? (bytes : Bytes) : Option Text :=
  if bytes.all (·.toNat < 128) then some (bytes.map fun b => .ofNat b.toNat) else none

/-- The bytes of a text of code points below 128. -/
def toAscii? (t : Text) : Option Bytes :=
  if t.all CodePoint.isAscii then some (t.map (·.toNat.toUInt8)) else none

end Text

end LedgerAbi
