/-
Hexadecimal forms of bytes.

The ledger's own form is upper case without a mark. Users and nodes may add one `0x` or `0X`, write
small letters and put ASCII blanks between the pairs of digits.

* `Hex.ofBytes` writes, `Hex.toBytes?` reads pairs of digits;
* `Hex.stripMark` removes one mark, `Hex.normalize` does so and capitalises;
* `Bytes.padEnd`, `Bytes.ofNat`, `Bytes.toNat` are the fixed width big-endian forms.
-/
import LedgerAbi.Text.Upper
import LedgerAbi.Text.Quoted
import LedgerAbi.Text.Numeral

namespace LedgerAbi

namespace Hex

/-- The capital hexadecimal digit of a number below 16. -/
def capitalDigit (n : Nat) : CodePoint := .ofNat (if n < 10 then 48 + n else 55 + n)

/-- The two capital digits of a byte. -/
def ofByte (b : UInt8) : Text := [capitalDigit (b.toNat / 16), capitalDigit (b.toNat % 16)]

/-- Two capital digits for each byte. -/
def ofBytes (bytes : Bytes) : Text := bytes.flatMap ofByte

/-- Two small digits for each byte. -/
def lowerOfBytes (bytes : Bytes) : Text := bytes.flatMap fun b => Text.hexDigits 2 b.toNat

/-- The bytes written as pairs of digits, with blanks allowed before each pair and at the end. -/
def toBytes? : Text → Option Bytes
  | [] => some []
  | c :: rest =>
    if c.isAsciiSpace then toBytes? rest
    else match rest with
      | [] => none
      | d :: rest => do
        let high ← c.hexValue?
        let low ← d.hexValue?
        let bytes ← toBytes? rest
        some ((high * 16 + low).toUInt8 :: bytes)

/-- The text without one leading `0x` or `0X`. -/
def stripMark (t : Text) : Text := if t.hasHexMark then t.drop 2 else t

/-- The capital form of a text without its mark. -/
def normalize (t : Text) : Text := (stripMark t).toUpper

/-- The bytes of a hexadecimal text, with or without a mark. -/
def read? (t : Text) : Option Bytes := toBytes? (stripMark t)

/-- The text with a mark, which is put in front unless it is there already. -/
def withMark (t : Text) : Text := if t.hasHexMark then t else "0x" ++ t

/-- True if the text, without its mark, is forty hexadecimal digits. -/
def isAddress (t : Text) : Bool :=
  let digits := stripMark t
  digits.length == 40 && digits.all fun c => c.hexValue?.isSome

end Hex

namespace Bytes

/-- The bytes followed by zeros up to a length. -/
def padEnd (bytes : Bytes) (length : Nat) : Bytes :=
  bytes ++ List.replicate (length - bytes.length) 0

/-- The number that the bytes write in base 256, most significant byte first. -/
def toNat (bytes : Bytes) : Nat := bytes.foldl (fun n b => n * 256 + b.toNat) 0

/-- The last `length` base 256 digits of a number, most significant first. -/
def ofNat : Nat → Nat → Bytes
  | 0, _ => []
  | length + 1, n => ofNat length (n / 256) ++ [n.toUInt8]

end Bytes

end LedgerAbi
