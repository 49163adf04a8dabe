/-!
# Hexadecimal text

Fixed-width lower-case hexadecimal, as used for encoding codes and payload bytes. A number is
written with exactly `width` digits, most significant first; digits above the width are dropped.
-/

namespace CameraStream.Text

/-- The lower-case hexadecimal digit of `n % 16`. -/
def hexDigit (n : Nat) : Char :=
  if n % 16 < 10 then Char.ofNat ('0'.toNat + n % 16) else Char.ofNat ('a'.toNat + (n % 16 - 10))

/-- The `width` lowest hexadecimal digits of `n`, most significant first. -/
def hexDigits : (width : Nat) → (n : Nat) → List Char
  | 0, _ => []
  | width + 1, n => hexDigits width (n / 16) ++ [hexDigit n]

/-- The `width` lowest hexadecimal digits of `n` as text. -/
def hex (width n : Nat) : String :=
  String.ofList (hexDigits width n)

/-- Payload bytes as text, two digits a byte. -/
def hexBytes (bytes : List UInt8) : String :=
  String.ofList (bytes.flatMap fun b => hexDigits 2 b.toNat)

end CameraStream.Text
