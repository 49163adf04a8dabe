import CameraStream.Text.Hidden

/-!
# Quoted names

Names are shown between double quotes in diagnostic text. A quote and a backslash are escaped by a
backslash, line ends and tabs have letters of their own, and every other character that cannot be
seen is written as its code between braces.
-/

namespace CameraStream.Text

/-- Hexadecimal digits of `n` without leading zeros. -/
def shortHex (n : Nat) : String :=
  String.ofList (Nat.toDigits 16 n)

/-- How one character is written between quotes. -/
def escapeChar (c : Char) : String :=
  if c = '"' then "\\\""
  else if c = '\\' then "\\\\"
  else if c = '\n' then "\\n"
  else if c = '\r' then "\\r"
  else if c = '\t' then "\\t"
  else if c = '\x00' then "\\0"
  else if isHidden c then
    "\\u\x7b" ++ shortHex c.toNat ++ "\x7d"
  else c.toString

/-- A name between double quotes. -/
def quoted (name : String) : String :=
  "\"" ++ String.join (name.toList.map escapeChar) ++ "\""

/-- A list of names, each between quotes. -/
def quotedList (names : List String) : String :=
  "[" ++ ", ".intercalate (names.map quoted) ++ "]"

end CameraStream.Text
