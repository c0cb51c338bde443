/-
The quoted form of a text, for diagnostics: between double quotes, the quote and the backslash
escaped by a backslash, the common controls by their letter, and every other character without a
shape of its own by its code point.
-/
import ChangeRelay.Text.HiddenTable
import ChangeRelay.Text.Lowercase

namespace ChangeRelay.Text

/-- The hexadecimal digits of a code point, lower case, without leading zeros. -/
def codePointDigits (c : Char) : List Char := Nat.toDigits 16 c.toNat

/-- One character of a quoted text. -/
def quoteChar (c : Char) : List Char :=
  if c = Char.ofNat 0 then ['\\', '0']
  else if c = '\t' then ['\\', 't']
  else if c = '\r' then ['\\', 'r']
  else if c = '\n' then ['\\', 'n']
  else if c = '"' then ['\\', '"']
  else if c = '\\' then ['\\', '\\']
  else if inRanges hiddenRanges c.toNat then
    ['\\', 'u', Char.ofNat 0x7B] ++ codePointDigits c ++ [Char.ofNat 0x7D]
  else [c]

/-- A text between double quotes. -/
def quote (s : String) : String :=
  String.ofList ('"' :: s.toList.flatMap quoteChar ++ ['"'])

end ChangeRelay.Text
