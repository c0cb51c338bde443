/-
Values and the two ways of writing them: on one line without blanks, and over several lines with
two blanks for each level. Strings keep every character but the quote, the backslash and the
controls.
-/

namespace ChangeRelay.Json

/-- A value that can be written. -/
inductive Value where
  | null
  | flag (b : Bool)
  | number (n : Nat)
  | text (s : String)
  | list (items : List Value)
  | object (fields : List (String × Value))

/-- One character of a written string. -/
def escapeChar (c : Char) : List Char :=
  if c = '"' then ['\\', '"']
  else if c = '\\' then ['\\', '\\']
  else if c = Char.ofNat 8 then ['\\', 'b']
  else if c = Char.ofNat 9 then ['\\', 't']
  else if c = Char.ofNat 10 then ['\\', 'n']
  else if c = Char.ofNat 12 then ['\\', 'f']
  else if c = Char.ofNat 13 then ['\\', 'r']
  else if c.toNat < 32 then
    ['\\', 'u', '0', '0', Nat.digitChar (c.toNat / 16), Nat.digitChar (c.toNat % 16)]
  else [c]

/-- A written string. -/
def writeText (s : String) : List Char := '"' :: s.toList.flatMap escapeChar ++ ['"']

/-- The digits of a written number. -/
def writeNumber (n : Nat) : List Char := Nat.toDigits 10 n

/-- The letters of a written flag. -/
def writeFlag (b : Bool) : List Char :=
  if b then ['t', 'r', 'u', 'e'] else ['f', 'a', 'l', 's', 'e']

/-- The brace that opens an object. -/
def openBrace : Char := Char.ofNat 0x7B

/-- The brace that closes an object. -/
def closeBrace : Char := Char.ofNat 0x7D

namespace Value

mutual

/-- A value on one line. -/
def compactChars : Value → List Char
  | .null => ['n', 'u', 'l', 'l']
  | .flag b => writeFlag b
  | .number n => writeNumber n
  | .text s => writeText s
  | .list items => '[' :: compactItems items ++ [']']
  | .object fields => openBrace :: compactFields fields ++ [closeBrace]

/-- The items of a list, with commas between them. -/
def compactItems : List Value → List Char
  | [] => []
  | [v] => compactChars v
  | v :: w :: vs => compactChars v ++ ',' :: compactItems (w :: vs)

/-- The fields of an object, with commas between them. -/
def compactFields : List (String × Value) → List Char
  | [] => []
  | [(k, v)] => writeText k ++ ':' :: compactChars v
  | (k, v) :: f :: fs => writeText k ++ ':' :: compactChars v ++ ',' :: compactFields (f :: fs)

end

/-- A value on one line. -/
def compact (v : Value) : String := String.ofList (compactChars v)

/-- A new line at a level. -/
def newline (level : Nat) : List Char := '\n' :: List.replicate (2 * level) ' '

mutual

/-- A value over several lines, the first of which is at a level. -/
def prettyChars (level : Nat) : Value → List Char
  | .null => ['n', 'u', 'l', 'l']
  | .flag b => writeFlag b
  | .number n => writeNumber n
  | .text s => writeText s
  | .list [] => ['[', ']']
  | .list (v :: vs) => '[' :: prettyItems (level + 1) (v :: vs) ++ newline level ++ [']']
  | .object [] => [openBrace, closeBrace]
  | .object (f :: fs) =>
    openBrace :: prettyFields (level + 1) (f :: fs) ++ newline level ++ [closeBrace]

/-- The items of a list, each on a line of its own. -/
def prettyItems (level : Nat) : List Value → List Char
  | [] => []
  | [v] => newline level ++ prettyChars level v
  | v :: w :: vs => newline level ++ prettyChars level v ++ ',' :: prettyItems level (w :: vs)

/-- The fields of an object, each on a line of its own. -/
def prettyFields (level : Nat) : List (String × Value) → List Char
  | [] => []
  | [(k, v)] => newline level ++ writeText k ++ ':' :: ' ' :: prettyChars level v
  | (k, v) :: f :: fs =>
    newline level ++ writeText k ++ ':' :: ' ' :: prettyChars level v
      ++ ',' :: prettyFields level (f :: fs)

end

/-- A value over several lines. -/
def pretty (v : Value) : String := String.ofList (prettyChars 0 v)

end Value
end ChangeRelay.Json
