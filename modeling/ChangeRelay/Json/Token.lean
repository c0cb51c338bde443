/-
The tokens of a JSON text. The text is read character by character; the reading stops at the first
place where it is no JSON text, and the last token says what stands there. A value that nobody asks
for is passed over less strictly than it is read, so a token that stops the reading knows both
answers.
-/
import ChangeRelay.Json.Numeral

namespace ChangeRelay.Json

/-- Why a text could not be read. -/
inductive Flaw where
  /-- It is JSON, but not of the shape that is asked for. -/
  | shape
  /-- It is no JSON. -/
  | grammar
  /-- It ended too early. -/
  | ended
  deriving DecidableEq, Repr

/-- A token of a JSON text. -/
inductive Token where
  | openBrace
  | closeBrace
  | openBracket
  | closeBracket
  | comma
  | colon
  | null
  | flag (b : Bool)
  | number (n : Numeral)
  /-- A string. One with half of a surrogate pair can be passed over but not read. -/
  | text (s : Except Flaw String)
  /-- A string that is not closed or breaks off. -/
  | cutText (onRead onSkip : Flaw)
  /-- A word that is none. -/
  | cutWord (flaw : Flaw)
  /-- A number that breaks off; passed over, it is no JSON even at the end of the text. -/
  | cutNumber (onRead : Flaw)
  /-- A character that starts no token. -/
  | stray

/-! ## Strings -/

/-- What is being read of a string. -/
inductive TextPart where
  | plain
  /-- The character after a backslash. -/
  | escape
  /-- Digits of a code unit, after the first half of a pair or not. -/
  | unit (missing value : Nat) (half : Option Nat)
  /-- The backslash that has to follow the first half of a pair. -/
  | half (first : Nat)
  /-- The `u` that has to follow it. -/
  | halfEscape (first : Nat)

/-- A string while it is read: its characters, latest first, and the fault that keeps it from
being read, if it had one so far. -/
structure TextState where
  chars : List Char
  flaw : Option Flaw
  part : TextPart

namespace TextState

/-- The string goes on with a character. -/
def push (t : TextState) (c : Char) : TextState := { t with chars := c :: t.chars, part := .plain }

/-- The string cannot be read, but passed over. -/
def spoil (t : TextState) : TextState := { t with flaw := some (t.flaw.getD .grammar) }

/-- The token of a string that breaks off. -/
def cut (t : TextState) (f : Flaw) : Token := .cutText (t.flaw.getD f) f

/-- The token of a string that is closed. -/
def close (t : TextState) : Token :=
  match t.flaw with
  | none => .text (.ok (String.ofList t.chars.reverse))
  | some f => .text (.error f)

end TextState

/-- The value of a hexadecimal digit. -/
def hexValue? (c : Char) : Option Nat :=
  if '0' ≤ c ∧ c ≤ '9' then some (c.toNat - 48)
  else if 'a' ≤ c ∧ c ≤ 'f' then some (c.toNat - 87)
  else if 'A' ≤ c ∧ c ≤ 'F' then some (c.toNat - 55)
  else none

/-- The character that an escape of one letter stands for. -/
def escaped? (c : Char) : Option Char :=
  if c = '"' ∨ c = '\\' ∨ c = '/' then some c
  else if c = 'b' then some (Char.ofNat 8)
  else if c = 'f' then some (Char.ofNat 12)
  else if c = 'n' then some '\n'
  else if c = 'r' then some '\r'
  else if c = 't' then some '\t'
  else none

/-- Whether the characters take fewer than `n` bytes. -/
def shorterThan (n : Nat) (cs : List Char) : Bool :=
  decide ((cs.map Char.utf8Size).foldl (· + ·) 0 < n)

/-- A code unit has been read. -/
def TextState.endUnit (t : TextState) (value : Nat) : Option Nat → TextState
  | none =>
    if 0xDC00 ≤ value ∧ value ≤ 0xDFFF then { t.spoil with part := .plain }
    else if 0xD800 ≤ value ∧ value ≤ 0xDBFF then { t with part := .half value }
    else t.push (Char.ofNat value)
  | some first =>
    if 0xDC00 ≤ value ∧ value ≤ 0xDFFF then
      t.push (Char.ofNat (0x10000 + (first - 0xD800) * 0x400 + (value - 0xDC00)))
    else { t.spoil with part := .plain }

/-- What a character does to the string being read: it goes on, or a token ends it. -/
inductive TextStep where
  | goOn (t : TextState)
  | done (token : Token)
  | stop (token : Token)

/-- A character in the plain part of a string. -/
def plainStep (t : TextState) (c : Char) : TextStep :=
  if c = '"' then .done t.close
  else if c = '\\' then .goOn { t with part := .escape }
  else if c.toNat < 0x20 then .stop (t.cut .grammar)
  else .goOn (t.push c)

/-- A character after a backslash. -/
def escapeStep (t : TextState) (c : Char) : TextStep :=
  if c = 'u' then .goOn { t with part := .unit 4 0 none }
  else
    match escaped? c with
    | some e => .goOn (t.push e)
    | none => .stop (t.cut .grammar)

/-- The next character of a string, with the characters after it. A code unit that is not four
digits breaks off at the end of the text if fewer than four bytes are left for it. -/
def textStep (t : TextState) (c : Char) (rest : List Char) : TextStep :=
  match t.part with
  | .plain => plainStep t c
  | .escape => escapeStep t c
  | .unit missing value half =>
    match hexValue? c with
    | some d =>
      if missing ≤ 1 then .goOn (t.endUnit (value * 16 + d) half)
      else .goOn { t with part := .unit (missing - 1) (value * 16 + d) half }
    | none => .stop (t.cut (if shorterThan missing (c :: rest) then .ended else .grammar))
  | .half first =>
    if c = '\\' then .goOn { t with part := .halfEscape first } else plainStep t.spoil c
  | .halfEscape first =>
    if c = 'u' then .goOn { t with part := .unit 4 0 (some first) } else escapeStep t.spoil c

/-! ## Numbers -/

/-- The place in a number that is being read. -/
inductive NumberPart where
  | sign
  | zero
  | whole
  | point
  | fraction
  | mark
  | markSign
  | exponent
  deriving DecidableEq, Repr

/-- Whether a number may end at this place. -/
def NumberPart.mayEnd : NumberPart → Bool
  | .zero | .whole | .fraction | .exponent => true
  | .sign | .point | .mark | .markSign => false

/-- The value of a decimal digit. -/
def digit? (c : Char) : Option Nat := if '0' ≤ c ∧ c ≤ '9' then some (c.toNat - 48) else none

/-- A number that starts with a sign. -/
def Digits.minus : Digits := ⟨true, [], [], false, false, []⟩

/-- A number that starts with a digit. -/
def Digits.first (d : Nat) : Digits := ⟨false, [d], [], false, false, []⟩

/-- What a character does to the number being read. -/
inductive NumberStep where
  | goOn (part : NumberPart) (digits : Digits)
  /-- The character does not belong to the number, which ends before it if it may. -/
  | outside
  /-- The number breaks off. -/
  | stop

/-- The next character of a number. -/
def numberStep (part : NumberPart) (ds : Digits) (c : Char) : NumberStep :=
  match digit? c with
  | some d =>
    match part with
    | .sign => .goOn (if d = 0 then .zero else .whole) { ds with whole := [d] }
    | .zero => .stop
    | .whole => .goOn .whole { ds with whole := d :: ds.whole }
    | .point | .fraction => .goOn .fraction { ds with fraction := d :: ds.fraction }
    | .mark | .markSign | .exponent => .goOn .exponent { ds with exponent := d :: ds.exponent }
  | none =>
    if c = '.' ∧ (part = .zero ∨ part = .whole) then .goOn .point { ds with isBroken := true }
    else if (c = 'e' ∨ c = 'E') ∧ (part = .zero ∨ part = .whole ∨ part = .fraction) then
      .goOn .mark { ds with isBroken := true }
    else if (c = '+' ∨ c = '-') ∧ part = .mark then
      .goOn .markSign { ds with exponentNegative := c == '-' }
    else if part.mayEnd then .outside
    else .stop

/-! ## The whole text -/

/-- What is being read. -/
inductive Reading where
  | between
  /-- A word: the letters that have to follow, and its token. -/
  | word (letters : List Char) (token : Token)
  | number (part : NumberPart) (digits : Digits)
  | text (state : TextState)

/-- The tokens that a step gives, and what is read next; nothing after a token that stops. -/
abbrev Step := List Token × Option Reading

/-- A character between two tokens. -/
def opening (c : Char) : Step :=
  if c = ' ' ∨ c = '\n' ∨ c = '\t' ∨ c = '\r' then ([], some .between)
  else if c = Char.ofNat 0x7B then ([.openBrace], some .between)
  else if c = Char.ofNat 0x7D then ([.closeBrace], some .between)
  else if c = '[' then ([.openBracket], some .between)
  else if c = ']' then ([.closeBracket], some .between)
  else if c = ',' then ([.comma], some .between)
  else if c = ':' then ([.colon], some .between)
  else if c = '"' then ([], some (.text ⟨[], none, .plain⟩))
  else if c = 'n' then ([], some (.word ['u', 'l', 'l'] .null))
  else if c = 't' then ([], some (.word ['r', 'u', 'e'] (.flag true)))
  else if c = 'f' then ([], some (.word ['a', 'l', 's', 'e'] (.flag false)))
  else if c = '-' then ([], some (.number .sign .minus))
  else
    match digit? c with
    | some d => ([], some (.number (if d = 0 then .zero else .whole) (.first d)))
    | none => ([.stray], none)

/-- The next character of the text, with the characters after it. -/
def advance (r : Reading) (c : Char) (rest : List Char) : Step :=
  match r with
  | .between => opening c
  | .word [] token => (token :: (opening c).1, (opening c).2)
  | .word (l :: ls) token =>
    if c = l then
      if ls = [] then ([token], some .between) else ([], some (.word ls token))
    else ([.cutWord .grammar], none)
  | .number part digits =>
    match numberStep part digits c with
    | .goOn part digits => ([], some (.number part digits))
    | .outside => (.number (.ofDigits digits) :: (opening c).1, (opening c).2)
    | .stop => ([.cutNumber .grammar], none)
  | .text state =>
    match textStep state c rest with
    | .goOn state => ([], some (.text state))
    | .done token => ([token], some .between)
    | .stop token => ([token], none)

/-- The tokens at the end of the text. -/
def finish : Reading → List Token
  | .between => []
  | .word [] token => [token]
  | .word (_ :: _) _ => [.cutWord .ended]
  | .number part digits =>
    if part.mayEnd then [.number (.ofDigits digits)] else [.cutNumber .ended]
  | .text state => [state.cut .ended]

/-- The tokens of a text, from what is being read on. -/
def tokensFrom : Reading → List Char → List Token
  | r, [] => finish r
  | r, c :: rest =>
    (advance r c rest).1 ++
      match (advance r c rest).2 with
      | none => []
      | some next => tokensFrom next rest

/-- The tokens of a text. -/
def tokens (s : String) : List Token := tokensFrom .between s.toList

end ChangeRelay.Json
