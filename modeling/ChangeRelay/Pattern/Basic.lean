/-
Patterns for paths, as they are written. `?` stands for one character, `*` for any run of them, a
bracket for one character of a set or, after `!`, for one outside it; `**` stands for any number of
whole directories and must be a whole segment of the pattern. What is no pattern is refused with
the position of the fault, counted in characters.
-/

namespace ChangeRelay.Pattern

/-- A member of a bracket: one character or a range with both its ends. -/
inductive Member where
  | one (c : Char)
  | range (first last : Char)
  deriving DecidableEq, Repr

/-- A piece of a pattern. -/
inductive Token where
  /-- This character. -/
  | char (c : Char)
  /-- Any one character. -/
  | any
  /-- One character of the set. -/
  | within (set : List Member)
  /-- One character outside the set. -/
  | except (set : List Member)
  /-- Any run of characters. -/
  | run
  /-- Any run of whole directories. -/
  | directories
  deriving DecidableEq, Repr

/-- Why a text is no pattern. -/
inductive FlawKind where
  /-- Three stars or more. -/
  | tooManyStars
  /-- Two stars that are no whole segment. -/
  | looseStars
  /-- A bracket that is not closed or holds nothing. -/
  | badBracket
  deriving DecidableEq, Repr

/-- A fault in the text of a pattern, with its position. -/
structure Flaw where
  position : Nat
  kind : FlawKind
  deriving DecidableEq, Repr

/-- The wording of a kind of fault. -/
def FlawKind.message : FlawKind → String
  | .tooManyStars => "wildcards are either regular `*` or recursive `**`"
  | .looseStars => "recursive wildcards must form a single path component"
  | .badBracket => "invalid range pattern"

/-- The wording of a fault. -/
def Flaw.message (f : Flaw) : String :=
  "Pattern syntax error near position " ++ toString f.position ++ ": " ++ f.kind.message

/-- The members written in a bracket. A `-` between two characters makes a range. -/
def members : List Char → List Member
  | a :: '-' :: b :: rest => .range a b :: members rest
  | a :: rest => .one a :: members rest
  | [] => []

/-- The bracket that a text following `[` starts with, and the number of characters it takes. The
first character of the set may be the closing bracket. -/
def bracket? : List Char → Option (Token × Nat)
  | '!' :: c :: rest =>
    let inside := rest.takeWhile (· ≠ ']')
    if inside.length < rest.length then
      some (.except (members (c :: inside)), inside.length + 3)
    else none
  | '!' :: [] => none
  | c :: rest =>
    let inside := rest.takeWhile (· ≠ ']')
    if inside.length < rest.length then
      some (.within (members (c :: inside)), inside.length + 2)
    else none
  | [] => none

/-- Adds a piece for whole directories to the pieces before it, latest first; directly after
another one it says nothing new. -/
def addDirectories : List Token → List Token
  | .directories :: t :: ts => .directories :: t :: ts
  | ts => .directories :: ts

/-- The pieces that a star and the text after it make, and the number of characters they take
besides the star. -/
def stars (position : Nat) (before : Option Char) (pieces : List Token) (rest : List Char) :
    Except Flaw (List Token × Nat) :=
  match rest.takeWhile (· = '*') with
  | [] => .ok (.run :: pieces, 0)
  | [_] =>
    if before = none ∨ before = some '/' then
      match rest.drop 1 with
      | [] => .ok (addDirectories pieces, 1)
      | '/' :: _ => .ok (addDirectories pieces, 2)
      | _ :: _ => .error ⟨position + 2, .looseStars⟩
    else .error ⟨position - 1, .looseStars⟩
  | _ :: _ :: _ => .error ⟨position + 2, .tooManyStars⟩

/-- Reads a pattern from a position on. `skip` characters have been read ahead; `before` is the
character before the position, `pieces` what has been read, latest first. -/
def readFrom (position : Nat) (before : Option Char) (pieces : List Token) :
    Nat → List Char → Except Flaw (List Token)
  | _, [] => .ok pieces.reverse
  | skip + 1, c :: rest => readFrom (position + 1) (some c) pieces skip rest
  | 0, c :: rest =>
    if c = '?' then readFrom (position + 1) (some c) (.any :: pieces) 0 rest
    else if c = '*' then
      match stars position before pieces rest with
      | .error f => .error f
      | .ok (pieces, skip) => readFrom (position + 1) (some c) pieces skip rest
    else if c = '[' then
      match bracket? rest with
      | none => .error ⟨position, .badBracket⟩
      | some (t, skip) => readFrom (position + 1) (some c) (t :: pieces) skip rest
    else readFrom (position + 1) (some c) (.char c :: pieces) 0 rest

end Pattern

/-- A pattern, as the list of its pieces. -/
structure Pattern where
  tokens : List Pattern.Token
  deriving DecidableEq, Repr

namespace Pattern

/-- Reads a pattern. -/
def ofText (s : String) : Except Flaw Pattern := (readFrom 0 none [] 0 s.toList).map Pattern.mk

end ChangeRelay.Pattern
