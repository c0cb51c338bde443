/-
Matching a text against a pattern. Letters keep their case, and no character is special in the
text: `*`, `?` and brackets take separators and dots like any other character. A matcher that runs
out of text while it still needs a character says so, since then no longer run at an earlier place
can help; this keeps the search from trying all of them.
-/
import ChangeRelay.Pattern.Basic

namespace ChangeRelay.Pattern

/-- Whether a member of a bracket covers a character. -/
def Member.covers : Member → Char → Bool
  | .one a, c => c == a
  | .range a b, c => decide (a ≤ c) && decide (c ≤ b)

/-- Whether a piece that stands for one character accepts it. -/
def Token.accepts : Token → Char → Bool
  | .char a, c => c == a
  | .any, _ => true
  | .within set, c => set.any (·.covers c)
  | .except set, c => !set.any (·.covers c)
  | .run, _ => false
  | .directories, _ => false

/-- What an attempt to match comes to. -/
inductive Outcome where
  | hit
  | miss
  /-- The text ended where a character was needed. -/
  | exhausted
  deriving DecidableEq, Repr

/-- Goes on with `next` after every character that `stops` names, and at the end, until that gives
anything but a miss. -/
def seek (next : List Char → Outcome) (stops : Char → Bool) : List Char → Outcome
  | [] => next []
  | c :: cs =>
    if stops c then
      match next cs with
      | .miss => seek next stops cs
      | other => other
    else seek next stops cs

/-- Goes on with `next` at once, and else after each character that `stops` names. -/
def seekFromHere (next : List Char → Outcome) (stops : Char → Bool) (cs : List Char) : Outcome :=
  match next cs with
  | .miss => seek next stops cs
  | other => other

/-- Matches a text against the pieces of a pattern. -/
def outcome : List Token → List Char → Outcome
  | [], [] => .hit
  | [], _ :: _ => .miss
  | .run :: ts, cs => seekFromHere (outcome ts) (fun _ => true) cs
  | .directories :: ts, cs => seekFromHere (outcome ts) (· == '/') cs
  | _ :: _, [] => .exhausted
  | t :: ts, c :: cs => if t.accepts c then outcome ts cs else .miss

end Pattern

/-- Whether a text matches a pattern. -/
def Pattern.accepts (p : Pattern) (s : String) : Bool := Pattern.outcome p.tokens s.toList == .hit

end ChangeRelay
