/-
Numbers in JSON, as far as their readers tell them apart: a whole number of at most 64 bits without
a sign, any other number, and one too large for a double.
-/

namespace ChangeRelay.Json

/-- The parts of a number as it is written, digits latest first. -/
structure Digits where
  negative : Bool
  whole : List Nat
  fraction : List Nat
  /-- Whether the number has a fraction or an exponent. -/
  isBroken : Bool
  exponentNegative : Bool
  exponent : List Nat
  deriving Repr

/-- A number, as far as its readers tell numbers apart. -/
inductive Numeral where
  /-- A whole number of at most 64 bits, without a sign. -/
  | word (n : Nat)
  /-- A number with a sign, a fraction, an exponent or more than 64 bits. -/
  | other
  /-- A number too large for a double. -/
  | tooLarge
  deriving DecidableEq, Repr

namespace Numeral

/-- The least number that has no word of 64 bits. -/
def wordLimit : Nat := Nat.pow 2 64

/-- A number rounded to 53 binary digits, a tie to the even neighbour. -/
def round53 (n : Nat) : Nat :=
  if n < Nat.pow 2 53 then n
  else
    let shift := n.log2 - 52
    let kept := n / Nat.pow 2 shift
    let rest := 2 * (n % Nat.pow 2 shift)
    let up := decide (Nat.pow 2 shift < rest) || (rest == Nat.pow 2 shift && kept % 2 == 1)
    (if up then kept + 1 else kept) * Nat.pow 2 shift

/-- The least number that rounds to no finite double. -/
def doubleLimit : Nat := Nat.pow 2 1024 - Nat.pow 2 970

/-- The digits of the whole part that fit a word, and how many did not. -/
def wholePart : List Nat → Nat × Nat → Nat × Nat
  | [], s => s
  | d :: ds, (n, dropped) =>
    if dropped = 0 ∧ n * 10 + d < wordLimit then wholePart ds (n * 10 + d, 0)
    else wholePart ds (n, dropped + 1)

/-- The digits of the fraction that still fit a word, and how many they are. -/
def fractionPart : List Nat → Nat × Nat → Nat × Nat
  | [], s => s
  | d :: ds, (n, taken) =>
    if n * 10 + d < wordLimit then fractionPart ds (n * 10 + d, taken + 1) else (n, taken)

/-- The value of a list of digits, first digit first. -/
def valueOf (ds : List Nat) : Nat := ds.foldl (fun n d => n * 10 + d) 0

/-- The largest exponent that is counted. -/
def exponentLimit : Nat := Nat.pow 2 31

/-- Whether `n · 10^e` is too large for a double, both factors rounded to one. -/
def overflows (n : Nat) (e : Int) : Bool :=
  if n = 0 then false
  else if e < 0 then false
  else if 308 < e then true
  else decide (doubleLimit ≤ round53 n * round53 (Nat.pow 10 e.toNat))

/-- The number that the digits write. -/
def ofDigits (d : Digits) : Numeral :=
  let (n, dropped) := wholePart d.whole.reverse (0, 0)
  if !d.isBroken && dropped == 0 then
    if d.negative then .other else .word n
  else
    let (n, taken) := fractionPart d.fraction.reverse (n, 0)
    let e := valueOf d.exponent.reverse
    let start : Int := (dropped : Int) - (taken : Int)
    if exponentLimit ≤ e then
      if n ≠ 0 ∧ !d.exponentNegative then .tooLarge else .other
    else if overflows n (if d.exponentNegative then start - e else start + e) then .tooLarge
    else .other

end Numeral
end ChangeRelay.Json
