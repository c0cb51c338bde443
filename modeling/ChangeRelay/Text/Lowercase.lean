/-
Lower case over all of Unicode. A letter is lowered by the case data; the capital sigma at the end
of a word takes its final form; the dotted capital I becomes an i with a dot above, the one letter
whose lower case is two characters.
-/
import ChangeRelay.Text.CaseTable

namespace ChangeRelay.Text

/-- Whether a code point lies in one of the closed ranges. -/
def inRanges (ranges : List (Nat × Nat)) (n : Nat) : Bool :=
  ranges.any fun r => decide (r.1 ≤ n) && decide (n ≤ r.2)

/-- Whether the character has a case. -/
def isCased (c : Char) : Bool := inRanges casedRanges c.toNat

/-- Whether the character is passed over when a cased neighbour is looked for. -/
def isCaseIgnorable (c : Char) : Bool := inRanges caseIgnorableRanges c.toNat

/-- Whether the first character that is not passed over has a case. -/
def casedAhead (cs : List Char) : Bool :=
  match cs.dropWhile isCaseIgnorable with
  | [] => false
  | c :: _ => isCased c

/-- The lower case of one character, whatever stands around it. -/
def lowerChar (c : Char) : List Char :=
  if c.toNat = 0x130 then ['i', Char.ofNat 0x307]
  else
    match caseRuns.find? (·.covers c.toNat) with
    | some r => [Char.ofNat (r.target + (c.toNat - r.first))]
    | none => [c]

/-- The capital sigma, whose lower case depends on its place in the word. -/
def capitalSigma : Char := Char.ofNat 0x3A3

/-- The lower case of a capital sigma: its final form after a cased character and before none. -/
def lowerSigma (before after : List Char) : Char :=
  if casedAhead before && !casedAhead after then Char.ofNat 0x3C2 else Char.ofNat 0x3C3

/-- Lowers a text of which `before` has been passed already, latest character first. -/
def lowerAfter (before : List Char) : List Char → List Char
  | [] => []
  | c :: cs =>
    (if c = capitalSigma then [lowerSigma before cs] else lowerChar c) ++ lowerAfter (c :: before) cs

/-- The lower case of a text. -/
def lowercase (s : String) : String := String.ofList (lowerAfter [] s.toList)

/-- The lower case of a letter between A and Z, and any other character unchanged. -/
def lowerAscii (c : Char) : Char :=
  if 'A' ≤ c ∧ c ≤ 'Z' then Char.ofNat (c.toNat + 32) else c

/-- Whether two texts agree but for the case of the letters A to Z. -/
def sameButAsciiCase (s t : String) : Bool :=
  s.toList.map lowerAscii == t.toList.map lowerAscii

end ChangeRelay.Text
