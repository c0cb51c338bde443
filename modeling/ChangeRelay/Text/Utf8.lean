/-
UTF-8 as a reader of bytes. The bytes of a text are read one by one; a sequence that is not the
code of a character is cut at the longest part that could still have become one, and each such part
is one piece of junk. A strict reader refuses junk, a lenient one puts the replacement character in
its place.
-/

namespace ChangeRelay.Utf8

/-- What a run of bytes stands for: a character, or a part that is the code of none. -/
inductive Piece where
  | char (c : Char)
  | junk
  deriving DecidableEq, Repr

/-- A character of which the first bytes have been read: the bits so far, the number of bytes still
to come, and the bounds of the next one. -/
structure Begun where
  bits : Nat
  missing : Nat
  low : Nat
  high : Nat
  deriving DecidableEq, Repr

/-- The first byte of a character: a whole piece, or a character begun. The bounds of the second
byte keep out the codes that are too long, the surrogates and all above the last code point. -/
def start (b : UInt8) : List Piece × Option Begun :=
  let n := b.toNat
  if n < 0x80 then ([.char (Char.ofNat n)], none)
  else if n < 0xC2 then ([.junk], none)
  else if n < 0xE0 then ([], some ⟨n - 0xC0, 1, 0x80, 0xBF⟩)
  else if n = 0xE0 then ([], some ⟨0, 2, 0xA0, 0xBF⟩)
  else if n = 0xED then ([], some ⟨0xD, 2, 0x80, 0x9F⟩)
  else if n < 0xF0 then ([], some ⟨n - 0xE0, 2, 0x80, 0xBF⟩)
  else if n = 0xF0 then ([], some ⟨0, 3, 0x90, 0xBF⟩)
  else if n < 0xF4 then ([], some ⟨n - 0xF0, 3, 0x80, 0xBF⟩)
  else if n = 0xF4 then ([], some ⟨4, 3, 0x80, 0x8F⟩)
  else ([.junk], none)

/-- The next byte: it continues the character begun, or cuts it off and begins another. -/
def advance : Option Begun → UInt8 → List Piece × Option Begun
  | none, b => start b
  | some p, b =>
    if p.low ≤ b.toNat ∧ b.toNat ≤ p.high then
      let bits := p.bits * 64 + (b.toNat - 0x80)
      if p.missing ≤ 1 then ([.char (Char.ofNat bits)], none)
      else ([], some ⟨bits, p.missing - 1, 0x80, 0xBF⟩)
    else
      let (pieces, next) := start b
      (.junk :: pieces, next)

/-- The pieces of a run of bytes, after a character begun. -/
def piecesFrom : Option Begun → List UInt8 → List Piece
  | none, [] => []
  | some _, [] => [.junk]
  | p, b :: bs => (advance p b).1 ++ piecesFrom (advance p b).2 bs

/-- The pieces of a run of bytes. -/
def pieces (bytes : List UInt8) : List Piece := piecesFrom none bytes

/-- The characters of a list of pieces that holds no junk. -/
def chars? : List Piece → Option (List Char)
  | [] => some []
  | .char c :: ps => (chars? ps).map (c :: ·)
  | .junk :: _ => none

/-- The character that stands for junk. -/
def replacement : Char := Char.ofNat 0xFFFD

/-- The character of a piece, junk replaced. -/
def Piece.toChar : Piece → Char
  | .char c => c
  | .junk => replacement

/-- The text that the bytes are the code of, if they are. -/
def decode? (bytes : List UInt8) : Option String := (chars? (pieces bytes)).map String.ofList

/-- The text of the bytes, each piece of junk replaced by one character. -/
def decodeLossy (bytes : List UInt8) : String := String.ofList ((pieces bytes).map Piece.toChar)

/-- The bytes of a text. -/
def encode (s : String) : List UInt8 := s.toList.flatMap String.utf8EncodeChar

end ChangeRelay.Utf8
