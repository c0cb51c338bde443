/-
Text and bytes. The pieces that a reader makes of bytes stand for parts of them, one after the other, and a
piece that is a character for its code (`pieces_parts`); the code of a character is read as that
character, whatever follows (`pieces_append`). So bytes are the code of the text that they are read as, and of no other
(`decode?_eq_some_iff`), and no character is read whose code is not among the bytes (`code_among`).
-/
import ChangeRelay.Text.Utf8
import Mathlib.Data.List.Forall2

namespace ChangeRelay.Utf8

open String (utf8EncodeChar)

variable {a b c d : UInt8} {bs rest : List UInt8}

/-! ## The codes of characters -/

theorem toNat_ofNat {n : Nat} (valid : n.isValidChar) : (Char.ofNat n).val.toNat = n := by
  rw [Char.ofNat, dif_pos valid]
  rfl

theorem code_one (ha : a.toNat < 0x80) : utf8EncodeChar (Char.ofNat a.toNat) = [a] := by
  unfold utf8EncodeChar
  rw [toNat_ofNat (.inl (by omega))]
  dsimp only
  rw [if_pos (by omega), UInt8.ofNat_toNat]

theorem eq_ofNat {n : Nat} (h : a.toNat = n) : UInt8.ofNat n = a := by rw [← h, UInt8.ofNat_toNat]

theorem code_two (ha : 0xC2 ≤ a.toNat) (ha' : a.toNat < 0xE0) (hb : 0x80 ≤ b.toNat)
    (hb' : b.toNat ≤ 0xBF) :
    utf8EncodeChar (Char.ofNat ((a.toNat - 0xC0) * 64 + (b.toNat - 0x80))) = [a, b] := by
  unfold utf8EncodeChar
  rw [toNat_ofNat (.inl (by omega))]
  dsimp only
  rw [if_neg (by omega), if_pos (by omega), eq_ofNat (a := a) (by omega), eq_ofNat (a := b) (by omega)]

theorem code_three (ha : 0xE0 ≤ a.toNat) (ha' : a.toNat < 0xF0) (hb : 0x80 ≤ b.toNat)
    (hb' : b.toNat ≤ 0xBF) (hc : 0x80 ≤ c.toNat) (hc' : c.toNat ≤ 0xBF)
    (long : a.toNat = 0xE0 → 0xA0 ≤ b.toNat) (scalar : a.toNat = 0xED → b.toNat ≤ 0x9F) :
    utf8EncodeChar (Char.ofNat (((a.toNat - 0xE0) * 64 + (b.toNat - 0x80)) * 64 + (c.toNat - 0x80))) =
      [a, b, c] := by
  unfold utf8EncodeChar
  rw [toNat_ofNat (by unfold Nat.isValidChar; omega)]
  dsimp only
  rw [if_neg (by omega), if_neg (by omega), if_pos (by omega), eq_ofNat (a := a) (by omega),
    eq_ofNat (a := b) (by omega), eq_ofNat (a := c) (by omega)]

theorem code_four (ha : 0xF0 ≤ a.toNat) (ha' : a.toNat ≤ 0xF4) (hb : 0x80 ≤ b.toNat)
    (hb' : b.toNat ≤ 0xBF) (hc : 0x80 ≤ c.toNat) (hc' : c.toNat ≤ 0xBF) (hd : 0x80 ≤ d.toNat)
    (hd' : d.toNat ≤ 0xBF) (long : a.toNat = 0xF0 → 0x90 ≤ b.toNat)
    (scalar : a.toNat = 0xF4 → b.toNat ≤ 0x8F) :
    utf8EncodeChar (Char.ofNat ((((a.toNat - 0xF0) * 64 + (b.toNat - 0x80)) * 64 +
      (c.toNat - 0x80)) * 64 + (d.toNat - 0x80))) = [a, b, c, d] := by
  unfold utf8EncodeChar
  rw [toNat_ofNat (by unfold Nat.isValidChar; omega)]
  dsimp only
  rw [if_neg (by omega), if_neg (by omega), if_neg (by omega), eq_ofNat (a := a) (by omega),
    eq_ofNat (a := b) (by omega), eq_ofNat (a := c) (by omega), eq_ofNat (a := d) (by omega)]

/-! ## The first byte of a character -/

theorem start_one (h : b.toNat < 0x80) : start b = ([.char (Char.ofNat b.toNat)], none) := by
  unfold start
  simp [h]

theorem start_two (h : 0xC2 ≤ b.toNat) (h' : b.toNat < 0xE0) :
    start b = ([], some ⟨b.toNat - 0xC0, 1, 0x80, 0xBF⟩) := by
  unfold start
  simp only
  rw [if_neg (by omega), if_neg (by omega), if_pos h']

theorem start_three (h : 0xE0 ≤ b.toNat) (h' : b.toNat < 0xF0) :
    start b = ([], some ⟨b.toNat - 0xE0, 2, if b.toNat = 0xE0 then 0xA0 else 0x80,
      if b.toNat = 0xED then 0x9F else 0xBF⟩) := by
  unfold start
  simp only
  rw [if_neg (by omega), if_neg (by omega), if_neg (by omega)]
  by_cases hlow : b.toNat = 0xE0
  · simp [hlow]
  · rw [if_neg hlow, if_neg hlow]
    by_cases hhigh : b.toNat = 0xED
    · simp [hhigh]
    · rw [if_neg hhigh, if_neg hhigh, if_pos h']

theorem start_four (h : 0xF0 ≤ b.toNat) (h' : b.toNat ≤ 0xF4) :
    start b = ([], some ⟨b.toNat - 0xF0, 3, if b.toNat = 0xF0 then 0x90 else 0x80,
      if b.toNat = 0xF4 then 0x8F else 0xBF⟩) := by
  unfold start
  simp only
  rw [if_neg (by omega), if_neg (by omega), if_neg (by omega), if_neg (by omega), if_neg (by omega),
    if_neg (by omega)]
  by_cases hlow : b.toNat = 0xF0
  · simp [hlow]
  · rw [if_neg hlow, if_neg hlow]
    by_cases hhigh : b.toNat = 0xF4
    · simp [hhigh]
    · rw [if_neg hhigh, if_pos (by omega), if_neg hhigh]

theorem start_junk (h : 0x80 ≤ b.toNat) (h' : b.toNat < 0xC2 ∨ 0xF4 < b.toNat) :
    start b = ([.junk], none) := by
  unfold start
  simp only
  rcases h' with h' | h'
  · rw [if_neg (by omega), if_pos h']
  · rw [if_neg (by omega), if_neg (by omega), if_neg (by omega), if_neg (by omega), if_neg (by omega),
      if_neg (by omega), if_neg (by omega), if_neg (by omega), if_neg (by omega)]

/-! ## The other bytes -/

variable {p : Begun}

theorem advance_last (hb : p.low ≤ b.toNat ∧ b.toNat ≤ p.high) (hlast : p.missing ≤ 1) :
    advance (some p) b = ([.char (Char.ofNat (p.bits * 64 + (b.toNat - 0x80)))], none) := by
  simp [advance, hb, hlast]

theorem advance_more (hb : p.low ≤ b.toNat ∧ b.toNat ≤ p.high) (hmore : 1 < p.missing) :
    advance (some p) b = ([], some ⟨p.bits * 64 + (b.toNat - 0x80), p.missing - 1, 0x80, 0xBF⟩) := by
  simp [advance, hb, Nat.not_le.2 hmore]

/-- A byte out of bounds cuts off the character begun. -/
theorem advance_cut (hb : ¬(p.low ≤ b.toNat ∧ b.toNat ≤ p.high)) :
    advance (some p) b = (.junk :: (start b).1, (start b).2) := by
  simp [advance, hb]

/-! ## Bytes are the codes of the characters read -/

/-- A piece stands for a part of the bytes: a character for its code, junk for anything. -/
def Piece.StandsFor : Piece → List UInt8 → Prop
  | .char c, bs => utf8EncodeChar c = bs
  | .junk, _ => True

/-- Bytes begin a character of which `missing + 1` bytes are still to come: with any that are
within the bounds they are its code. -/
def Opens : (missing bits low high : Nat) → List UInt8 → Prop
  | 0, bits, low, high, bs => ∀ b : UInt8, low ≤ b.toNat → b.toNat ≤ high →
      utf8EncodeChar (Char.ofNat (bits * 64 + (b.toNat - 0x80))) = bs ++ [b]
  | missing + 1, bits, low, high, bs => ∀ b : UInt8, low ≤ b.toNat → b.toNat ≤ high →
      Opens missing (bits * 64 + (b.toNat - 0x80)) 0x80 0xBF (bs ++ [b])

/-- The bytes that have been read of a character begun. -/
def Begun.Holds : Option Begun → List UInt8 → Prop
  | none, bs => bs = []
  | some p, bs => Opens (p.missing - 1) p.bits p.low p.high bs

/-- The pieces that have been read, and what is begun, stand for the bytes in order. -/
def Reads (step : List Piece × Option Begun) (bs : List UInt8) : Prop :=
  ∃ parts left, List.Forall₂ Piece.StandsFor step.1 parts ∧ Begun.Holds step.2 left ∧
    parts.flatten ++ left = bs

theorem start_reads (b : UInt8) : Reads (start b) [b] := by
  rcases Nat.lt_or_ge b.toNat 0x80 with h1 | h1
  · rw [start_one h1]
    exact ⟨[[b]], [], .cons (code_one h1) .nil, rfl, rfl⟩
  rcases Nat.lt_or_ge b.toNat 0xC2 with h2 | h2
  · rw [start_junk h1 (.inl h2)]
    exact ⟨[[b]], [], .cons trivial .nil, rfl, rfl⟩
  rcases Nat.lt_or_ge b.toNat 0xE0 with h3 | h3
  · rw [start_two h2 h3]
    exact ⟨[], [b], .nil, fun c hc hc' => code_two h2 h3 hc hc', rfl⟩
  rcases Nat.lt_or_ge b.toNat 0xF0 with h4 | h4
  · rw [start_three h3 h4]
    refine ⟨[], [b], .nil, fun c hc hc' d hd hd' => ?_, rfl⟩
    dsimp only at hc hc' hd hd'
    split at hc <;> split at hc' <;> exact code_three h3 h4 (by omega) (by omega) hd hd' (by omega) (by omega)
  rcases Nat.lt_or_ge 0xF4 b.toNat with h5 | h5
  · rw [start_junk h1 (.inr h5)]
    exact ⟨[[b]], [], .cons trivial .nil, rfl, rfl⟩
  · rw [start_four h4 h5]
    refine ⟨[], [b], .nil, fun c hc hc' d hd hd' e he he' => ?_, rfl⟩
    dsimp only at hc hc' hd hd' he he'
    split at hc <;> split at hc' <;>
      exact code_four h4 h5 (by omega) (by omega) hd hd' he he' (by omega) (by omega)

theorem advance_reads {p : Option Begun} (hp : Begun.Holds p bs) (b : UInt8) :
    Reads (advance p b) (bs ++ [b]) := by
  obtain _ | p := p
  · cases hp
    exact start_reads b
  have hopens : Opens (p.missing - 1) p.bits p.low p.high bs := hp
  by_cases hb : p.low ≤ b.toNat ∧ b.toNat ≤ p.high
  · by_cases hlast : p.missing ≤ 1
    · rw [advance_last hb hlast]
      rw [show p.missing - 1 = 0 by omega] at hopens
      exact ⟨[bs ++ [b]], [], .cons (hopens b hb.1 hb.2) .nil, rfl, by simp⟩
    · rw [advance_more hb (by omega)]
      rw [show p.missing - 1 = p.missing - 1 - 1 + 1 by omega] at hopens
      exact ⟨[], bs ++ [b], .nil, hopens b hb.1 hb.2, rfl⟩
  · rw [advance_cut hb]
    obtain ⟨parts, left, hparts, hleft, hflat⟩ := start_reads b
    exact ⟨bs :: parts, left, .cons trivial hparts, hleft, by simp [hflat]⟩

theorem piecesFrom_parts {p : Option Begun} {before : List UInt8} (hp : Begun.Holds p before)
    (bs : List UInt8) :
    ∃ parts, List.Forall₂ Piece.StandsFor (piecesFrom p bs) parts ∧ parts.flatten = before ++ bs := by
  induction bs generalizing p before with
  | nil =>
    cases p with
    | none =>
      cases hp
      exact ⟨[], .nil, rfl⟩
    | some p => exact ⟨[before], .cons trivial .nil, by simp⟩
  | cons b bs ih =>
    obtain ⟨parts, left, hparts, hleft, hflat⟩ := advance_reads hp b
    obtain ⟨more, hmore, hrest⟩ := ih hleft
    refine ⟨parts ++ more, ?_, ?_⟩
    · rw [piecesFrom]
      exact List.rel_append hparts hmore
    · rw [List.flatten_append, hrest, ← List.append_assoc, hflat, List.append_assoc, List.singleton_append]

/-- The pieces of bytes stand for parts of them, one after the other. -/
theorem pieces_parts (bs : List UInt8) :
    ∃ parts, List.Forall₂ Piece.StandsFor (pieces bs) parts ∧ parts.flatten = bs :=
  piecesFrom_parts (p := none) rfl bs

theorem Piece.among_flatten {ps : List Piece} {parts : List (List UInt8)} {x : Char}
    (hparts : List.Forall₂ StandsFor ps parts) (h : .char x ∈ ps) :
    utf8EncodeChar x <:+: parts.flatten := by
  induction hparts with
  | nil => exact absurd h List.not_mem_nil
  | cons hpart _ ih =>
    rw [List.flatten_cons]
    rcases List.mem_cons.1 h with rfl | h
    · exact ⟨[], _, by rw [hpart, List.nil_append]⟩
    · exact (ih h).trans (List.suffix_append _ _).isInfix

/-- The code of a character that is read is among the bytes. -/
theorem code_among {x : Char} (h : .char x ∈ pieces bs) : utf8EncodeChar x <:+: bs := by
  obtain ⟨parts, hparts, rfl⟩ := pieces_parts bs
  exact Piece.among_flatten hparts h

/-! ## The code of a character is read as that character -/

theorem piecesFrom_cons (p : Option Begun) (b : UInt8) (bs : List UInt8) :
    piecesFrom p (b :: bs) = (advance p b).1 ++ piecesFrom (advance p b).2 bs := by
  cases p <;> rfl

theorem pieces_one (ha : a.toNat < 0x80) :
    pieces ([a] ++ rest) = .char (Char.ofNat a.toNat) :: pieces rest := by
  rw [List.cons_append, pieces, piecesFrom_cons, advance, start_one ha]
  rfl

theorem pieces_two (ha : 0xC2 ≤ a.toNat) (ha' : a.toNat < 0xE0) (hb : 0x80 ≤ b.toNat)
    (hb' : b.toNat ≤ 0xBF) :
    pieces ([a, b] ++ rest) =
      .char (Char.ofNat ((a.toNat - 0xC0) * 64 + (b.toNat - 0x80))) :: pieces rest := by
  rw [List.cons_append, pieces, piecesFrom_cons, advance, start_two ha ha', List.nil_append]
  rw [List.cons_append, piecesFrom_cons, advance_last ⟨hb, hb'⟩ (Nat.le_refl 1)]
  rfl

theorem pieces_three (ha : 0xE0 ≤ a.toNat) (ha' : a.toNat < 0xF0)
    (hb : (if a.toNat = 0xE0 then 0xA0 else 0x80) ≤ b.toNat)
    (hb' : b.toNat ≤ if a.toNat = 0xED then 0x9F else 0xBF) (hc : 0x80 ≤ c.toNat)
    (hc' : c.toNat ≤ 0xBF) :
    pieces ([a, b, c] ++ rest) =
      .char (Char.ofNat (((a.toNat - 0xE0) * 64 + (b.toNat - 0x80)) * 64 + (c.toNat - 0x80))) ::
        pieces rest := by
  rw [List.cons_append, pieces, piecesFrom_cons, advance, start_three ha ha', List.nil_append]
  rw [List.cons_append, piecesFrom_cons, advance_more ⟨hb, hb'⟩ (Nat.lt_add_one 1), List.nil_append]
  rw [List.cons_append, piecesFrom_cons, advance_last ⟨hc, hc'⟩ (Nat.le_refl 1)]
  rfl

theorem pieces_four (ha : 0xF0 ≤ a.toNat) (ha' : a.toNat ≤ 0xF4)
    (hb : (if a.toNat = 0xF0 then 0x90 else 0x80) ≤ b.toNat)
    (hb' : b.toNat ≤ if a.toNat = 0xF4 then 0x8F else 0xBF) (hc : 0x80 ≤ c.toNat)
    (hc' : c.toNat ≤ 0xBF) (hd : 0x80 ≤ d.toNat) (hd' : d.toNat ≤ 0xBF) :
    pieces ([a, b, c, d] ++ rest) =
      .char (Char.ofNat ((((a.toNat - 0xF0) * 64 + (b.toNat - 0x80)) * 64 + (c.toNat - 0x80)) * 64 +
        (d.toNat - 0x80))) :: pieces rest := by
  rw [List.cons_append, pieces, piecesFrom_cons, advance, start_four ha ha', List.nil_append]
  rw [List.cons_append, piecesFrom_cons, advance_more ⟨hb, hb'⟩ (Nat.lt_of_sub_eq_succ rfl),
    List.nil_append]
  rw [List.cons_append, piecesFrom_cons, advance_more ⟨hc, hc'⟩ (Nat.lt_add_one 1), List.nil_append]
  rw [List.cons_append, piecesFrom_cons, advance_last ⟨hd, hd'⟩ (Nat.le_refl 1)]
  rfl

theorem pieces_append (x : Char) (rest : List UInt8) :
    pieces (utf8EncodeChar x ++ rest) = .char x :: pieces rest := by
  have hvalid : x.val.toNat.isValidChar := x.valid
  have hx : Char.ofNat x.val.toNat = x := Char.ofNat_toNat x
  have hbyte : ∀ n, n < 256 → (UInt8.ofNat n).toNat = n := fun n hn => by
    rw [UInt8.toNat_ofNat', Nat.mod_eq_of_lt hn]
  unfold utf8EncodeChar
  generalize x.val.toNat = v at hvalid hx
  dsimp only
  -- one case for each length of the code
  split
  · have ha := hbyte v (by omega)
    rw [pieces_one (by omega), ha, hx]
  split
  · have ha := hbyte (v / 64 % 32 + 192) (by omega)
    have hb := hbyte (v % 64 + 128) (by omega)
    have hv : (v / 64 % 32 + 192 - 0xC0) * 64 + (v % 64 + 128 - 0x80) = v := by omega
    rw [pieces_two (by omega) (by omega) (by omega) (by omega), ha, hb, hv, hx]
  split
  · have ha := hbyte (v / 4096 % 16 + 224) (by omega)
    have hb := hbyte (v / 64 % 64 + 128) (by omega)
    have hc := hbyte (v % 64 + 128) (by omega)
    have hv : ((v / 4096 % 16 + 224 - 0xE0) * 64 + (v / 64 % 64 + 128 - 0x80)) * 64 +
        (v % 64 + 128 - 0x80) = v := by omega
    rw [pieces_three (by omega) (by omega) (by split <;> omega) (by split <;> omega) (by omega)
      (by omega), ha, hb, hc, hv, hx]
  · have ha := hbyte (v / 262144 % 8 + 240) (by omega)
    have hb := hbyte (v / 4096 % 64 + 128) (by omega)
    have hc := hbyte (v / 64 % 64 + 128) (by omega)
    have hd := hbyte (v % 64 + 128) (by omega)
    have hv : (((v / 262144 % 8 + 240 - 0xF0) * 64 + (v / 4096 % 64 + 128 - 0x80)) * 64 +
        (v / 64 % 64 + 128 - 0x80)) * 64 + (v % 64 + 128 - 0x80) = v := by omega
    rw [pieces_four (by omega) (by omega) (by split <;> omega) (by split <;> omega) (by omega)
      (by omega) (by omega) (by omega), ha, hb, hc, hd, hv, hx]

/-- The bytes of characters are read as these characters. -/
theorem pieces_flatMap (xs : List Char) : pieces (xs.flatMap utf8EncodeChar) = xs.map .char := by
  induction xs with
  | nil => rfl
  | cons x xs ih => rw [List.flatMap_cons, pieces_append, ih, List.map_cons]

theorem chars?_eq_some_iff {ps : List Piece} {xs : List Char} :
    chars? ps = some xs ↔ ps = xs.map .char := by
  induction ps generalizing xs with
  | nil => cases xs <;> simp [chars?]
  | cons q ps ih =>
    cases q with
    | junk => cases xs <;> simp [chars?]
    | char y => cases xs <;> simp [chars?, ih, and_comm]

/-- Parts that characters stand for are the codes of these characters. -/
theorem parts_flatten {xs : List Char} {parts : List (List UInt8)}
    (hparts : List.Forall₂ Piece.StandsFor (xs.map .char) parts) :
    parts.flatten = xs.flatMap utf8EncodeChar := by
  induction xs generalizing parts with
  | nil => cases hparts; rfl
  | cons x xs ih =>
    obtain _ | ⟨hpart, hparts⟩ := hparts
    rw [List.flatten_cons, List.flatMap_cons, ih hparts, ← hpart]

theorem pieces_eq_map_iff {xs : List Char} :
    pieces bs = xs.map .char ↔ xs.flatMap utf8EncodeChar = bs := by
  refine ⟨fun h => ?_, fun h => h ▸ pieces_flatMap xs⟩
  obtain ⟨parts, hparts, rfl⟩ := pieces_parts bs
  exact (parts_flatten (h ▸ hparts)).symm

/-- Bytes are read strictly as a text exactly if they are its code. -/
theorem decode?_eq_some_iff {s : String} : decode? bs = some s ↔ encode s = bs := by
  unfold decode? encode
  rw [Option.map_eq_some_iff]
  constructor
  · rintro ⟨xs, hxs, rfl⟩
    rw [String.toList_ofList]
    exact pieces_eq_map_iff.1 (chars?_eq_some_iff.1 hxs)
  · intro h
    exact ⟨s.toList, chars?_eq_some_iff.2 (pieces_eq_map_iff.2 h), String.ofList_toList⟩

@[simp] theorem decode?_encode (s : String) : decode? (encode s) = some s := decode?_eq_some_iff.2 rfl

/-- The code of a text is read leniently as the text, too. -/
@[simp] theorem decodeLossy_encode (s : String) : decodeLossy (encode s) = s := by
  unfold decodeLossy encode
  rw [pieces_flatMap, List.map_map]
  exact (congrArg String.ofList (List.map_id _)).trans String.ofList_toList

/-! ## What lenient reading can give -/

/-- Lenient reading gives a text without the replacement character only for the bytes of the text. -/
theorem decodeLossy_eq_iff {s : String} (hs : replacement ∉ s.toList) :
    decodeLossy bs = s ↔ encode s = bs := by
  refine ⟨fun h => ?_, fun h => h ▸ decodeLossy_encode s⟩
  subst h
  rw [decodeLossy, String.toList_ofList] at hs
  -- no piece is junk, so the pieces are the characters
  have hpieces : pieces bs = ((pieces bs).map Piece.toChar).map .char := by
    rw [List.map_map]
    refine (List.map_id _).symm.trans (List.map_congr_left fun q hq => ?_)
    cases q with
    | char x => rfl
    | junk => exact absurd (List.mem_map.2 ⟨Piece.junk, hq, rfl⟩) hs
  rw [decodeLossy, encode, String.toList_ofList]
  exact pieces_eq_map_iff.1 hpieces

theorem mem_code {x : Char} (hx : x.val.toNat < 0x80) : UInt8.ofNat x.val.toNat ∈ utf8EncodeChar x := by
  unfold utf8EncodeChar
  dsimp only
  rw [if_pos (by omega)]
  exact List.mem_singleton_self _

/-- A byte below 128 occurs in the code of its own character only. -/
theorem eq_of_mem_code {x : Char} (hb : b.toNat < 0x80) (h : b ∈ utf8EncodeChar x) :
    x = Char.ofNat b.toNat := by
  have hx : Char.ofNat x.val.toNat = x := Char.ofNat_toNat x
  have hbyte : ∀ n, (UInt8.ofNat n).toNat = n % 256 := fun n => UInt8.toNat_ofNat'
  have hvalid : x.val.toNat.isValidChar := x.valid
  suffices x.val.toNat = b.toNat by rw [← this, hx]
  unfold utf8EncodeChar at h
  generalize x.val.toNat = v at h hvalid
  dsimp only at h
  split at h
  · obtain rfl := List.mem_singleton.1 h
    have := hbyte v
    omega
  -- the bytes of longer codes are not below 128
  · exfalso
    split at h
    · simp only [List.mem_cons, List.not_mem_nil, or_false] at h
      rcases h with rfl | rfl <;> rw [hbyte] at hb <;> omega
    split at h
    · simp only [List.mem_cons, List.not_mem_nil, or_false] at h
      rcases h with rfl | rfl | rfl <;> rw [hbyte] at hb <;> omega
    · simp only [List.mem_cons, List.not_mem_nil, or_false] at h
      rcases h with rfl | rfl | rfl | rfl <;> rw [hbyte] at hb <;> omega

/-- The code of a text has the byte of a character below 128 exactly if the text has the character. -/
theorem mem_encode_iff {x : Char} {s : String} (hx : x.val.toNat < 0x80) :
    UInt8.ofNat x.val.toNat ∈ encode s ↔ x ∈ s.toList := by
  have hbyte : (UInt8.ofNat x.val.toNat).toNat = x.val.toNat := by
    rw [UInt8.toNat_ofNat']
    omega
  rw [encode, List.mem_flatMap]
  constructor
  · rintro ⟨y, hy, hmem⟩
    have hyx : y = Char.ofNat x.val.toNat := hbyte ▸ eq_of_mem_code (by omega) hmem
    have hx : Char.ofNat x.val.toNat = x := Char.ofNat_toNat x
    rwa [hyx, hx] at hy
  · intro h
    exact ⟨x, h, mem_code hx⟩

/-- A character below 128 is read only where its byte is. -/
theorem mem_of_mem_decodeLossy {x : Char} (hx : x.val.toNat < 0x80) (h : x ∈ (decodeLossy bs).toList) :
    UInt8.ofNat x.val.toNat ∈ bs := by
  rw [decodeLossy, String.toList_ofList] at h
  obtain ⟨q, hq, rfl⟩ := List.mem_map.1 h
  cases q with
  | char x => exact (code_among hq).subset (mem_code hx)
  | junk => exact absurd hx (by decide)

/-! ## Lenient reading around a byte below 128 -/

theorem start_low (b : UInt8) : ∀ q ∈ (start b).2, 0x80 ≤ q.low := by
  rcases Nat.lt_or_ge b.toNat 0x80 with h1 | h1
  · simp [start_one h1]
  rcases Nat.lt_or_ge b.toNat 0xC2 with h2 | h2
  · simp [start_junk h1 (.inl h2)]
  rcases Nat.lt_or_ge b.toNat 0xE0 with h3 | h3
  · simp [start_two h2 h3]
  rcases Nat.lt_or_ge b.toNat 0xF0 with h4 | h4
  · rw [start_three h3 h4]
    intro q hq
    rw [← Option.mem_some_iff.1 hq]
    dsimp only
    split <;> omega
  rcases Nat.lt_or_ge 0xF4 b.toNat with h5 | h5
  · simp [start_junk h1 (.inr h5)]
  · rw [start_four h4 h5]
    intro q hq
    rw [← Option.mem_some_iff.1 hq]
    dsimp only
    split <;> omega

theorem advance_low (p : Option Begun) (b : UInt8) : ∀ q ∈ (advance p b).2, 0x80 ≤ q.low := by
  cases p with
  | none => exact start_low b
  | some p =>
    by_cases hb : p.low ≤ b.toNat ∧ b.toNat ≤ p.high
    · by_cases hlast : p.missing ≤ 1
      · simp [advance_last hb hlast]
      · simp [advance_more hb (by omega)]
    · rw [advance_cut hb]
      exact start_low b

theorem piecesFrom_append {p : Option Begun} (hp : ∀ q ∈ p, 0x80 ≤ q.low) (hb : b.toNat < 0x80)
    (rest : List UInt8) :
    piecesFrom p (bs ++ b :: rest) = piecesFrom p bs ++ .char (Char.ofNat b.toNat) :: pieces rest := by
  induction bs generalizing p with
  | nil =>
    rw [List.nil_append, piecesFrom_cons]
    cases p with
    | none =>
      rw [advance, start_one hb]
      rfl
    | some p =>
      -- no character goes on with such a byte, so it cuts off the one begun
      have hlow : 0x80 ≤ p.low := hp p rfl
      rw [advance_cut (by omega), start_one hb]
      rfl
  | cons a bs ih =>
    rw [List.cons_append, piecesFrom_cons, piecesFrom_cons, ih (advance_low p a), List.append_assoc]

/-- A byte below 128 is always read as its character, and what stands before and after it is read by itself. -/
theorem decodeLossy_append (hb : b.toNat < 0x80) (rest : List UInt8) :
    (decodeLossy (bs ++ b :: rest)).toList =
      (decodeLossy bs).toList ++ Char.ofNat b.toNat :: (decodeLossy rest).toList := by
  have hpieces : pieces (bs ++ b :: rest) = pieces bs ++ .char (Char.ofNat b.toNat) :: pieces rest :=
    piecesFrom_append (fun q hq => by cases hq) hb rest
  simp only [decodeLossy, String.toList_ofList, hpieces, List.map_append, List.map_cons, Piece.toChar]

end ChangeRelay.Utf8
