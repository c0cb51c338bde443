/-
The tokens of written values. What is written for a value, on one line or over several, is read as the
tokens of the value, whatever follows it that cannot go on with a number (`writes_compact`,
`writes_pretty`): blanks and new lines are no tokens, and the characters of a string come back out of
their escapes.
-/
import ChangeRelay.Json.Token
import ChangeRelay.Json.Value

namespace ChangeRelay.Json

variable {c : Char} {cs cs' rest : List Char} {ts ts' : List Token}

/-! ## Strings -/

theorem tokensFrom_goOn {t : TextState} (t' : TextState) (h : textStep t c rest = .goOn t') :
    tokensFrom (.text t) (c :: rest) = tokensFrom (.text t') rest := by
  simp only [tokensFrom, advance, h, List.nil_append]

theorem tokensFrom_done {t : TextState} (token : Token) (h : textStep t c rest = .done token) :
    tokensFrom (.text t) (c :: rest) = token :: tokensFrom .between rest := by
  simp only [tokensFrom, advance, h, List.singleton_append]

/-- A string of which some characters have been read, latest first. -/
def TextState.reading (chars : List Char) : TextState := ⟨chars, none, .plain⟩

theorem hexValue?_digitChar : ∀ n < 16, hexValue? (Nat.digitChar n) = some n := by decide

/-- An escape of one letter stands for its character. -/
theorem tokensFrom_escaped {e : Char} (chars rest : List Char) (hu : e ≠ 'u') (h : escaped? e = some c) :
    tokensFrom (.text (.reading chars)) ('\\' :: e :: rest) =
      tokensFrom (.text (.reading (c :: chars))) rest := by
  rw [tokensFrom_goOn ⟨chars, none, .escape⟩ rfl]
  refine tokensFrom_goOn _ ?_
  simp only [textStep, escapeStep, if_neg hu, h]
  rfl

theorem tokensFrom_control (chars rest : List Char) (hc : c.toNat < 32) :
    tokensFrom (.text (.reading chars)) (['\\', 'u', '0', '0', Nat.digitChar (c.toNat / 16),
      Nat.digitChar (c.toNat % 16)] ++ rest) = tokensFrom (.text (.reading (c :: chars))) rest := by
  have hhigh : hexValue? (Nat.digitChar (c.toNat / 16)) = some (c.toNat / 16) :=
    hexValue?_digitChar _ (by omega)
  have hlow : hexValue? (Nat.digitChar (c.toNat % 16)) = some (c.toNat % 16) :=
    hexValue?_digitChar _ (by omega)
  simp only [List.cons_append, List.nil_append]
  rw [tokensFrom_goOn ⟨chars, none, .escape⟩ rfl]
  rw [tokensFrom_goOn ⟨chars, none, .unit 4 0 none⟩ rfl]
  rw [tokensFrom_goOn ⟨chars, none, .unit 3 0 none⟩ rfl]
  rw [tokensFrom_goOn ⟨chars, none, .unit 2 0 none⟩ rfl]
  rw [tokensFrom_goOn ⟨chars, none, .unit 1 (c.toNat / 16) none⟩ (by simp [textStep, hhigh])]
  refine tokensFrom_goOn _ ?_
  have hvalue : c.toNat / 16 * 16 + c.toNat % 16 = c.toNat := by omega
  simp only [textStep, hlow, hvalue, TextState.endUnit]
  rw [if_pos (Nat.le_refl 1), if_neg (by omega), if_neg (by omega), TextState.push, Char.ofNat_toNat]
  rfl

/-- A character comes back out of its escape. -/
theorem tokensFrom_escapeChar (c : Char) (chars rest : List Char) :
    tokensFrom (.text (.reading chars)) (escapeChar c ++ rest) =
      tokensFrom (.text (.reading (c :: chars))) rest := by
  unfold escapeChar
  -- the seven escapes of one letter
  iterate 7
    split
    · subst c
      exact tokensFrom_escaped chars rest (by decide) (by decide)
  split
  · rename_i hc
    exact tokensFrom_control chars rest hc
  · rename_i hquote hslash _ _ _ _ _ hc
    refine tokensFrom_goOn _ ?_
    simp only [textStep, TextState.reading, plainStep]
    rw [if_neg hquote, if_neg hslash, if_neg hc]
    rfl

theorem tokensFrom_escapes (xs chars rest : List Char) :
    tokensFrom (.text (.reading chars)) (xs.flatMap escapeChar ++ rest) =
      tokensFrom (.text (.reading (xs.reverse ++ chars))) rest := by
  induction xs generalizing chars with
  | nil => rfl
  | cons x xs ih =>
    rw [List.flatMap_cons, List.append_assoc, tokensFrom_escapeChar, ih, List.reverse_cons,
      List.append_assoc, List.singleton_append]

theorem tokensFrom_writeText (s : String) (rest : List Char) :
    tokensFrom .between (writeText s ++ rest) = .text (.ok s) :: tokensFrom .between rest := by
  have hopen : ∀ xs, tokensFrom .between ('"' :: xs) = tokensFrom (.text (.reading [])) xs := fun _ => rfl
  rw [writeText, List.cons_append, List.cons_append, hopen, List.append_assoc, tokensFrom_escapes,
    List.singleton_append, tokensFrom_done (.text (.ok s))]
  simp [textStep, TextState.reading, plainStep, TextState.close]

/-! ## Numbers -/

/-- The decimal digits of a number, last digit first. -/
def digits (n : Nat) : List Nat := if n < 10 then [n] else n % 10 :: digits (n / 10)
termination_by n
decreasing_by omega

/-- A whole number, as its reader tells it from others. -/
def Numeral.written (n : Nat) : Numeral := .ofDigits ⟨false, digits n, [], false, false, []⟩

theorem digit?_digitChar : ∀ n < 10, digit? (Nat.digitChar n) = some n := by decide

theorem opening_digitChar : ∀ n < 10, opening (Nat.digitChar n) =
    ([], some (.number (if n = 0 then .zero else .whole) (.first n)))
  | 0, _ | 1, _ | 2, _ | 3, _ | 4, _ | 5, _ | 6, _ | 7, _ | 8, _ | 9, _ => rfl
  | n + 10, h => absurd h (by omega)

theorem tokensFrom_digits (n : Nat) (rest : List Char) :
    tokensFrom .between (Nat.toDigits 10 n ++ rest) =
      tokensFrom (.number (if n = 0 then .zero else .whole) ⟨false, digits n, [], false, false, []⟩)
        rest := by
  induction n using Nat.strongRecOn generalizing rest with
  | ind n ih =>
    rw [digits]
    by_cases hn : n < 10
    · rw [if_pos hn, Nat.toDigits_of_lt_base hn, List.singleton_append, tokensFrom, advance,
        opening_digitChar n hn]
      rfl
    · have hlast : digit? (Nat.digitChar (n % 10)) = some (n % 10) := digit?_digitChar _ (by omega)
      rw [if_neg hn, Nat.toDigits_of_base_le (by decide) (by omega), List.append_assoc,
        ih (n / 10) (by omega), if_neg (by omega), if_neg (by omega), List.singleton_append, tokensFrom]
      simp only [advance, numberStep, hlast, List.nil_append]

/-- What cannot go on with a number: nothing, or a character that is in none. -/
def Apart (rest : List Char) : Prop :=
  ∀ c ∈ rest.head?, digit? c = none ∧ c ≠ '.' ∧ c ≠ 'e' ∧ c ≠ 'E'

theorem tokensFrom_writeNumber (n : Nat) (h : Apart rest) :
    tokensFrom .between (writeNumber n ++ rest) =
      .number (.written n) :: tokensFrom .between rest := by
  rw [writeNumber, tokensFrom_digits]
  have hpart : (if n = 0 then NumberPart.zero else .whole).mayEnd = true := by split <;> rfl
  have hmark : (if n = 0 then NumberPart.zero else .whole) ≠ .mark := by split <;> decide
  cases rest with
  | nil => simp [tokensFrom, finish, hpart, Numeral.written]
  | cons c rest =>
    obtain ⟨hdigit, hpoint, he, he'⟩ := h c rfl
    simp only [tokensFrom, advance, numberStep, hdigit]
    rw [if_neg fun h => hpoint h.1, if_neg fun h => h.1.elim he he', if_neg fun h => hmark h.2,
      if_pos hpart]
    rfl

theorem wholePart_append : ∀ (xs ys : List Nat) (s : Nat × Nat),
    Numeral.wholePart (xs ++ ys) s = Numeral.wholePart ys (Numeral.wholePart xs s)
  | [], ys, s => rfl
  | x :: xs, ys, (n, dropped) => by
    rw [List.cons_append, Numeral.wholePart, Numeral.wholePart]
    split <;> exact wholePart_append xs ys _

theorem wholePart_digits (n : Nat) (h : n < Numeral.wordLimit) :
    Numeral.wholePart (digits n).reverse (0, 0) = (n, 0) := by
  induction n using Nat.strongRecOn with
  | ind n ih =>
    rw [digits]
    by_cases hn : n < 10
    · rw [if_pos hn, List.reverse_singleton, Numeral.wholePart, if_pos ⟨rfl, by omega⟩,
        Numeral.wholePart, Nat.zero_mul, Nat.zero_add]
    · have hjoin : n / 10 * 10 + n % 10 = n := by omega
      rw [if_neg hn, List.reverse_cons, wholePart_append, ih (n / 10) (by omega) (by omega),
        Numeral.wholePart, if_pos ⟨rfl, by omega⟩, Numeral.wholePart, hjoin]

/-- A whole number of at most 64 bits is read as itself. -/
theorem Numeral.written_eq {n : Nat} (h : n < wordLimit) : written n = .word n := by
  rw [written, ofDigits, wholePart_digits n h]
  rfl

/-! ## Values -/

namespace Value

mutual

/-- The tokens of a value. -/
def tokens : Value → List Token
  | .null => [.null]
  | .flag b => [.flag b]
  | .number n => [.number (.written n)]
  | .text s => [.text (.ok s)]
  | .list items => .openBracket :: itemTokens items ++ [.closeBracket]
  | .object fields => .openBrace :: fieldTokens fields ++ [.closeBrace]

/-- The tokens of the items of a list. -/
def itemTokens : List Value → List Token
  | [] => []
  | [v] => tokens v
  | v :: w :: vs => tokens v ++ .comma :: itemTokens (w :: vs)

/-- The tokens of the fields of an object. -/
def fieldTokens : List (String × Value) → List Token
  | [] => []
  | [(k, v)] => .text (.ok k) :: .colon :: tokens v
  | (k, v) :: f :: fs => .text (.ok k) :: .colon :: tokens v ++ .comma :: fieldTokens (f :: fs)

end

end Value

/-- Characters are read as tokens wherever a number cannot go on after them. -/
def Writes (cs : List Char) (ts : List Token) : Prop :=
  ∀ rest, Apart rest → tokensFrom .between (cs ++ rest) = ts ++ tokensFrom .between rest

theorem apart_nil : Apart [] := by simp [Apart]

theorem apart_cons (h : c ∈ [',', ']', closeBrace, '\n']) (rest : List Char) : Apart (c :: rest) := by
  intro a ha
  obtain rfl : c = a := Option.some.inj ha
  simp only [List.mem_cons, List.not_mem_nil, or_false] at h
  rcases h with rfl | rfl | rfl | rfl <;> exact ⟨rfl, by decide, by decide, by decide⟩

namespace Writes

theorem null : Writes ['n', 'u', 'l', 'l'] [.null] := fun _ _ => rfl

theorem flag (b : Bool) : Writes (writeFlag b) [.flag b] := by
  cases b <;> exact fun _ _ => rfl

theorem number (n : Nat) : Writes (writeNumber n) [.number (.written n)] := fun _ h =>
  tokensFrom_writeNumber n h

theorem text (s : String) : Writes (writeText s) [.text (.ok s)] := fun rest _ =>
  tokensFrom_writeText s rest

theorem nil : Writes [] [] := fun _ _ => rfl

theorem blank (h : Writes cs ts) : Writes (' ' :: cs) ts := h

theorem blanks (n : Nat) (h : Writes cs ts) : Writes (List.replicate n ' ' ++ cs) ts := by
  induction n with
  | zero => exact h
  | succ n ih => exact ih.blank

theorem newline (level : Nat) (h : Writes cs ts) : Writes (Value.newline level ++ cs) ts :=
  blanks (2 * level) h

/-- A new line may stand after what is written, too. -/
theorem before_newline (level : Nat) (h : Writes cs ts) : Writes (cs ++ Value.newline level) ts := by
  intro rest hrest
  have hcs := h (Value.newline level ++ rest) (apart_cons (by decide) (List.replicate _ ' ' ++ rest))
  have hline := Writes.nil.newline level rest hrest
  rw [List.append_nil, List.nil_append] at hline
  rw [List.append_assoc, hcs, hline]

theorem comma (h : Writes cs ts) (h' : Writes cs' ts') : Writes (cs ++ ',' :: cs') (ts ++ .comma :: ts') := by
  intro rest hrest
  have hcs := h (',' :: (cs' ++ rest)) (apart_cons (by decide) _)
  rw [List.append_assoc, List.cons_append, hcs, List.append_assoc]
  exact congrArg (ts ++ .comma :: ·) (h' rest hrest)

theorem field (k : String) (h : Writes cs ts) :
    Writes (writeText k ++ ':' :: cs) (.text (.ok k) :: .colon :: ts) := by
  intro rest hrest
  rw [List.append_assoc, tokensFrom_writeText]
  exact congrArg (.text (.ok k) :: .colon :: ·) (h rest hrest)

theorem brackets (h : Writes cs ts) : Writes ('[' :: cs ++ [']']) (.openBracket :: ts ++ [.closeBracket]) := by
  intro rest hrest
  have hclose := h (']' :: rest) (apart_cons (by decide) _)
  rw [List.append_assoc, List.append_assoc]
  exact congrArg (.openBracket :: ·) hclose

theorem braces (h : Writes cs ts) :
    Writes (openBrace :: cs ++ [closeBrace]) (.openBrace :: ts ++ [.closeBrace]) := by
  intro rest hrest
  have hclose := h (closeBrace :: rest) (apart_cons (by decide) _)
  rw [List.append_assoc, List.append_assoc]
  exact congrArg (.openBrace :: ·) hclose

end Writes

namespace Value

mutual

theorem writes_compact : ∀ v : Value, Writes v.compactChars v.tokens
  | .null => .null
  | .flag b => .flag b
  | .number n => .number n
  | .text s => .text s
  | .list items => by
    rw [compactChars, tokens]
    exact (writes_compactItems items).brackets
  | .object fields => by
    rw [compactChars, tokens]
    exact (writes_compactFields fields).braces

theorem writes_compactItems : ∀ vs : List Value, Writes (compactItems vs) (itemTokens vs)
  | [] => .nil
  | [v] => by
    rw [compactItems, itemTokens]
    exact writes_compact v
  | v :: w :: vs => by
    rw [compactItems, itemTokens]
    exact (writes_compact v).comma (writes_compactItems (w :: vs))

theorem writes_compactFields : ∀ fs : List (String × Value), Writes (compactFields fs) (fieldTokens fs)
  | [] => .nil
  | [(k, v)] => by
    rw [compactFields, fieldTokens]
    exact (writes_compact v).field k
  | (k, v) :: f :: fs => by
    rw [compactFields, fieldTokens]
    exact ((writes_compact v).field k).comma (writes_compactFields (f :: fs))

end

mutual

theorem writes_pretty : ∀ (level : Nat) (v : Value), Writes (v.prettyChars level) v.tokens
  | _, .null => .null
  | _, .flag b => .flag b
  | _, .number n => .number n
  | _, .text s => .text s
  | _, .list [] => Writes.nil.brackets
  | level, .list (v :: vs) => by
    rw [prettyChars, tokens]
    exact ((writes_prettyItems (level + 1) (v :: vs)).before_newline level).brackets
  | _, .object [] => Writes.nil.braces
  | level, .object (f :: fs) => by
    rw [prettyChars, tokens]
    exact ((writes_prettyFields (level + 1) (f :: fs)).before_newline level).braces

theorem writes_prettyItems : ∀ (level : Nat) (vs : List Value),
    Writes (prettyItems level vs) (itemTokens vs)
  | _, [] => .nil
  | level, [v] => by
    rw [prettyItems, itemTokens]
    exact (writes_pretty level v).newline level
  | level, v :: w :: vs => by
    rw [prettyItems, itemTokens]
    exact ((writes_pretty level v).newline level).comma (writes_prettyItems level (w :: vs))

theorem writes_prettyFields : ∀ (level : Nat) (fs : List (String × Value)),
    Writes (prettyFields level fs) (fieldTokens fs)
  | _, [] => .nil
  | level, [(k, v)] => by
    rw [prettyFields, fieldTokens, List.append_assoc]
    exact ((writes_pretty level v).blank.field k).newline level
  | level, (k, v) :: f :: fs => by
    rw [prettyFields, fieldTokens, List.append_assoc (newline level) (writeText k)]
    exact (((writes_pretty level v).blank.field k).newline level).comma (writes_prettyFields level (f :: fs))

end

theorem tokens_compact (v : Value) : Json.tokens v.compact = v.tokens := by
  have h := writes_compact v [] apart_nil
  rw [List.append_nil] at h
  rw [Json.tokens, compact, String.toList_ofList, h]
  exact List.append_nil _

theorem tokens_pretty (v : Value) : Json.tokens v.pretty = v.tokens := by
  have h := writes_pretty 0 v [] apart_nil
  rw [List.append_nil] at h
  rw [Json.tokens, pretty, String.toList_ofList, h]
  exact List.append_nil _

end Value
end ChangeRelay.Json
