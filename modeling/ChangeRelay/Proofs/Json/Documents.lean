/-
The documents of written values. The tokens of a value, where a value is expected, build its document,
inside whatever lists and objects it stands (`build_tokens`), so a text that is written for a value is a
complete document with nothing after it (`document_compact`, `document_pretty`). Its strings, lists of
strings and flags are read as what they were.
-/
import ChangeRelay.Json.Reader
import ChangeRelay.Proofs.Json.Tokens

namespace ChangeRelay.Json

variable {frames : List Frame} {ts : List Token}

namespace Value

mutual

/-- The document of what is written for a value. -/
def document : Value → Document
  | .null => .null
  | .flag b => .flag b
  | .number n => .number (.written n)
  | .text s => .text (.ok s)
  | .list items => .list (itemDocuments items) .closed
  | .object fields => .object (fieldDocuments fields) .closed

/-- The documents of the items of a list. -/
def itemDocuments : List Value → List Document
  | [] => []
  | v :: vs => document v :: itemDocuments vs

/-- The fields of the document of an object. -/
def fieldDocuments : List (String × Value) → Fields
  | [] => []
  | (k, v) :: fs => (.ok k, document v) :: fieldDocuments fs

end

end Value

/-! ## From tokens to documents -/

/-- The document that comes of more tokens. -/
def Built.resume : Built → List Token → Document × Bool
  | .complete d, ts => (d, !ts.isEmpty)
  | .goOn frames next, ts => build frames next ts
  | .breakOff d, _ => (d, true)

theorem build_cons (frames : List Frame) (e : Expecting) (t : Token) (ts : List Token) :
    build frames e (t :: ts) = (take frames e t).resume ts := by
  rw [build]
  cases take frames e t <;> rfl

/-- No value starts with a closing bracket, so the first item of a list is read as any value. -/
theorem build_firstItem (v : Value) (vs : List Value) :
    build frames .firstItem (Value.itemTokens (v :: vs) ++ ts) =
      build (.list [] :: frames) .value (Value.itemTokens (v :: vs) ++ ts) := by
  cases vs <;> cases v <;> rfl

theorem build_itemOrClose (before : List Document) (v : Value) (vs : List Value) :
    build frames (.itemOrClose before) (Value.itemTokens (v :: vs) ++ ts) =
      build (.list before :: frames) .value (Value.itemTokens (v :: vs) ++ ts) := by
  cases vs <;> cases v <;> rfl

theorem build_firstKey (f : String × Value) (fs : List (String × Value)) :
    build frames .firstKey (Value.fieldTokens (f :: fs) ++ ts) =
      build frames (.key []) (Value.fieldTokens (f :: fs) ++ ts) := by
  cases fs <;> rfl

mutual

theorem build_tokens : ∀ (v : Value) (frames : List Frame) (ts : List Token),
    build frames .value (v.tokens ++ ts) = (endValue v.document frames).resume ts
  | .null, _, _ => build_cons _ _ _ _
  | .flag _, _, _ => build_cons _ _ _ _
  | .number _, _, _ => build_cons _ _ _ _
  | .text _, _, _ => build_cons _ _ _ _
  | .list [], frames, ts => build_cons frames .firstItem .closeBracket ts
  | .list (v :: vs), frames, ts => by
    have h := build_itemTokens (v :: vs) [] frames ts (List.cons_ne_nil v vs)
    rw [Value.tokens, List.append_assoc, List.cons_append, build_cons]
    exact (build_firstItem v vs).trans h
  | .object [], frames, ts => build_cons frames .firstKey .closeBrace ts
  | .object (f :: fs), frames, ts => by
    have h := build_fieldTokens (f :: fs) [] frames ts (List.cons_ne_nil f fs)
    rw [Value.tokens, List.append_assoc, List.cons_append, build_cons]
    exact (build_firstKey f fs).trans h

theorem build_itemTokens : ∀ (vs : List Value) (before : List Document) (frames : List Frame)
    (ts : List Token), vs ≠ [] →
    build (.list before :: frames) .value (Value.itemTokens vs ++ .closeBracket :: ts) =
      (endValue (.list (before.reverse ++ Value.itemDocuments vs) .closed) frames).resume ts
  | [], _, _, _, hne => absurd rfl hne
  | [v], before, frames, ts, _ => by
    rw [Value.itemTokens, build_tokens v, Value.itemDocuments, Value.itemDocuments, ← List.reverse_cons]
    exact build_cons frames (.commaOrBracket (v.document :: before)) .closeBracket ts
  | v :: w :: vs, before, frames, ts, _ => by
    have h := build_itemTokens (w :: vs) (v.document :: before) frames ts (List.cons_ne_nil w vs)
    rw [List.reverse_cons, List.append_assoc] at h
    rw [Value.itemTokens, List.append_assoc, build_tokens v]
    exact (build_itemOrClose (v.document :: before) w vs).trans h

theorem build_fieldTokens : ∀ (fs : List (String × Value)) (before : Fields) (frames : List Frame)
    (ts : List Token), fs ≠ [] →
    build frames (.key before) (Value.fieldTokens fs ++ .closeBrace :: ts) =
      (endValue (.object (before.reverse ++ Value.fieldDocuments fs) .closed) frames).resume ts
  | [], _, _, _, hne => absurd rfl hne
  | [(k, v)], before, frames, ts, _ => by
    have h := build_tokens v (.object before (.ok k) :: frames) (.closeBrace :: ts)
    rw [Value.fieldTokens, Value.fieldDocuments, Value.fieldDocuments, ← List.reverse_cons]
    exact h.trans (build_cons frames (.commaOrBrace ((.ok k, v.document) :: before)) .closeBrace ts)
  | (k, v) :: f :: fs, before, frames, ts, _ => by
    have h := build_fieldTokens (f :: fs) ((.ok k, v.document) :: before) frames ts (List.cons_ne_nil f fs)
    rw [List.reverse_cons, List.append_assoc] at h
    rw [Value.fieldTokens, List.append_assoc]
    exact (build_tokens v (.object before (.ok k) :: frames) _).trans h

end

/-- What is written for a value on one line is its document, with nothing after it. -/
theorem document_compact (v : Value) : document v.compact = (v.document, false) := by
  rw [document, Value.tokens_compact, ← List.append_nil v.tokens, build_tokens]
  rfl

/-- What is written for a value over several lines is its document, with nothing after it. -/
theorem document_pretty (v : Value) : document v.pretty = (v.document, false) := by
  rw [document, Value.tokens_pretty, ← List.append_nil v.tokens, build_tokens]
  rfl

variable {α : Type} {read : Document → Answer α}

theorem readWith_compact (v : Value) : readWith read v.compact = read v.document := by
  rw [readWith, document_compact]
  cases read v.document <;> rfl

theorem readWith_pretty (v : Value) : readWith read v.pretty = read v.document := by
  rw [readWith, document_pretty]
  cases read v.document <;> rfl

/-! ## Lists of strings -/

theorem readTexts_document (texts : List String) :
    (Value.list (texts.map .text)).document.readTexts = .ok texts := by
  have h : Document.readTextItems .closed (Value.itemDocuments (texts.map .text)) = .ok texts := by
    induction texts with
    | nil => rfl
    | cons s texts ih =>
      rw [List.map_cons, Value.itemDocuments, Document.readTextItems, ih]
      rfl
  rw [Value.document]
  exact h

/-- Strings are kept without a fault, however deep they may be nested. -/
theorem keepItems_texts (levels : Nat) (texts : List String) :
    Document.keepItems levels (Value.itemDocuments (texts.map .text)) = none := by
  induction texts with
  | nil => rfl
  | cons s texts ih =>
    rw [List.map_cons, Value.itemDocuments, Document.keepItems, ih]
    rfl

end ChangeRelay.Json
