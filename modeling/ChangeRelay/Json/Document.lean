/-
A JSON text as a document. A document is read as far as the text is JSON, and keeps where it
breaks off. A reader walks it in the order of the text and reports the first fault that it meets:
one of its own, when the document has another shape than it asks for, or one of the text. What no
reader asks for is passed over, and may hold strings and numbers that could not be read.
-/
import ChangeRelay.Json.Token

namespace ChangeRelay.Json

/-- The answers at the place where a list or an object breaks off. -/
structure Breach where
  /-- When another item or name is asked for. -/
  onNext : Flaw
  /-- When the end is asked for. -/
  onEnd : Flaw
  /-- When the rest is passed over. -/
  onSkip : Flaw
  deriving DecidableEq, Repr

/-- How a list or an object ends. -/
inductive Ending where
  | closed
  | broken (b : Breach)
  deriving DecidableEq, Repr

/-- What stands at the start of a value that breaks off. -/
inductive Lead where
  | nothing
  | quote
  | other
  deriving DecidableEq, Repr

/-- A JSON text as far as it can be read. -/
inductive Document where
  | null
  | flag (b : Bool)
  | number (n : Numeral)
  | text (s : Except Flaw String)
  | list (items : List Document) (ending : Ending)
  | object (fields : List (Except Flaw String × Document)) (ending : Ending)
  /-- A value that breaks off before it has begun to be one. -/
  | cut (lead : Lead) (onRead onSkip : Flaw)

/-! ## From tokens to a document -/

/-- The fields of an object. -/
abbrev Fields := List (Except Flaw String × Document)

/-- A list or an object in which a value is being read; what came before, latest first. -/
inductive Frame where
  | list (items : List Document)
  | object (fields : Fields) (key : Except Flaw String)

/-- What may come next, with what has been read of the innermost list or object. -/
inductive Expecting where
  | value
  | firstItem
  | itemOrClose (items : List Document)
  | commaOrBracket (items : List Document)
  | firstKey
  | key (fields : Fields)
  | colon (fields : Fields) (key : Except Flaw String)
  | commaOrBrace (fields : Fields)

/-- A place where the same fault is reported whatever is asked for. -/
def Breach.all (f : Flaw) : Breach := ⟨f, f, f⟩

/-- The place after a comma. Asking for the end there is a fault of grammar. -/
def Breach.afterComma (f : Flaw) : Breach := ⟨f, .grammar, f⟩

/-- What a token starts when a value is expected. -/
inductive ValueStart where
  | whole (d : Document)
  | opens (next : Expecting)
  | breaks (d : Document)

/-- What a token starts when a value is expected. -/
def Token.startValue : Token → ValueStart
  | .null => .whole .null
  | .flag b => .whole (.flag b)
  | .number n => .whole (.number n)
  | .text s => .whole (.text s)
  | .openBracket => .opens .firstItem
  | .openBrace => .opens .firstKey
  | .cutText onRead onSkip => .breaks (.cut .quote onRead onSkip)
  | .cutWord f => .breaks (.cut .other f f)
  | .cutNumber onRead => .breaks (.cut .other onRead .grammar)
  | .closeBrace | .closeBracket | .comma | .colon | .stray => .breaks (.cut .other .grammar .grammar)

/-- The document whose reading broke off inside `frames`, with the innermost value. -/
def closeAll (d : Document) : List Frame → Document
  | [] => d
  | .list items :: frames =>
    closeAll (.list (d :: items).reverse (.broken (.all .grammar))) frames
  | .object fields key :: frames =>
    closeAll (.object ((key, d) :: fields).reverse (.broken (.all .grammar))) frames

/-- What comes of a token: the document is complete, it goes on, or it breaks off. -/
inductive Built where
  | complete (d : Document)
  | goOn (frames : List Frame) (next : Expecting)
  | breakOff (d : Document)

/-- A value is complete. -/
def endValue (d : Document) : List Frame → Built
  | [] => .complete d
  | .list items :: frames => .goOn frames (.commaOrBracket (d :: items))
  | .object fields key :: frames => .goOn frames (.commaOrBrace ((key, d) :: fields))

/-- A value is expected. -/
def takeValue (frames : List Frame) (t : Token) : Built :=
  match t.startValue with
  | .whole d => endValue d frames
  | .opens next => .goOn frames next
  | .breaks d => .breakOff (closeAll d frames)

/-- A list breaks off. -/
def breakList (frames : List Frame) (items : List Document) (b : Breach) : Built :=
  .breakOff (closeAll (.list items.reverse (.broken b)) frames)

/-- An object breaks off. -/
def breakObject (frames : List Frame) (fields : Fields) (b : Breach) : Built :=
  .breakOff (closeAll (.object fields.reverse (.broken b)) frames)

/-- The next token. -/
def take (frames : List Frame) : Expecting → Token → Built
  | .value, t => takeValue frames t
  | .firstItem, .closeBracket => endValue (.list [] .closed) frames
  | .firstItem, t => takeValue (.list [] :: frames) t
  | .itemOrClose items, .closeBracket => breakList frames items (.all .grammar)
  | .itemOrClose items, t => takeValue (.list items :: frames) t
  | .commaOrBracket items, .closeBracket => endValue (.list items.reverse .closed) frames
  | .commaOrBracket items, .comma => .goOn frames (.itemOrClose items)
  | .commaOrBracket items, _ => breakList frames items (.all .grammar)
  | .firstKey, .closeBrace => endValue (.object [] .closed) frames
  | .firstKey, .text s => .goOn frames (.colon [] s)
  | .firstKey, .cutText onRead onSkip => breakObject frames [] ⟨onRead, onRead, onSkip⟩
  | .firstKey, _ => breakObject frames [] (.all .grammar)
  | .key fields, .text s => .goOn frames (.colon fields s)
  | .key fields, .cutText onRead onSkip => breakObject frames fields ⟨onRead, .grammar, onSkip⟩
  | .key fields, _ => breakObject frames fields (.all .grammar)
  | .colon fields key, .colon => .goOn (.object fields key :: frames) .value
  | .colon fields key, _ =>
    .breakOff (closeAll (.cut .other .grammar .grammar) (.object fields key :: frames))
  | .commaOrBrace fields, .closeBrace => endValue (.object fields.reverse .closed) frames
  | .commaOrBrace fields, .comma => .goOn frames (.key fields)
  | .commaOrBrace fields, _ => breakObject frames fields (.all .grammar)

/-- The document of a text that has ended. -/
def takeEnd (frames : List Frame) : Expecting → Document
  | .value => closeAll (.cut .nothing .ended .ended) frames
  | .firstItem => closeAll (.list [] (.broken (.all .ended))) frames
  | .itemOrClose items => closeAll (.list items.reverse (.broken (.afterComma .ended))) frames
  | .commaOrBracket items => closeAll (.list items.reverse (.broken (.all .ended))) frames
  | .firstKey => closeAll (.object [] (.broken (.all .ended))) frames
  | .key fields => closeAll (.object fields.reverse (.broken (.afterComma .ended))) frames
  | .colon fields key => closeAll (.cut .other .ended .ended) (.object fields key :: frames)
  | .commaOrBrace fields => closeAll (.object fields.reverse (.broken (.all .ended))) frames

/-- The document that a list of tokens starts with, and whether tokens follow it. -/
def build : List Frame → Expecting → List Token → Document × Bool
  | frames, e, [] => (takeEnd frames e, false)
  | frames, e, t :: ts =>
    match take frames e t with
    | .complete d => (d, !ts.isEmpty)
    | .goOn frames next => build frames next ts
    | .breakOff d => (d, true)

/-- The document of a text, and whether more follows it. -/
def document (s : String) : Document × Bool := build [] .value (tokens s)

end ChangeRelay.Json
