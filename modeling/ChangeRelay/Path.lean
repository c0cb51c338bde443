/-
Paths. A path is the bytes it was written with and is given back so; what it means is the list of
its components, in which repeated and trailing separators and inner `.` segments have no part. Two
paths are the same when their components are, one lies in another when its components begin with
those of the other, and a path is named relative to a root by the components that follow.
-/
import ChangeRelay.Text.Lowercase
import ChangeRelay.Text.Utf8

namespace ChangeRelay

/-- A path, as the bytes it was written with. -/
structure Path where
  bytes : List UInt8
  deriving DecidableEq, Repr, Inhabited

/-- One step of a path. -/
inductive Component where
  /-- The separator at the start of an absolute path. -/
  | root
  /-- A `.` at the start of a relative path. -/
  | here
  /-- A `..`, wherever it stands. -/
  | up
  /-- The name of an entry. -/
  | name (bytes : List UInt8)
  deriving DecidableEq, Repr

namespace Path

/-- The byte between the segments of a path. -/
def separator : UInt8 := 47

/-- The byte of a dot. -/
def dot : UInt8 := 46

end Path

namespace Component

/-- The bytes of a component. -/
def bytes : Component → List UInt8
  | .root => [Path.separator]
  | .here => [Path.dot]
  | .up => [Path.dot, Path.dot]
  | .name bs => bs

/-- The text of a component; bytes that are no text are replaced. -/
def text (c : Component) : String := Utf8.decodeLossy c.bytes

end Component

namespace Path

/-! ## Segments and components -/

/-- The runs of bytes between the separators, the empty ones included. -/
def segments : List UInt8 → List (List UInt8)
  | [] => [[]]
  | b :: bs =>
    if b = separator then [] :: segments bs
    else
      match segments bs with
      | [] => [[b]]
      | s :: ss => (b :: s) :: ss

/-- The component of a segment that does not start the path; `.` and nothing give none. -/
def innerComponent? (s : List UInt8) : Option Component :=
  if s = [] then none
  else if s = [dot] then none
  else if s = [dot, dot] then some .up
  else some (.name s)

/-- Whether the path starts at the root of the file system. -/
def isAbsolute (p : Path) : Bool := p.bytes.head? == some separator

/-- The components of a path. -/
def components (p : Path) : List Component :=
  match segments p.bytes with
  | [] => []
  | s :: ss =>
    (if p.isAbsolute then [.root] else if s = [dot] then [.here] else (innerComponent? s).toList)
      ++ ss.filterMap innerComponent?

/-- Two paths are the same when their components are. -/
def Same (p q : Path) : Prop := p.components = q.components

instance (p q : Path) : Decidable (Same p q) :=
  inferInstanceAs (Decidable (p.components = q.components))

/-! ## A path within another -/

/-- What follows a list of components in a longer one. -/
def following? : List Component → List Component → Option (List Component)
  | [], cs => some cs
  | _ :: _, [] => none
  | r :: rs, c :: cs => if r = c then following? rs cs else none

/-- Whether `p` is `root` or lies below it, by components. -/
def startsWith (p root : Path) : Bool := (following? root.components p.components).isSome

/-- The name of `p` relative to `root`: the texts of the components that follow, joined by `/`.
The root itself and what lies outside it have none. -/
def relativeTo? (p root : Path) : Option String :=
  match following? root.components p.components with
  | none => none
  | some [] => none
  | some (c :: cs) => some (String.intercalate "/" ((c :: cs).map Component.text))

/-- The path of an entry in a directory: one separator stands between them. -/
def child (p : Path) (name : List UInt8) : Path :=
  if p.bytes.getLast? = some separator then ⟨p.bytes ++ name⟩
  else ⟨p.bytes ++ separator :: name⟩

/-- The path `q` as seen from the directory `p`; an absolute path is seen as itself. -/
def join (p q : Path) : Path :=
  if q.isAbsolute then q
  else if p.bytes = [] then q
  else p.child q.bytes

/-! ## Names and extensions -/

/-- The name of the entry that a path leads to, unless it ends in a step that is no name. -/
def fileName? (p : Path) : Option (List UInt8) :=
  match p.components.getLast? with
  | some (.name bs) => some bs
  | _ => none

/-- The bytes of a name after its last dot. A dot that starts the name starts no extension. -/
def extensionOf? (name : List UInt8) : Option (List UInt8) :=
  let rev := name.reverse
  match rev.dropWhile (· ≠ dot) with
  | [] => none
  | [_] => none
  | _ :: _ :: _ => some (rev.takeWhile (· ≠ dot)).reverse

/-- The extension of a path in lower case, if it has one that is text. -/
def extension? (p : Path) : Option String :=
  ((p.fileName?.bind extensionOf?).bind Utf8.decode?).map Text.lowercase

/-! ## Text -/

/-- The path written as a text. -/
def ofText (s : String) : Path := ⟨Utf8.encode s⟩

/-- The path as a text, if it is one. -/
def text? (p : Path) : Option String := Utf8.decode? p.bytes

/-- The path as a text; bytes that are no text are replaced. -/
def display (p : Path) : String := Utf8.decodeLossy p.bytes

end Path
end ChangeRelay
