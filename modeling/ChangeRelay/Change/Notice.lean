/-
Notices of the operating system, and the mutations they report. A notice comes after the fact, so
what has been removed can no longer be looked at and is taken for what the notice calls it; what
has been made or changed is looked at on the disk.
-/
import ChangeRelay.Change.Mutation

namespace ChangeRelay

/-- The sides of a rename that a notice tells about. -/
inductive RenameSide where
  | both
  | source
  | target
  /-- The notice does not say. -/
  | unknown
  deriving DecidableEq, Repr

/-- The properties of an entry that notices tell apart. -/
inductive EntryProperty where
  | any
  | accessTime
  | writeTime
  | permissions
  | ownership
  | extended
  | other
  deriving DecidableEq, Repr

/-- The name of a property. -/
def EntryProperty.name : EntryProperty → String
  | .any => "any"
  | .accessTime => "accesstime"
  | .writeTime => "writetime"
  | .permissions => "permissions"
  | .ownership => "ownership"
  | .extended => "extended"
  | .other => "other"

/-- What a notice says has happened. -/
inductive NoticeKind where
  /-- Nothing that counts: an access, or something the system does not name. -/
  | idle
  | created
  | removedDirectory
  | removed
  | renamed (side : RenameSide)
  | property (p : EntryProperty)
  /-- The content, or something unnamed about an entry, changed. -/
  | modified
  deriving DecidableEq, Repr

/-- A notice of the operating system. -/
structure Notice where
  kind : NoticeKind
  paths : List Path
  deriving DecidableEq, Repr

namespace Notice

/-- The mutation that one path of a rename without a side reports: what is there has come, what is
not there has gone. -/
def ofUnsidedRename (d : Disk) (p : Path) : Mutation :=
  if d.leadsSomewhere p then .created (.probe d p) else .deleted (.file p)

/-- The mutations that a notice reports, on the disk as it is now. -/
def mutations (d : Disk) (n : Notice) : List Mutation :=
  match n.kind with
  | .idle => []
  | .created => n.paths.map fun p => .created (.probe d p)
  | .removedDirectory => n.paths.map fun p => .deleted (.directory p)
  | .removed => n.paths.map fun p => .deleted (.file p)
  | .renamed .both =>
    match n.paths with
    | [source, target] => [.deleted (.file source), .created (.probe d target)]
    | _ => []
  | .renamed .source => n.paths.map fun p => .deleted (.file p)
  | .renamed .target => n.paths.map fun p => .created (.probe d p)
  | .renamed .unknown => n.paths.map (ofUnsidedRename d)
  | .property q => n.paths.map fun p => .property (.probe d p) q.name
  | .modified => n.paths.map fun p => .modified (.probe d p)

end Notice
end ChangeRelay
