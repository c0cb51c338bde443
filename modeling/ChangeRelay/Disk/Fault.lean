/-
What can go wrong when a path is looked up, read or written, with the wording and the number that
the system gives each fault.
-/

namespace ChangeRelay

/-- Why a path could not be looked up, read or written. -/
inductive Fault where
  /-- A step of the path leads nowhere. -/
  | notFound
  /-- A step of the path goes on below something that is no directory. -/
  | notDirectory
  /-- The content of a directory was asked for or set. -/
  | isDirectory
  /-- The path or one of its names is longer than the system takes. -/
  | nameTooLong
  /-- More links had to be followed than the system follows. -/
  | tooManyLinks
  /-- The path holds a zero byte. -/
  | zeroByte
  /-- The content was read as text and is none. -/
  | notText
  deriving DecidableEq, Repr

namespace Fault

/-- The wording of a fault that has a number of the system. -/
def numbered (wording : String) (number : Nat) : String :=
  wording ++ " (os error " ++ toString number ++ ")"

/-- The wording of a fault. -/
def message : Fault → String
  | .notFound => numbered "No such file or directory" 2
  | .notDirectory => numbered "Not a directory" 20
  | .isDirectory => numbered "Is a directory" 21
  | .nameTooLong => numbered "File name too long" 36
  | .tooManyLinks => numbered "Too many levels of symbolic links" 40
  | .zeroByte => "file name contained an unexpected NUL byte"
  | .notText => "stream did not contain valid UTF-8"

end Fault
end ChangeRelay
