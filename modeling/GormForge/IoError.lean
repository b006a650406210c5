/-!
# Input and output errors

The ways in which reading or writing a file can fail, and how the system words them.
-/

namespace GormForge

/-- Why a file operation failed. -/
inductive IoError where
  | notFound
  | alreadyExists
  | notADirectory
  | isADirectory
  | nameTooLong
  /-- The contents are no text. -/
  | invalidData
  /-- The path is no path. -/
  | invalidInput
  deriving Repr, DecidableEq

namespace IoError

/-- The wording of an error. -/
def message : IoError → String
  | notFound => "No such file or directory (os error 2)"
  | alreadyExists => "File exists (os error 17)"
  | notADirectory => "Not a directory (os error 20)"
  | isADirectory => "Is a directory (os error 21)"
  | nameTooLong => "File name too long (os error 36)"
  | invalidData => "stream did not contain valid UTF-8"
  | invalidInput => "file name contained an unexpected NUL byte"

/-- The name of the class of an error. -/
def kind : IoError → String
  | notFound => "NotFound"
  | alreadyExists => "AlreadyExists"
  | notADirectory => "NotADirectory"
  | isADirectory => "IsADirectory"
  | nameTooLong => "InvalidFilename"
  | invalidData => "InvalidData"
  | invalidInput => "InvalidInput"

end IoError
end GormForge
