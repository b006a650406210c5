import GormForge.IoError
import GormForge.Path

/-!
# Failures of wiring

What can go wrong while provider files are patched, and how it is worded.
-/

namespace GormForge

/-- A failure to patch provider files. -/
inductive WireError where
  | readDirectory (path : Path) (cause : IoError)
  | noProviderFile (directory : Path)
  | ambiguousMarker (path : Path) (marker : String) (lines : List Nat)
  | read (path : Path) (cause : IoError)
  | write (path : Path) (cause : IoError)
  deriving Repr, DecidableEq

namespace WireError

/-- The wording of a failure. -/
def message : WireError → String
  | readDirectory path _ => s!"failed to read DI directory '{path.text}'"
  | noProviderFile directory => s!"no DI file found in '{directory.text}'"
  | ambiguousMarker path _ lines =>
      let shown := String.intercalate ", " (lines.map toString)
      s!"marker appears on lines {shown} of '{path.text}'"
  | read path _ => s!"failed to read '{path.text}'"
  | write path _ => s!"failed to write '{path.text}'"

/-- The diagnostic code of a failure. -/
def code : WireError → String
  | readDirectory _ _ => "kun::wire::read_dir"
  | noProviderFile _ => "kun::wire::no_di_file"
  | ambiguousMarker _ _ _ => "kun::wire::ambiguous_marker"
  | read _ _ => "kun::wire::read"
  | write _ _ => "kun::wire::write"

/-- The advice that goes with a failure. -/
def help : WireError → Option String
  | noProviderFile _ =>
      some "the directory above the generated package should hold the provider set file"
  | ambiguousMarker _ marker _ =>
      some ("keep exactly one `" ++ marker ++ "` line in the file")
  | _ => none

/-- What the system said, where it said anything. -/
def cause : WireError → Option IoError
  | readDirectory _ cause => some cause
  | read _ cause => some cause
  | write _ cause => some cause
  | _ => none

end WireError
end GormForge
