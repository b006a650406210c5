import GormForge.Text.Search

/-!
# Scan types

The Go types that database drivers scan values into, and their broad classes.
-/

namespace GormForge

/-- The broad class of a Go type. -/
inductive ScanKind where
  | bool
  | int
  | uint
  | float
  | string
  | bytes
  | struct
  | other
  deriving Repr, DecidableEq, Inhabited

namespace ScanKind

/-- The class of a Go type that is not a pointer. -/
def ofBaseType : String → ScanKind
  | "bool" => bool
  | "int" | "int8" | "int16" | "int32" | "int64" => int
  | "uint" | "uint8" | "uint16" | "uint32" | "uint64" => uint
  | "float32" | "float64" => float
  | "string" => string
  | "[]byte" | "[]uint8" => bytes
  | "time.Time" => struct
  | _ => other

/-- The class of a Go type; a pointer has the class of what it points to. -/
def ofGoType (goType : String) : ScanKind :=
  ofBaseType (String.ofList (goType.toList.dropWhile (· == '*')))

/-- Whether values of the class are numbers. -/
def isNumeric : ScanKind → Bool
  | int | uint | float => true
  | _ => false

end ScanKind

/-- The Go type that a driver scans a column into. -/
structure ScanType where
  name : String
  kind : ScanKind
  deriving Repr, DecidableEq

/-- The scan type with a given name. -/
def ScanType.ofName (name : String) : ScanType :=
  ⟨name, ScanKind.ofGoType name⟩

end GormForge
