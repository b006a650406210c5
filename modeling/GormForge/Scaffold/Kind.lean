import GormForge.Path
import GormForge.Template.Builtin
import GormForge.Wiring.Insertion

/-!
# Kinds of scaffolds

The kinds of files that are created from a name alone, with the directory, the template and
the provider entry of each.
-/

namespace GormForge

/-- A kind of scaffold. -/
inductive ScaffoldKind where
  | controller
  | service
  | router
  | cache
  deriving Repr, DecidableEq, Inhabited

namespace ScaffoldKind

/-- The name of a kind. -/
def name : ScaffoldKind → String
  | controller => "controller"
  | service => "service"
  | router => "router"
  | cache => "cache"

/-- The kind with a given name. -/
def ofName? (s : String) : Option ScaffoldKind :=
  [controller, service, router, cache].find? fun kind => kind.name == s

/-- The directory of a kind below the root of a project. -/
def defaultDirectory : ScaffoldKind → Path
  | cache => ⟨"internal/repository/cache"⟩
  | kind => ⟨"internal/" ++ kind.name⟩

/-- The kind of template for a scaffold. -/
def template : ScaffoldKind → Template.Kind
  | controller => .controller
  | service => .service
  | router => .router
  | cache => .cache

/-- The marker of the kind's provider files and the end of the name of its constructor. -/
def provider? : ScaffoldKind → Option (String × String)
  | controller => some (Insertion.controllerMarker, "Controller")
  | service => some (Insertion.serviceMarker, "Service")
  | router => none
  | cache => some (Insertion.cacheMarker, "Cache")

end ScaffoldKind
end GormForge
