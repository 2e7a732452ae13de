import PackageLoader.Request.Mode
import PackageLoader.Storage.FileSystem

/-!
Requests of a client: what it wants to know, its environment and its unsaved files.
-/
namespace PackageLoader

/-- `DriverRequest`: a request. Environment entries have the form `KEY=VALUE`, and later ones
win. -/
structure Request where
  mode : LoadMode := ⟨0⟩
  env : List String := []
  buildFlags : List String := []
  tests : Bool := false
  overlay : Overlay := .empty
  deriving DecidableEq

end PackageLoader
