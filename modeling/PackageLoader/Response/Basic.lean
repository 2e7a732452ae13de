import PackageLoader.Package.Graph

/-!
The answer to a query: the loaded packages and the identifiers of those that were asked for.
-/
namespace PackageLoader

/-- `DriverResponse`: the answer to a query. Every query is handled, by this compiler and without a
version. -/
structure Response where
  packages : List Package
  roots : List String
  architecture : String
  notHandled : Bool := false
  compiler : String := "gc"
  goVersion : Nat := 0
  deriving DecidableEq

namespace Response

/-- `DriverResponse::find`: the first package with an identifier. -/
def find? (r : Response) (id : String) : Option Package :=
  r.packages.find? (·.id = id)

/-- `DriverResponse::import_target`: the package that an import points at. -/
def importTarget? (r : Response) (p : Package) (importPath : String) : Option Package :=
  (p.imports.get? importPath).join.bind fun id => r.packages[id]?

end Response

end PackageLoader
