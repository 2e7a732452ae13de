import PackageLoader.Json.Text
import PackageLoader.Response.Basic

/-!
The text of a response. Lists without items and absent modules are left out, and an import is
written as the identifier of its target; one without a target among the packages is left out.
-/
namespace PackageLoader

open Json

/-- Paths as an array. -/
def pathsValue (paths : List Path) : Value :=
  .array (paths.map fun p => .string p.text)

/-- An error as an object. -/
def PackageError.value (e : PackageError) : Value :=
  .object [("Pos", .string e.position), ("Msg", .string e.message),
    ("Kind", .natural e.kind.code)]

/-- A module as an object. -/
def Module.value (m : Module) : Value :=
  .object [("Path", .string m.path), ("Dir", .string m.dir.text),
    ("GoMod", .string m.descriptor.text)]

/-- The imports of a package with the identifiers of their targets. -/
def Package.importIds (p : Package) (all : List Package) : List (String × String) :=
  p.imports.entries.filterMap fun (path, target?) =>
    (target?.bind fun id => all[id]?).map fun target => (path, target.id)

/-- A member that is left out if it has no parts. -/
def unlessEmpty (key : String) : Value → List (String × Value)
  | .array [] | .object [] => []
  | value => [(key, value)]

/-- `WirePackage`: a package as an object. -/
def Package.value (p : Package) (all : List Package) : Value :=
  .object <|
    [("ID", .string p.id), ("Name", .string p.name), ("PkgPath", .string p.path)] ++
    unlessEmpty "Errors" (.array (p.errors.map (·.value))) ++
    unlessEmpty "GoFiles" (pathsValue p.files) ++
    unlessEmpty "CompiledGoFiles" (pathsValue p.compiledFiles) ++
    unlessEmpty "OtherFiles" (pathsValue p.otherFiles) ++
    unlessEmpty "Imports"
      (.object ((p.importIds all).map fun (path, id) => (path, .string id))) ++
    (p.module?.map fun m => ("Module", m.value)).toList

namespace Response

/-- A response as an object. -/
def value (r : Response) : Value :=
  .object
    [("NotHandled", .boolean r.notHandled), ("Compiler", .string r.compiler),
      ("Arch", .string r.architecture), ("Roots", .array (r.roots.map .string)),
      ("Packages", .array (r.packages.map (·.value r.packages))),
      ("GoVersion", .natural r.goVersion)]

/-- `DriverResponse::to_json`: the text of a response. -/
def text (r : Response) : String :=
  r.value.text

end Response

end PackageLoader
