import PackageLoader.Package.Basic

/-!
Linking: every import is pointed at the package with its path, and imports that no package
provides are dropped. The builtin package can be imported but its own imports are left alone.
-/
namespace PackageLoader

/-- The packages that can be imported, by path. The last one with a path wins. -/
def importTargets (packages : List Package) : Table String PackageId :=
  .ofList ((packages.zipIdx.filter fun e => !e.1.isExternalTest).map fun e => (e.1.path, e.2))

/-- Points the imports of a package at their targets. -/
def Package.link (targets : Table String PackageId) (p : Package) : Package :=
  if p.origin = .builtin then p
  else { p with imports := p.imports.revise fun path _ => (targets.get? path).map some }

/-- `link`: links every package of a list. -/
def linkPackages (packages : List Package) : List Package :=
  packages.map (·.link (importTargets packages))

end PackageLoader
