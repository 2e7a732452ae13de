import PackageLoader.Package.Basic

/-!
The packages of one load in the order of discovery. Paths are unique among packages that are not
external tests: the first package with a path keeps it and later ones are turned away.
-/
namespace PackageLoader

/-- The packages found so far, where those that are no external tests stand by their paths, and the
packages that answer the query. -/
structure PackageGraph where
  packages : List Package := []
  byPath : Table String PackageId := .empty
  roots : List PackageId := []

namespace PackageGraph

/-- `PackageGraph::lookup`: the package with a path. External tests are not found by path. -/
def lookup (g : PackageGraph) (path : String) : Option PackageId :=
  g.byPath.get? path

/-- `PackageGraph::contains_path`: whether a path is taken. -/
def containsPath (g : PackageGraph) (path : String) : Bool :=
  g.byPath.contains path

/-- Puts a package behind the others. Unless it is an external test, it is found by its path. -/
def append (g : PackageGraph) (p : Package) : PackageGraph :=
  { g with
    packages := g.packages ++ [p]
    byPath := if p.isExternalTest then g.byPath else g.byPath.insert p.path g.packages.length }

/-- `PackageGraph::insert`: adds a package unless its path is taken, and says where it went. -/
def insert (g : PackageGraph) (p : Package) : PackageGraph × Option PackageId :=
  if !p.isExternalTest && g.containsPath p.path then (g, none)
  else (g.append p, some g.packages.length)

/-- `PackageGraph::get`: the package at a position. -/
def get? (g : PackageGraph) (id : PackageId) : Option Package :=
  g.packages[id]?

/-- `PackageGraph::add_root`: marks a package as answering the query, once. -/
def addRoot (g : PackageGraph) (id : PackageId) : PackageGraph :=
  if g.roots.contains id then g else { g with roots := g.roots ++ [id] }

/-- `PackageGraph::into_parts`: the packages, and the identifiers of the roots. -/
def parts (g : PackageGraph) : List Package × List String :=
  (g.packages, g.roots.filterMap fun id => (g.get? id).map (·.id))

end PackageGraph

end PackageLoader
