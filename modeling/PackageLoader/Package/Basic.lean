import PackageLoader.Path

/-!
Packages: what loading finds out about one directory of source files. File lists keep the order of
discovery, imports are listed by ascending path, and a target is the position of a package in the
list that it is loaded with.
-/
namespace PackageLoader

/-- `TEST_SUFFIX`: the suffix of external test packages and of the names in their clauses. -/
def testSuffix : String := "_test"

/-- The position of a package in its list. -/
abbrev PackageId := Nat

/-- Where a package comes from. -/
inductive Origin where
  | workspace
  | library
  | builtin
  | externalTest
  deriving DecidableEq, Repr

/-- What an error is about. -/
inductive ErrorKind where
  | unknown
  | listing
  | parsing
  | typing
  deriving DecidableEq, Repr

/-- The number that stands for a kind of error in a response. -/
def ErrorKind.code : ErrorKind → Nat
  | unknown => 0
  | listing => 1
  | parsing => 2
  | typing => 3

/-- A problem found while loading a package. -/
structure PackageError where
  position : String
  message : String
  kind : ErrorKind
  deriving DecidableEq, Repr

/-- An error as one line of text. -/
def PackageError.describe (e : PackageError) : String :=
  e.position ++ ": " ++ e.message

/-- The module through which a package was found. -/
structure Module where
  path : String
  dir : Path
  descriptor : Path
  deriving DecidableEq, Repr

/-- Import paths in ascending order, each with its target once it is known. -/
abbrev Imports := Table String (Option PackageId)

/-- One package. -/
structure Package where
  id : String
  name : String := ""
  path : String
  files : List Path := []
  compiledFiles : List Path := []
  otherFiles : List Path := []
  imports : Imports := .empty
  errors : List PackageError := []
  module? : Option Module := none
  origin : Origin
  deriving DecidableEq

namespace Package

/-- The package with a path and nothing else; its path identifies it. -/
def new (path : String) (origin : Origin) : Package :=
  { id := path, path := path, origin := origin }

/-- `Package::push_file`: adds a file to both file lists. -/
def pushFile (p : Package) (file : Path) : Package :=
  { p with files := p.files ++ [file], compiledFiles := p.compiledFiles ++ [file] }

/-- Adds files to both file lists, in order. -/
def pushFiles (p : Package) (files : List Path) : Package :=
  files.foldl pushFile p

/-- `Package::replace_file`: replaces the file at a position of both file lists. -/
def replaceFile (p : Package) (index : Nat) (file : Path) : Package :=
  { p with files := p.files.set index file, compiledFiles := p.compiledFiles.set index file }

/-- `Package::has_files`: whether the package lists any file. -/
def hasFiles (p : Package) : Bool :=
  !p.files.isEmpty

/-- `Package::is_external_test`: external test packages share the path space of no other package. -/
def isExternalTest (p : Package) : Bool :=
  p.origin = .externalTest

theorem pushFiles_files (p : Package) (files : List Path) :
    (p.pushFiles files).files = p.files ++ files := by
  induction files generalizing p with
  | nil => simp [pushFiles]
  | cons file rest ih =>
    have := ih (p.pushFile file)
    simpa [pushFiles, pushFile] using this

theorem pushFiles_compiledFiles (p : Package) (files : List Path) :
    (p.pushFiles files).compiledFiles = p.compiledFiles ++ files := by
  induction files generalizing p with
  | nil => simp [pushFiles]
  | cons file rest ih =>
    have := ih (p.pushFile file)
    simpa [pushFiles, pushFile] using this

end Package

end PackageLoader
