import PackageLoader.Header
import PackageLoader.Package.NameVote
import PackageLoader.Package.Sources

/-!
Names, imports and errors of a package, read off the headers of its files, and the separation of
external tests. A test file whose clause carries the test suffix belongs to a package of its own
beside the one that shares its directory.
-/
namespace PackageLoader

/-- What one file contributes: its errors, and its header if the package clause could be read. -/
structure FileReport where
  errors : List PackageError
  header? : Option FileHeader

namespace FileSystem

/-- Reads the header of a file. -/
def inspect (fs : FileSystem) (path : Path) : FileReport :=
  match fs.readSource path with
  | .error e => ⟨[e], none⟩
  | .ok file =>
    let reading := parseHeader .withImports file.text
    ⟨reading.error?.toList.map fun e => ⟨e.position file, e.message, .parsing⟩, reading.header?⟩

/-- `is_external_test`: whether a file belongs to an external test package: its name says that it is
a test, and its clause can be read and carries the test suffix. -/
def isExternalTest (fs : FileSystem) (path : Path) : Bool :=
  path.fileName?.any isTestFile &&
    match fs.readSource path with
    | .error _ => false
    | .ok file => (parseHeader .clauseOnly file.text).packageName?.any isTestName

end FileSystem

namespace Package

/-- `resolve_name_and_imports`: fills in the imports and errors of a package from its compiled
files, and its name by a vote among them unless it has one. -/
def resolve (p : Package) (fs : FileSystem) : Package :=
  let reports := p.compiledFiles.map fs.inspect
  let headers := reports.filterMap (·.header?)
  { p with
    name := if p.name.isEmpty then
      (NameVote.winner? (headers.map (·.package.name))).getD "" else p.name
    imports := .ofList (headers.flatMap fun h => h.imports.map fun i => (i.path, none))
    errors := p.errors ++ reports.flatMap (·.errors) }

/-- `external_test_package`: the external test package of a package, without files. It belongs to
the same module. -/
def externalTest (base : Package) : Package :=
  { new (base.path ++ testSuffix) .externalTest with module? := base.module? }

/-- Both file lists without the files that move out, and those files. -/
structure FileSplit where
  files : List Path
  compiledFiles : List Path
  moved : List Path

/-- Goes through the compiled files in step with the front of the other list and moves out the
files that pass the test. Files behind that front stay. -/
def splitFiles (moves : Path → Bool) : List Path → List Path → FileSplit
  | files, [] => ⟨files, [], []⟩
  | files, file :: rest =>
    let split := splitFiles moves files.tail rest
    if moves file then { split with moved := file :: split.moved }
    else ⟨files.head?.toList ++ split.files, file :: split.compiledFiles, split.moved⟩

/-- `split_tests`: moves the external test files of a package into its external test package. -/
def splitTests (p : Package) (fs : FileSystem) : Package × Package :=
  let split := splitFiles fs.isExternalTest p.files p.compiledFiles
  ({ p with files := split.files, compiledFiles := split.compiledFiles },
    p.externalTest.pushFiles split.moved)

/-- `remove_file`: removes the file at a position of both file lists. Both need to have the
position. -/
def removeFile? (p : Package) (index : Nat) : Option (Path × Package) :=
  match p.files[index]?, p.compiledFiles[index]? with
  | some _, some file => some (file, { p with
      files := p.files.eraseIdx index, compiledFiles := p.compiledFiles.eraseIdx index })
  | _, _ => none

theorem removeFile?_shorter {p rest : Package} {index : Nat} {file : Path}
    (removed : removeFile? p index = some (file, rest)) :
    rest.compiledFiles.length < p.compiledFiles.length := by
  unfold removeFile? at removed
  split at removed
  · rename_i there
    cases removed
    have inside := (List.getElem?_eq_some_iff.mp there).1
    rw [List.length_eraseIdx_of_lt inside]
    omega
  · cases removed

/-- The loop of `split_tests` from an index on: a file that moves is removed and the index stays, any
other file is passed. There is no result if a file cannot be removed. -/
def splitFrom (moves : Path → Bool) (index : Nat) (p tests : Package) : Option (Package × Package) :=
  match _there : p.compiledFiles[index]? with
  | none => some (p, tests)
  | some file =>
    if moves file then
      match _removed : removeFile? p index with
      | some (file, rest) => splitFrom moves index rest (tests.pushFile file)
      | none => none
    else splitFrom moves (index + 1) p tests
termination_by p.compiledFiles.length - index
decreasing_by
  all_goals have inside := (List.getElem?_eq_some_iff.mp (by assumption)).1
  · have shorter := removeFile?_shorter (by assumption)
    omega
  · omega

/-- `split_tests` in place. Wherever it has a result, `splitTests` comes to the same. -/
def splitInPlace (p : Package) (fs : FileSystem) : Option (Package × Package) :=
  splitFrom fs.isExternalTest 0 p p.externalTest

/-- `resolve_with_tests`: separates the external tests of a package and resolves both. The test
package is named after the other one and is resolved even if it has no files. -/
def resolveWithTests (p : Package) (fs : FileSystem) : Package × Package :=
  let (base, tests) := p.splitTests fs
  let base := base.resolve fs
  (base, { tests with name := base.name ++ testSuffix }.resolve fs)

end Package

end PackageLoader
