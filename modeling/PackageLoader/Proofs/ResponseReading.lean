import Mathlib.Data.List.Basic
import PackageLoader.Proofs.JsonWriting
import PackageLoader.Proofs.TableListing
import PackageLoader.Response.Text

/-! The text of a response loses nothing that it is meant to carry. A reader that takes members that
are left out for empty ones gets back every package field by field, and what is lost of an import is
only where its target stands. -/
namespace PackageLoader.ResponseReading
open Json TableLaws TableListing

/-- What the text of a response carries of a package. Imports lead to identifiers. -/
structure PackageSummary where
  id : String
  name : String
  path : String
  errors : List PackageError
  files : List Path
  compiledFiles : List Path
  otherFiles : List Path
  imports : Table String String
  module? : Option Module
  deriving DecidableEq

/-- What the text of a response carries. -/
structure Summary where
  notHandled : Bool
  compiler : String
  architecture : String
  roots : List String
  packages : List PackageSummary
  goVersion : Nat
  deriving DecidableEq

/-- Imports that have a target, with its identifier. -/
def importTable (p : Package) (all : List Package) : Table String String :=
  p.imports.revise fun _ target? => (target?.bind fun id => all[id]?).map (·.id)

def packageSummary (all : List Package) (p : Package) : PackageSummary where
  id := p.id
  name := p.name
  path := p.path
  errors := p.errors
  files := p.files
  compiledFiles := p.compiledFiles
  otherFiles := p.otherFiles
  imports := importTable p all
  module? := p.module?

def summary (r : Response) : Summary where
  notHandled := r.notHandled
  compiler := r.compiler
  architecture := r.architecture
  roots := r.roots
  packages := r.packages.map (packageSummary r.packages)
  goVersion := r.goVersion

/-! ## The reader -/

def readBoolean : Value → Option Bool
  | .boolean b => some b
  | _ => none

def readNatural : Value → Option Nat
  | .natural n => some n
  | _ => none

def readString : Value → Option String
  | .string s => some s
  | _ => none

def readItems (read : Value → Option α) : Value → Option (List α)
  | .array items => items.mapM read
  | _ => none

def readMembers : Value → Option (List (String × Value))
  | .object members => some members
  | _ => none

/-- A member that must be there. -/
def readMember (members : List (String × Value)) (key : String) (read : Value → Option α) :
    Option α :=
  (members.lookup key).bind read

/-- A member that stands for something even where it is left out. -/
def readMemberOr (absent : Value) (members : List (String × Value)) (key : String)
    (read : Value → Option α) : Option α :=
  read ((members.lookup key).getD absent)

def readPath (value : Value) : Option Path :=
  (readString value).map .mk

def readKind (value : Value) : Option ErrorKind :=
  match readNatural value with
  | some 0 => some .unknown
  | some 1 => some .listing
  | some 2 => some .parsing
  | some 3 => some .typing
  | _ => none

def readError (value : Value) : Option PackageError := do
  let members ← readMembers value
  return {
    position := ← readMember members "Pos" readString
    message := ← readMember members "Msg" readString
    kind := ← readMember members "Kind" readKind }

def readModule (value : Value) : Option Module := do
  let members ← readMembers value
  return {
    path := ← readMember members "Path" readString
    dir := ← readMember members "Dir" readPath
    descriptor := ← readMember members "GoMod" readPath }

def readImport (member : String × Value) : Option (String × String) :=
  (readString member.2).map (member.1, ·)

def readImports (value : Value) : Option (Table String String) := do
  let members ← readMembers value
  return .ofList (← members.mapM readImport)

/-- Reads a package. Lists and imports that are left out are empty, and so is the module. -/
def readPackage (value : Value) : Option PackageSummary := do
  let members ← readMembers value
  return {
    id := ← readMember members "ID" readString
    name := ← readMember members "Name" readString
    path := ← readMember members "PkgPath" readString
    errors := ← readMemberOr (.array []) members "Errors" (readItems readError)
    files := ← readMemberOr (.array []) members "GoFiles" (readItems readPath)
    compiledFiles := ← readMemberOr (.array []) members "CompiledGoFiles" (readItems readPath)
    otherFiles := ← readMemberOr (.array []) members "OtherFiles" (readItems readPath)
    imports := ← readMemberOr (.object []) members "Imports" readImports
    module? := ← match members.lookup "Module" with
      | none => some none
      | some value => (readModule value).map some }

/-- Reads a response. -/
def readResponse (value : Value) : Option Summary := do
  let members ← readMembers value
  return {
    notHandled := ← readMember members "NotHandled" readBoolean
    compiler := ← readMember members "Compiler" readString
    architecture := ← readMember members "Arch" readString
    roots := ← readMember members "Roots" (readItems readString)
    packages := ← readMember members "Packages" (readItems readPackage)
    goVersion := ← readMember members "GoVersion" readNatural }

/-- Reads the text of a response. -/
def readText (text : String) : Option Summary :=
  (JsonText.read? (Text.utf8Bytes text)).bind readResponse

/-! ## Parts -/

/-- A list is read back if its items are. -/
theorem mapM_written {write : α → β} {read : β → Option γ} {meant : α → γ}
    (back : ∀ a, read (write a) = some (meant a)) (items : List α) :
    (items.map write).mapM read = some (items.map meant) := by
  induction items with
  | nil => rfl
  | cons a rest ih => simp [List.mapM_cons, back, ih]

theorem readKind_code (kind : ErrorKind) : readKind (.natural kind.code) = some kind := by
  cases kind <;> rfl

theorem readError_value (e : PackageError) : readError e.value = some e := by
  simp [readError, PackageError.value, readMembers, readMember, List.lookup_cons, readString,
    readKind_code]

theorem readModule_value (m : Module) : readModule m.value = some m := by
  simp [readModule, Module.value, readMembers, readMember, List.lookup_cons, readString, readPath]

theorem readErrors_value (errors : List PackageError) :
    readItems readError (.array (errors.map (·.value))) = some errors := by
  rw [readItems, mapM_written readError_value, List.map_id']

theorem readPaths_value (paths : List Path) :
    readItems readPath (pathsValue paths) = some paths := by
  have back (path : Path) : readPath (.string path.text) = some path := rfl
  rw [pathsValue, readItems, mapM_written back, List.map_id']

/-- What is written of the imports are the entries of their table. -/
theorem importIds_entries (p : Package) (all : List Package) :
    p.importIds all = (importTable p all).entries := by
  simp only [Package.importIds, importTable, Table.revise, Option.map_map]
  rfl

theorem readImports_value (p : Package) (all : List Package) :
    readImports (.object ((p.importIds all).map fun (path, id) => (path, .string id))) =
      some (importTable p all) := by
  have back (e : String × String) : readImport (e.1, .string e.2) = some e := rfl
  simp only [readImports, readMembers, Option.bind_eq_bind, Option.bind_some]
  rw [mapM_written back, List.map_id', Option.bind_some, importIds_entries, ofList_entries]
  rfl

/-! ## Members that are left out -/

theorem lookup_other {key probe : String} (different : probe ≠ key) (value : Value) :
    (unlessEmpty key value).lookup probe = none := by
  have differ : (probe == key) = false := beq_false_of_ne different
  unfold unlessEmpty
  split <;> simp [List.lookup_cons, differ]

theorem lookup_array (key : String) (items : List Value) :
    ((unlessEmpty key (.array items)).lookup key).getD (.array []) = .array items := by
  cases items <;> simp [unlessEmpty]

theorem lookup_object (key : String) (members : List (String × Value)) :
    ((unlessEmpty key (.object members)).lookup key).getD (.object []) = .object members := by
  cases members <;> simp [unlessEmpty]

/-- The member of a module that may be absent. -/
theorem lookup_module (module? : Option Module) :
    (module?.map fun m => ("Module", m.value)).toList.lookup "Module" = module?.map (·.value) := by
  cases module? <;> simp

theorem lookup_no_module {probe : String} (different : probe ≠ "Module") (module? : Option Module) :
    (module?.map fun m => ("Module", m.value)).toList.lookup probe = none := by
  have differ : (probe == "Module") = false := beq_false_of_ne different
  cases module? <;> simp [List.lookup_cons, differ]

theorem readPackage_value (p : Package) (all : List Package) :
    readPackage (p.value all) = some (packageSummary all p) := by
  have listed (key : String) (paths : List Path) :
      ((unlessEmpty key (pathsValue paths)).lookup key).getD (.array []) = pathsValue paths :=
    lookup_array key _
  -- Every key but its own passes by a member.
  simp only [readPackage, Package.value, readMembers, Option.bind_eq_bind, Option.bind_some,
    readMember, readMemberOr, List.lookup_append]
  simp only [List.lookup_cons, List.lookup_nil, lookup_other, lookup_no_module, String.reduceBEq, ne_eq,
    String.reduceEq, not_false_eq_true, Option.none_or, Option.or_none,
    Option.bind_some]
  simp only [readString, Option.bind_some, lookup_array, listed, lookup_object, lookup_module,
    readErrors_value, readPaths_value, readImports_value]
  cases module : p.module? with
  | none => simp [packageSummary, module]
  | some m => simp [packageSummary, module, readModule_value]

theorem readResponse_value (r : Response) : readResponse r.value = some (summary r) := by
  have packages : readItems readPackage (.array (r.packages.map (·.value r.packages))) =
      some (r.packages.map (packageSummary r.packages)) :=
    mapM_written (fun p => readPackage_value p r.packages) r.packages
  have roots : readItems readString (.array (r.roots.map .string)) = some r.roots := by
    have back (root : String) : readString (.string root) = some root := rfl
    rw [readItems, mapM_written back, List.map_id']
  simp [readResponse, Response.value, readMembers, readMember, List.lookup_cons, packages, roots,
    readBoolean, readString, readNatural, summary]

/-- The text of a response is read back. -/
theorem readText_text (r : Response) : readText r.text = some (summary r) := by
  rw [readText, Response.text, JsonText.read?_text, Option.bind_some, readResponse_value]

/-- Every import has a target among the packages. -/
def Linked (r : Response) : Prop :=
  ∀ p ∈ r.packages, ∀ path target?, p.imports.get? path = some target? →
    ∃ i, target? = some i ∧ i < r.packages.length

/-- Where every import has a target, none is lost. -/
theorem importTable_keys {r : Response} (linked : Linked r) {p : Package} (member : p ∈ r.packages) :
    (importTable p r.packages).keys = p.imports.keys := by
  rw [Table.keys, importTable, Table.revise, List.map_filterMap, Table.keys, ← List.filterMap_eq_map]
  apply List.filterMap_congr
  intro e listed
  obtain ⟨i, target, inside⟩ := linked p member e.1 e.2 (get?_eq_some_iff.mpr listed)
  simp [target, inside]

/-- An import leads to the identifier of its target. -/
theorem importTable_get?_iff (p : Package) (all : List Package) (path id : String) :
    (importTable p all).get? path = some id ↔ ∃ (i : Nat) (q : Package),
      p.imports.get? path = some (some i) ∧ all[i]? = some q ∧ q.id = id := by
  rw [importTable, get?_revise]
  simp only [Option.bind_eq_some_iff, Option.map_eq_some_iff]
  constructor
  · rintro ⟨_, found, q, ⟨i, rfl, at_i⟩, rfl⟩
    exact ⟨i, q, found, at_i, rfl⟩
  · rintro ⟨i, q, found, at_i, rfl⟩
    exact ⟨some i, found, q, ⟨i, rfl, at_i⟩, rfl⟩

/-- Whatever strings a response is made of, its text is the text of an object from which all of it is
read back, with the identifiers of the targets in place of their positions. Responses with one text
therefore say the same. -/
theorem text_loses_nothing {r : Response} (linked : Linked r) :
    (∃ members, JsonText.read? (Text.utf8Bytes r.text) = some (.object members)) ∧
      readText r.text = some (summary r) ∧
      (∀ p ∈ r.packages, (importTable p r.packages).keys = p.imports.keys ∧
        ∀ path id, (importTable p r.packages).get? path = some id ↔ ∃ (i : Nat) (q : Package),
          p.imports.get? path = some (some i) ∧ r.packages[i]? = some q ∧ q.id = id) ∧
      ∀ other, Linked other → other.text = r.text → summary other = summary r := by
  refine ⟨⟨_, JsonText.read?_text r.value⟩, readText_text r, fun p member => ?_,
    fun other _ same => ?_⟩
  · exact ⟨importTable_keys linked member, importTable_get?_iff p r.packages⟩
  · have read := readText_text other
    rw [same, readText_text r, Option.some.injEq] at read
    exact read.symm

/-- Two packages of which the first imports itself and the second. Their strings need escapes. -/
def quotedResponse : Response where
  packages := [
    { Package.new "a\"" .workspace with
      errors := [⟨"\\1", "\n\x01é", .parsing⟩]
      imports := .ofList [("a\"", some 0), ("\t", some 1)] },
    { Package.new "\t" .workspace with
      files := [⟨"/😀"⟩]
      module? := some ⟨"\t", ⟨"/"⟩, ⟨"/gno.mod"⟩⟩ }]
  roots := ["a\""]
  architecture := "amd64"

theorem quotedResponse_loses_nothing : Linked quotedResponse ∧
    readText quotedResponse.text = some (summary quotedResponse) ∧
      (summary quotedResponse).packages.map (·.imports.entries) =
        [[("\t", "\t"), ("a\"", "a\"")], []] := by
  have linked : Linked quotedResponse := by
    intro p member path target? found
    rw [get?_eq_some_iff] at found
    have closed : ∀ p ∈ quotedResponse.packages, ∀ e ∈ p.imports.entries,
        e.2 = some 0 ∨ e.2 = some 1 := by decide +kernel
    rcases closed p member _ found with target | target
    · exact ⟨0, target, by decide⟩
    · exact ⟨1, target, by decide⟩
  exact ⟨linked, (text_loses_nothing linked).2.1, by decide +kernel⟩

end PackageLoader.ResponseReading
