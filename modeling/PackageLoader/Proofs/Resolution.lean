import PackageLoader.Package.Resolution
import PackageLoader.Proofs.TableLaws

/-! A resolved package has the imports of its compiled files and no others. What a file imports is
said by its header alone, which keeps what was read before an error. -/
namespace PackageLoader.Resolution
open TableLaws

/-- A file can be read and its header, as far as it goes, imports a path. -/
def ImportsPath (fs : FileSystem) (file : Path) (path : String) : Prop :=
  ∃ source header, fs.readSource file = .ok source ∧
    (parseHeader .withImports source.text).header? = some header ∧
    ∃ spec ∈ header.imports, spec.path = path

theorem inspect_imports {fs : FileSystem} {file : Path} {path : String} :
    (∃ header, (fs.inspect file).header? = some header ∧ ∃ spec ∈ header.imports, spec.path = path) ↔
      ImportsPath fs file path := by
  unfold FileSystem.inspect ImportsPath
  cases read : fs.readSource file with
  | error cause => simp
  | ok source => simp

@[simp] theorem resolve_compiledFiles (p : Package) (fs : FileSystem) :
    (p.resolve fs).compiledFiles = p.compiledFiles := rfl

/-- The imports of a resolved package are those of its compiled files, all without a target. -/
theorem resolve_imports (p : Package) (fs : FileSystem) (path : String)
    (target? : Option PackageId) :
    (p.resolve fs).imports.get? path = some target? ↔
      target? = none ∧ ∃ file ∈ p.compiledFiles, ImportsPath fs file path := by
  let entries := ((p.compiledFiles.map fs.inspect).filterMap (·.header?)).flatMap
    fun h => h.imports.map fun i => (i.path, (none : Option PackageId))
  have imports : (p.resolve fs).imports = .ofList entries := rfl
  have listed : (∃ e ∈ entries, e.1 = path) ↔ ∃ file ∈ p.compiledFiles, ImportsPath fs file path := by
    simp only [← inspect_imports]
    simp only [entries, List.mem_flatMap, List.mem_filterMap, List.mem_map]
    constructor
    · rintro ⟨_, ⟨header, ⟨_, ⟨file, compiled, rfl⟩, read⟩, spec, listed, rfl⟩, rfl⟩
      exact ⟨file, compiled, header, read, spec, listed, rfl⟩
    · rintro ⟨file, compiled, header, read, spec, listed, rfl⟩
      exact ⟨_, ⟨header, ⟨_, ⟨file, compiled, rfl⟩, read⟩, spec, listed, rfl⟩, rfl⟩
  have untargeted {value : Option PackageId} (found : (Table.ofList entries).get? path = some value) :
      value = none := by
    rw [get?_ofList] at found
    obtain ⟨e, last, rfl⟩ := Option.map_eq_some_iff.mp found
    have member := (List.mem_filter.mp (List.mem_of_getLast? last)).1
    simp only [entries, List.mem_flatMap, List.mem_map] at member
    obtain ⟨_, -, _, -, rfl⟩ := member
    rfl
  rw [imports, ← listed, ← mem_keys_ofList, mem_keys_iff]
  constructor
  · intro found
    exact ⟨untargeted found, target?, found⟩
  · rintro ⟨rfl, value, found⟩
    rwa [untargeted found] at found

end PackageLoader.Resolution
