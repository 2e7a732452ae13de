import PackageLoader.Proofs.ExternalTests

/-! Which packages are left without files. Directories without sources are passed over, but external
tests are taken out of a package only after that, so a package can still lose every file that it was
assembled from. Apart from directories that cannot be listed, which are an error, this is the only way
to have no files. -/
namespace PackageLoader.HollowPackages
open ExternalTests FirstDiscovery Linking Offers Separation

variable {disk : Disk} {fs : FileSystem} {settings : Settings} {overlay : Overlay}
  {patterns : List String} {r : Response}

theorem assembledFrom_link {p : Package} {sources : List Path}
    (assembled : AssembledFrom disk fs settings p sources) (targets : Table String PackageId) :
    AssembledFrom disk fs settings (p.link targets) sources := by
  cases assembled with
  | module origin home => exact .module (by simpa using origin) (by simpa using home)
  | library origin home below place named =>
    exact .library (by simpa using origin) home below place (by simpa using named)

/-- Nothing is left of a list exactly if everything in it is taken out. -/
theorem filter_not_eq_nil_iff {sources : List Path} (moves : Path → Bool) :
    sources.filter (!moves ·) = [] ↔ ∀ file ∈ sources, moves file = true := by
  simp [List.filter_eq_nil_iff]

/-- A package without errors has files, unless it is assembled from external tests alone. The builtin
package and external tests are not assembled from anything and always have files. -/
theorem load_hollow_iff_tests_alone (ran : load disk settings overlay patterns = .ok r) {p : Package}
    (member : p ∈ r.packages) (clean : p.errors = []) :
    let fs := overlay.inFrontOf disk.fileSystem
    (p.origin = .builtin ∨ p.origin = .externalTest) ∧ p.files ≠ [] ∨
      ∃ sources, AssembledFrom disk fs settings p sources ∧ sources ≠ [] ∧
        (p.files = [] ↔ ∀ file ∈ sources, fs.isExternalTest file = true) := by
  intro fs
  obtain ⟨g, discovered, packages, -⟩ := load_eq_discover ran
  rw [packages] at member
  obtain ⟨c, kept, before, own, rfl⟩ := response_member discovered member
  rw [link_errors] at clean
  rw [link_origin, link_files]
  rcases candidate_parts (mem_of_mem_firsts kept) with rfl | ⟨sources, parts⟩
  · rw [show before = builtinPackage settings.builtinDir from List.mem_singleton.mp own]
    exact Or.inl ⟨Or.inl rfl, List.cons_ne_nil _ _⟩
  · rcases List.mem_cons.mp own with same | tests
    · change before = c.package at same
      subst same
      refine Or.inr ⟨sources, assembledFrom_link parts.assembled _, parts.sourced clean, ?_⟩
      rw [parts.files]
      exact filter_not_eq_nil_iff fs.isExternalTest
    · obtain ⟨beside, -, -⟩ := parts.tests before (Option.mem_toList.mp tests)
      exact Or.inl ⟨Or.inr beside.origin, beside.nonempty⟩

/-- A disk with the given files, each a path with its text. -/
def diskOf (files : List (String × String)) : Disk :=
  files.foldl (fun disk file => disk.putFile ⟨file.1⟩ (Text.utf8Bytes file.2)) .empty

/-- A library directory and a module that hold external tests alone. -/
def testsAloneDisk : Disk :=
  diskOf [("/g/gnovm/stdlibs/x/x_test.gno", "package x_test\n"),
    ("/w/a_test.gno", "package a_test\n"), ("/w/gno.mod", "module a\n")]

def testsAloneSettings : Settings :=
  { sampleSettings with root? := some ⟨"/g"⟩ }

theorem testsAlone_response : ∃ r, load testsAloneDisk testsAloneSettings .empty ["/w"] = .ok r ∧
    (∃ p ∈ r.packages, p.origin = .library ∧ p.errors = [] ∧ p.files = []) ∧
    ∃ p ∈ r.packages, p.origin = .workspace ∧ p.errors = [] ∧ p.files = [] :=
  exists_ok_of_any (by decide +kernel)

/-- The hollow module is assembled from external tests alone. -/
theorem testsAlone_hollow_iff :
    let fs := Overlay.inFrontOf .empty testsAloneDisk.fileSystem
    ∃ r p sources, load testsAloneDisk testsAloneSettings .empty ["/w"] = .ok r ∧
      p ∈ r.packages ∧ p.errors = [] ∧ p.files = [] ∧
      AssembledFrom testsAloneDisk fs testsAloneSettings p sources ∧ sources ≠ [] ∧
      ∀ file ∈ sources, fs.isExternalTest file = true := by
  obtain ⟨r, ran, -, p, member, -, clean, empty⟩ := testsAlone_response
  rcases load_hollow_iff_tests_alone ran member clean with
    ⟨-, files⟩ | ⟨sources, assembled, nonempty, hollow⟩
  · exact absurd empty files
  · exact ⟨r, p, sources, ran, member, clean, empty, assembled, nonempty, hollow.mp empty⟩

/-- Packages without errors and without files come from the library as well as from modules. -/
theorem clean_packages_without_files :
    ∃ r p q, load testsAloneDisk testsAloneSettings .empty ["/w"] = .ok r ∧
      (p ∈ r.packages ∧ p.origin = .library ∧ p.errors = [] ∧ p.files = []) ∧
      q ∈ r.packages ∧ q.origin = .workspace ∧ q.errors = [] ∧ q.files = [] := by
  obtain ⟨r, ran, ⟨p, library⟩, q, module⟩ := testsAlone_response
  exact ⟨r, p, q, ran, library, module⟩

end PackageLoader.HollowPackages
