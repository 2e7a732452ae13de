import PackageLoader.Text.Quoted

/-!
Load modes: sets of the package fields that a client wants.
-/
namespace PackageLoader

/-- A set of wanted fields, one bit for each. -/
structure LoadMode where
  bits : UInt32
  deriving DecidableEq, Repr

namespace LoadMode

/-- The fields that have names, by the number of their bit. -/
def names : List (UInt32 × String) :=
  [(0, "NeedName"), (1, "NeedFiles"), (2, "NeedCompiledGoFiles"), (3, "NeedImports"),
    (4, "NeedDeps"), (5, "NeedExportFile"), (6, "NeedTypes"), (7, "NeedSyntax"),
    (8, "NeedTypesInfo"), (9, "NeedTypesSizes"), (11, "NeedForTest"), (13, "NeedModule"),
    (14, "NeedEmbedFiles"), (15, "NeedEmbedPatterns")]

/-- The mode with nothing but one field. -/
def single (bit : UInt32) : LoadMode :=
  ⟨1 <<< bit⟩

/-- `LoadMode::contains`: whether a mode has all fields of another. -/
def contains (a b : LoadMode) : Bool :=
  a.bits &&& b.bits = b.bits

/-- The fields of either mode. -/
def union (a b : LoadMode) : LoadMode :=
  ⟨a.bits ||| b.bits⟩

/-- All fields that have names. -/
def named : LoadMode :=
  names.foldl (fun mode field => mode.union (single field.1)) ⟨0⟩

/-- A mode as text: its fields by name, and the bits without names as one number. -/
def describe (mode : LoadMode) : String :=
  let known := (names.filter fun field => mode.contains (single field.1)).map (·.2)
  let unknown := mode.bits &&& ~~~named.bits
  let number := if unknown = 0 then [] else
    ["0x" ++ String.ofList (Text.hexDigits unknown.toNat)]
  "LoadMode(" ++ "|".intercalate (known ++ number) ++ ")"

end LoadMode

end PackageLoader
