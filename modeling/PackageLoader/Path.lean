import PackageLoader.Table

/-!
Paths. A path keeps the spelling it was built with, and that spelling is what gets shown. Its
meaning for comparison is its list of components: repeated separators, inner dots and a separator
at the end make no difference, a dot at the front of a relative path does.
-/
namespace PackageLoader

/-- One step of a path. -/
inductive Component where
  | root
  | current
  | parent
  | name (text : String)
  deriving DecidableEq, Repr

namespace Component

/-- The root sorts first and names sort last. -/
def rank : Component → Nat
  | root => 0
  | current => 1
  | parent => 2
  | name _ => 3

/-- How a component is spelled. -/
def text : Component → String
  | root => "/"
  | current => "."
  | parent => ".."
  | name s => s

/-- Names are ordered by their characters. -/
instance : Ord Component :=
  ⟨compareLex (compareOn rank) (compareOn text)⟩

instance : Std.TransOrd Component :=
  inferInstanceAs (Std.TransCmp (compareLex (compareOn rank) (compareOn text)))

end Component

/-- A spelled path. -/
structure Path where
  text : String
  deriving DecidableEq, Inhabited, Repr

namespace Path

/-- The non-empty segments between separators, each with the position after its last character.
The segment being read is held in reverse. -/
def segmentsFrom : List Char → List Char → Nat → List (String × Nat)
  | [], [], _ => []
  | [], seen, position => [(String.ofList seen.reverse, position)]
  | '/' :: rest, [], position => segmentsFrom rest [] (position + 1)
  | '/' :: rest, seen, position =>
    (String.ofList seen.reverse, position) :: segmentsFrom rest [] (position + 1)
  | c :: rest, seen, position => segmentsFrom rest (c :: seen) (position + 1)

/-- The non-empty segments between separators and where each ends. -/
def segments (p : Path) : List (String × Nat) :=
  segmentsFrom p.text.toList [] 0

/-- An absolute path starts at the root. -/
def isAbsolute (p : Path) : Bool :=
  p.text.toList.head? == some '/'

/-- What a segment means after the first one: a dot stands for nothing. -/
def innerStep (segment : String × Nat) : Option (Component × Nat) :=
  if segment.1 = "." then none
  else if segment.1 = ".." then some (.parent, segment.2)
  else some (.name segment.1, segment.2)

/-- The components of a path and where the spelling of each ends. -/
def steps (p : Path) : List (Component × Nat) :=
  if p.isAbsolute then (.root, 1) :: p.segments.filterMap innerStep
  else match p.segments with
    | (".", finish) :: rest => (.current, finish) :: rest.filterMap innerStep
    | all => all.filterMap innerStep

/-- `Path::components`: the components of a path. -/
def components (p : Path) : List Component :=
  p.steps.map (·.1)

/-- Paths are compared component by component. -/
instance : Ord Path :=
  ⟨compareOn components⟩

instance : Std.TransOrd Path :=
  inferInstanceAs (Std.TransCmp (compareOn components))

/-- Two spellings name the same path when their components agree. -/
def same (a b : Path) : Bool :=
  a.components == b.components

/-- `Path::join`: an absolute second path replaces the first; a relative one is put behind it. -/
def join (base p : Path) : Path :=
  if p.isAbsolute then p
  else match base.text.toList.getLast? with
    | none => p
    | some '/' => ⟨base.text ++ p.text⟩
    | some _ => ⟨base.text ++ "/" ++ p.text⟩

/-- The path of an entry with the given name. -/
def child (base : Path) (name : String) : Path :=
  base.join ⟨name⟩

/-- The path that spells the given components, each joined to those before it. -/
def ofComponents (cs : List Component) : Path :=
  cs.foldl (fun p c => p.child c.text) ⟨""⟩

/-- The spelling up to a position. -/
def upTo (p : Path) (position : Nat) : Path :=
  ⟨String.ofList (p.text.toList.take position)⟩

/-- Where the spellings of the path's ancestors end, the outermost first and the path itself last.
The outermost ancestor of a relative path is the empty path. -/
def ancestorEnds (p : Path) : List Nat :=
  (if p.isAbsolute then [] else [0]) ++ p.steps.map (·.2)

/-- `Path::ancestors`: the path and its ancestors, innermost first. -/
def ancestors (p : Path) : List Path :=
  p :: p.ancestorEnds.dropLast.reverse.map p.upTo

/-- `Path::parent`: the path without its last component. The root and the empty path have none. -/
def parent? (p : Path) : Option Path :=
  p.ancestorEnds.dropLast.getLast?.map p.upTo

/-- `Path::file_name`: the last component, if it is a name. -/
def fileName? (p : Path) : Option String :=
  match p.components.getLast? with
  | some (.name s) => some s
  | _ => none

/-- `Path::extension`: what follows the last dot of the file name. A name with its only dot in front
has none. -/
def extension? (p : Path) : Option String :=
  p.fileName?.bind fun name =>
    let reversed := name.toList.reverse
    match reversed.dropWhile (· ≠ '.') with
    | '.' :: _ :: _ => some (String.ofList (reversed.takeWhile (· ≠ '.')).reverse)
    | _ => none

/-- `Path::strip_prefix`: the components of a path below a base, or none if the path does not lie
below it. -/
def below? (p base : Path) : Option (List Component) :=
  if base.components.isPrefixOf p.components then
    some (p.components.drop base.components.length)
  else none

/-- `absolutize`: a path put behind an absolute base, with every dot component dropped. -/
def absolutize (base p : Path) : Path :=
  ofComponents ((base.join p).components.filter (· ≠ .current))

end Path

end PackageLoader
