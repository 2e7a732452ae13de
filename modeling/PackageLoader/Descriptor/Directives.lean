import PackageLoader.Descriptor.Basic

/-!
Descriptors written as directives, one on a line, such as `module gno.land/p/demo/avl`. Requirements
and replacements may also stand in parenthesised blocks, one on a line. A comment runs from `//` to
the end of its line, and a line that is nothing but the comment `// Draft` marks the module as a
draft.
-/
namespace PackageLoader

open Text

/-- The two kinds of entries that may stand in blocks. -/
inductive EntryKind where
  | require
  | replace
  deriving DecidableEq, Repr

/-- A requirement or a replacement. -/
inductive DescriptorEntry where
  | require (r : Requirement)
  | replace (r : Replacement)
  deriving DecidableEq, Repr

/-- What a line says outside a block. -/
inductive Directive where
  | module (path : String)
  | version (text : String)
  | entry (e : DescriptorEntry)
  | block (kind : EntryKind)
  deriving DecidableEq, Repr

/-- `parse_require`: reads a requirement: a module path and a version. -/
def readRequirement (spec : List Char) : Except DescriptorFault Requirement :=
  match words spec with
  | [path, version] =>
    if isModulePath path then .ok ⟨String.ofList path, String.ofList version⟩
    else .error (.invalidPath (String.ofList path))
  | _ => .error (.malformedRequire (String.ofList spec))

/-- `parse_replace`: reads a replacement. Only the first word on either side counts; a version may
follow it. -/
def readReplacement (spec : List Char) : Except DescriptorFault Replacement :=
  match cut? ['=', '>'] spec with
  | none => .error (.malformedReplace (String.ofList spec))
  | some (left, right) =>
    match words left, words right with
    | old :: _, new :: _ => .ok ⟨String.ofList old, String.ofList new⟩
    | _, _ => .error (.oneSidedReplace (String.ofList spec))

/-- Reads a requirement or a replacement. -/
def readEntry (kind : EntryKind) (spec : List Char) : Except DescriptorFault DescriptorEntry :=
  match kind with
  | .require => (readRequirement spec).map .require
  | .replace => (readReplacement spec).map .replace

/-- The text without the double quotes at both ends. -/
def unquoted (cs : List Char) : List Char :=
  ((cs.dropWhile (· = '"')).reverse.dropWhile (· = '"')).reverse

/-- Reads a line outside a block. -/
def readDirective (line : List Char) : Except DescriptorFault Directive :=
  let (word, rest) := cutAtBlank line
  let spec := trimBlanks rest
  let entry (kind : EntryKind) : Except DescriptorFault Directive :=
    if spec = ['('] then .ok (.block kind) else (readEntry kind spec).map .entry
  if word = "module".toList then
    let path := unquoted spec
    if isModulePath path then .ok (.module (String.ofList path))
    else .error (.invalidPath (String.ofList path))
  else if word = "gno".toList || word = "go".toList then .ok (.version (String.ofList spec))
  else if word = "require".toList then entry .require
  else if word = "replace".toList then entry .replace
  else .error (.unknownDirective (String.ofList line))

/-- What a line says: itself without its comment and the blanks at both ends. -/
def statement (line : List Char) : List Char :=
  match cut? ['/', '/'] line with
  | some (before, _) => trimBlanks before
  | none => trimBlanks line

/-- Whether a line is the comment that marks drafts. -/
def isDraftMark (line : List Char) : Bool :=
  match cut? ['/', '/'] line with
  | some (before, comment) => before.all isBlank && trimBlanks comment = "Draft".toList
  | none => false

/-- What the lines so far have said, and the block that is open. -/
structure DirectiveReading where
  module? : Option String := none
  version? : Option String := none
  requires : List Requirement := []
  replaces : List Replacement := []
  block? : Option EntryKind := none
  deriving DecidableEq, Repr

namespace DirectiveReading

/-- Adds an entry behind those before it. -/
def add (d : DirectiveReading) : DescriptorEntry → DirectiveReading
  | .require r => { d with requires := d.requires ++ [r] }
  | .replace r => { d with replaces := d.replaces ++ [r] }

/-- Takes in what a line outside a block says. -/
def apply (d : DirectiveReading) : Directive → DirectiveReading
  | .module path => { d with module? := some path }
  | .version text => { d with version? := some text }
  | .entry e => d.add e
  | .block kind => { d with block? := some kind }

/-- Reads a statement, which in a block is an entry of its kind or the end of the block. -/
def readStatement (d : DirectiveReading) (text : List Char) :
    Except DescriptorFault DirectiveReading :=
  match d.block? with
  | none => (readDirective text).map d.apply
  | some kind =>
    if text = [')'] then .ok { d with block? := none } else (readEntry kind text).map d.add

/-- Whether a statement declares a module once more. -/
def repeatsModule (d : DirectiveReading) (text : List Char) : Bool :=
  d.block?.isNone && d.module?.isSome && (cutAtBlank text).1 = "module".toList

/-- Reads a numbered line. A second module directive is refused whatever its path is. -/
def readLine (d : DirectiveReading) (line : List Char × Nat) :
    Except DescriptorError DirectiveReading :=
  let text := statement line.1
  if text.isEmpty then .ok d
  else if d.repeatsModule text then .error .duplicateModule
  else (d.readStatement text).mapError (.fault line.2)

end DirectiveReading

/-- `ModFile::parse`: reads a descriptor of directives. -/
def readDirectives (text : String) : Except DescriptorError Descriptor := do
  let all := lines text.toList
  let d ← (all.zipIdx 1).foldlM DirectiveReading.readLine {}
  if d.block?.isSome then .error (.fault all.length .unclosedBlock)
  match d.module? with
  | none => .error .missingModule
  | some path =>
    return { module := path, version? := d.version?, draft := all.any isDraftMark,
             requires := d.requires, replaces := d.replaces }

end PackageLoader
