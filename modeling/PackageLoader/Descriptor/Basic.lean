import PackageLoader.Storage.Error
import PackageLoader.Text.Cut
import PackageLoader.Text.Quoted
import PackageLoader.Path

/-!
Module descriptors: what one says about its module, and every way in which finding or reading one
fails, with its wording.
-/
namespace PackageLoader

open Text

/-- `Require`: a module that is depended on, and the version that is wanted. -/
structure Requirement where
  module : String
  version : String
  deriving DecidableEq, Repr

/-- `Replace`: a module that is taken from somewhere else. -/
structure Replacement where
  old : String
  new : String
  deriving DecidableEq, Repr

/-- `ModFile`: what a descriptor says. -/
structure Descriptor where
  module : String
  version? : Option String := none
  draft : Bool := false
  restricted : Bool := false
  requires : List Requirement := []
  replaces : List Replacement := []
  deriving DecidableEq, Repr

/-- `is_valid_module_path`: a module path is not empty, has no blanks, and has slashes only singly
between other characters. -/
def isModulePath (path : List Char) : Bool :=
  !path.isEmpty && path.head? ≠ some '/' && path.getLast? ≠ some '/' &&
    (cut? ['/', '/'] path).isNone && !path.any isBlank

/-- What is wrong at a place in a descriptor. A wrong type is known by what was found, in words. -/
inductive DescriptorFault where
  | invalidPath (path : String)
  | invalidPathValue (path : String)
  | unknownDirective (line : String)
  | malformedRequire (spec : String)
  | malformedReplace (spec : String)
  | oneSidedReplace (spec : String)
  | unclosedBlock
  | malformedText
  | wrongType (found wanted : String)
  | wrongLength (length : Nat)
  | missingField (name : String)
  deriving DecidableEq, Repr

/-- The wording of a fault. -/
def DescriptorFault.message : DescriptorFault → String
  | invalidPath path => "invalid module path: " ++ path
  | invalidPathValue path => "invalid module path: " ++ quoted path
  | unknownDirective line => "unknown directive: " ++ line
  | malformedRequire spec =>
    "invalid require syntax, expected: require <module> <version>, got: " ++ spec
  | malformedReplace spec => "invalid replace syntax, expected: <old> => <new>, got: " ++ spec
  | oneSidedReplace spec => "invalid replace syntax: " ++ spec
  | unclosedBlock => "unterminated block"
  | malformedText => "malformed text"
  | wrongType found wanted => "invalid type: " ++ found ++ ", expected " ++ wanted
  | wrongLength length =>
    "invalid length " ++ toString length ++ ", expected struct Replace with 2 elements"
  | missingField name => "missing field `" ++ name ++ "`"

/-- Why the text of a descriptor is refused. -/
inductive DescriptorError where
  | fault (line : Nat) (what : DescriptorFault)
  | missingModule
  | duplicateModule
  deriving DecidableEq, Repr

/-- Why a module or the root of the installation is not found or cannot be read. -/
inductive ModuleError where
  | noDescriptor (place : Path)
  | unreadable (file : Path) (cause : StorageError)
  | refused (file : Path) (error : DescriptorError)
  | unlistable (root : Path) (cause : StorageError)
  | noRoot
  deriving DecidableEq, Repr

/-- The wording of a failure. -/
def ModuleError.message : ModuleError → String
  | noDescriptor place => "no module descriptor (gnomod.toml or gno.mod) in " ++ place.text
  | unreadable file cause => file.text ++ ": " ++ cause.message
  | refused file (.fault line what) =>
    file.text ++ ":" ++ toString line ++ ": " ++ what.message
  | refused file .missingModule => file.text ++ ": missing module declaration"
  | refused file .duplicateModule => file.text ++ ": duplicate module declaration"
  | unlistable root cause => "cannot read " ++ root.text ++ ": " ++ cause.message
  | noRoot => "unable to determine GNOROOT, set the GNOROOT environment variable"

end PackageLoader
