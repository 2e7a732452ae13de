import PackageLoader.Text.Cut

/-!
Environment variables. Entries that come with a request go before the variables of the process, and
of several entries for a key the last one counts.
-/
namespace PackageLoader

open Text

/-- `GNOROOT_ENV`: the variable that names the root of the installation. -/
def rootKey : String := "GNOROOT"

/-- `GNOBUILTIN_ENV`: the variable that names the directory of the builtin package. -/
def builtinKey : String := "GNOBUILTIN"

/-- The value that an entry gives to a key. An entry without an equals sign gives none. -/
def entryValue? (key entry : String) : Option String :=
  match cut? ['='] entry.toList with
  | some (name, value) => if name = key.toList then some (String.ofList value) else none
  | none => none

/-- `lookup_env`: the value of a key without the blanks at both ends. A blank value is the same as
none, and one in the entries hides the variable of the process. -/
def lookupEnv (entries : List String) (processValue? : String → Option String) (key : String) :
    Option String :=
  let value? := (entries.reverse.findSome? (entryValue? key)).or (processValue? key)
  (value?.map trimmed).filter (!·.isEmpty)

end PackageLoader
