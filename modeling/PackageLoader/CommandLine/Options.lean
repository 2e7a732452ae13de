import PackageLoader.Path

/-!
The options and patterns on the command line, by the rules that `clap` documents for derived
parsers. Options may stand between patterns up to a double dash. Each is given at most once, and a
directory is the next argument or follows an equals sign; it is never empty, and as an argument of
its own it does not look like an option.
-/
namespace PackageLoader

/-- Options that are given or not. -/
inductive Flag where
  | verbose
  | quiet
  | noExamples
  deriving DecidableEq, Repr

/-- Options with a directory. -/
inductive DirOption where
  | root
  | builtin
  deriving DecidableEq, Repr

/-- `Cli`: what is asked for on the command line. -/
structure Options where
  patterns : List String := []
  flags : List Flag := []
  root? : Option String := none
  builtin? : Option String := none
  deriving DecidableEq, Repr

/-- Why a command line is not run: it asks for help, or it is wrong. -/
inductive Refusal where
  | help
  | usage
  deriving DecidableEq, Repr

/-- What the name of an option means. -/
inductive OptionName where
  | help
  | flag (f : Flag)
  | dir (d : DirOption)
  deriving DecidableEq, Repr

/-- Names with two dashes. -/
def longName? (name : List Char) : Option OptionName :=
  if name = "help".toList then some .help
  else if name = "verbose".toList then some (.flag .verbose)
  else if name = "quiet".toList then some (.flag .quiet)
  else if name = "no-examples".toList then some (.flag .noExamples)
  else if name = "gno-root".toList then some (.dir .root)
  else if name = "builtin-dir".toList then some (.dir .builtin)
  else none

/-- Names of one letter behind one dash. -/
def shortName? (c : Char) : Option OptionName :=
  if c = 'h' then some .help
  else if c = 'v' then some (.flag .verbose)
  else if c = 'q' then some (.flag .quiet)
  else none

namespace Options

/-- Adds a pattern behind those before it. -/
def addPattern (o : Options) (pattern : String) : Options :=
  { o with patterns := o.patterns ++ [pattern] }

/-- Sets a flag. -/
def setFlag (o : Options) (f : Flag) : Except Refusal Options :=
  if o.flags.contains f then .error .usage else .ok { o with flags := o.flags ++ [f] }

/-- Sets a directory. -/
def setDir (o : Options) (d : DirOption) (value : String) : Except Refusal Options :=
  if value.isEmpty then .error .usage
  else match d with
    | .root => if o.root?.isSome then .error .usage else .ok { o with root? := some value }
    | .builtin =>
      if o.builtin?.isSome then .error .usage else .ok { o with builtin? := some value }

/-- Reads letters behind one dash. -/
def readLetter (o : Options) (c : Char) : Except Refusal Options :=
  match shortName? c with
  | some (.flag f) => o.setFlag f
  | some .help => .error .help
  | _ => .error .usage

/-- Whether an argument looks like an option. A single dash does not. -/
def looksLikeOption (argument : String) : Bool :=
  match argument.toList with
  | '-' :: _ :: _ => true
  | _ => false

/-- Reads the arguments from left to right. -/
def readFrom (o : Options) : List String → Except Refusal Options
  | [] => .ok o
  | argument :: rest =>
    match argument.toList with
    | ['-', '-'] => .ok (rest.foldl addPattern o)
    | '-' :: '-' :: text =>
      let name := text.takeWhile (· ≠ '=')
      match longName? name, text.dropWhile (· ≠ '=') with
      | some .help, [] => .error .help
      | some (.flag f), [] => do (← o.setFlag f).readFrom rest
      | some (.dir d), _ :: value => do (← o.setDir d (String.ofList value)).readFrom rest
      | some (.dir d), [] =>
        match rest with
        | value :: rest =>
          if looksLikeOption value then .error .usage
          else do (← o.setDir d value).readFrom rest
        | [] => .error .usage
      | _, _ => .error .usage
    | '-' :: c :: letters => do ((← (c :: letters).foldlM readLetter o)).readFrom rest
    | _ => (o.addPattern argument).readFrom rest

/-- `Cli::parse`: reads a command line. -/
def read (arguments : List String) : Except Refusal Options :=
  readFrom {} arguments

end Options

end PackageLoader
