import PackageLoader.CommandLine.Options
import PackageLoader.Installation.Guess
import PackageLoader.Request.Reading
import PackageLoader.Response.Text

/-!
One run of the program: it reads a request, answers the patterns on its command line and writes the
response. Directories on the command line go before those in the request.
-/
namespace PackageLoader

open Text

/-- What a run comes to. -/
inductive Outcome where
  | response (r : Response)
  | refused (why : Refusal)
  | badRequest (why : RequestError)
  | failed (why : LoadError)
  deriving DecidableEq

namespace Outcome

/-- The exit code. -/
def exitCode : Outcome → Nat
  | response _ | refused .help => 0
  | badRequest _ | failed _ => 1
  | refused .usage => 2

/-- `main`: the error line, if there is one. What failed below is named once more at its end. -/
def errorLine? : Outcome → Option String
  | badRequest why => some ("error: failed to unmarshal request: " ++ why.message)
  | failed why => some ("error: " ++ why.message ++ ": " ++ why.cause.message)
  | _ => none

end Outcome

/-- The environment of a request with the directories of the command line behind it. -/
def Options.environment (o : Options) (request : Request) : List String :=
  request.env ++ (o.root?.map fun dir => rootKey ++ "=" ++ dir).toList ++
    (o.builtin?.map fun dir => builtinKey ++ "=" ++ dir).toList

/-- `run`: runs the program for a command line and a request. -/
def run (host : Host) (architecture : String) (arguments : List String) (input : Bytes) : Outcome :=
  match Options.read arguments with
  | .error why => .refused why
  | .ok o =>
    match Request.read input with
    | .error why => .badRequest why
    | .ok request =>
      let settings := (host.settings architecture (o.environment request) {}).result
      let settings := { settings with withExamples := !o.flags.contains .noExamples }
      match load host.disk settings request.overlay o.patterns with
      | .ok r => .response r
      | .error why => .failed why

end PackageLoader
