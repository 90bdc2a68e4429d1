import FormCheck.Check.Report.Json
import FormCheck.Config
import FormCheck.Json.Reader
import FormCheck.Json.Writer
import FormCheck.Submission.Json

/-!
# The command line

The program is called with the name of a configuration file and optionally the
name of a file of submitted values.  With values it validates them and prints
the report as JSON; it exits with 0 if they are valid and with 1 if not.
Without values it looks for rules that have no validator and exits with 0 if
there are none.  Every error makes it exit with 2 and print nothing on standard
output.  What it is doing and what went wrong goes to standard error.
-/

namespace FormCheck.CommandLine

/-- What a call of the program leaves behind. -/
structure Output where
  exitCode : Nat
  stdout : String
  stderr : String
  deriving DecidableEq, Inhabited

/-- The exit code for valid values and for rules that all have validators. -/
def exitValid : Nat := 0

def exitInvalid : Nat := 1

def exitError : Nat := 2

inductive Failure where
  | unknownRule (unknown : UnknownRule)
  | config (detail : String)
  | input (detail : String)

def Failure.message : Failure → String
  | .unknownRule unknown => unknown.message
  | .config detail => "Config error: " ++ detail
  | .input detail => "Input error: " ++ detail

def lines (items : List String) : String :=
  String.join (items.map fun item => item ++ "\n")

def usage : String := "usage: dataval <config.toml> [values.json]"

def textOf? (file? : String → Option ByteArray) (name : String) : Option String :=
  (file? name).bind String.fromUTF8?

def readConfig (file? : String → Option ByteArray) (name : String) : Except Failure Config :=
  match textOf? file? name with
  | none => .error (.config (name ++ ": the file cannot be read as text"))
  | some text =>
    match Config.parse? text with
    | none => .error (.config (name ++ ": the text is not a configuration"))
    | some config => .ok config

def readSubmission (file? : String → Option ByteArray) (name : String) :
    Except Failure Submission :=
  match textOf? file? name with
  | none => .error (.input (name ++ ": the file cannot be read as text"))
  | some text =>
    match (Json.parse? text).bind Submission.ofJson? with
    | none => .error (.input (name ++ ": the text is not an object of submitted values"))
    | some submission => .ok submission

def summary (checker : Checker) : List String :=
  (checker.form.map fun form => "   Form: " ++ form).toList ++
    checker.rules.entries.map fun entry =>
      "   • " ++ entry.1 ++ " → " ++ ", ".intercalate (entry.2.map Clause.name)

def unresolvedLine (key rule : String) : String :=
  "❌ Field '" ++ key ++ "' uses unknown rule '" ++ rule ++ "'"

def lint (checker : Checker) : Nat × List String :=
  match checker.unresolvedRules with
  | [] => (exitValid, ["✅ All rules resolve to a validator"])
  | unresolved => (exitError, unresolved.map fun entry => unresolvedLine entry.1 entry.2)

def validateFile (file? : String → Option ByteArray) (checker : Checker) (name : String) :
    Except Failure Report := do
  let submission ← readSubmission file? name
  (checker.validate submission).result.mapError Failure.unknownRule

def failureLine (failure : Failure) : String :=
  "❌ " ++ failure.message

def check (file? : String → Option ByteArray) (configName : String) (valuesName : Option String) :
    Output :=
  let loading := "🔧 Loading configuration from: " ++ configName
  match readConfig file? configName with
  | .error failure =>
    { exitCode := exitError, stdout := "", stderr := lines [loading, failureLine failure] }
  | .ok config =>
    let checker := config.toChecker
    let shown := loading :: summary checker
    match valuesName with
    | none =>
      let found := lint checker
      { exitCode := found.1, stdout := "", stderr := lines (shown ++ found.2) }
    | some valuesName =>
      match validateFile file? checker valuesName with
      | .error failure =>
        { exitCode := exitError, stdout := "", stderr := lines (shown ++ [failureLine failure]) }
      | .ok report =>
        { exitCode := if report.valid then exitValid else exitInvalid,
          stdout := lines [report.toJson.pretty], stderr := lines shown }

/-- A call of the program with its arguments, of which all after the second are ignored. -/
def run (file? : String → Option ByteArray) : List String → Output
  | [] => { exitCode := exitError, stdout := "", stderr := lines [usage] }
  | configName :: rest => check file? configName rest.head?

end FormCheck.CommandLine
