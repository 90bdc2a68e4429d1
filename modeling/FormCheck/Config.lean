import FormCheck.Check.Checker
import FormCheck.Toml.Reader

/-!
# Configurations

A configuration names the form and gives a rule text for each field, in the
order of the file.  Both parts are optional:

    form = "auth"

    [rules]
    nationalCode = "required|length:10:10"
    birthDate = "isDate|isBefore:1546300800000"

The rules can be given in three ways: under one header, as one inline table, or
by keys with a point.  A table that was given under a header or inline is
complete, and nothing can be added to it elsewhere.  Nothing may be given
twice, and no other keys are allowed.

A date-time in the place of the rules counts as an inline table with one entry,
which has a reserved key and the canonical text of the date-time.
-/

namespace FormCheck

structure Config where
  form : Option String
  rules : RuleTexts
  deriving Inhabited

namespace Config

/-- The key of the entry that a date-time stands for. -/
def dateTimeKey : String := "$__toml_private_datetime"

/-- How the rules of a configuration have been given so far. -/
inductive RulesTable where
  | absent
  | dotted
  | complete
  deriving DecidableEq

/-- A configuration of which some statements have been read.  Under the header of the rules,
assignments are rules. -/
structure Draft where
  config : Config
  table : RulesTable
  underHeader : Bool

namespace Draft

def start : Draft where
  config := { form := none, rules := FieldMap.empty }
  table := .absent
  underHeader := false

def giveForm? (draft : Draft) (form : String) : Option Draft :=
  match draft.config.form with
  | none => some { draft with config := { draft.config with form := some form } }
  | some _ => none

def giveRule? (draft : Draft) (key rules : String) : Option Draft :=
  if draft.config.rules.contains key then none
  else
    some { draft with config := { draft.config with rules := draft.config.rules.insert key rules } }

def giveRules? (draft : Draft) (entries : List (String × String)) : Option Draft :=
  entries.foldlM (fun draft entry => draft.giveRule? entry.1 entry.2) draft

/-- Marks the table of the rules as given in a way, when the way it was given before allows it. -/
def open? (draft : Draft) (table : RulesTable) : Option Draft :=
  if draft.table = .absent ∨ (draft.table = .dotted ∧ table = .dotted) then
    some { draft with table }
  else none

def step? (draft : Draft) (statement : Toml.Statement) : Option Draft :=
  match statement, draft.underHeader with
  | .header ["rules"], _ => do
    let draft ← draft.open? .complete
    return { draft with underHeader := true }
  | .assignment ["form"] (.text form), false => draft.giveForm? form
  | .assignment ["rules"] (.table entries), false => do
    let draft ← draft.open? .complete
    draft.giveRules? entries
  | .assignment ["rules"] (.dateTime value), false => do
    -- A date-time is read as a table with one entry, its own text.
    let draft ← draft.open? .complete
    draft.giveRule? dateTimeKey value.text
  | .assignment ["rules", key] (.text rules), false => do
    let draft ← draft.open? .dotted
    draft.giveRule? key rules
  | .assignment [key] (.text rules), true => draft.giveRule? key rules
  | _, _ => none

end Draft

def ofStatements? (statements : List Toml.Statement) : Option Config :=
  (statements.foldlM Draft.step? Draft.start).map Draft.config

def parse? (text : String) : Option Config :=
  (Toml.parse? text).bind ofStatements?

def toSetup (config : Config) : Setup where
  form := config.form
  rules := config.rules
  validators := Registry.builtins

def toChecker (config : Config) : Checker :=
  Checker.ofSetup config.toSetup

end Config

end FormCheck
