import FormCheck.Proofs.RegistryLookup
import FormCheck.Proofs.RuleTextRoundTrip
import FormCheck.Session

/-!
# Lineages of checkers

Every checker of a session goes back to one that was built from a setup or loaded
from a configuration, by copies and by registrations.  A configuration stands for
the setup with its form, its rule texts and no registered validators.  Each
registration writes and parses the rules anew and inserts into a copy of the table
of validators.  This file shows that nothing is lost on the way: a checker is the
one that is built directly from the setup at its root, with the validators that
were registered along its line, and no later step changes it.

A history is the same session told without checkers.  It keeps the lineage of
each checker and builds a checker anew for every validation.
-/

namespace FormCheck

def Setup.blank : Setup where
  form := none
  rules := FieldMap.empty
  validators := Registry.builtins

/-- How a checker came about: the setup at its root, and the validators that
were registered along its line, in order. -/
structure Lineage where
  root : Setup
  added : List (String × Validator)

namespace Lineage

def ofSetup (root : Setup) : Lineage where
  root := root
  added := []

def extend (lineage : Lineage) (name : String) (validator : Validator) : Lineage where
  root := lineage.root
  added := lineage.added ++ [(name, validator)]

/-- The setup at the root, with the registered validators merged into its own. -/
def merged (lineage : Lineage) : Setup where
  form := lineage.root.form
  rules := lineage.root.rules
  validators := lineage.root.validators.registerAll lineage.added

def checker (lineage : Lineage) : Checker :=
  Checker.ofSetup lineage.merged

theorem checker_extend (lineage : Lineage) (name : String) (validator : Validator) :
    (lineage.extend name validator).checker =
      lineage.checker.extend name validator := by
  apply Checker.ext
  · rfl
  · -- What is written and parsed again are rules that were parsed before.
    exact (RuleMap.parse_texts_parse lineage.root.rules).symm
  · change lineage.root.validators.registerAll (lineage.added ++ [(name, validator)]) =
      (lineage.root.validators.registerAll lineage.added).register name validator
    unfold Registry.registerAll
    rw [List.foldl_append]
    rfl

end Lineage

structure History where
  lineages : List Lineage
  outcomes : List Outcome

namespace History

def empty : History where
  lineages := []
  outcomes := []

def lineage? (history : History) : Session.Step → Option Lineage
  | .plain => some (Lineage.ofSetup Setup.blank)
  | .build setup => some (Lineage.ofSetup setup)
  | .load text =>
      (Config.parse? text).map fun config => Lineage.ofSetup
        { form := config.form
          rules := config.rules
          validators := Registry.builtins }
  | .clone source => history.lineages[source]?
  | .extend source name validator =>
      (history.lineages[source]?).map fun lineage => lineage.extend name validator
  | .validate _ _ => none

/-- The outcome of a validation with a checker that is built for it. -/
def outcome? (history : History) : Session.Step → Option Outcome
  | .validate source submission =>
      (history.lineages[source]?).map fun lineage =>
        (Checker.ofSetup lineage.merged).validate submission
  | _ => none

def step (history : History) (step : Session.Step) : History where
  lineages := history.lineages ++ (history.lineage? step).toList
  outcomes := history.outcomes ++ (history.outcome? step).toList

def run (steps : List Session.Step) : History :=
  steps.foldl History.step History.empty

end History

/-! ## Sessions and histories agree -/

namespace Session

/-- Each checker is the one that its lineage describes, and the outcomes are the
same. -/
structure Agrees (session : Session) (history : History) : Prop where
  checkers : session.checkers = history.lineages.map Lineage.checker
  outcomes : session.outcomes = history.outcomes

theorem Agrees.getElem?_checkers
    {session : Session} {history : History}
    (hagrees : session.Agrees history) (number : ℕ) :
    session.checkers[number]? = (history.lineages[number]?).map Lineage.checker := by
  rw [hagrees.checkers, List.getElem?_map]

theorem Agrees.make?_eq
    {session : Session} {history : History}
    (hagrees : session.Agrees history) (step : Step) :
    session.make? step = (history.lineage? step).map Lineage.checker := by
  cases step with
  | plain => rfl
  | build setup => rfl
  | load text =>
      simp only [make?, History.lineage?, Option.map_map]
      rfl
  | clone source => exact hagrees.getElem?_checkers source
  | extend source name validator =>
      simp only [make?, History.lineage?, hagrees.getElem?_checkers, Option.map_map,
        Function.comp_def, Lineage.checker_extend]
  | validate source submission => rfl

theorem Agrees.outcome?_eq
    {session : Session} {history : History}
    (hagrees : session.Agrees history) (step : Step) :
    session.outcome? step = history.outcome? step := by
  cases step with
  | validate source submission =>
      simp only [outcome?, History.outcome?, hagrees.getElem?_checkers, Option.map_map]
      rfl
  | plain => rfl
  | build setup => rfl
  | load text => rfl
  | clone source => rfl
  | extend source name validator => rfl

theorem Agrees.step
    {session : Session} {history : History}
    (hagrees : session.Agrees history) (step : Step) :
    (session.step step).Agrees (history.step step) := by
  constructor
  · simp only [Session.step, History.step, List.map_append]
    rw [hagrees.make?_eq step, ← hagrees.checkers]
    cases history.lineage? step <;> rfl
  · simp only [Session.step, History.step]
    rw [hagrees.outcome?_eq step, hagrees.outcomes]

theorem agrees_empty : empty.Agrees History.empty := ⟨rfl, rfl⟩

theorem agrees_run (steps : List Step) : (run steps).Agrees (History.run steps) := by
  have hfold : ∀ (session : Session) (history : History), session.Agrees history →
      (steps.foldl Session.step session).Agrees (steps.foldl History.step history) := by
    induction steps with
    | nil =>
        intro session history hagrees
        exact hagrees
    | cons next rest ih =>
        intro session history hagrees
        exact ih _ _ (hagrees.step next)
  exact hfold empty History.empty agrees_empty

theorem exists_lineage
    {steps : List Step} {number : ℕ} {checker : Checker}
    (hmade : (run steps).checkers[number]? = some checker) :
    ∃ lineage, (History.run steps).lineages[number]? = some lineage ∧
      checker = lineage.checker := by
  rw [(agrees_run steps).getElem?_checkers] at hmade
  obtain ⟨lineage, hlineage, hchecker⟩ := Option.map_eq_some_iff.mp hmade
  exact ⟨lineage, hlineage, hchecker.symm⟩

/-! ## Later steps change nothing -/

theorem checkers_prefix (session : Session) (steps : List Step) :
    session.checkers <+: (steps.foldl Session.step session).checkers := by
  induction steps generalizing session with
  | nil => exact List.prefix_rfl
  | cons next rest ih =>
      exact (List.prefix_append _ _).trans (ih (session.step next))

theorem getElem?_checkers_append
    {steps : List Step} {number : ℕ} {checker : Checker}
    (hmade : (run steps).checkers[number]? = some checker) (later : List Step) :
    (run (steps ++ later)).checkers[number]? = some checker := by
  obtain ⟨added, hadded⟩ := checkers_prefix (run steps) later
  have hrun : (run (steps ++ later)).checkers = (run steps).checkers ++ added := by
    unfold run at hadded ⊢
    rw [List.foldl_append, hadded]
  have hbound : number < (run steps).checkers.length :=
    (List.getElem?_eq_some_iff.mp hmade).1
  rw [hrun, List.getElem?_append_left hbound, hmade]

/-! ## Sessions as direct builds -/

theorem extend_comm
    (checker : Checker) {name other : String} (hne : name ≠ other)
    (validator otherValidator : Validator) :
    (checker.extend name validator).extend other otherValidator =
      (checker.extend other otherValidator).extend name validator := by
  apply Checker.ext
  · rfl
  · rfl
  · exact checker.registry.register_comm hne validator otherValidator

/-- Every checker of a session has the form and the rules of its root, and under
each name the validator that was registered last along its line, or else the one
of the root.  It validates as the checker built directly from all this, and so it
did in the session.  Nothing that happens later in the session changes it, and
registrations of different names can be made in either order. -/
theorem checkers_built_directly (steps : List Step) :
    (∀ (number : ℕ) (checker : Checker),
      (run steps).checkers[number]? = some checker →
      ∃ lineage : Lineage, (History.run steps).lineages[number]? = some lineage ∧
        checker.form = lineage.root.form ∧
        checker.rules = (Checker.ofSetup lineage.root).rules ∧
        checker.registry = lineage.root.validators.registerAll lineage.added ∧
        (∀ name, checker.registry.overrides.lookup name =
          (lineage.added.reverse.lookup name).or
            (lineage.root.validators.overrides.lookup name)) ∧
        (∀ submission, checker.validate submission =
          (Checker.ofSetup lineage.merged).validate submission) ∧
        ∀ later, (run (steps ++ later)).checkers[number]? = some checker) ∧
    (run steps).outcomes = (History.run steps).outcomes ∧
    ∀ (checker : Checker) (name other : String) (validator otherValidator : Validator),
      name ≠ other →
      (checker.extend name validator).extend other otherValidator =
        (checker.extend other otherValidator).extend name validator := by
  refine ⟨?_, (agrees_run steps).outcomes, ?_⟩
  · intro number checker hmade
    obtain ⟨lineage, hlineage, rfl⟩ := exists_lineage hmade
    refine ⟨lineage, hlineage, rfl, rfl, rfl, ?_, fun submission => rfl, ?_⟩
    · exact lineage.root.validators.lookup_registerAll lineage.added
    · exact getElem?_checkers_append hmade
  · intro checker name other validator otherValidator hne
    exact extend_comm checker hne validator otherValidator

/-- The rules of every checker of a session can be written without loss, and they
are written as the texts that were given to its root, with the same keys in the
same order. -/
theorem rules_written_as_given
    (steps : List Step) (number : ℕ) (checker : Checker)
    (hmade : (run steps).checkers[number]? = some checker) :
    (∀ entry ∈ checker.rules.entries, entry.2 ≠ [] ∧
      ∀ clause ∈ entry.2, ∀ segment ∈ clause.name :: clause.args,
        '|' ∉ segment.toList ∧ ':' ∉ segment.toList) ∧
    ∃ lineage : Lineage, (History.run steps).lineages[number]? = some lineage ∧
      RuleMap.texts checker.rules = lineage.root.rules ∧
      RuleMap.parse (RuleMap.texts checker.rules) = checker.rules := by
  obtain ⟨lineage, hlineage, rfl⟩ := exists_lineage hmade
  constructor
  · intro entry hentry
    have hreadable := RuleMap.readable_of_mem_parse hentry
    refine ⟨hreadable.nonempty, ?_⟩
    intro clause hclause segment hsegment
    have hplain := hreadable.plain clause hclause segment hsegment
    exact ⟨hplain.2, hplain.1⟩
  · exact ⟨lineage, hlineage, RuleMap.texts_parse lineage.root.rules,
      RuleMap.parse_texts_parse lineage.root.rules⟩

/-- Rule texts with empty clauses and empty arguments. -/
def ragged : Setup where
  form := none
  rules :=
    { entries := [("code", "a:|b::|c:d:e|"), ("note", "")]
      keys_nodup := by decide }
  validators := Registry.builtins

/-- A configuration that gives the same rule texts. -/
def raggedText : String :=
  "form = \"codes\"\n[rules]\ncode = \"a:|b::|c:d:e|\"\nnote = \"\"\n"

/-- A built checker is extended, copied and extended again, a loaded one is extended. -/
def branching (validator : Validator) : List Step :=
  [.build ragged, .extend 0 "a" validator, .clone 1, .extend 2 "b" validator,
    .load raggedText, .extend 4 "a" validator]

theorem rules_of_branching_written_as_given :
    let validator := Builtin.validator .required
    let built := ((Checker.ofSetup ragged).extend "a" validator).extend "b" validator
    let loaded := (Checker.ofSetup { ragged with form := some "codes" }).extend "a" validator
    (run (branching validator)).checkers[3]? = some built ∧
      RuleMap.texts built.rules = ragged.rules ∧
      (run (branching validator)).checkers[5]? = some loaded ∧
      RuleMap.texts loaded.rules = ragged.rules := by
  intro validator built loaded
  have hbuilt : (run (branching validator)).checkers[3]? = some built := rfl
  have hloaded : (run (branching validator)).checkers[5]? = some loaded := rfl
  obtain ⟨-, lineage, hlineage, htexts, -⟩ :=
    rules_written_as_given (branching validator) 3 built hbuilt
  obtain ⟨-, other, hother, hotherTexts, -⟩ :=
    rules_written_as_given (branching validator) 5 loaded hloaded
  have hroot : Lineage.mk ragged [("a", validator), ("b", validator)] = lineage :=
    Option.some.inj hlineage
  have hotherRoot : Lineage.mk { ragged with form := some "codes" } [("a", validator)] = other :=
    Option.some.inj hother
  refine ⟨hbuilt, ?_, hloaded, ?_⟩
  · rw [htexts, ← hroot]
  · rw [hotherTexts, ← hotherRoot]

end Session

end FormCheck
