import FormCheck.Config

/-!
# Sessions

A session is a growing list of checkers.  A step makes one more checker: a
plain one, one from a setup or from the text of a configuration, a copy of an
earlier one, or an earlier one with one more validator.  Or else it validates a
submission with a checker, and the outcome is kept.  Checkers are numbered in
the order in which they were made and never change afterwards.
-/

namespace FormCheck

structure Session where
  checkers : List Checker
  outcomes : List Outcome
  deriving Inhabited

namespace Session

def empty : Session := { checkers := [], outcomes := [] }

inductive Step where
  | plain
  | build (setup : Setup)
  | load (text : String)
  | clone (source : Nat)
  | extend (source : Nat) (name : String) (validator : Validator)
  | validate (source : Nat) (submission : Submission)

/-- The checker that a step makes; there is none for a text that is no configuration, for a
source that does not exist, and for a validation. -/
def make? (session : Session) : Step → Option Checker
  | .plain => some Checker.plain
  | .build setup => some (Checker.ofSetup setup)
  | .load text => (Config.parse? text).map Config.toChecker
  | .clone source => session.checkers[source]?
  | .extend source name validator =>
    (session.checkers[source]?).map fun checker => checker.extend name validator
  | .validate _ _ => none

def outcome? (session : Session) : Step → Option Outcome
  | .validate source submission =>
    (session.checkers[source]?).map fun checker => checker.validate submission
  | _ => none

/-- The session after a step.  A step that makes nothing adds no checker. -/
def step (session : Session) (step : Step) : Session :=
  { checkers := session.checkers ++ (session.make? step).toList,
    outcomes := session.outcomes ++ (session.outcome? step).toList }

def run (steps : List Step) : Session :=
  steps.foldl Session.step Session.empty

end Session

end FormCheck
