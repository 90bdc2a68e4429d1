import FormCheck.Submission

/-!
# Validation contexts

A validator is asked about one rule of one submitted field.  Its context holds
the field's own value and the arguments of the rule, and also the whole
submission, so that an answer can depend on other fields.
-/

namespace FormCheck

/-- What a validator is told about the rule it answers for. -/
structure Context where
  key : String
  value : Value
  submission : Submission
  form : Option String
  rule : String
  args : List String

namespace Context

def arg? (context : Context) (index : Nat) : Option String :=
  context.args[index]?

def sibling? (context : Context) (key : String) : Option Value :=
  context.submission.get? key

def hasSibling (context : Context) (key : String) : Bool :=
  context.submission.contains key

end Context

end FormCheck
