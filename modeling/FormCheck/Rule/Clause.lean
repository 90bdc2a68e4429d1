/-!
# Rule clauses

A clause names a rule and gives its arguments in order, as in `length:3:10`.
The colon separates the name from the first argument and each argument from
the next; nothing is escaped, so neither a name nor an argument that is read
from a text holds a colon.  A clause without arguments is written as its bare
name, and `a:` has one empty argument.
-/

namespace FormCheck

structure Clause where
  name : String
  args : List String
  deriving DecidableEq, Inhabited

namespace Clause

def separator : Char := ':'

/-- The clause of a text: the first segment is the name, the others are the arguments. -/
def parse (text : String) : Clause :=
  let segments := (text.toList.splitOn separator).map String.ofList
  { name := segments.headD "", args := segments.tail }

def segments (clause : Clause) : List String :=
  clause.name :: clause.args

def text (clause : Clause) : String :=
  String.ofList ([separator].intercalate (clause.segments.map String.toList))

def arg? (clause : Clause) (index : Nat) : Option String :=
  clause.args[index]?

end Clause

end FormCheck
