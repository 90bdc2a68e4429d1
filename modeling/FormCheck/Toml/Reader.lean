import FormCheck.Text.Scan
import FormCheck.Toml.Syntax
import FormCheck.Toml.Text

/-!
# Reading TOML

A document is read line by line.  A line holds at most one statement, which may
run on if it ends in a string over several lines, and then an optional comment.
Documents with values that a configuration cannot use are refused.
-/

namespace FormCheck.Toml

def isKeyChar (c : Char) : Bool :=
  Text.isLetter c || c.isDigit || c == '_' || c == '-'

def readKey (s : List Char) : Option (String × List Char) :=
  match s with
  | '"' :: rest => (readBasic rest).map fun (key, rest) => (String.ofList key, rest)
  | '\'' :: rest => (readLiteral rest).map fun (key, rest) => (String.ofList key, rest)
  | s =>
    let key := s.takeWhile isKeyChar
    if key.isEmpty then none else some (String.ofList key, s.dropWhile isKeyChar)

/-- A key, with the blanks around its parts. -/
def readPath : Nat → List Char → Option (List String × List Char)
  | 0, _ => none
  | fuel + 1, s => do
    let (key, s) ← readKey (skipSpace s)
    match skipSpace s with
    | '.' :: s => do
      let (keys, s) ← readPath fuel s
      return (key :: keys, s)
    | s => return ([key], s)

def readMembers : Nat → List Char → Option (List (String × String) × List Char)
  | 0, _ => none
  | fuel + 1, s => do
    let (key, s) ← readKey (skipSpace s)
    let s ← Text.expect? '=' (skipSpace s)
    let (value, s) ← readText (skipSpace s)
    match skipSpace s with
    | ',' :: s => do
      let (members, s) ← readMembers fuel s
      return ((key, value) :: members, s)
    | '\x7d' :: s => return ([(key, value)], s)
    | _ => none

def readValue (s : List Char) : Option (Value × List Char) :=
  match s with
  | '\x7b' :: rest =>
    match skipSpace rest with
    | '\x7d' :: rest => some (.table [], rest)
    | rest => (readMembers rest.length rest).map fun (members, rest) => (.table members, rest)
  | s =>
    match readText s with
    | some (text, rest) => some (.text text, rest)
    | none => (readDateTime s).map fun (value, rest) => (.dateTime value, rest)

def readStatement (s : List Char) : Option (Statement × List Char) :=
  match s with
  | '[' :: rest => do
    let (path, s) ← readPath rest.length rest
    let s ← Text.expect? ']' s
    return (.header path, s)
  | s => do
    let (path, s) ← readPath s.length s
    let s ← Text.expect? '=' s
    let (value, s) ← readValue (skipSpace s)
    return (.assignment path value, s)

/-- The end of a line: blanks, an optional comment, and a line break unless the text ends. -/
def endLine? (s : List Char) : Option (List Char) :=
  let s := match skipSpace s with
    | '#' :: rest => rest.dropWhile isAllowed
    | s => s
  if s.isEmpty then some [] else lineBreak? s

def readStatements : Nat → List Char → Option (List Statement)
  | 0, _ => none
  | fuel + 1, s =>
    if s.isEmpty then some []
    else
      match endLine? s with
      | some rest => readStatements fuel rest
      | none => do
        let (statement, s) ← readStatement (skipSpace s)
        let s ← endLine? s
        let statements ← readStatements fuel s
        return statement :: statements

/-- The statements of a document, which may start with a byte order mark.  Every line uses up a
character, so the length of the text is enough fuel. -/
def parse? (text : String) : Option (List Statement) :=
  let s := match text.toList with
    | '\ufeff' :: rest => rest
    | s => s
  readStatements (s.length + 1) s

end FormCheck.Toml
