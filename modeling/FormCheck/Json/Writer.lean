import FormCheck.Json.Syntax
import FormCheck.Number.Style

/-!
# Writing JSON

A document has a compact form on one line without blanks, and a pretty form
with one item or member on a line, indented by two spaces for each level.
Strings escape the quote, the backslash and the control characters and nothing
else.  Numbers are written in document style; the numbers that JSON cannot
express are written as `null`.
-/

namespace FormCheck.Json

def escapeDigits (n : Nat) : List Char :=
  [n / 4096 % 16, n / 256 % 16, n / 16 % 16, n % 16].map Nat.digitChar

def escape (c : Char) : List Char :=
  match c with
  | '"' => ['\\', '"']
  | '\\' => ['\\', '\\']
  | '\x08' => ['\\', 'b']
  | '\x0c' => ['\\', 'f']
  | '\n' => ['\\', 'n']
  | '\r' => ['\\', 'r']
  | '\t' => ['\\', 't']
  | c => if c.toNat < 0x20 then '\\' :: 'u' :: escapeDigits c.toNat else [c]

/-- A string between its quotes.  One that denotes no text is written as a lone escape. -/
def stringText : Option String → List Char
  | some s => '"' :: s.toList.flatMap escape ++ ['"']
  | none => ['"', '\\', 'u', 'd', '8', '0', '0', '"']

def numberText : Number → List Char
  | .finite negative magnitude => NumberStyle.document.finiteText negative magnitude
  | _ => ['n', 'u', 'l', 'l']

def boolText : Bool → List Char
  | true => ['t', 'r', 'u', 'e']
  | false => ['f', 'a', 'l', 's', 'e']

mutual

def compactChars : Json → List Char
  | .null => ['n', 'u', 'l', 'l']
  | .bool b => boolText b
  | .number n => numberText n
  | .string s => stringText s
  | .array items => '[' :: compactItems items ++ [']']
  | .object members => '\x7b' :: compactMembers members ++ ['\x7d']

def compactItems : List Json → List Char
  | [] => []
  | [item] => compactChars item
  | item :: rest => compactChars item ++ ',' :: compactItems rest

def compactMembers : List (Option String × Json) → List Char
  | [] => []
  | [member] => compactMember member
  | member :: rest => compactMember member ++ ',' :: compactMembers rest

def compactMember : Option String × Json → List Char
  | (name, value) => stringText name ++ ':' :: compactChars value

end

def lineBreak (level : Nat) : List Char :=
  '\n' :: List.replicate (2 * level) ' '

mutual

def prettyChars (level : Nat) : Json → List Char
  | .null => ['n', 'u', 'l', 'l']
  | .bool b => boolText b
  | .number n => numberText n
  | .string s => stringText s
  | .array [] => ['[', ']']
  | .array (item :: rest) =>
    '[' :: prettyItems (level + 1) (item :: rest) ++ lineBreak level ++ [']']
  | .object [] => ['\x7b', '\x7d']
  | .object (member :: rest) =>
    '\x7b' :: prettyMembers (level + 1) (member :: rest) ++ lineBreak level ++ ['\x7d']

def prettyItems (level : Nat) : List Json → List Char
  | [] => []
  | [item] => lineBreak level ++ prettyChars level item
  | item :: rest => lineBreak level ++ prettyChars level item ++ ',' :: prettyItems level rest

def prettyMembers (level : Nat) : List (Option String × Json) → List Char
  | [] => []
  | [member] => lineBreak level ++ prettyMember level member
  | member :: rest =>
    lineBreak level ++ prettyMember level member ++ ',' :: prettyMembers level rest

def prettyMember (level : Nat) : Option String × Json → List Char
  | (name, value) => stringText name ++ ':' :: ' ' :: prettyChars level value

end

def compact (document : Json) : String :=
  String.ofList document.compactChars

def pretty (document : Json) : String :=
  String.ofList (document.prettyChars 0)

end FormCheck.Json
