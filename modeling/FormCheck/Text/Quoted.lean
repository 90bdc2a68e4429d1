/-!
# Quoted text for display

Inspection texts show strings between double quotes.  The quote, the backslash
and the control characters are escaped, the apostrophe is not; lists and
ordered maps of strings are shown between brackets and braces.
-/

namespace FormCheck.Text

/-- A number in base sixteen, in lower case and without leading zeros. -/
def hexDigits (n : Nat) : List Char :=
  Nat.toDigits 16 n

def escapeForDisplay (c : Char) : List Char :=
  match c with
  | '"' => ['\\', '"']
  | '\\' => ['\\', '\\']
  | '\n' => ['\\', 'n']
  | '\r' => ['\\', 'r']
  | '\t' => ['\\', 't']
  | '\x00' => ['\\', '0']
  | c =>
    if c.toNat < 0x20 || c.toNat == 0x7F then
      ['\\', 'u', '\x7b'] ++ hexDigits c.toNat ++ ['\x7d']
    else
      [c]

def quoted (s : String) : String :=
  String.ofList ('"' :: s.toList.flatMap escapeForDisplay ++ ['"'])

def bracketed (items : List String) : String :=
  "[" ++ ", ".intercalate items ++ "]"

def braced (members : List (String × String)) : String :=
  "\x7b" ++ ", ".intercalate (members.map fun member => quoted member.1 ++ ": " ++ member.2) ++
    "\x7d"

def optionallyQuoted : Option String → String
  | none => "None"
  | some s => "Some(" ++ quoted s ++ ")"

end FormCheck.Text
