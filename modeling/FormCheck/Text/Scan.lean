import FormCheck.Text.Blank
import FormCheck.Text.Digits

/-!
# Steps of a scan

A scan goes through a text from left to right.  Each step takes the text that
is left and gives what remains after it, or nothing when the text does not
start as the step requires.
-/

namespace FormCheck.Text

def expect? (c : Char) : List Char → Option (List Char)
  | [] => none
  | d :: rest => if d = c then some rest else none

def expectAny? (cs : List Char) : List Char → Option (List Char)
  | [] => none
  | d :: rest => if d ∈ cs then some rest else none

def blanks? : List Char → Option (List Char)
  | [] => none
  | c :: rest => if isBlank c then some (trimStart rest) else none

def isLetter (c : Char) : Bool :=
  ('a' ≤ c && c ≤ 'z') || ('A' ≤ c && c ≤ 'Z')

/-- Takes a word of a list, in letters of either case, and gives what the list has for it. -/
def word? {α : Type} (words : List (String × α)) (length : Nat) (s : List Char) :
    Option (α × List Char) :=
  (words.lookup (String.ofList ((s.take length).map Char.toLower))).map fun meaning =>
    (meaning, s.drop length)

end FormCheck.Text
