import FormCheck.DateText.Internet
import FormCheck.DateText.Local
import FormCheck.DateText.Mail

/-!
# Forms of dates

A text is a date when one of four forms reads it, blanks on either side aside.
The forms are tried one after the other, and the first that reads the text
decides.
-/

namespace FormCheck.DateText

inductive Form where
  | internet
  | mail
  | localTime
  | day
  deriving DecidableEq

namespace Form

/-- The forms in the order in which they are tried. -/
def all : List Form := [.internet, .mail, .localTime, .day]

def read? : Form → List Char → Option Int
  | .internet => DateText.internet?
  | .mail => DateText.mail?
  | .localTime => DateText.localTime?
  | .day => DateText.day?

end Form

/-- The milliseconds since the start of 1970 of a text, by the first form that reads it. -/
def epochMillis? (s : String) : Option Int :=
  Form.all.findSome? fun form => form.read? (Text.trim s.toList)

end FormCheck.DateText
