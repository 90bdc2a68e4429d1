import FormCheck.Text.Digits

/-!
# Strings in TOML

There are four kinds of strings.  Basic strings stand between double quotes and
have escapes, literal strings stand between single quotes and have none; both
kinds also exist between three quotes, where they may run over several lines.
A string over several lines may end in one or two quotes of its own, its line
breaks are read as line feeds, and a line break right after the opening quotes
does not belong to it.
-/

namespace FormCheck.Toml

/-- The characters that may stand in strings and comments: all but the control characters, of
which only the tab is allowed. -/
def isAllowed (c : Char) : Bool :=
  c == '\t' || (0x20 ≤ c.toNat && c.toNat != 0x7F)

def isSpace (c : Char) : Bool :=
  c == ' ' || c == '\t'

def skipSpace (s : List Char) : List Char :=
  s.dropWhile isSpace

/-- What follows a line break, which is a line feed with an optional carriage return before it. -/
def lineBreak? : List Char → Option (List Char)
  | '\n' :: rest => some rest
  | '\r' :: '\n' :: rest => some rest
  | _ => none

def unescape? : Char → Option Char
  | 'b' => some '\x08'
  | 't' => some '\t'
  | 'n' => some '\n'
  | 'f' => some '\x0c'
  | 'r' => some '\r'
  | '"' => some '"'
  | '\\' => some '\\'
  | _ => none

/-- The character of a numbered escape, which must not be a surrogate. -/
def scalar? (digits : List Char) : Option Char := do
  let values ← digits.mapM Text.hexValue?
  let n := Text.numberInBase 16 values
  if n < 0xD800 ∨ (0xDFFF < n ∧ n < 0x110000) then some (Char.ofNat n) else none

def readBasic : List Char → Option (List Char × List Char)
  | [] => none
  | '"' :: rest => some ([], rest)
  | '\\' :: 'u' :: d₁ :: d₂ :: d₃ :: d₄ :: rest => do
    let c ← scalar? [d₁, d₂, d₃, d₄]
    let (text, rest) ← readBasic rest
    return (c :: text, rest)
  | '\\' :: 'U' :: d₁ :: d₂ :: d₃ :: d₄ :: d₅ :: d₆ :: d₇ :: d₈ :: rest => do
    let c ← scalar? [d₁, d₂, d₃, d₄, d₅, d₆, d₇, d₈]
    let (text, rest) ← readBasic rest
    return (c :: text, rest)
  | '\\' :: c :: rest => do
    let c ← unescape? c
    let (text, rest) ← readBasic rest
    return (c :: text, rest)
  | c :: rest => do
    guard (isAllowed c)
    let (text, rest) ← readBasic rest
    return (c :: text, rest)

def readLiteral : List Char → Option (List Char × List Char)
  | [] => none
  | '\'' :: rest => some ([], rest)
  | c :: rest => do
    guard (isAllowed c)
    let (text, rest) ← readLiteral rest
    return (c :: text, rest)

/-- The end of a string over several lines: three quotes, before which one or two quotes may
belong to the string. -/
def closing? (quote : Char) (s : List Char) : Option (List Char × List Char) :=
  let quotes := (s.takeWhile (· = quote)).length
  if quotes < 3 then none
  else
    let own := min (quotes - 3) 2
    some (List.replicate own quote, s.drop (own + 3))

def isBlankLine (s : List Char) : Bool :=
  (lineBreak? (skipSpace s)).isSome

/-- A basic string over several lines.  After a backslash at the end of a line, blanks and line
breaks are skipped. -/
def readBasicLines : Bool → List Char → Option (List Char × List Char)
  | _, [] => none
  | true, ' ' :: rest => readBasicLines true rest
  | true, '\t' :: rest => readBasicLines true rest
  | true, '\n' :: rest => readBasicLines true rest
  | true, '\r' :: '\n' :: rest => readBasicLines true rest
  | _, '\n' :: rest => do
    let (text, rest) ← readBasicLines false rest
    return ('\n' :: text, rest)
  | _, '\r' :: '\n' :: rest => do
    let (text, rest) ← readBasicLines false rest
    return ('\n' :: text, rest)
  | _, '\\' :: 'u' :: d₁ :: d₂ :: d₃ :: d₄ :: rest => do
    let c ← scalar? [d₁, d₂, d₃, d₄]
    let (text, rest) ← readBasicLines false rest
    return (c :: text, rest)
  | _, '\\' :: 'U' :: d₁ :: d₂ :: d₃ :: d₄ :: d₅ :: d₆ :: d₇ :: d₈ :: rest => do
    let c ← scalar? [d₁, d₂, d₃, d₄, d₅, d₆, d₇, d₈]
    let (text, rest) ← readBasicLines false rest
    return (c :: text, rest)
  | _, '\\' :: c :: rest =>
    -- The backslash may be followed by blanks before the break that it removes.
    if isBlankLine (c :: rest) then readBasicLines true (c :: rest)
    else do
      let c ← unescape? c
      let (text, rest) ← readBasicLines false rest
      return (c :: text, rest)
  | _, c :: rest =>
    match closing? '"' (c :: rest) with
    | some closing => some closing
    | none => do
      guard (isAllowed c)
      let (text, rest) ← readBasicLines false rest
      return (c :: text, rest)

def readLiteralLines : List Char → Option (List Char × List Char)
  | [] => none
  | '\n' :: rest => do
    let (text, rest) ← readLiteralLines rest
    return ('\n' :: text, rest)
  | '\r' :: '\n' :: rest => do
    let (text, rest) ← readLiteralLines rest
    return ('\n' :: text, rest)
  | c :: rest =>
    match closing? '\'' (c :: rest) with
    | some closing => some closing
    | none => do
      guard (isAllowed c)
      let (text, rest) ← readLiteralLines rest
      return (c :: text, rest)

def dropLineBreak (s : List Char) : List Char :=
  (lineBreak? s).getD s

def readText (s : List Char) : Option (String × List Char) :=
  let found := match s with
    | '"' :: '"' :: '"' :: rest => readBasicLines false (dropLineBreak rest)
    | '"' :: rest => readBasic rest
    | '\'' :: '\'' :: '\'' :: rest => readLiteralLines (dropLineBreak rest)
    | '\'' :: rest => readLiteral rest
    | _ => none
  found.map fun (text, rest) => (String.ofList text, rest)

end FormCheck.Toml
