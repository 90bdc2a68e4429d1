import FormCheck.Json.Reader
import FormCheck.Json.Writer
import Mathlib.Data.Option.Basic
import Mathlib.Tactic.Common

/-!
# Spellings of documents

A document can be spelled in many ways, which differ in the blanks around items,
names and values.  This file says what the spellings of a document are, without
reading anything, and shows that every spelling is read as its document.
-/

namespace FormCheck.Json

/-! ## Strings -/

theorem hexValue?_digitChar : ∀ digit < 16, Text.hexValue? (Nat.digitChar digit) = some digit := by
  decide

theorem unit?_escapeDigits {n : ℕ} (hn : n < 0x10000) :
    unit? (Nat.digitChar (n / 4096 % 16)) (Nat.digitChar (n / 256 % 16))
      (Nat.digitChar (n / 16 % 16)) (Nat.digitChar (n % 16)) = some n := by
  have hdigits : (escapeDigits n).mapM Text.hexValue? =
      some [n / 4096 % 16, n / 256 % 16, n / 16 % 16, n % 16] := by
    have hdigit : ∀ k, Text.hexValue? (Nat.digitChar (k % 16)) = some (k % 16) :=
      fun k => hexValue?_digitChar (k % 16) (Nat.mod_lt k (by decide))
    simp [escapeDigits, hdigit]
  have hnumber : Text.numberInBase 16 [n / 4096 % 16, n / 256 % 16, n / 16 % 16, n % 16] = n := by
    simp only [Text.numberInBase, List.foldl_cons, List.foldl_nil]
    omega
  change ((escapeDigits n).mapM Text.hexValue?).bind
    (fun digits => some (Text.numberInBase 16 digits)) = some n
  rw [hdigits, Option.bind_some, hnumber]

/-- The piece as which an escaped character is read. -/
def pieceOf (c : Char) : Piece :=
  if c.toNat < 0x20 ∧ c ∉ ['\x08', '\x0c', '\n', '\r', '\t'] then .unit c.toNat else .plain c

theorem readPieces_named
    {mark c : Char} (hmark : mark ≠ 'u') (hname : unescape? mark = some c) (rest : List Char) :
    readPieces ('\\' :: mark :: rest) =
      (readPieces rest).map fun read => (.plain c :: read.1, read.2) := by
  rw [readPieces, hname]
  · cases readPieces rest <;> rfl
  · intro a b c d after hu _
    exact hmark hu

theorem readPieces_numbered {n : ℕ} (hn : n < 0x10000) (rest : List Char) :
    readPieces ('\\' :: 'u' :: escapeDigits n ++ rest) =
      (readPieces rest).map fun read => (.unit n :: read.1, read.2) := by
  change readPieces ('\\' :: 'u' :: _ :: _ :: _ :: _ :: rest) = _
  rw [readPieces, unit?_escapeDigits hn]
  cases readPieces rest <;> rfl

theorem readPieces_plain
    {c : Char} (hquote : c ≠ '"') (hbackslash : c ≠ '\\') (hprintable : 0x20 ≤ c.toNat)
    (rest : List Char) :
    readPieces (c :: rest) =
      (readPieces rest).map fun read => (.plain c :: read.1, read.2) := by
  rw [readPieces]
  · simp only [hprintable, guard_true]
    cases readPieces rest <;> rfl
  all_goals simp [hquote, hbackslash]

theorem readPieces_escape (c : Char) (rest : List Char) :
    readPieces (escape c ++ rest) =
      (readPieces rest).map fun read => (pieceOf c :: read.1, read.2) := by
  unfold escape
  split
  · exact readPieces_named (by decide) rfl rest
  · exact readPieces_named (by decide) rfl rest
  · exact readPieces_named (by decide) rfl rest
  · exact readPieces_named (by decide) rfl rest
  · exact readPieces_named (by decide) rfl rest
  · exact readPieces_named (by decide) rfl rest
  · exact readPieces_named (by decide) rfl rest
  · next hquote hbackslash hb hf hn hr ht =>
    by_cases hcontrol : c.toNat < 0x20
    · have hpiece : pieceOf c = .unit c.toNat := by
        unfold pieceOf
        rw [if_pos]
        simp_all
      rw [if_pos hcontrol, hpiece]
      exact readPieces_numbered (by omega) rest
    · have hpiece : pieceOf c = .plain c := by
        unfold pieceOf
        rw [if_neg]
        simp [hcontrol]
      rw [if_neg hcontrol, hpiece]
      exact readPieces_plain hquote hbackslash (by omega) rest

theorem readPieces_flatMap_escape (s rest : List Char) :
    readPieces (s.flatMap escape ++ '"' :: rest) = some (s.map pieceOf, rest) := by
  induction s with
  | nil => rfl
  | cons c s ih =>
      rw [List.flatMap_cons, List.append_assoc, readPieces_escape, ih]
      rfl

theorem joinPieces_unit {n : ℕ} (hn : n < 0xD800) (rest : List Piece) :
    joinPieces (.unit n :: rest) = (joinPieces rest).map (Char.ofNat n :: ·) := by
  have hhigh : isHighSurrogate n = false := by
    simp only [isHighSurrogate, Bool.and_eq_false_iff, decide_eq_false_iff_not]
    omega
  have hlow : isLowSurrogate n = false := by
    simp only [isLowSurrogate, Bool.and_eq_false_iff, decide_eq_false_iff_not]
    omega
  rcases rest with _ | ⟨next, rest⟩
  · simp [joinPieces, hhigh, hlow]
  · cases next <;> simp [joinPieces, hhigh, hlow]

theorem joinPieces_map_pieceOf (s : List Char) : joinPieces (s.map pieceOf) = some s := by
  induction s with
  | nil => rfl
  | cons c s ih =>
      rw [List.map_cons, pieceOf]
      split
      · next hcontrol =>
        rw [joinPieces_unit (by omega), ih, Char.ofNat_toNat]
        rfl
      · rw [joinPieces, ih]
        rfl

/-- A string is read back, whatever follows its closing quote. -/
theorem readString_escape (s : String) (rest : List Char) :
    readString (s.toList.flatMap escape ++ '"' :: rest) = some (some s, rest) := by
  unfold readString
  rw [readPieces_flatMap_escape]
  simp [joinPieces_map_pieceOf]

/-! ## Blanks -/

def Blank (s : List Char) : Prop :=
  ∀ c ∈ s, isSpace c = true

theorem blank_nil : Blank [] :=
  fun _ hc => absurd hc List.not_mem_nil

theorem skipSpace_append {blanks : List Char} (hblanks : Blank blanks) (s : List Char) :
    skipSpace (blanks ++ s) = skipSpace s := by
  unfold skipSpace
  rw [List.dropWhile_append_of_pos hblanks]

theorem skipSpace_of_blank {blanks : List Char} (hblanks : Blank blanks) :
    skipSpace blanks = [] := by
  have happend := skipSpace_append hblanks []
  rwa [List.append_nil] at happend

theorem skipSpace_cons {c : Char} (hc : isSpace c = false) (s : List Char) :
    skipSpace (c :: s) = c :: s := by
  unfold skipSpace
  rw [List.dropWhile_cons_of_neg (by simp [hc])]

theorem skipSpace_append_cons
    {blanks : List Char} (hblanks : Blank blanks) {c : Char} (hc : isSpace c = false)
    (s : List Char) : skipSpace (blanks ++ c :: s) = c :: s := by
  rw [skipSpace_append hblanks, skipSpace_cons hc]

theorem skipSpace_skipSpace (s : List Char) : skipSpace (skipSpace s) = skipSpace s := by
  have hblanks : Blank (s.takeWhile isSpace) := List.all_eq_true.mp List.all_takeWhile
  rw [← skipSpace_append hblanks]
  exact congrArg skipSpace List.takeWhile_append_dropWhile

/-- What may follow a value: nothing, a blank, a comma or a closing bracket. -/
def Ends (rest : List Char) : Prop :=
  ∀ c ∈ rest.head?, isSpace c = true ∨ c = ',' ∨ c = ']' ∨ c = '\x7d'

theorem ends_of_blank {blanks : List Char} (hblanks : Blank blanks) : Ends blanks := by
  intro c hc
  exact Or.inl (hblanks c (List.mem_of_mem_head? hc))

theorem ends_append
    {blanks : List Char} (hblanks : Blank blanks) {c : Char}
    (hc : c = ',' ∨ c = ']' ∨ c = '\x7d') (rest : List Char) : Ends (blanks ++ c :: rest) := by
  intro d hd
  cases blanks with
  | nil =>
      obtain rfl : c = d := by simpa using hd
      exact Or.inr hc
  | cons blank blanks =>
      obtain rfl : blank = d := by simpa using hd
      exact Or.inl (hblanks blank List.mem_cons_self)

/-! ## Spellings -/

/-- A text that is read as a number, whatever follows the value. -/
def ReadsAs (s : List Char) (n : Number) : Prop :=
  ∀ rest, Ends rest → readNumber (s ++ rest) = some (n, rest)

mutual

/-- A text that spells a document, with any blanks around its items and members. -/
inductive Spells : Json → List Char → Prop where
  | null : Spells .null ['n', 'u', 'l', 'l']
  | bool (b : Bool) : Spells (.bool b) (boolText b)
  | number {n : Number} {s : List Char} (hn : ReadsAs s n) : Spells (.number n) s
  | string (s : String) : Spells (.string (some s)) (stringText (some s))
  | noItems : Spells (.array []) ['[', ']']
  | items {items : List Json} {s : List Char} (hitems : SpellsItems items s) :
      Spells (.array items) ('[' :: s ++ [']'])
  | noMembers : Spells (.object []) ['\x7b', '\x7d']
  | members {members : List (Option String × Json)} {s : List Char}
      (hmembers : SpellsMembers members s) : Spells (.object members) ('\x7b' :: s ++ ['\x7d'])

inductive SpellsItems : List Json → List Char → Prop where
  | last {item : Json} {before s after : List Char} (hbefore : Blank before)
      (hitem : Spells item s) (hafter : Blank after) :
      SpellsItems [item] (before ++ s ++ after)
  | more {item : Json} {before s after : List Char} {items : List Json} {t : List Char}
      (hbefore : Blank before) (hitem : Spells item s) (hafter : Blank after)
      (hitems : SpellsItems items t) :
      SpellsItems (item :: items) (before ++ s ++ after ++ ',' :: t)

inductive SpellsMembers : List (Option String × Json) → List Char → Prop where
  | last (name : String) {value : Json} {before between s after : List Char}
      (hbefore : Blank before) (hbetween : Blank between) (hvalue : Spells value s)
      (hafter : Blank after) :
      SpellsMembers [(some name, value)]
        (before ++ stringText (some name) ++ ':' :: (between ++ s ++ after))
  | more (name : String) {value : Json} {before between s after : List Char}
      {members : List (Option String × Json)} {t : List Char}
      (hbefore : Blank before) (hbetween : Blank between) (hvalue : Spells value s)
      (hafter : Blank after) (hmembers : SpellsMembers members t) :
      SpellsMembers ((some name, value) :: members)
        (before ++ stringText (some name) ++ ':' :: (between ++ s ++ after ++ ',' :: t))

end

/-! ## Reading spellings -/

theorem readNumber_eq_none {c : Char} (hminus : c ≠ '-') (hdigit : c.isDigit = false)
    (s : List Char) : readNumber (c :: s) = none := by
  have hrun : Text.digitRun (c :: s) = [] := by simp [Text.digitRun, hdigit]
  simp [readNumber, hminus, readMagnitude, readWhole, readDigits, hrun]

theorem exists_head_of_readNumber
    {s rest : List Char} {n : Number} (hn : readNumber s = some (n, rest)) :
    ∃ c t, s = c :: t ∧ (c = '-' ∨ c.isDigit = true) := by
  cases s with
  | nil => cases hn
  | cons c t =>
      refine ⟨c, t, rfl, ?_⟩
      by_contra hc
      rw [not_or, Bool.not_eq_true] at hc
      rw [readNumber_eq_none hc.1 hc.2] at hn
      cases hn

theorem isSpace_of_head {c : Char} (hc : c = '-' ∨ c.isDigit = true) : isSpace c = false := by
  rw [← Bool.not_eq_true]
  intro hspace
  simp only [isSpace, Bool.or_eq_true, beq_iff_eq] at hspace
  rcases hspace with ((rfl | rfl) | rfl) | rfl <;> exact absurd hc (by decide)

theorem ne_nil_of_spells {document : Json} {s : List Char} (hs : Spells document s) : s ≠ [] := by
  cases hs with
  | bool b => cases b <;> exact List.cons_ne_nil _ _
  | number hn =>
      obtain ⟨c, t, hs, -⟩ := exists_head_of_readNumber (hn [] (ends_of_blank blank_nil))
      rw [List.append_nil] at hs
      rw [hs]
      exact List.cons_ne_nil c t
  | null => exact List.cons_ne_nil _ _
  | string s => exact List.cons_ne_nil _ _
  | noItems => exact List.cons_ne_nil _ _
  | items hitems => exact List.cons_ne_nil _ _
  | noMembers => exact List.cons_ne_nil _ _
  | members hmembers => exact List.cons_ne_nil _ _

section Steps

variable {fuel : ℕ} {before after : List Char}

theorem readValue_skipSpace (fuel : ℕ) (s : List Char) :
    readValue fuel (skipSpace s) = readValue fuel s := by
  cases fuel with
  | zero => simp only [readValue]
  | succ fuel => simp only [readValue, skipSpace_skipSpace]

theorem readItems_skipSpace (fuel : ℕ) (s : List Char) :
    readItems fuel (skipSpace s) = readItems fuel s := by
  cases fuel with
  | zero => simp only [readItems]
  | succ fuel => simp only [readItems, readValue_skipSpace]

theorem readMembers_skipSpace (fuel : ℕ) (s : List Char) :
    readMembers fuel (skipSpace s) = readMembers fuel s := by
  cases fuel with
  | zero => simp only [readMembers]
  | succ fuel => simp only [readMembers, skipSpace_skipSpace]

theorem readValue_append (hbefore : Blank before) (fuel : ℕ) (s : List Char) :
    readValue fuel (before ++ s) = readValue fuel s := by
  rw [← readValue_skipSpace, skipSpace_append hbefore, readValue_skipSpace]

theorem readMembers_append (hbefore : Blank before) (fuel : ℕ) (s : List Char) :
    readMembers fuel (before ++ s) = readMembers fuel s := by
  rw [← readMembers_skipSpace, skipSpace_append hbefore, readMembers_skipSpace]

theorem stringText_append (s : String) (rest : List Char) :
    stringText (some s) ++ rest = '"' :: (s.toList.flatMap escape ++ '"' :: rest) := by
  simp [stringText]

theorem readValue_number
    {s rest : List Char} {n : Number} (hn : readNumber s = some (n, rest)) (fuel : ℕ) :
    readValue (fuel + 1) s = some (.number n, rest) := by
  obtain ⟨c, t, rfl, hc⟩ := exists_head_of_readNumber hn
  unfold readValue
  rw [skipSpace_cons (isSpace_of_head hc)]
  split
  case h_7 => rw [hn]; rfl
  all_goals
    next hs =>
      rw [(List.cons.inj hs).1] at hc
      exact absurd hc (by decide)

theorem readValue_string (fuel : ℕ) (s : String) (rest : List Char) :
    readValue (fuel + 1) (stringText (some s) ++ rest) = some (.string (some s), rest) := by
  unfold readValue
  rw [stringText_append, skipSpace_cons (by decide)]
  simp [readString_escape]

theorem readItems_bracket (fuel : ℕ) (s : List Char) : readItems fuel (']' :: s) = none := by
  have hvalue : ∀ left, readValue left (']' :: s) = none := by
    intro left
    cases left with
    | zero => simp only [readValue]
    | succ left =>
        unfold readValue
        rw [skipSpace_cons (by decide)]
        simp [readNumber_eq_none]
  cases fuel with
  | zero => simp only [readItems]
  | succ fuel => simp [readItems, hvalue]

theorem readMembers_bracket (fuel : ℕ) (s : List Char) :
    readMembers fuel ('\x7d' :: s) = none := by
  cases fuel with
  | zero => simp only [readMembers]
  | succ fuel =>
      unfold readMembers
      rw [skipSpace_cons (by decide)]
      simp

theorem readValue_items
    {s rest : List Char} {items : List Json} (hitems : readItems fuel s = some (items, rest)) :
    readValue (fuel + 1) ('[' :: s) = some (.array items, rest) := by
  rw [← readItems_skipSpace] at hitems
  have hopen : ∀ t, skipSpace s ≠ ']' :: t := by
    intro t hs
    rw [hs, readItems_bracket] at hitems
    cases hitems
  unfold readValue
  rw [skipSpace_cons (by decide)]
  -- By `hopen` the bracket opens an array that is not empty.
  simp [hitems]

theorem readValue_members
    {s rest : List Char} {members : List (Option String × Json)}
    (hmembers : readMembers fuel s = some (members, rest)) :
    readValue (fuel + 1) ('\x7b' :: s) = some (.object members, rest) := by
  rw [← readMembers_skipSpace] at hmembers
  have hopen : ∀ t, skipSpace s ≠ '\x7d' :: t := by
    intro t hs
    rw [hs, readMembers_bracket] at hmembers
    cases hmembers
  unfold readValue
  rw [skipSpace_cons (by decide)]
  simp [hmembers]

theorem readItems_last
    {s rest : List Char} {item : Json} (hafter : Blank after)
    (hitem : readValue fuel s = some (item, after ++ ']' :: rest)) :
    readItems (fuel + 1) s = some ([item], rest) := by
  have hclose : skipSpace (after ++ ']' :: rest) = ']' :: rest :=
    skipSpace_append_cons hafter (by decide) _
  simp [readItems, hitem, hclose]

theorem readItems_more
    {s t rest : List Char} {item : Json} {items : List Json} (hafter : Blank after)
    (hitem : readValue fuel s = some (item, after ++ ',' :: t))
    (hitems : readItems fuel t = some (items, rest)) :
    readItems (fuel + 1) s = some (item :: items, rest) := by
  have hcomma : skipSpace (after ++ ',' :: t) = ',' :: t :=
    skipSpace_append_cons hafter (by decide) _
  simp [readItems, hitem, hcomma, hitems]

theorem readMembers_last
    {name : String} {s rest : List Char} {value : Json} (hafter : Blank after)
    (hvalue : readValue fuel s = some (value, after ++ '\x7d' :: rest)) :
    readMembers (fuel + 1) (stringText (some name) ++ ':' :: s) =
      some ([(some name, value)], rest) := by
  have hclose : skipSpace (after ++ '\x7d' :: rest) = '\x7d' :: rest :=
    skipSpace_append_cons hafter (by decide) _
  unfold readMembers
  rw [stringText_append, skipSpace_cons (by decide)]
  simp [readString_escape, skipSpace_cons, isSpace, hvalue, hclose]

theorem readMembers_more
    {name : String} {s t rest : List Char} {value : Json}
    {members : List (Option String × Json)} (hafter : Blank after)
    (hvalue : readValue fuel s = some (value, after ++ ',' :: t))
    (hmembers : readMembers fuel t = some (members, rest)) :
    readMembers (fuel + 1) (stringText (some name) ++ ':' :: s) =
      some ((some name, value) :: members, rest) := by
  have hcomma : skipSpace (after ++ ',' :: t) = ',' :: t :=
    skipSpace_append_cons hafter (by decide) _
  unfold readMembers
  rw [stringText_append, skipSpace_cons (by decide)]
  simp [readString_escape, skipSpace_cons, isSpace, hvalue, hcomma, hmembers]

end Steps

mutual

theorem readValue_of_spells
    {document : Json} {s : List Char} (hs : Spells document s) (fuel : ℕ)
    (hfuel : 2 * s.length ≤ fuel) {rest : List Char} (hrest : Ends rest) :
    readValue fuel (s ++ rest) = some (document, rest) := by
  have hpositive : 0 < s.length := List.length_pos_iff.mpr (ne_nil_of_spells hs)
  cases fuel with
  | zero => omega
  | succ fuel =>
      cases hs with
      | null => rfl
      | bool b => cases b <;> rfl
      | number hn => exact readValue_number (hn rest hrest) fuel
      | string s => exact readValue_string fuel s rest
      | noItems => rfl
      | items hitems =>
          simp only [List.length_append, List.length_cons, List.length_nil] at hfuel
          rw [List.append_assoc]
          exact readValue_items (readItems_of_spells hitems fuel (by omega) rest)
      | noMembers => rfl
      | members hmembers =>
          simp only [List.length_append, List.length_cons, List.length_nil] at hfuel
          rw [List.append_assoc]
          exact readValue_members (readMembers_of_spells hmembers fuel (by omega) rest)

theorem readItems_of_spells
    {items : List Json} {s : List Char} (hs : SpellsItems items s) (fuel : ℕ)
    (hfuel : 2 * s.length + 1 ≤ fuel) (rest : List Char) :
    readItems fuel (s ++ ']' :: rest) = some (items, rest) := by
  cases fuel with
  | zero => omega
  | succ fuel =>
      cases hs with
      | last hbefore hitem hafter =>
          simp only [List.length_append] at hfuel
          have hread := readValue_of_spells hitem fuel (by omega)
            (ends_append hafter (.inr (.inl rfl)) rest)
          simp only [List.append_assoc]
          apply readItems_last hafter
          rwa [readValue_append hbefore]
      | @more _ _ _ _ _ t hbefore hitem hafter hitems =>
          simp only [List.length_append, List.length_cons] at hfuel
          have hread := readValue_of_spells hitem fuel (by omega)
            (ends_append hafter (.inl rfl) (t ++ ']' :: rest))
          simp only [List.append_assoc, List.cons_append]
          refine readItems_more hafter ?_ (readItems_of_spells hitems fuel (by omega) rest)
          rwa [readValue_append hbefore]

theorem readMembers_of_spells
    {members : List (Option String × Json)} {s : List Char} (hs : SpellsMembers members s)
    (fuel : ℕ) (hfuel : 2 * s.length + 1 ≤ fuel) (rest : List Char) :
    readMembers fuel (s ++ '\x7d' :: rest) = some (members, rest) := by
  cases fuel with
  | zero => omega
  | succ fuel =>
      cases hs with
      | last name hbefore hbetween hvalue hafter =>
          simp only [List.length_append, List.length_cons] at hfuel
          have hread := readValue_of_spells hvalue fuel (by omega)
            (ends_append hafter (.inr (.inr rfl)) rest)
          simp only [List.append_assoc, List.cons_append]
          rw [readMembers_append hbefore]
          apply readMembers_last hafter
          rwa [readValue_append hbetween]
      | @more name _ _ _ _ _ _ t hbefore hbetween hvalue hafter hmembers =>
          simp only [List.length_append, List.length_cons] at hfuel
          have hread := readValue_of_spells hvalue fuel (by omega)
            (ends_append hafter (.inl rfl) (t ++ '\x7d' :: rest))
          simp only [List.append_assoc, List.cons_append]
          rw [readMembers_append hbefore]
          refine readMembers_more hafter ?_ (readMembers_of_spells hmembers fuel (by omega) rest)
          rwa [readValue_append hbetween]

end

/-- A spelling is read back, with any blanks around it. -/
theorem parseChars_of_spells
    {document : Json} {s before after : List Char} (hs : Spells document s)
    (hbefore : Blank before) (hafter : Blank after) :
    parseChars (before ++ s ++ after) = some document := by
  have hread : readValue (2 * (before ++ s ++ after).length + 2) (before ++ s ++ after) =
      some (document, after) := by
    rw [List.append_assoc, readValue_append hbefore]
    apply readValue_of_spells hs _ _ (ends_of_blank hafter)
    simp only [List.length_append]
    omega
  unfold parseChars
  rw [hread]
  simp [skipSpace_of_blank hafter]

end FormCheck.Json
