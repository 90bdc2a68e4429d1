import FormCheck.Proofs.DocumentRoundTrip
import FormCheck.Proofs.RereadNumbers
import FormCheck.Submission.Json

/-!
# Submissions that are written and read again

Values are written as the members of an object, in any order and with names that
may repeat.  Texts and truth values come back as they were, whatever a text looks
like; a number comes back as what its text denotes.  A number that JSON cannot
express is written as `null`, which no value is read from, so it makes the whole
document unreadable, also where a later value of the same name replaces it.
-/

namespace FormCheck

/-! ## Lists of entries as maps -/

namespace FieldMap

variable {α : Type}

theorem ofList_append_singleton (entries : List (String × α)) (entry : String × α) :
    ofList (entries ++ [entry]) = (ofList entries).insert entry.1 entry.2 := by
  unfold ofList
  rw [List.foldl_append]
  rfl

/-- Each key stands where it occurs first. -/
theorem keys_ofList (entries : List (String × α)) :
    (ofList entries).keys = (entries.map Prod.fst).eraseDups := by
  induction entries using List.reverseRecOn with
  | nil => rfl
  | append_singleton entries entry ih =>
      rw [ofList_append_singleton, keys_insert, ih, List.map_append, List.eraseDups_append]
      by_cases hkey : entry.1 ∈ entries.map Prod.fst
      · simp [List.mem_eraseDups, hkey, List.removeAll]
      · simp [List.mem_eraseDups, hkey, List.removeAll, List.eraseDups_cons]

/-- Each key has the value that occurs last. -/
theorem get?_ofList (entries : List (String × α)) (key : String) :
    (ofList entries).get? key = entries.reverse.lookup key := by
  induction entries using List.reverseRecOn with
  | nil => rfl
  | append_singleton entries entry ih =>
      rw [ofList_append_singleton, get?_insert, ih, List.reverse_append, List.reverse_singleton,
        List.singleton_append, List.lookup_cons]
      by_cases hkey : key = entry.1
      · simp [hkey]
      · rw [if_neg hkey, beq_eq_false_iff_ne.mpr hkey]

theorem lookup_map_snd {β : Type} (f : α → β) (entries : List (String × α)) (key : String) :
    (entries.map fun entry => (entry.1, f entry.2)).lookup key = (entries.lookup key).map f := by
  induction entries with
  | nil => rfl
  | cons entry rest ih =>
      rw [List.map_cons, List.lookup_cons, List.lookup_cons, ih]
      cases key == entry.1 <;> rfl

end FieldMap

/-! ## Values -/

namespace Value

/-- Whether a document can express a value: only the infinities and `nan` have no text. -/
def isFinite : Value → Bool
  | .number (.finite _ _) => true
  | .number _ => false
  | _ => true

/-- The value as which a written value is read. -/
def reread : Value → Value
  | .number n => .number n.reread
  | value => value

end Value

namespace Json

/-- The document as which a written value is read. -/
def reread : Json → Json
  | .number (.finite negative magnitude) => .number (Number.finite negative magnitude).reread
  | .number _ => .null
  | document => document

theorem spells_reread_toJson (value : Value) :
    Spells value.toJson.reread value.toJson.compactChars := by
  cases value with
  | bool b =>
      rw [Value.toJson, compactChars]
      exact .bool b
  | number n =>
      rw [Value.toJson, compactChars]
      cases n with
      | nan => exact .null
      | infinite negative => exact .null
      | finite negative magnitude => exact .number (readsAs_numberText negative magnitude)
  | text s =>
      rw [Value.toJson, text, compactChars]
      exact .string s

theorem prettyChars_toJson (value : Value) (level : ℕ) :
    value.toJson.prettyChars level = value.toJson.compactChars := by
  cases value <;> simp [Value.toJson, text, compactChars, prettyChars]

theorem prettyChars_object
    {members : List (Option String × Json)} (hnonempty : members ≠ []) (level : ℕ) :
    (Json.object members).prettyChars level =
      '\x7b' :: (prettyMembers (level + 1) members ++ lineBreak level) ++ ['\x7d'] := by
  cases members with
  | nil => exact absurd rfl hnonempty
  | cons member rest =>
      rw [prettyChars]
      simp

end Json

/-! ## Submissions -/

namespace Submission

variable {entries : List (String × Value)}

/-- Keys and values as an object, in the given order. -/
def object (entries : List (String × Value)) : Json :=
  .record (entries.map fun entry => (entry.1, entry.2.toJson))

/-- The object as which a written object is read. -/
def rereadObject (entries : List (String × Value)) : Json :=
  .object (entries.map fun entry => (some entry.1, entry.2.toJson.reread))

theorem spells_compactChars (entries : List (String × Value)) :
    (rereadObject entries).Spells (object entries).compactChars := by
  unfold rereadObject object Json.record
  rw [Json.compactChars]
  by_cases hempty : entries = []
  · rw [hempty]
    exact .noMembers
  · have hnonempty : (entries.map fun entry => (entry.1, entry.2.toJson)) ≠ [] :=
      mt List.map_eq_nil_iff.mp hempty
    have hmembers := Json.spellsMembers_compactMembers Json.reread hnonempty
      (List.forall_mem_map.mpr fun entry _ => Json.spells_reread_toJson entry.2)
    rw [List.map_map] at hmembers
    exact .members hmembers

theorem spells_prettyChars (entries : List (String × Value)) :
    (rereadObject entries).Spells ((object entries).prettyChars 0) := by
  unfold rereadObject object Json.record
  by_cases hempty : entries = []
  · rw [hempty]
    exact .noMembers
  · have hnonempty : (entries.map fun entry => (entry.1, entry.2.toJson)) ≠ [] :=
      mt List.map_eq_nil_iff.mp hempty
    have hvalue : ∀ entry : String × Value,
        entry.2.toJson.reread.Spells (entry.2.toJson.prettyChars 1) := by
      intro entry
      rw [Json.prettyChars_toJson]
      exact Json.spells_reread_toJson entry.2
    have hmembers := Json.spellsMembers_prettyMembers Json.reread hnonempty
      (List.forall_mem_map.mpr fun entry _ => hvalue entry) (Json.blank_lineBreak 0)
    rw [List.map_map] at hmembers
    rw [Json.prettyChars_object (mt List.map_eq_nil_iff.mp hnonempty)]
    exact .members hmembers

theorem parse?_compact (entries : List (String × Value)) :
    Json.parse? (object entries).compact = some (rereadObject entries) := by
  have hread :=
    Json.parseChars_of_spells (spells_compactChars entries) Json.blank_nil Json.blank_nil
  simpa [Json.parse?, Json.compact] using hread

theorem parse?_pretty (entries : List (String × Value)) :
    Json.parse? (object entries).pretty = some (rereadObject entries) := by
  have hread :=
    Json.parseChars_of_spells (spells_prettyChars entries) Json.blank_nil Json.blank_nil
  simpa [Json.parse?, Json.pretty] using hread

theorem ofJson?_reread (value : Value) :
    Value.ofJson? value.toJson.reread = if value.isFinite then some value.reread else none := by
  cases value with
  | bool b => rfl
  | number n =>
      cases n with
      | nan => rfl
      | infinite negative => rfl
      | finite negative magnitude =>
          have hread := Number.reread_finite negative magnitude
          simp only [Value.toJson, Json.reread, Value.isFinite, Value.reread, hread, if_true]
          rfl
  | text s => rfl

theorem entry?_reread (entry : String × Value) :
    entry? (some entry.1, entry.2.toJson.reread) =
      if entry.2.isFinite then some (entry.1, entry.2.reread) else none := by
  have hvalue := ofJson?_reread entry.2
  unfold entry?
  simp only [hvalue]
  cases entry.2.isFinite <;> rfl

/-- All values have to be readable, also those that a later value replaces. -/
theorem mapM_entry?_reread (entries : List (String × Value)) :
    (entries.map fun entry => (some entry.1, entry.2.toJson.reread)).mapM entry? =
      if entries.all fun entry => entry.2.isFinite then
        some (entries.map fun entry => (entry.1, entry.2.reread))
      else none := by
  induction entries with
  | nil => rfl
  | cons entry rest ih =>
      rw [List.map_cons, List.mapM_cons, entry?_reread, ih, List.all_cons]
      cases entry.2.isFinite with
      | false => rfl
      | true => cases rest.all fun entry => entry.2.isFinite <;> rfl

theorem ofJson?_rereadObject (entries : List (String × Value)) :
    ofJson? (rereadObject entries) =
      if entries.all fun entry => entry.2.isFinite then
        some (.ofList (entries.map fun entry => (entry.1, entry.2.reread)))
      else none := by
  have hmembers := mapM_entry?_reread entries
  unfold ofJson? rereadObject
  simp only
  rw [hmembers]
  split <;> rfl

/-- What is decoded from a written object. -/
structure ReadBackFrom (entries : List (String × Value)) (decoded : Option Submission) : Prop where
  eq_none_iff : decoded = none ↔ ∃ entry ∈ entries, entry.2.isFinite = false
  keys_eq : ∀ submission ∈ decoded, submission.keys = (entries.map Prod.fst).eraseDups
  get?_eq : ∀ submission ∈ decoded, ∀ key,
    submission.get? key = (entries.reverse.lookup key).map Value.reread

theorem readBackFrom_ofJson? (entries : List (String × Value)) :
    ReadBackFrom entries (ofJson? (rereadObject entries)) := by
  rw [ofJson?_rereadObject]
  by_cases hfinite : entries.all (fun entry => entry.2.isFinite) = true
  · rw [if_pos hfinite]
    refine ⟨?_, ?_, ?_⟩
    · simpa using hfinite
    · intro submission hsubmission
      rw [← Option.some.inj hsubmission, FieldMap.keys_ofList, List.map_map]
      rfl
    · intro submission hsubmission key
      rw [← Option.some.inj hsubmission, FieldMap.get?_ofList, ← List.map_reverse,
        FieldMap.lookup_map_snd]
  · rw [if_neg hfinite]
    refine ⟨?_, ?_, ?_⟩
    · simpa using hfinite
    · intro submission hsubmission
      cases hsubmission
    · intro submission hsubmission
      cases hsubmission

/-- Keys and values that are written as an object, in compact or in pretty form, are read as the
map in which each key stands at its first place and has its last value.  Truth values and texts
come back as they were.  A finite number comes back with its sign, as what the evaluation of its
digits in steps gives: a few places away at most, and as it was when its text has few digits and a
small power of ten.  The other numbers are written as `null`, and the document is refused. -/
theorem read_back_from_object (entries : List (String × Value)) :
    ReadBackFrom entries ((Json.parse? (object entries).compact).bind ofJson?) ∧
    ReadBackFrom entries ((Json.parse? (object entries).pretty).bind ofJson?) ∧
    (∀ value : Value, value.isFinite = false →
      value.toJson.compact = "null" ∧ value.toJson.pretty = "null") ∧
    ∀ (negative : Bool) (magnitude : Fin Number.magnitudeCount),
      ∃ nearby : Fin Number.magnitudeCount,
        (Number.finite negative magnitude).reread = .finite negative nearby ∧
        (nearby : ℕ) = (Number.written negative magnitude).scaledRank ∧
        (Number.written negative magnitude).nearestRank = magnitude ∧
        Number.WithinPlaces 8 nearby magnitude ∧
        ((Number.written negative magnitude).digits ≤ 2 ^ 53 →
          (Number.written negative magnitude).exponent.natAbs ≤ 22 → nearby = magnitude) := by
  have hread := readBackFrom_ofJson? entries
  refine ⟨?_, ?_, ?_, ?_⟩
  · rw [parse?_compact]
    exact hread
  · rw [parse?_pretty]
    exact hread
  · intro value hvalue
    cases value with
    | bool b => cases hvalue
    | text s => cases hvalue
    | number n =>
        cases n with
        | nan => exact ⟨rfl, rfl⟩
        | infinite negative => exact ⟨rfl, rfl⟩
        | finite negative magnitude => cases hvalue
  · intro negative magnitude
    exact ⟨Number.rereadMagnitude negative magnitude, Number.reread_finite negative magnitude, rfl,
      Number.nearestRank_written negative magnitude,
      Number.scaledRank_written_close negative magnitude.isLt, Number.rereadMagnitude_eq⟩

theorem reread_greatest_odd :
    (Value.number (.ofInt 9007199254740991)).reread = .number (.ofInt 9007199254740990) := by
  decide +kernel

/-- Not every finite number comes back as it was: the greatest odd whole number does not. -/
theorem not_every_number_kept :
    ¬ ∀ entries : List (String × Value), (∀ entry ∈ entries, entry.2.isFinite = true) →
      ∃ submission, (Json.parse? (object entries).compact).bind ofJson? = some submission ∧
        ∀ key, submission.get? key = entries.reverse.lookup key := by
  intro hkept
  obtain ⟨submission, hsubmission, hvalue⟩ :=
    hkept [("a", .number (.ofInt 9007199254740991))] (by decide +kernel)
  have hread := readBackFrom_ofJson? [("a", .number (.ofInt 9007199254740991))]
  rw [parse?_compact, Option.bind_some] at hsubmission
  have hreread := hread.get?_eq submission hsubmission "a"
  rw [hvalue "a"] at hreread
  have hsame : some (Value.number (.ofInt 9007199254740991)) =
      some (Value.number (.ofInt 9007199254740991)).reread := hreread
  rw [reread_greatest_odd] at hsame
  exact absurd hsame (by decide +kernel)

end Submission

end FormCheck
