import FormCheck.Check.Report.Json
import FormCheck.Proofs.JsonSpelling
import FormCheck.Rule.Clause.Json

/-!
# Documents that are read back

The compact form and the pretty form of a document are spellings of it, if its
strings denote texts and its numbers are read back.  So what is written as a
record is read back from either form.
-/

namespace FormCheck

namespace Json

/-! ## Written documents -/

/-- A document whose strings and names all denote texts and whose numbers are all read back. -/
inductive Legible : Json → Prop where
  | null : Legible .null
  | bool (b : Bool) : Legible (.bool b)
  | number {n : Number} (hn : ReadsAs (numberText n) n) : Legible (.number n)
  | text (s : String) : Legible (.text s)
  | array {items : List Json} (hitems : ∀ item ∈ items, Legible item) : Legible (.array items)
  | record {members : List (String × Json)} (hvalues : ∀ member ∈ members, Legible member.2) :
      Legible (.record members)

/-- Items that are written one after the other, with commas between them and the same
blanks before each. -/
theorem spellsItems_of_joined
    {write : Json → List Char} {joined : List Json → List Char} {before after : List Char}
    (hlast : ∀ item, joined [item] = before ++ write item)
    (hmore : ∀ item next rest, joined (item :: next :: rest) =
      before ++ write item ++ ',' :: joined (next :: rest))
    (hbefore : Blank before) (hafter : Blank after)
    {items : List Json} (hnonempty : items ≠ [])
    (hitems : ∀ item ∈ items, Spells item (write item)) :
    SpellsItems items (joined items ++ after) := by
  induction items with
  | nil => exact absurd rfl hnonempty
  | cons item rest ih =>
      have hitem := hitems item List.mem_cons_self
      cases rest with
      | nil =>
          rw [hlast]
          exact .last hbefore hitem hafter
      | cons next rest =>
          have hrest := ih (List.cons_ne_nil next rest)
            fun other hother => hitems other (List.mem_cons_of_mem item hother)
          have hspells := SpellsItems.more hbefore hitem blank_nil hrest
          rw [hmore]
          simpa using hspells

/-- Members that are written one after the other.  What is spelled can differ from what is
written: the value `read value` is spelled where `value` is written. -/
theorem spellsMembers_of_joined
    (read : Json → Json) {write : Json → List Char}
    {joined : List (Option String × Json) → List Char}
    {before between after : List Char}
    (hlast : ∀ name value, joined [(name, value)] =
      before ++ stringText name ++ ':' :: (between ++ write value))
    (hmore : ∀ name value next rest, joined ((name, value) :: next :: rest) =
      before ++ stringText name ++ ':' :: (between ++ write value ++ ',' :: joined (next :: rest)))
    (hbefore : Blank before) (hbetween : Blank between) (hafter : Blank after)
    {members : List (String × Json)} (hnonempty : members ≠ [])
    (hvalues : ∀ member ∈ members, Spells (read member.2) (write member.2)) :
    SpellsMembers (members.map fun member => (some member.1, read member.2))
      (joined (members.map fun member => (some member.1, member.2)) ++ after) := by
  induction members with
  | nil => exact absurd rfl hnonempty
  | cons member rest ih =>
      have hvalue := hvalues member List.mem_cons_self
      cases rest with
      | nil =>
          have hspells := SpellsMembers.last member.1 hbefore hbetween hvalue hafter
          rw [List.map_singleton, List.map_singleton, hlast]
          simpa using hspells
      | cons next rest =>
          have hrest := ih (List.cons_ne_nil next rest)
            fun other hother => hvalues other (List.mem_cons_of_mem member hother)
          have hspells :=
            SpellsMembers.more member.1 hbefore hbetween hvalue blank_nil hrest
          simp only [List.map_cons] at hspells ⊢
          rw [hmore]
          simpa using hspells

theorem spellsItems_compactItems
    {items : List Json} (hnonempty : items ≠ [])
    (hitems : ∀ item ∈ items, Spells item item.compactChars) :
    SpellsItems items (compactItems items) := by
  rw [← List.append_nil (compactItems items)]
  apply spellsItems_of_joined _ _ blank_nil blank_nil hnonempty hitems
  · intro item
    simp [compactItems]
  · intro item next rest
    simp [compactItems]

theorem spellsMembers_compactMembers
    (read : Json → Json) {members : List (String × Json)} (hnonempty : members ≠ [])
    (hvalues : ∀ member ∈ members, Spells (read member.2) member.2.compactChars) :
    SpellsMembers (members.map fun member => (some member.1, read member.2))
      (compactMembers (members.map fun member => (some member.1, member.2))) := by
  rw [← List.append_nil (compactMembers _)]
  apply spellsMembers_of_joined read _ _ blank_nil blank_nil blank_nil hnonempty hvalues
  · intro name value
    simp [compactMembers, compactMember]
  · intro name value next rest
    simp [compactMembers, compactMember]

theorem spells_compactChars {document : Json} (hlegible : Legible document) :
    Spells document document.compactChars := by
  induction hlegible with
  | null =>
      rw [compactChars]
      exact .null
  | bool b =>
      rw [compactChars]
      exact .bool b
  | number hn =>
      rw [compactChars]
      exact .number hn
  | text s =>
      rw [text, compactChars]
      exact .string s
  | @array items _ ih =>
      rw [compactChars]
      by_cases hempty : items = []
      · rw [hempty]
        exact .noItems
      · exact .items (spellsItems_compactItems hempty ih)
  | @record members _ ih =>
      rw [record, compactChars]
      by_cases hempty : members = []
      · rw [hempty]
        exact .noMembers
      · exact .members (spellsMembers_compactMembers id hempty ih)

theorem blank_lineBreak (level : ℕ) : Blank (lineBreak level) := by
  intro c hc
  rw [lineBreak, List.mem_cons, List.mem_replicate] at hc
  cases hc with
  | inl hbreak =>
      rw [hbreak]
      rfl
  | inr hspace =>
      rw [hspace.2]
      rfl

theorem blank_space : Blank [' '] := by
  intro c hc
  rw [List.mem_singleton.mp hc]
  rfl

theorem spellsItems_prettyItems
    {items : List Json} {level : ℕ} {after : List Char} (hnonempty : items ≠ [])
    (hitems : ∀ item ∈ items, Spells item (item.prettyChars level)) (hafter : Blank after) :
    SpellsItems items (prettyItems level items ++ after) := by
  apply spellsItems_of_joined _ _ (blank_lineBreak level) hafter hnonempty hitems
  · intro item
    rw [prettyItems]
  · intro item next rest
    rw [prettyItems]
    exact List.cons_ne_nil next rest

theorem spellsMembers_prettyMembers
    (read : Json → Json) {members : List (String × Json)} {level : ℕ} {after : List Char}
    (hnonempty : members ≠ [])
    (hvalues : ∀ member ∈ members, Spells (read member.2) (member.2.prettyChars level))
    (hafter : Blank after) :
    SpellsMembers (members.map fun member => (some member.1, read member.2))
      (prettyMembers level (members.map fun member => (some member.1, member.2)) ++ after) := by
  apply spellsMembers_of_joined read _ _ (blank_lineBreak level) blank_space hafter hnonempty
    hvalues
  · intro name value
    simp [prettyMembers, prettyMember]
  · intro name value next rest
    simp [prettyMembers, prettyMember]

theorem spells_prettyChars {document : Json} (hlegible : Legible document) (level : ℕ) :
    Spells document (document.prettyChars level) := by
  induction hlegible generalizing level with
  | null =>
      rw [prettyChars]
      exact .null
  | bool b =>
      rw [prettyChars]
      exact .bool b
  | number hn =>
      rw [prettyChars]
      exact .number hn
  | text s =>
      rw [text, prettyChars]
      exact .string s
  | @array items _ ih =>
      cases items with
      | nil =>
          rw [prettyChars]
          exact .noItems
      | cons item rest =>
          have hitems := spellsItems_prettyItems (List.cons_ne_nil item rest)
            (fun other hother => ih other hother (level + 1)) (blank_lineBreak level)
          rw [prettyChars]
          exact .items hitems
  | @record members _ ih =>
      cases members with
      | nil =>
          rw [record, List.map_nil, prettyChars]
          exact .noMembers
      | cons member rest =>
          have hmembers := spellsMembers_prettyMembers id (List.cons_ne_nil member rest)
            (fun other hother => ih other hother (level + 1)) (blank_lineBreak level)
          rw [record, List.map_cons, prettyChars]
          exact .members hmembers

theorem parse?_compact {document : Json} (hlegible : Legible document) :
    parse? document.compact = some document := by
  have hread := parseChars_of_spells (spells_compactChars hlegible) blank_nil blank_nil
  simpa [parse?, compact] using hread

/-- A document in pretty form is read back, also from a text that goes on with blanks. -/
theorem parse?_pretty_append
    {document : Json} (hlegible : Legible document) {blanks : String}
    (hblanks : Blank blanks.toList) : parse? (document.pretty ++ blanks) = some document := by
  have hread := parseChars_of_spells (spells_prettyChars hlegible 0) blank_nil hblanks
  simpa [parse?, pretty] using hread

theorem parse?_pretty {document : Json} (hlegible : Legible document) :
    parse? document.pretty = some document := by
  have hread : parse? (document.pretty ++ "") = some document :=
    parse?_pretty_append hlegible blank_nil
  rwa [String.append_empty] at hread

/-! ## Lists of texts -/

theorem mapM_map_of_read
    {α β : Type} {write : α → β} {read : β → Option α}
    (hread : ∀ item, read (write item) = some item) (items : List α) :
    (items.map write).mapM read = some items := by
  induction items with
  | nil => rfl
  | cons item rest ih => simp [hread, ih]

theorem texts?_texts (items : List String) : (texts items).texts? = some items := by
  have hread : ∀ s, (text s).text? = some s := fun _ => rfl
  exact mapM_map_of_read hread items

theorem legible_texts (items : List String) : Legible (texts items) := by
  refine .array fun item hitem => ?_
  obtain ⟨s, -, rfl⟩ := List.mem_map.mp hitem
  exact .text s

end Json

/-! ## Clauses -/

namespace Clause

theorem ofJson?_toJson (clause : Clause) : ofJson? clause.toJson = some clause := by
  have hargs := Json.texts?_texts clause.args
  have hmembers : args? [(some "name", .text clause.name), (some "args", .texts clause.args)] =
      some clause.args := hargs
  simp only [toJson, Json.record, List.map_cons, List.map_nil, ofJson?]
  change ((args? _).bind fun args => some { name := clause.name, args }) = some clause
  rw [hmembers]
  rfl

theorem legible_toJson (clause : Clause) : clause.toJson.Legible := by
  have hargs := Json.legible_texts clause.args
  exact .record (List.forall_mem_cons.mpr
    ⟨.text clause.name, List.forall_mem_singleton.mpr hargs⟩)

end Clause

/-! ## Reports -/

namespace FieldErrors

theorem ofJson?_toJson (errors : FieldErrors) : ofJson? errors.toJson = some errors := by
  have hparts : ofParts? (.text errors.key) (.texts errors.failed) = some errors := by
    simp [ofParts?, Json.texts?_texts, Json.text, Json.text?]
  exact hparts

theorem legible_toJson (errors : FieldErrors) : errors.toJson.Legible := by
  have hfailed := Json.legible_texts errors.failed
  exact .record (List.forall_mem_cons.mpr
    ⟨.text errors.key, List.forall_mem_singleton.mpr hfailed⟩)

end FieldErrors

namespace Report

theorem ofJson?_toJson (report : Report) : ofJson? report.toJson = some report := by
  have hitems := Json.mapM_map_of_read FieldErrors.ofJson?_toJson report.errors
  have hparts : ofParts? (.bool report.valid) (.array (report.errors.map FieldErrors.toJson)) =
      some report := by
    simp [ofParts?, Json.bool?, Json.items?, hitems]
  exact hparts

theorem legible_toJson (report : Report) : report.toJson.Legible := by
  have hitems : (Json.array (report.errors.map FieldErrors.toJson)).Legible := by
    refine .array fun item hitem => ?_
    obtain ⟨errors, -, rfl⟩ := List.mem_map.mp hitem
    exact errors.legible_toJson
  exact .record (List.forall_mem_cons.mpr
    ⟨.bool report.valid, List.forall_mem_singleton.mpr hitems⟩)

/-- A printed report, with the line break at its end, is read back. -/
theorem parse?_printed (report : Report) :
    (Json.parse? (report.toJson.pretty ++ "\n")).bind ofJson? = some report := by
  have hbreak : Json.Blank "\n".toList := Json.blank_lineBreak 0
  rw [Json.parse?_pretty_append report.legible_toJson hbreak, Option.bind_some, ofJson?_toJson]

/-- A report is read back from its compact form and from its pretty form, and so is a clause,
whatever the characters of its texts are. -/
theorem read_back_from_both_forms :
    (∀ report : Report,
      (Json.parse? report.toJson.compact).bind Report.ofJson? = some report ∧
      (Json.parse? report.toJson.pretty).bind Report.ofJson? = some report) ∧
    ∀ clause : Clause,
      (Json.parse? clause.toJson.compact).bind Clause.ofJson? = some clause ∧
      (Json.parse? clause.toJson.pretty).bind Clause.ofJson? = some clause := by
  constructor
  · intro report
    rw [Json.parse?_compact report.legible_toJson, Json.parse?_pretty report.legible_toJson]
    exact ⟨report.ofJson?_toJson, report.ofJson?_toJson⟩
  · intro clause
    rw [Json.parse?_compact clause.legible_toJson, Json.parse?_pretty clause.legible_toJson]
    exact ⟨clause.ofJson?_toJson, clause.ofJson?_toJson⟩

end Report

end FormCheck
