import FormCheck.Proofs.RuleTextRoundTrip

/-!
# Which rules can be written without loss

Writing joins the segments of a clause with colons and the clauses of a field
with bars, and nothing is escaped.  Rules are read back as they were exactly if
there is a clause and no name and no argument holds one of the separators.
Whatever else is written, a field without clauses or a clause with a separator
inside, is read as other rules, since reading never gives such rules.
-/

namespace FormCheck

/-- A joined list holds characters of the pieces and the separator. -/
theorem mem_of_mem_intercalate
    {α : Type} {separator c : α} {pieces : List (List α)}
    (hc : c ∈ [separator].intercalate pieces) :
    c = separator ∨ ∃ piece ∈ pieces, c ∈ piece := by
  induction pieces with
  | nil => simp at hc
  | cons piece rest ih =>
      cases rest with
      | nil =>
          rw [List.intercalate_singleton] at hc
          exact Or.inr ⟨piece, List.mem_cons_self, hc⟩
      | cons next others =>
          rw [List.intercalate_cons_cons, List.mem_append, List.mem_append,
            List.mem_singleton] at hc
          rcases hc with (hpiece | hseparator) | hrest
          · exact Or.inr ⟨piece, List.mem_cons_self, hpiece⟩
          · exact Or.inl hseparator
          · rcases ih hrest with hseparator | ⟨other, hother, hmem⟩
            · exact Or.inl hseparator
            · exact Or.inr ⟨other, List.mem_cons_of_mem piece hother, hmem⟩

namespace Clause

theorem eq_of_segments_eq {clause other : Clause}
    (hsegments : clause.segments = other.segments) : clause = other := by
  obtain ⟨name, args⟩ := clause
  obtain ⟨otherName, otherArgs⟩ := other
  obtain ⟨rfl, rfl⟩ := List.cons.inj hsegments
  rfl

theorem parse_text
    {clause : Clause} (hcolon : ∀ segment ∈ clause.segments, separator ∉ segment.toList) :
    parse clause.text = clause := by
  have hpieces : ∀ piece ∈ clause.segments.map String.toList, separator ∉ piece := by
    intro piece hpiece
    obtain ⟨segment, hsegment, rfl⟩ := List.mem_map.mp hpiece
    exact hcolon segment hsegment
  have hnonempty : clause.segments.map String.toList ≠ [] := by
    simp [segments]
  apply eq_of_segments_eq
  rw [segments_parse]
  unfold text
  rw [String.toList_ofList, List.splitOn_intercalate separator hpieces hnonempty, List.map_map]
  simp [Function.comp_def]

theorem bar_not_mem_text {clause : Clause} (hplain : clause.Plain) :
    RuleList.separator ∉ clause.text.toList := by
  intro hbar
  unfold text at hbar
  rw [String.toList_ofList] at hbar
  rcases mem_of_mem_intercalate hbar with hcolon | ⟨piece, hpiece, hmem⟩
  · exact absurd hcolon (by decide)
  · obtain ⟨segment, hsegment, rfl⟩ := List.mem_map.mp hpiece
    exact (hplain segment hsegment).2 hmem

end Clause

namespace RuleList

theorem parse_text {rules : RuleList} (hreadable : Readable rules) :
    parse (text rules) = rules := by
  have hpieces : ∀ piece ∈ rules.map (fun clause => clause.text.toList), separator ∉ piece := by
    intro piece hpiece
    obtain ⟨clause, hclause, rfl⟩ := List.mem_map.mp hpiece
    exact Clause.bar_not_mem_text (hreadable.plain clause hclause)
  have hnonempty : rules.map (fun clause => clause.text.toList) ≠ [] := by
    rw [ne_eq, List.map_eq_nil_iff]
    exact hreadable.nonempty
  have hclauses : ∀ clause ∈ rules, Clause.parse clause.text = clause := by
    intro clause hclause
    exact Clause.parse_text fun segment hsegment =>
      (hreadable.plain clause hclause segment hsegment).1
  unfold parse text
  rw [String.toList_ofList, List.splitOn_intercalate separator hpieces hnonempty, List.map_map]
  simpa [Function.comp_def] using List.map_congr_left hclauses

theorem parse_text_iff (rules : RuleList) : parse (text rules) = rules ↔ Readable rules := by
  constructor
  · intro hsame
    rw [← hsame]
    exact readable_parse (text rules)
  · exact parse_text

theorem readable_iff (rules : RuleList) :
    Readable rules ↔
      rules ≠ [] ∧ ∀ clause ∈ rules, ∀ segment ∈ clause.name :: clause.args,
        '|' ∉ segment.toList ∧ ':' ∉ segment.toList := by
  constructor
  · intro hreadable
    refine ⟨hreadable.nonempty, ?_⟩
    intro clause hclause segment hsegment
    exact (hreadable.plain clause hclause segment hsegment).symm
  · rintro ⟨hnonempty, hplain⟩
    refine ⟨hnonempty, ?_⟩
    intro clause hclause segment hsegment
    exact (hplain clause hclause segment hsegment).symm

end RuleList

namespace RuleMap

theorem parse_texts_iff (rules : RuleMap) :
    parse (texts rules) = rules ↔ ∀ entry ∈ rules.entries, RuleList.Readable entry.2 := by
  constructor
  · intro hsame entry hentry
    rw [← hsame] at hentry
    exact readable_of_mem_parse hentry
  · intro hreadable
    apply FieldMap.ext
    simp only [parse, texts, FieldMap.entries_map, List.map_map]
    refine (List.map_congr_left ?_).trans (List.map_id _)
    intro entry hentry
    simp [RuleList.parse_text (hreadable entry hentry)]

/-- What is written is read back exactly if there is a clause and no separator in
a name or in an argument, and the rules of a form exactly if this holds of every
field. -/
theorem read_back_iff :
    (∀ rules : RuleList, RuleList.parse (RuleList.text rules) = rules ↔
      rules ≠ [] ∧ ∀ clause ∈ rules, ∀ segment ∈ clause.name :: clause.args,
        '|' ∉ segment.toList ∧ ':' ∉ segment.toList) ∧
    ∀ rules : RuleMap, parse (texts rules) = rules ↔
      ∀ entry ∈ rules.entries,
        entry.2 ≠ [] ∧ ∀ clause ∈ entry.2, ∀ segment ∈ clause.name :: clause.args,
          '|' ∉ segment.toList ∧ ':' ∉ segment.toList := by
  constructor
  · intro rules
    rw [RuleList.parse_text_iff, RuleList.readable_iff]
  · intro rules
    rw [parse_texts_iff]
    simp only [RuleList.readable_iff]

-- A bar in an argument makes one clause two.
example :
    RuleList.parse (RuleList.text [⟨"notIn", ["a|b"]⟩]) = [⟨"notIn", ["a"]⟩, ⟨"b", []⟩] := by
  rfl

end RuleMap

end FormCheck
