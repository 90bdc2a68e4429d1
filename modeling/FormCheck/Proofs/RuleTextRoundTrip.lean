import FormCheck.Rule.RuleMap
import Mathlib.Tactic.Common

/-!
# Rule texts are read without loss

Reading a rule text cuts it at its bars and the pieces at their colons, and
writing joins the pieces again.  So writing what was read gives back the text,
character for character, also where it is malformed.  What is read has at least
one clause, and no separator is left in a name or in an argument.  Nothing is left
out, either: every bar of the text ends a clause and every colon starts an
argument, empty ones included.
-/

namespace FormCheck

/-! ## The pieces of a split list -/

/-- The pieces of a split list hold characters of the list, and no separator. -/
theorem mem_of_mem_piece
    {α : Type} [BEq α] [LawfulBEq α] {separator c : α} {s piece : List α}
    (hpiece : piece ∈ s.splitOn separator) (hc : c ∈ piece) :
    c ∈ s ∧ c ≠ separator := by
  induction s generalizing piece with
  | nil =>
      rw [List.splitOn_nil, List.mem_singleton] at hpiece
      subst piece
      simp at hc
  | cons d rest ih =>
      rw [List.splitOn_cons_eq_if_modifyHead] at hpiece
      by_cases hd : d = separator
      · rw [if_pos (by simpa using hd), List.mem_cons] at hpiece
        rcases hpiece with rfl | hrest
        · simp at hc
        · have hmem := ih hrest hc
          exact ⟨List.mem_cons_of_mem d hmem.1, hmem.2⟩
      · rw [if_neg (by simpa using hd)] at hpiece
        obtain ⟨first, others, hsplit⟩ :=
          List.exists_cons_of_ne_nil (List.splitOn_ne_nil separator rest)
        rw [hsplit, List.modifyHead_cons, List.mem_cons] at hpiece
        rcases hpiece with rfl | hother
        · rcases List.mem_cons.mp hc with rfl | hfirst
          · exact ⟨List.mem_cons_self, hd⟩
          · have hmem := ih (by rw [hsplit]; exact List.mem_cons_self) hfirst
            exact ⟨List.mem_cons_of_mem d hmem.1, hmem.2⟩
        · have hmem := ih (by rw [hsplit]; exact List.mem_cons_of_mem first hother) hc
          exact ⟨List.mem_cons_of_mem d hmem.1, hmem.2⟩

/-- Every separator makes one more piece, also where pieces are empty. -/
theorem length_splitOn
    {α : Type} [BEq α] [LawfulBEq α] (separator : α) (s : List α) :
    (s.splitOn separator).length = s.count separator + 1 := by
  induction s with
  | nil => simp
  | cons c rest ih =>
      rw [List.splitOn_cons_eq_if_modifyHead, List.count_cons]
      split
      · rw [List.length_cons, ih]
      · rw [List.length_modifyHead, ih, Nat.add_zero]

/-! ## Clauses -/

namespace Clause

theorem segments_parse (text : String) :
    (parse text).segments =
      (text.toList.splitOn separator).map String.ofList := by
  obtain ⟨first, others, hsplit⟩ :=
    List.exists_cons_of_ne_nil (List.splitOn_ne_nil separator text.toList)
  simp [parse, segments, hsplit]

theorem text_parse (text : String) : (parse text).text = text := by
  have hmap : (parse text).segments.map String.toList =
      text.toList.splitOn separator := by
    rw [segments_parse, List.map_map]
    simp [Function.comp_def]
  unfold Clause.text
  rw [hmap, List.intercalate_splitOn, String.ofList_toList]

theorem length_args_parse (text : String) :
    (parse text).args.length = text.toList.count separator := by
  have hlength := congrArg List.length (segments_parse text)
  rw [List.length_map, length_splitOn, segments, List.length_cons] at hlength
  omega

/-- Neither the name nor an argument holds a separator. -/
def Plain (clause : Clause) : Prop :=
  ∀ segment ∈ clause.segments,
    separator ∉ segment.toList ∧ RuleList.separator ∉ segment.toList

theorem plain_parse {text : String} (hbar : RuleList.separator ∉ text.toList) :
    (parse text).Plain := by
  intro segment hmem
  rw [segments_parse] at hmem
  obtain ⟨piece, hpiece, rfl⟩ := List.mem_map.mp hmem
  rw [String.toList_ofList]
  constructor
  · intro hcolon
    exact (mem_of_mem_piece hpiece hcolon).2 rfl
  · intro hin
    exact hbar (mem_of_mem_piece hpiece hin).1

end Clause

/-! ## Rule lists -/

namespace RuleList

/-- A rule list that can be written without loss: there is a clause, and no
separator in a name or an argument. -/
structure Readable (rules : RuleList) : Prop where
  nonempty : rules ≠ []
  plain : ∀ clause ∈ rules, clause.Plain

theorem text_parse (text : String) : RuleList.text (parse text) = text := by
  have hpieces : (parse text).map (fun clause => clause.text.toList) =
      text.toList.splitOn separator := by
    unfold parse
    rw [List.map_map]
    simp [Function.comp_def, Clause.text_parse]
  unfold RuleList.text
  rw [hpieces, List.intercalate_splitOn, String.ofList_toList]

theorem readable_parse (text : String) : Readable (parse text) := by
  constructor
  · unfold parse
    rw [ne_eq, List.map_eq_nil_iff]
    exact List.splitOn_ne_nil separator text.toList
  · intro clause hmem
    obtain ⟨piece, hpiece, rfl⟩ := List.mem_map.mp hmem
    apply Clause.plain_parse
    rw [String.toList_ofList]
    intro hbar
    exact (mem_of_mem_piece hpiece hbar).2 rfl

theorem length_parse (text : String) :
    (parse text).length = text.toList.count separator + 1 := by
  unfold parse
  rw [List.length_map, length_splitOn]

theorem length_args_of_mem_parse
    {text : String} {clause : Clause} (hclause : clause ∈ parse text) :
    clause.args.length = clause.text.toList.count Clause.separator := by
  obtain ⟨piece, -, rfl⟩ := List.mem_map.mp hclause
  rw [Clause.text_parse, Clause.length_args_parse]

/-- Every text is written as it was read, so different texts are read as different
rules.  There is a clause for every bar and one more, and in each clause an argument
for every colon. -/
theorem every_text_kept :
    Function.Injective parse ∧
    ∀ given : String,
      text (parse given) = given ∧
      parse (text (parse given)) = parse given ∧
      (parse given).length = given.toList.count '|' + 1 ∧
      ∀ clause ∈ parse given,
        clause.args.length = clause.text.toList.count ':' := by
  constructor
  · intro given other hsame
    rw [← text_parse given, hsame, text_parse]
  · intro given
    refine ⟨text_parse given, ?_, length_parse given, ?_⟩
    · rw [text_parse]
    · intro clause hclause
      exact length_args_of_mem_parse hclause

-- Empty clauses and empty arguments are kept.
theorem empty_parts_kept :
    parse "|a:|" = [⟨"", []⟩, ⟨"a", [""]⟩, ⟨"", []⟩] ∧
    text (parse "|a:|") = "|a:|" ∧
    (⟨"a", [""]⟩ : Clause) ∈ parse "|a:|" ∧
    [""].length = (Clause.text ⟨"a", [""]⟩).toList.count ':' := by
  have hparse : parse "|a:|" = [⟨"", []⟩, ⟨"a", [""]⟩, ⟨"", []⟩] := by rfl
  have hmem : (⟨"a", [""]⟩ : Clause) ∈ parse "|a:|" := by
    rw [hparse]
    exact List.mem_cons_of_mem _ List.mem_cons_self
  have hkept := every_text_kept.2 "|a:|"
  exact ⟨hparse, hkept.1, hmem, hkept.2.2.2 _ hmem⟩

end RuleList

/-! ## Rules by field -/

namespace RuleMap

theorem texts_parse (given : RuleTexts) : texts (parse given) = given := by
  apply FieldMap.ext
  simp [texts, parse, Function.comp_def, RuleList.text_parse]

theorem parse_texts_parse (given : RuleTexts) :
    parse (texts (parse given)) = parse given := by
  rw [texts_parse]

theorem readable_of_mem_parse
    {given : RuleTexts} {entry : String × RuleList}
    (hmem : entry ∈ (parse given).entries) : RuleList.Readable entry.2 := by
  obtain ⟨field, -, rfl⟩ := List.mem_map.mp hmem
  exact RuleList.readable_parse field.2

end RuleMap

end FormCheck
