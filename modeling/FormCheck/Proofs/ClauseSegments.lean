import FormCheck.Proofs.WritableRules

/-!
# Segments of a clause

A clause is cut at its colons and nowhere else, so its segments can be pointed at in
the text: the name runs up to the first colon, each argument from its colon up to the
next one, and the last segment up to the end.  A single clause may hold bars.  It is
written as it was read, and it is read as it was given exactly if no segment holds a
colon.
-/

namespace FormCheck

/-! ## The piece after a number of separators -/

section Pieces

variable {α : Type} [BEq α] [LawfulBEq α]

theorem head?_splitOn (separator : α) (s : List α) :
    (s.splitOn separator).head? = some (s.takeWhile fun c => c != separator) := by
  induction s with
  | nil => simp
  | cons c rest ih =>
      rw [List.splitOn_cons_eq_if_modifyHead, List.takeWhile_cons]
      by_cases hc : c = separator
      · simp [hc]
      · simp [hc, ih]

/-- The piece after a separator has the number of the separators up to there. -/
theorem getElem?_splitOn_append (separator : α) (before rest : List α) :
    ((before ++ separator :: rest).splitOn separator)[before.count separator + 1]? =
      some (rest.takeWhile fun c => c != separator) := by
  rw [List.splitOn_append_cons_self, ← length_splitOn, List.getElem?_append_right (Nat.le_refl _),
    Nat.sub_self, ← List.head?_eq_getElem?, head?_splitOn]

theorem exists_append_of_lt_count {separator : α} {s : List α} {n : ℕ}
    (hn : n < s.count separator) :
    ∃ before rest, s = before ++ separator :: rest ∧ before.count separator = n := by
  induction s generalizing n with
  | nil => simp at hn
  | cons c s ih =>
      by_cases hc : c = separator
      · subst c
        cases n with
        | zero => exact ⟨[], s, rfl, rfl⟩
        | succ n =>
            rw [List.count_cons_self] at hn
            obtain ⟨before, rest, rfl, hcount⟩ := ih (Nat.lt_of_succ_lt_succ hn)
            exact ⟨separator :: before, rest, rfl, by rw [List.count_cons_self, hcount]⟩
      · rw [List.count_cons_of_ne hc] at hn
        obtain ⟨before, rest, rfl, hcount⟩ := ih hn
        exact ⟨c :: before, rest, rfl, by rw [List.count_cons_of_ne hc, hcount]⟩

end Pieces

namespace Clause

/-! ## Where the segments stand -/

/-- A text starts with a segment that ends at the first colon, or at the end if there is none. -/
def Opens (segment : String) (s : List Char) : Prop :=
  ∃ rest, s = segment.toList ++ rest ∧ ':' ∉ segment.toList ∧ ∀ c ∈ rest.head?, c = ':'

theorem opens_iff {segment : String} {s : List Char} :
    Opens segment s ↔ segment.toList = s.takeWhile fun c => c != separator := by
  constructor
  · rintro ⟨rest, rfl, hcolon, hend⟩
    have hkept : ∀ c ∈ segment.toList, (c != separator) = true := by
      intro c hc
      rw [bne_iff_ne]
      rintro rfl
      exact hcolon hc
    rw [List.takeWhile_append_of_pos hkept]
    cases rest with
    | nil => simp
    | cons c rest =>
        obtain rfl := hend c rfl
        simp [separator]
  · intro hsegment
    refine ⟨s.dropWhile fun c => c != separator, ?_, ?_, ?_⟩
    · rw [hsegment, List.takeWhile_append_dropWhile]
    · rw [hsegment]
      intro hcolon
      have hkept := List.all_eq_true.mp List.all_takeWhile ':' hcolon
      simp [separator] at hkept
    · intro c hc
      have hend := List.head?_dropWhile_not (fun c => c != separator) s
      rw [Option.mem_def.mp hc] at hend
      simpa [separator] using hend

theorem opens_name (text : String) : Opens (parse text).name text.toList := by
  rw [opens_iff]
  have hhead := congrArg List.head? (segments_parse text)
  rw [List.head?_map, head?_splitOn] at hhead
  rw [Option.some.inj hhead, String.toList_ofList]

theorem arg?_eq_none_iff (text : String) (index : ℕ) :
    (parse text).arg? index = none ↔ text.toList.count separator ≤ index := by
  rw [arg?, List.getElem?_eq_none_iff, length_args_parse]

/-- The argument of an index stands after one more colon than the index counts. -/
theorem arg?_of_append
    {text : String} {before rest : List Char} (htext : text.toList = before ++ separator :: rest) :
    (parse text).arg? (before.count separator) =
      some (String.ofList (rest.takeWhile fun c => c != separator)) := by
  have hsegment : (parse text).arg? (before.count separator) =
      (parse text).segments[before.count separator + 1]? := rfl
  rw [hsegment, segments_parse, List.getElem?_map, htext, getElem?_splitOn_append]
  rfl

theorem arg?_eq_some_iff (text : String) (index : ℕ) (arg : String) :
    (parse text).arg? index = some arg ↔
      ∃ before rest, text.toList = before ++ separator :: rest ∧
        before.count separator = index ∧ Opens arg rest := by
  constructor
  · intro harg
    have hcount : index < text.toList.count separator := by
      by_contra hbeyond
      rw [(arg?_eq_none_iff text index).mpr (Nat.le_of_not_lt hbeyond)] at harg
      cases harg
    obtain ⟨before, rest, htext, rfl⟩ := exists_append_of_lt_count hcount
    rw [arg?_of_append htext] at harg
    refine ⟨before, rest, htext, rfl, opens_iff.mpr ?_⟩
    rw [← Option.some.inj harg, String.toList_ofList]
  · rintro ⟨before, rest, htext, rfl, hopens⟩
    rw [arg?_of_append htext, ← opens_iff.mp hopens, String.ofList_toList]

/-! ## Reading and writing a single clause -/

theorem parse_text_iff (clause : Clause) :
    parse clause.text = clause ↔ ∀ segment ∈ clause.segments, separator ∉ segment.toList := by
  constructor
  · intro hsame segment hsegment hcolon
    rw [← hsame, segments_parse] at hsegment
    obtain ⟨piece, hpiece, rfl⟩ := List.mem_map.mp hsegment
    rw [String.toList_ofList] at hcolon
    exact (mem_of_mem_piece hpiece hcolon).2 rfl
  · exact parse_text

/-- A single clause is written as it was read, and has an argument for every colon, which runs
from there to the next colon or to the end.  A clause that was not read is read back exactly if
none of its segments holds a colon. -/
theorem single_clause_read_and_written :
    (∀ text : String,
      (parse text).text = text ∧
      (parse text).args.length = text.toList.count ':' ∧
      Opens (parse text).name text.toList ∧
      ∀ index : ℕ,
        ((parse text).arg? index = none ↔ text.toList.count ':' ≤ index) ∧
        ∀ arg : String, (parse text).arg? index = some arg ↔
          ∃ before rest, text.toList = before ++ ':' :: rest ∧
            before.count ':' = index ∧ Opens arg rest) ∧
    ∀ clause : Clause, parse clause.text = clause ↔
      ∀ segment ∈ clause.name :: clause.args, ':' ∉ segment.toList := by
  constructor
  · intro text
    refine ⟨text_parse text, length_args_parse text, opens_name text, ?_⟩
    intro index
    exact ⟨arg?_eq_none_iff text index, arg?_eq_some_iff text index⟩
  · exact parse_text_iff

-- Bars are no separators inside a clause, and an argument can be empty.
example : parse "in:a|b::" = ⟨"in", ["a|b", "", ""]⟩ := by
  rfl

end Clause

end FormCheck
