import FormCheck.Proofs.FailedRules
import FormCheck.Proofs.SessionLineage
import FormCheck.Proofs.UnresolvedRules
import FormCheck.Validator.Recipe

/-!
# Malformed rule texts

Reading accepts every text.  A text that is empty, or has a bar or a colon where a
name should stand, is read as a rule with an empty name, and no built-in validator
has that name.  So a field with such a text cannot be submitted unless a validator
was registered under the empty name; and an empty name is never reported for a form
whose texts have all their names.
-/

namespace FormCheck

/-! ## Pieces without a name -/

section Pieces

variable {separator mark : Char} {s : List Char}

/-- A piece of a text in which nothing stands before the mark. -/
def Unnamed (mark : Char) (piece : List Char) : Prop :=
  piece = [] ∨ [mark] <+: piece

/-- The first piece of a text is one in which nothing stands before the mark. -/
def OpensUnnamed (separator mark : Char) (s : List Char) : Prop :=
  s = [] ∨ [separator] <+: s ∨ [mark] <+: s

theorem unnamed_cons_iff {c : Char} : Unnamed mark (c :: s) ↔ c = mark := by
  unfold Unnamed
  rw [List.cons_prefix_cons]
  simp [eq_comm]

theorem opensUnnamed_cons_iff {c : Char} :
    OpensUnnamed separator mark (c :: s) ↔ c = separator ∨ c = mark := by
  unfold OpensUnnamed
  rw [List.cons_prefix_cons, List.cons_prefix_cons]
  simp [eq_comm]

/-- The first piece stands at the front of the text, and every other piece after a separator. -/
theorem unnamed_splitOn_iff
    {first : List Char} {others : List (List Char)}
    (hsplit : s.splitOn separator = first :: others) :
    (Unnamed mark first ↔ OpensUnnamed separator mark s) ∧
      ((∃ piece ∈ others, Unnamed mark piece) ↔
        ∃ rest, separator :: rest <:+ s ∧ OpensUnnamed separator mark rest) := by
  induction s generalizing first others with
  | nil =>
      obtain ⟨rfl, rfl⟩ := List.cons.inj hsplit
      simp [Unnamed, OpensUnnamed]
  | cons c s ih =>
      obtain ⟨next, later, hrest⟩ :=
        List.exists_cons_of_ne_nil (List.splitOn_ne_nil separator s)
      have hpieces := ih hrest
      rw [List.splitOn_cons_eq_if_modifyHead, hrest] at hsplit
      simp only [List.suffix_cons_iff, List.cons.injEq]
      by_cases hc : c = separator
      · rw [if_pos (by simpa using hc)] at hsplit
        obtain ⟨rfl, rfl⟩ := List.cons.inj hsplit
        constructor
        · simp [Unnamed, opensUnnamed_cons_iff, hc]
        · simp only [hc, List.mem_cons, true_and, or_and_right, exists_or, exists_eq_left]
          rw [hpieces.1, hpieces.2]
      · rw [if_neg (by simpa using hc)] at hsplit
        obtain ⟨rfl, rfl⟩ := List.cons.inj hsplit
        constructor
        · rw [unnamed_cons_iff, opensUnnamed_cons_iff]
          simp [hc]
        · rw [hpieces.2]
          simp [Ne.symm hc]

theorem pair_infix_iff {a b : Char} : [a, b] <:+: s ↔ ∃ rest, a :: rest <:+ s ∧ [b] <+: rest := by
  rw [List.infix_iff_prefix_suffix]
  constructor
  · intro hpair
    obtain ⟨t, hprefix, hsuffix⟩ := hpair
    cases t with
    | nil => simp at hprefix
    | cons c rest =>
        rw [List.cons_prefix_cons] at hprefix
        exact ⟨rest, hprefix.1 ▸ hsuffix, hprefix.2⟩
  · intro hpair
    obtain ⟨rest, hsuffix, hprefix⟩ := hpair
    exact ⟨a :: rest, List.cons_prefix_cons.mpr ⟨rfl, hprefix⟩, hsuffix⟩

theorem exists_unnamed_after_iff :
    (∃ rest, separator :: rest <:+ s ∧ OpensUnnamed separator mark rest) ↔
      [separator] <:+ s ∨ [separator, separator] <:+: s ∨ [separator, mark] <:+: s := by
  rw [pair_infix_iff, pair_infix_iff]
  unfold OpensUnnamed
  simp only [and_or_left, exists_or, exists_eq_right]

end Pieces

theorem Clause.name_parse_eq_empty_iff (piece : List Char) :
    (parse (String.ofList piece)).name = "" ↔ Unnamed separator piece := by
  cases piece with
  | nil => simp [parse, Unnamed]
  | cons c rest =>
      obtain ⟨first, others, hsplit⟩ :=
        List.exists_cons_of_ne_nil (List.splitOn_ne_nil separator rest)
      unfold parse
      rw [unnamed_cons_iff, String.toList_ofList, List.splitOn_cons_eq_if_modifyHead, hsplit]
      by_cases hc : c = separator
      · simp [hc]
      · simp [hc]

namespace RuleList

/-- A rule text that is empty or has a bar or a colon where a name should stand. -/
def Malformed (text : String) : Prop :=
  text = "" ∨ ['|'] <+: text.toList ∨ [':'] <+: text.toList ∨ ['|'] <:+ text.toList ∨
    ['|', '|'] <:+: text.toList ∨ ['|', ':'] <:+: text.toList

instance (text : String) : Decidable (Malformed text) :=
  inferInstanceAs (Decidable (_ ∨ _))

theorem exists_unnamed_iff (text : String) :
    (∃ clause ∈ parse text, clause.name = "") ↔ Malformed text := by
  obtain ⟨first, others, hsplit⟩ :=
    List.exists_cons_of_ne_nil (List.splitOn_ne_nil separator text.toList)
  have hpieces : (Unnamed Clause.separator first ↔
      OpensUnnamed separator Clause.separator text.toList) ∧ _ := unnamed_splitOn_iff hsplit
  have hclauses : (∃ clause ∈ parse text, clause.name = "") ↔
      Unnamed Clause.separator first ∨ ∃ piece ∈ others, Unnamed Clause.separator piece := by
    unfold parse
    rw [hsplit]
    simp [Clause.name_parse_eq_empty_iff]
  have hempty : text = "" ↔ text.toList = [] := String.toList_eq_nil_iff.symm
  rw [hclauses, hpieces.1, hpieces.2, exists_unnamed_after_iff]
  unfold OpensUnnamed Malformed
  rw [hempty, or_assoc, or_assoc]
  rfl

end RuleList

/-! ## Validations with malformed texts -/

theorem Plan.mem_rulesOf_parse_iff {given : RuleTexts} {key : String} {clause : Clause} :
    clause ∈ rulesOf (RuleMap.parse given) key ↔
      ∃ text, (key, text) ∈ given.entries ∧ clause ∈ RuleList.parse text := by
  rw [mem_rulesOf_iff]
  unfold RuleMap.parse
  rw [FieldMap.entries_map]
  constructor
  · intro hlist
    obtain ⟨list, hentry, hclause⟩ := hlist
    obtain ⟨entry, hgiven, hsame⟩ := List.mem_map.mp hentry
    rw [Prod.mk.injEq] at hsame
    rw [← hsame.2] at hclause
    exact ⟨entry.2, hsame.1 ▸ hgiven, hclause⟩
  · intro htext
    obtain ⟨text, hgiven, hclause⟩ := htext
    exact ⟨RuleList.parse text, List.mem_map.mpr ⟨(key, text), hgiven, rfl⟩, hclause⟩

theorem Registry.not_knows_empty
    {registry : Registry} (hempty : "" ∉ registry.overrideNames) : ¬ registry.Knows "" := by
  intro hknows
  cases hknows with
  | inl hregistered => exact hempty hregistered
  | inr hbuiltin =>
      obtain ⟨builtin, hname⟩ := hbuiltin
      cases builtin <;> exact absurd hname (by decide)

namespace Checker

variable {checker : Checker} {submission : Submission}

theorem mem_rulesOf_iff_text
    (hrules : RuleMap.parse (RuleMap.texts checker.rules) = checker.rules)
    {key : String} {clause : Clause} :
    clause ∈ Plan.rulesOf checker.rules key ↔
      ∃ text, (key, text) ∈ (RuleMap.texts checker.rules).entries ∧
        clause ∈ RuleList.parse text := by
  have hparsed : clause ∈ Plan.rulesOf (RuleMap.parse (RuleMap.texts checker.rules)) key ↔ _ :=
    Plan.mem_rulesOf_parse_iff
  rwa [hrules] at hparsed

theorem exists_error_of_malformed
    (hrules : RuleMap.parse (RuleMap.texts checker.rules) = checker.rules)
    (hempty : "" ∉ checker.registry.overrideNames) {entry : String × String}
    (hentry : entry ∈ (RuleMap.texts checker.rules).entries)
    (hmalformed : RuleList.Malformed entry.2) (hsubmitted : entry.1 ∈ submission.keys) :
    ∃ unknown, (checker.validate submission).result = .error unknown := by
  obtain ⟨clause, hclause, hname⟩ := (RuleList.exists_unnamed_iff entry.2).mpr hmalformed
  have hrule : clause ∈ Plan.rulesOf checker.rules entry.1 :=
    (mem_rulesOf_iff_text hrules).mpr ⟨entry.2, hentry, hclause⟩
  have hunknown : ¬ checker.registry.Knows clause.name := by
    rw [hname]
    exact Registry.not_knows_empty hempty
  exact exists_error_iff.mpr ⟨entry.1, hsubmitted, clause, hrule, hunknown⟩

/-! ## Reports without empty names -/

/-- Every rule of every field has a name. -/
def Named (checker : Checker) : Prop :=
  ∀ key, ∀ clause ∈ Plan.rulesOf checker.rules key, clause.name ≠ ""

theorem named_of_well_formed
    (hrules : RuleMap.parse (RuleMap.texts checker.rules) = checker.rules)
    (hformed : ∀ entry ∈ (RuleMap.texts checker.rules).entries, ¬ RuleList.Malformed entry.2) :
    checker.Named := by
  intro key clause hclause hname
  obtain ⟨text, hentry, hclause⟩ := (mem_rulesOf_iff_text hrules).mp hclause
  exact hformed (key, text) hentry ((RuleList.exists_unnamed_iff text).mp ⟨clause, hclause, hname⟩)

theorem Named.unresolvedRules (hnamed : checker.Named) :
    ∀ pair ∈ checker.unresolvedRules, pair.2 ≠ "" := by
  intro pair hpair
  obtain ⟨clause, hclause, hname, -⟩ := mem_unresolvedRules_iff.mp hpair
  rw [← hname]
  exact hnamed pair.1 clause hclause

theorem Named.unknown
    (hnamed : checker.Named) {unknown : UnknownRule}
    (hfails : (checker.validate submission).result = .error unknown) : unknown.rule ≠ "" := by
  obtain ⟨-, entry, -, earlier, clause, later, -, hclauses, -, -, -, rfl⟩ :=
    result_eq_error_iff.mp hfails
  apply hnamed entry.1 clause
  rw [hclauses]
  exact List.mem_append_right earlier List.mem_cons_self

theorem Named.failed
    (hnamed : checker.Named) {report : Report}
    (hreport : (checker.validate submission).result = .ok report) :
    ∀ field ∈ report.errors, "" ∉ field.failed := by
  intro field hfield hempty
  rw [eq_expectedReport_of_ok hreport] at hfield
  obtain ⟨entry, -, herrors⟩ := List.mem_filterMap.mp hfield
  rw [(errors?_eq_some_iff.mp herrors).1, failedRules_eq_map_filter] at hempty
  obtain ⟨clause, hclause, hname⟩ := List.mem_map.mp hempty
  exact hnamed entry.1 clause (List.mem_filter.mp hclause).1 hname

end Checker

namespace Session

/-- A malformed text is never accepted.  It is one that is read as a rule with an empty name,
and unless that name was registered, no submission of its field can be validated.  Without such
texts an empty name is reported nowhere. -/
theorem malformed_rules_never_accepted :
    (∀ text : String,
      (∃ clause ∈ RuleList.parse text, clause.name = "") ↔ RuleList.Malformed text) ∧
    ∀ (steps : List Step) (number : ℕ) (checker : Checker),
      (run steps).checkers[number]? = some checker →
      ("" ∉ checker.registry.overrideNames →
        ∀ entry ∈ (RuleMap.texts checker.rules).entries, RuleList.Malformed entry.2 →
        ∀ submission : Submission, entry.1 ∈ submission.keys →
          ∃ unknown, (checker.validate submission).result = .error unknown) ∧
      ((∀ entry ∈ (RuleMap.texts checker.rules).entries, ¬ RuleList.Malformed entry.2) →
        (∀ pair ∈ checker.unresolvedRules, pair.2 ≠ "") ∧
        ∀ submission : Submission,
          (∀ unknown, (checker.validate submission).result = .error unknown →
            unknown.rule ≠ "") ∧
          ∀ report, (checker.validate submission).result = .ok report →
            ∀ field ∈ report.errors, "" ∉ field.failed) := by
  refine ⟨RuleList.exists_unnamed_iff, ?_⟩
  intro steps number checker hmade
  have hrules : RuleMap.parse (RuleMap.texts checker.rules) = checker.rules := by
    obtain ⟨lineage, -, rfl⟩ := exists_lineage hmade
    exact RuleMap.parse_texts_parse lineage.root.rules
  constructor
  · intro hempty entry hentry hmalformed submission hsubmitted
    exact Checker.exists_error_of_malformed hrules hempty hentry hmalformed hsubmitted
  · intro hformed
    have hnamed := Checker.named_of_well_formed hrules hformed
    refine ⟨hnamed.unresolvedRules, ?_⟩
    intro submission
    exact ⟨fun _ => hnamed.unknown, fun _ => hnamed.failed⟩

/-- A form whose texts have all their names. -/
def labelled : Setup where
  form := some "shop"
  rules :=
    { entries := [("code", "length:3|unique:x"), ("note", "isString:")]
      keys_nodup := by decide }
  validators := Registry.builtins.register "unique" ((Recipe.notIn ["ab"]).validator 1)

def entered : Submission where
  entries := [("code", .text "ab"), ("note", .text "")]
  keys_nodup := by decide

theorem ragged_never_accepted_labelled_named :
    let required := Builtin.validator .required
    let malformed := ((Checker.ofSetup ragged).extend "a" required).extend "b" required
    let named := Checker.ofSetup labelled
    (run (branching required)).checkers[3]? = some malformed ∧
    "" ∉ malformed.registry.overrideNames ∧
    (∀ entry ∈ (RuleMap.texts malformed.rules).entries, RuleList.Malformed entry.2) ∧
    (∃ unknown, (malformed.validate entered).result = .error unknown) ∧
    (run [.plain, .build labelled]).checkers[1]? = some named ∧
    (∀ entry ∈ (RuleMap.texts named.rules).entries, ¬ RuleList.Malformed entry.2) ∧
    (named.validate entered).result = .ok ⟨false, [⟨"code", ["length", "unique"]⟩]⟩ ∧
    "" ∉ ["length", "unique"] := by
  intro required malformed named
  have hmalformed : (run (branching required)).checkers[3]? = some malformed := rfl
  have hnamed : (run [.plain, .build labelled]).checkers[1]? = some named := rfl
  have hempty : "" ∉ malformed.registry.overrideNames := by decide
  have hragged : ∀ entry ∈ (RuleMap.texts malformed.rules).entries,
      RuleList.Malformed entry.2 := by decide +kernel
  have hlabelled : ∀ entry ∈ (RuleMap.texts named.rules).entries,
      ¬ RuleList.Malformed entry.2 := by decide +kernel
  have hknown : ∀ entry ∈ entered.entries, ∀ clause ∈ Plan.rulesOf named.rules entry.1,
      named.registry.Knows clause.name := by decide +kernel
  have hreport : (named.validate entered).result =
      .ok ⟨false, [⟨"code", ["length", "unique"]⟩]⟩ := by
    have hexpected : named.expectedReport entered =
        ⟨false, [⟨"code", ["length", "unique"]⟩]⟩ := by decide +kernel
    obtain ⟨plan, hplan⟩ := Plan.exists_make?_ok_iff.mpr hknown
    rw [Checker.result_eq_expectedReport hplan, hexpected]
  have hentry : ("code", "a:|b::|c:d:e|") ∈ (RuleMap.texts malformed.rules).entries := by
    decide +kernel
  have hrefused := (malformed_rules_never_accepted.2 _ 3 malformed hmalformed).1 hempty _ hentry
    (hragged _ hentry) entered (by decide)
  have hreported := ((malformed_rules_never_accepted.2 _ 1 named hnamed).2 hlabelled).2 entered
  exact ⟨hmalformed, hempty, hragged, hrefused, hnamed, hlabelled, hreport,
    hreported.2 _ hreport _ List.mem_cons_self⟩

end Session

end FormCheck
