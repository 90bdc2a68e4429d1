import FormCheck.Check.Checker
import FormCheck.Proofs.RegistryLookup

/-!
# Which plans can be made

Planning goes through the submitted fields and through the rules of each of
them, and gives up at the first rule that has no validator.  If there is no such
rule the plan asks about every rule of every submitted field, in order and in
its own context; otherwise nothing is asked at all.
-/

namespace FormCheck

/-! ## Traversals that can fail -/

section Traversal

variable {ε α β γ : Type} {f : α → Except ε β}

theorem mapM_cons_eq_ok_iff {a : α} {l : List α} {bs : List β} :
    (a :: l).mapM f = .ok bs ↔
      ∃ b rest, f a = .ok b ∧ l.mapM f = .ok rest ∧ bs = b :: rest := by
  rw [List.mapM_cons]
  cases f a with
  | error e => simp [bind, Except.bind]
  | ok b =>
      cases l.mapM f with
      | error e => simp [bind, Except.bind]
      | ok rest => simp [bind, Except.bind, pure, Except.pure, eq_comm]

theorem mapM_cons_eq_error_iff {a : α} {l : List α} {e : ε} :
    (a :: l).mapM f = .error e ↔
      f a = .error e ∨ (∃ b, f a = .ok b) ∧ l.mapM f = .error e := by
  rw [List.mapM_cons]
  cases f a with
  | error e => simp [bind, Except.bind]
  | ok b =>
      cases l.mapM f with
      | error e => simp [bind, Except.bind]
      | ok rest => simp [bind, Except.bind, pure, Except.pure]

/-- A traversal succeeds when every element does. -/
theorem exists_mapM_ok_iff {l : List α} :
    (∃ bs, l.mapM f = .ok bs) ↔ ∀ a ∈ l, ∃ b, f a = .ok b := by
  induction l with
  | nil => simp [pure, Except.pure]
  | cons a rest ih =>
      rw [List.forall_mem_cons, ← ih]
      constructor
      · rintro ⟨bs, hbs⟩
        obtain ⟨b, cs, hb, hcs, -⟩ := mapM_cons_eq_ok_iff.mp hbs
        exact ⟨⟨b, hb⟩, cs, hcs⟩
      · rintro ⟨⟨b, hb⟩, cs, hcs⟩
        exact ⟨b :: cs, mapM_cons_eq_ok_iff.mpr ⟨b, cs, hb, hcs, rfl⟩⟩

/-- A traversal fails at the first element that does. -/
theorem mapM_eq_error_iff {l : List α} {e : ε} :
    l.mapM f = .error e ↔
      ∃ before a after, l = before ++ a :: after ∧
        (∀ b ∈ before, ∃ c, f b = .ok c) ∧ f a = .error e := by
  induction l with
  | nil => simp [pure, Except.pure]
  | cons head rest ih =>
      rw [mapM_cons_eq_error_iff, ih]
      constructor
      · rintro (hhead | ⟨hhead, before, a, after, rfl, hbefore, ha⟩)
        · exact ⟨[], head, rest, rfl, by simp, hhead⟩
        · refine ⟨head :: before, a, after, rfl, ?_, ha⟩
          rw [List.forall_mem_cons]
          exact ⟨hhead, hbefore⟩
      · rintro ⟨before, a, after, hsplit, hbefore, ha⟩
        cases before with
        | nil =>
            obtain ⟨rfl, rfl⟩ := List.cons.inj hsplit
            exact Or.inl ha
        | cons first before =>
            obtain ⟨rfl, rfl⟩ := List.cons.inj hsplit
            rw [List.forall_mem_cons] at hbefore
            exact Or.inr ⟨hbefore.1, before, a, after, rfl, hbefore.2, ha⟩

theorem mapM_congr
    {g : α → Except ε β} {l : List α} (hsame : ∀ a ∈ l, f a = g a) : l.mapM f = l.mapM g := by
  induction l with
  | nil => rfl
  | cons a rest ih =>
      rw [List.forall_mem_cons] at hsame
      rw [List.mapM_cons, List.mapM_cons, hsame.1, ih hsame.2]

/-- What every step keeps, the traversal keeps. -/
theorem map_eq_of_mapM_ok
    {p : β → γ} {q : α → γ} {l : List α} {bs : List β}
    (hstep : ∀ a b, f a = .ok b → p b = q a) (hok : l.mapM f = .ok bs) :
    bs.map p = l.map q := by
  induction l generalizing bs with
  | nil =>
      obtain rfl : [] = bs := by simpa [pure, Except.pure] using hok
      rfl
  | cons a rest ih =>
      obtain ⟨b, cs, hb, hcs, rfl⟩ := mapM_cons_eq_ok_iff.mp hok
      rw [List.map_cons, List.map_cons, hstep a b hb, ih hcs]

theorem forall_mem_of_mapM_ok
    {property : β → Prop} {l : List α} {bs : List β}
    (hstep : ∀ a b, f a = .ok b → property b) (hok : l.mapM f = .ok bs) :
    ∀ b ∈ bs, property b := by
  induction l generalizing bs with
  | nil =>
      obtain rfl : [] = bs := by simpa [pure, Except.pure] using hok
      simp
  | cons a rest ih =>
      obtain ⟨b, cs, hb, hcs, rfl⟩ := mapM_cons_eq_ok_iff.mp hok
      rw [List.forall_mem_cons]
      exact ⟨hstep a b hb, ih hcs⟩

end Traversal

/-! ## Checks and fields -/

namespace Plan

variable {form : Option String} {rules : RuleMap} {registry : Registry}
  {submission : Submission}

/-- The context in which a clause of a submitted field is asked about. -/
def contextOf
    (form : Option String) (submission : Submission)
    (entry : String × Value) (clause : Clause) : Context where
  key := entry.1
  value := entry.2
  submission := submission
  form := form
  rule := clause.name
  args := clause.args

theorem check?_eq_ok_iff {entry : String × Value} {clause : Clause} {check : Check} :
    check? form registry submission entry.1 entry.2 clause = .ok check ↔
      registry.resolve? clause.name = some check.validator ∧
        check.context = contextOf form submission entry clause := by
  obtain ⟨validator, context⟩ := check
  unfold check?
  cases registry.resolve? clause.name with
  | none => simp
  | some found => simp [contextOf, eq_comm]

theorem exists_check?_ok_iff {entry : String × Value} {clause : Clause} :
    (∃ check, check? form registry submission entry.1 entry.2 clause = .ok check) ↔
      registry.Knows clause.name := by
  rw [Registry.knows_iff_resolve?]
  unfold check?
  cases registry.resolve? clause.name <;> simp

theorem check?_eq_error_iff
    {entry : String × Value} {clause : Clause} {unknown : UnknownRule} :
    check? form registry submission entry.1 entry.2 clause = .error unknown ↔
      ¬ registry.Knows clause.name ∧ unknown = ⟨entry.1, clause.name⟩ := by
  rw [← Registry.resolve?_eq_none_iff]
  unfold check?
  cases registry.resolve? clause.name <;> simp [eq_comm]

theorem field?_eq_ok_iff {entry : String × Value} {field : FieldPlan} :
    field? form rules registry submission entry = .ok field ↔
      field.key = entry.1 ∧
        (rulesOf rules entry.1).mapM
          (check? form registry submission entry.1 entry.2) = .ok field.checks := by
  obtain ⟨key, checks⟩ := field
  unfold field?
  cases (rulesOf rules entry.1).mapM
      (check? form registry submission entry.1 entry.2) with
  | error unknown => simp [bind, Except.bind]
  | ok found => simp [bind, Except.bind, pure, Except.pure, eq_comm]

theorem exists_field?_ok_iff {entry : String × Value} :
    (∃ field, field? form rules registry submission entry = .ok field) ↔
      ∀ clause ∈ rulesOf rules entry.1, registry.Knows clause.name := by
  have hclauses :
      (∃ checks, (rulesOf rules entry.1).mapM
          (check? form registry submission entry.1 entry.2) = .ok checks) ↔
        ∀ clause ∈ rulesOf rules entry.1, registry.Knows clause.name := by
    rw [exists_mapM_ok_iff]
    simp only [exists_check?_ok_iff]
  rw [← hclauses]
  constructor
  · rintro ⟨field, hfield⟩
    exact ⟨field.checks, (field?_eq_ok_iff.mp hfield).2⟩
  · rintro ⟨checks, hchecks⟩
    exact ⟨⟨entry.1, checks⟩, field?_eq_ok_iff.mpr ⟨rfl, hchecks⟩⟩

theorem field?_eq_error_iff {entry : String × Value} {unknown : UnknownRule} :
    field? form rules registry submission entry = .error unknown ↔
      ∃ earlier clause later,
        rulesOf rules entry.1 = earlier ++ clause :: later ∧
        (∀ rule ∈ earlier, registry.Knows rule.name) ∧
        ¬ registry.Knows clause.name ∧ unknown = ⟨entry.1, clause.name⟩ := by
  have hclauses :
      field? form rules registry submission entry = .error unknown ↔
        (rulesOf rules entry.1).mapM
          (check? form registry submission entry.1 entry.2) = .error unknown := by
    unfold field?
    cases (rulesOf rules entry.1).mapM
        (check? form registry submission entry.1 entry.2) with
    | error found => simp [bind, Except.bind]
    | ok checks => simp [bind, Except.bind, pure, Except.pure]
  rw [hclauses, mapM_eq_error_iff]
  simp only [exists_check?_ok_iff, check?_eq_error_iff]

/-! ## Whole plans -/

/-- The first rule of a submission without a validator: all rules of earlier
fields and all earlier rules of its own field have one. -/
def FirstUnknown
    (rules : RuleMap) (registry : Registry) (submission : Submission)
    (unknown : UnknownRule) : Prop :=
  ∃ before entry after earlier clause later,
    submission.entries = before ++ entry :: after ∧
    rulesOf rules entry.1 = earlier ++ clause :: later ∧
    (∀ field ∈ before, ∀ rule ∈ rulesOf rules field.1, registry.Knows rule.name) ∧
    (∀ rule ∈ earlier, registry.Knows rule.name) ∧
    ¬ registry.Knows clause.name ∧
    unknown = ⟨entry.1, clause.name⟩

theorem exists_make?_ok_iff :
    (∃ plan, make? form rules registry submission = .ok plan) ↔
      ∀ entry ∈ submission.entries, ∀ clause ∈ rulesOf rules entry.1,
        registry.Knows clause.name := by
  unfold make?
  rw [exists_mapM_ok_iff]
  simp only [exists_field?_ok_iff]
  constructor
  · intro hknown entry hentry clause hclause
    have hrules : (rulesOf rules entry.1).isEmpty = false :=
      List.isEmpty_eq_false_iff.mpr (List.ne_nil_of_mem hclause)
    exact hknown entry (List.mem_filter.mpr ⟨hentry, by simp [hrules]⟩) clause hclause
  · intro hknown entry hentry
    exact hknown entry (List.mem_filter.mp hentry).1

theorem make?_eq_error_iff {unknown : UnknownRule} :
    make? form rules registry submission = .error unknown ↔
      FirstUnknown rules registry submission unknown := by
  unfold make? FirstUnknown
  rw [mapM_eq_error_iff]
  simp only [exists_field?_ok_iff, field?_eq_error_iff]
  constructor
  · rintro ⟨before, entry, after, hfilter, hbefore, earlier, clause, later, herror⟩
    obtain ⟨front, back, hsplit, rfl, hback⟩ := List.filter_eq_append_iff.mp hfilter
    obtain ⟨skipped, rest, rfl, hskipped, -, -⟩ := List.filter_eq_cons_iff.mp hback
    refine ⟨front ++ skipped, entry, rest, earlier, clause, later, ?_, herror.1, ?_,
      herror.2⟩
    · rw [hsplit, List.append_assoc]
    · intro field hfield rule hrule
      rcases List.mem_append.mp hfield with hfront | hskip
      · have hrules : (rulesOf rules field.1).isEmpty = false :=
          List.isEmpty_eq_false_iff.mpr (List.ne_nil_of_mem hrule)
        exact hbefore field (List.mem_filter.mpr ⟨hfront, by simp [hrules]⟩) rule hrule
      · -- A field that was skipped has no rules.
        have hempty : rulesOf rules field.1 = [] := by
          simpa using hskipped field hskip
        rw [hempty] at hrule
        exact absurd hrule List.not_mem_nil
  · rintro ⟨before, entry, after, earlier, clause, later, hsplit, hrules, hbefore, herror⟩
    refine ⟨before.filter (fun field => !(rulesOf rules field.1).isEmpty), entry,
      after.filter (fun field => !(rulesOf rules field.1).isEmpty), ?_, ?_,
      earlier, clause, later, hrules, herror⟩
    · rw [hsplit, List.filter_append, List.filter_cons_of_pos]
      simp [hrules]
    · intro field hfield
      exact hbefore field (List.mem_filter.mp hfield).1

/-- The contexts in which the rules of a submitted field are asked about. -/
def contextsOf
    (form : Option String) (rules : RuleMap) (submission : Submission)
    (entry : String × Value) : List Context :=
  (rulesOf rules entry.1).map (contextOf form submission entry)

theorem contexts_of_field?
    {entry : String × Value} {field : FieldPlan}
    (hfield : field? form rules registry submission entry = .ok field) :
    field.checks.map Check.context = contextsOf form rules submission entry := by
  have hchecks := (field?_eq_ok_iff.mp hfield).2
  refine map_eq_of_mapM_ok ?_ hchecks
  intro clause check hcheck
  exact (check?_eq_ok_iff.mp hcheck).2

theorem resolved_of_field?
    {entry : String × Value} {field : FieldPlan}
    (hfield : field? form rules registry submission entry = .ok field) :
    ∀ check ∈ field.checks,
      registry.resolve? check.context.rule = some check.validator := by
  have hchecks := (field?_eq_ok_iff.mp hfield).2
  refine forall_mem_of_mapM_ok ?_ hchecks
  intro clause check hcheck
  obtain ⟨hresolve, hcontext⟩ := check?_eq_ok_iff.mp hcheck
  rw [hcontext]
  exact hresolve

/-- A plan asks about every rule of every submitted field that has rules, field
by field and rule by rule, and it asks the validators of the rules. -/
structure Covers
    (form : Option String) (rules : RuleMap) (registry : Registry)
    (submission : Submission) (plan : Plan) : Prop where
  contexts :
    plan.map (fun field => (field.key, field.checks.map Check.context)) =
      (submission.entries.filter fun entry => !(rulesOf rules entry.1).isEmpty).map
        fun entry => (entry.1, contextsOf form rules submission entry)
  resolved : ∀ field ∈ plan, ∀ check ∈ field.checks,
    registry.resolve? check.context.rule = some check.validator

theorem covers_of_make?
    {plan : Plan} (hplan : make? form rules registry submission = .ok plan) :
    Covers form rules registry submission plan := by
  constructor
  · refine map_eq_of_mapM_ok ?_ hplan
    intro entry field hfield
    rw [contexts_of_field? hfield, (field?_eq_ok_iff.mp hfield).1]
  · refine forall_mem_of_mapM_ok ?_ hplan
    intro entry field hfield
    exact resolved_of_field? hfield

end Plan

end FormCheck
