import FormCheck.Proofs.RunSettlement

/-!
# Joins

Tasks that are carried out side by side store their outputs in slots, each in the
slot of its own.  A join is ready when all its slots are filled, and it gives what
they hold in the order of the slots.  The errors of a field are read off the join
of the answers to its checks, and the report off the join of the errors of all
fields.  This is the report of a run whose tasks are all settled.
-/

namespace FormCheck

/-- What slots hold, in their order, once all of them are filled. -/
def join {α : Type} (slots : List (Option α)) : Option (List α) :=
  slots.mapM id

section Join

variable {α : Type} {slots : List (Option α)} {outputs : List α}

theorem join_cons (slot : Option α) (rest : List (Option α)) :
    join (slot :: rest) =
      slot.bind fun output => (join rest).map fun outputs => output :: outputs := by
  unfold join
  rw [List.mapM_cons]
  cases slot with
  | none => rfl
  | some output => cases rest.mapM id <;> rfl

theorem join_eq_some_iff : join slots = some outputs ↔ slots = outputs.map some := by
  induction slots generalizing outputs with
  | nil => cases outputs <;> simp [join]
  | cons slot rest ih =>
      cases slot with
      | none => cases outputs <;> simp [join_cons]
      | some output =>
          cases outputs with
          | nil => simp [join_cons]
          | cons first others => simp [join_cons, ih, and_comm]

theorem join_eq_none_iff : join slots = none ↔ none ∈ slots := by
  induction slots with
  | nil => simp [join]
  | cons slot rest ih => cases slot <;> simp [join_cons, ih]

theorem exists_join_map_iff {β : Type} {f : β → Option α} {l : List β} :
    (∃ outputs, join (l.map f) = some outputs) ↔ ∀ b ∈ l, (f b).isSome = true := by
  rw [← Option.ne_none_iff_exists', Ne, join_eq_none_iff]
  simp [Option.isSome_iff_ne_none]

end Join

theorem modify_eq_self_of_fixed
    {α : Type} {f : α → α} {l : List α} {i : ℕ} (hfixed : ∀ a, l[i]? = some a → f a = a) :
    l.modify i f = l := by
  apply List.ext_getElem?
  intro j
  rw [List.getElem?_modify]
  cases ha : l[j]? with
  | none => rfl
  | some a =>
      by_cases hij : i = j
      · have hsame : f a = a := hfixed a (hij ▸ ha)
        simp [hij, hsame]
      · simp [hij]

/-! ## The answers of a field -/

namespace Task

def answer? (task : Task) : Option Bool :=
  match task.progress with
  | .settled answer => some answer
  | _ => none

theorem isSome_answer? (task : Task) : task.answer?.isSome = task.isSettled := by
  obtain ⟨check, progress⟩ := task
  cases progress <;> rfl

theorem isFailed_of_answer?
    {task : Task} {answer : Bool} (hanswer : task.answer? = some answer) :
    task.isFailed = !answer := by
  obtain ⟨check, progress⟩ := task
  cases progress with
  | idle => simp [answer?] at hanswer
  | waiting left => simp [answer?] at hanswer
  | settled given =>
      obtain rfl : given = answer := by simpa [answer?] using hanswer
      cases given <;> simp [isFailed]

theorem poll_of_settled {task : Task} (hsettled : task.isSettled = true) :
    task.poll = task := by
  obtain ⟨check, progress⟩ := task
  cases progress with
  | idle => simp [isSettled] at hsettled
  | waiting left => simp [isSettled] at hsettled
  | settled answer => rfl

theorem Sound.answer?_eq
    {task : Task} {answer : Bool} (hsound : task.Sound) (hanswer : task.answer? = some answer) :
    task.check.passes = answer := by
  refine (hsound answer ?_).symm
  unfold answer? at hanswer
  split at hanswer
  next given hprogress => rw [hprogress, Option.some.inj hanswer]
  next => simp at hanswer

end Task

namespace FieldRun

/-- The errors of a field by the join of its answers: each check is put beside the
answer in its slot, and the rules whose answers are false are kept. -/
def output? (field : FieldRun) : Option FieldErrors :=
  (join (field.tasks.map Task.answer?)).map fun answers =>
    { key := field.key
      failed := ((field.plan.checks.zip answers).filter fun asked => !asked.2).map
        fun asked => asked.1.context.rule }

theorem failed_zip_answers
    {tasks : List Task} {answers : List Bool}
    (hanswers : tasks.map Task.answer? = answers.map some) :
    (((tasks.map Task.check).zip answers).filter fun asked => !asked.2).map
        (fun asked => asked.1.context.rule) =
      (tasks.filter Task.isFailed).map fun task => task.check.context.rule := by
  induction tasks generalizing answers with
  | nil => rfl
  | cons task rest ih =>
      cases answers with
      | nil => simp at hanswers
      | cons answer others =>
          obtain ⟨hanswer, hothers⟩ := List.cons.inj hanswers
          have hfailed := Task.isFailed_of_answer? hanswer
          cases answer with
          | true => simp [hfailed, ih hothers]
          | false => simp [hfailed, ih hothers]

theorem output?_eq_some_iff {field : FieldRun} {errors : FieldErrors} :
    field.output? = some errors ↔
      (∀ task ∈ field.tasks, task.isSettled = true) ∧ field.errors = errors := by
  have hready : ∀ answers : List Bool, field.tasks.map Task.answer? = answers.map some →
      field.output? = some field.errors := by
    intro answers hanswers
    unfold output? FieldRun.errors FieldRun.plan
    rw [join_eq_some_iff.mpr hanswers, Option.map_some, failed_zip_answers hanswers]
  simp only [← Task.isSome_answer?, ← exists_join_map_iff]
  constructor
  · intro houtput
    obtain ⟨answers, hjoin, -⟩ := Option.map_eq_some_iff.mp houtput
    have hsame := hready answers (join_eq_some_iff.mp hjoin)
    exact ⟨⟨answers, hjoin⟩, Option.some.inj (hsame.symm.trans houtput)⟩
  · rintro ⟨⟨answers, hjoin⟩, rfl⟩
    exact hready answers (join_eq_some_iff.mp hjoin)

theorem output?_eq_none_iff {field : FieldRun} :
    field.output? = none ↔ ∃ task ∈ field.tasks, task.isSettled = false := by
  constructor
  · intro hwaiting
    by_contra hsettled
    simp only [not_exists, not_and, Bool.not_eq_false] at hsettled
    have hready := output?_eq_some_iff.mpr ⟨hsettled, rfl⟩
    rw [hwaiting] at hready
    cases hready
  · rintro ⟨task, htask, hpending⟩
    cases houtput : field.output? with
    | none => rfl
    | some errors =>
        have hsettled := (output?_eq_some_iff.mp houtput).1 task htask
        rw [hpending] at hsettled
        exact absurd hsettled Bool.false_ne_true

theorem poll_eq_self
    {field : FieldRun} {number : ℕ}
    (hsettled : ∀ task, field.tasks[number]? = some task → task.isSettled = true) :
    field.poll number = field := by
  have htasks : field.tasks.modify number Task.poll = field.tasks :=
    modify_eq_self_of_fixed fun task htask => Task.poll_of_settled (hsettled task htask)
  unfold poll
  rw [htasks]

/-- Errors that a field has do not change any more. -/
theorem output?_poll
    {field : FieldRun} {errors : FieldErrors} (houtput : field.output? = some errors)
    (number : ℕ) : (field.poll number).output? = some errors := by
  have hsettled := (output?_eq_some_iff.mp houtput).1
  rw [poll_eq_self fun task htask => hsettled task (List.mem_of_getElem? htask)]
  exact houtput

end FieldRun

/-! ## The report of a run -/

namespace Run

theorem poll_eq_self
    {run : Run} {place : Place}
    (hsettled : ∀ task, task? run place = some task → task.isSettled = true) :
    poll run place = run := by
  apply modify_eq_self_of_fixed
  intro field hfield
  apply FieldRun.poll_eq_self
  intro task htask
  exact hsettled task (by simp [task?, hfield, htask])

/-- The report of a run is read off two joins, one inside the other. -/
theorem report?_eq_join (run : Run) :
    report? run = (join (List.map FieldRun.output? run)).map Report.ofFields := by
  unfold report?
  by_cases hall : (tasks run).all Task.isSettled = true
  · rw [List.all_eq_true] at hall
    have houtputs : List.map FieldRun.output? run = (List.map FieldRun.errors run).map some := by
      rw [List.map_map]
      apply List.map_congr_left
      intro field hfield
      refine FieldRun.output?_eq_some_iff.mpr ⟨?_, rfl⟩
      intro task htask
      exact hall task (List.mem_flatMap.mpr ⟨field, hfield, htask⟩)
    rw [if_pos (List.all_eq_true.mpr hall), join_eq_some_iff.mpr houtputs, Option.map_some]
  · have hempty : none ∈ List.map FieldRun.output? run := by
      obtain ⟨task, htask, hpending⟩ : ∃ task ∈ tasks run, task.isSettled = false := by
        simpa using hall
      obtain ⟨field, hfield, hmem⟩ := List.mem_flatMap.mp htask
      rw [← FieldRun.output?_eq_none_iff.mpr ⟨task, hmem, hpending⟩]
      exact List.mem_map_of_mem hfield
    rw [if_neg hall, join_eq_none_iff.mpr hempty, Option.map_none]

end Run

end FormCheck
