import FormCheck.Check.Schedule
import Mathlib.Tactic.Common

/-!
# What a settled run reports

Tasks can be polled in any order and any number of times.  Whatever happens, a
run keeps the keys and the checks of its plan in their places, and an answer
that a task has is the answer of its validator.  Once all tasks are settled the
report is therefore that of the plan, whose checks are answered one after the
other.
-/

namespace FormCheck

/-! ## Reports without suspension -/

/-- The errors of a field when its checks are answered one after the other. -/
def FieldPlan.errors (plan : FieldPlan) : FieldErrors where
  key := plan.key
  failed := (plan.checks.filter fun check => !check.passes).map
    fun check => check.context.rule

/-- The report of a plan when its checks are answered one after the other. -/
def Plan.report (plan : Plan) : Report :=
  Report.ofFields (plan.map FieldPlan.errors)

/-! ## Tasks -/

namespace Task

/-- An answer that the task has is the answer of its validator. -/
def Sound (task : Task) : Prop :=
  ∀ answer, task.progress = .settled answer → answer = task.check.passes

theorem sound_idle (check : Check) : (Task.idle check).Sound := by
  intro answer hsettled
  simp [Task.idle] at hsettled

theorem check_poll (task : Task) : task.poll.check = task.check := by
  unfold poll
  repeat' split
  all_goals rfl

theorem sound_poll {task : Task} (hsound : task.Sound) : task.poll.Sound := by
  obtain ⟨check, progress⟩ := task
  intro answer hsettled
  rw [check_poll]
  cases progress with
  | idle =>
      cases hsuspensions : check.validator.suspensions check.context with
      | zero => simpa [poll, hsuspensions, eq_comm] using hsettled
      | succ left => simp [poll, hsuspensions] at hsettled
  | waiting left =>
      cases left with
      | zero => simpa [poll, eq_comm] using hsettled
      | succ left => simp [poll] at hsettled
  | settled earlier => exact hsound answer hsettled

theorem isFailed_eq_of_settled
    {task : Task} (hsound : task.Sound) (hsettled : task.isSettled = true) :
    task.isFailed = !task.check.passes := by
  obtain ⟨check, progress⟩ := task
  cases progress with
  | idle => simp [isSettled] at hsettled
  | waiting left => simp [isSettled] at hsettled
  | settled answer =>
      have hanswer : answer = check.passes := hsound answer rfl
      cases hpasses : check.passes <;> simp [isFailed, hanswer, hpasses]

end Task

/-! ## Fields -/

private theorem map_modify_of_eq
    {α β : Type} {f : α → α} {g : α → β} (hfg : ∀ a, g (f a) = g a)
    (l : List α) (i : ℕ) : (l.modify i f).map g = l.map g := by
  apply List.ext_getElem?
  intro j
  rw [List.getElem?_map, List.getElem?_map, List.getElem?_modify]
  cases l[j]? with
  | none => rfl
  | some a =>
      by_cases hij : i = j <;> simp [hij, hfg]

namespace FieldRun

def plan (field : FieldRun) : FieldPlan where
  key := field.key
  checks := field.tasks.map Task.check

theorem plan_ofPlan (plan : FieldPlan) : (ofPlan plan).plan = plan := by
  simp [ofPlan, FieldRun.plan, Function.comp_def, Task.idle]

theorem plan_poll (field : FieldRun) (number : ℕ) :
    (field.poll number).plan = field.plan := by
  unfold poll plan
  rw [map_modify_of_eq Task.check_poll]

theorem errors_eq_of_settled
    {field : FieldRun}
    (hsound : ∀ task ∈ field.tasks, task.Sound)
    (hsettled : ∀ task ∈ field.tasks, task.isSettled = true) :
    field.errors = field.plan.errors := by
  have hfilter :
      field.tasks.filter Task.isFailed =
        field.tasks.filter (fun task => !task.check.passes) := by
    apply List.filter_congr
    intro task hmem
    exact Task.isFailed_eq_of_settled (hsound task hmem) (hsettled task hmem)
  unfold errors FieldPlan.errors plan
  rw [hfilter, List.filter_map, List.map_map]
  rfl

end FieldRun

/-! ## Runs -/

namespace Run

def plan (run : Run) : Plan :=
  List.map FieldRun.plan run

/-- A run is on the way from a plan: its checks are those of the plan, and its
answers are those of the validators. -/
structure CarriesOut (run : Run) (goal : Plan) : Prop where
  plan_eq : plan run = goal
  sound : ∀ task ∈ tasks run, task.Sound

theorem carriesOut_ofPlan (goal : Plan) : CarriesOut (ofPlan goal) goal := by
  constructor
  · unfold plan ofPlan
    rw [List.map_map]
    simp [Function.comp_def, FieldRun.plan_ofPlan]
  · intro task hmem
    obtain ⟨field, hfield, htask⟩ := List.mem_flatMap.mp hmem
    obtain ⟨fieldPlan, -, rfl⟩ := List.mem_map.mp hfield
    obtain ⟨check, -, rfl⟩ := List.mem_map.mp htask
    exact Task.sound_idle check

theorem CarriesOut.poll
    {run : Run} {goal : Plan} (hrun : CarriesOut run goal) (place : Place) :
    CarriesOut (poll run place) goal := by
  constructor
  · rw [← hrun.plan_eq]
    exact map_modify_of_eq (fun field => field.plan_poll place.task) run place.field
  · intro task hmem
    obtain ⟨target, htask⟩ := mem_tasks_iff.mp hmem
    rw [task?_poll] at htask
    obtain ⟨before, hbefore, rfl⟩ := Option.map_eq_some_iff.mp htask
    have hsound := hrun.sound before (mem_tasks_iff.mpr ⟨target, hbefore⟩)
    split
    · exact Task.sound_poll hsound
    · exact hsound

theorem CarriesOut.pollAll
    {run : Run} {goal : Plan} (hrun : CarriesOut run goal) (places : List Place) :
    CarriesOut (pollAll run places) goal := by
  induction places generalizing run with
  | nil => exact hrun
  | cons place rest ih => exact ih (hrun.poll place)

/-- A report that can be read off a run is the report of its plan. -/
theorem CarriesOut.report_eq
    {run : Run} {goal : Plan} {report : Report}
    (hrun : CarriesOut run goal) (hreport : report? run = some report) :
    report = goal.report := by
  unfold report? at hreport
  split at hreport
  next hall =>
    rw [List.all_eq_true] at hall
    have hfields :
        List.map FieldRun.errors run = (plan run).map FieldPlan.errors := by
      unfold plan
      rw [List.map_map]
      apply List.map_congr_left
      intro field hfield
      have hmem : ∀ task ∈ field.tasks, task ∈ tasks run := by
        intro task htask
        exact List.mem_flatMap.mpr ⟨field, hfield, htask⟩
      exact FieldRun.errors_eq_of_settled
        (fun task htask => hrun.sound task (hmem task htask))
        (fun task htask => hall task (hmem task htask))
    rw [← Option.some.inj hreport, hfields, hrun.plan_eq]
    rfl
  next => simp at hreport

theorem finish_ofPlan (goal : Plan) : (ofPlan goal).finish = goal.report := by
  have hpolled := (carriesOut_ofPlan goal).pollAll (schedule (ofPlan goal))
  apply hpolled.report_eq
  unfold finish
  rw [Option.some_get]

end Run

end FormCheck
