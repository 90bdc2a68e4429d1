import FormCheck.Check.Schedule
import FormCheck.Proofs.TurnsInLine
import FormCheck.Proofs.ValidationOutcome
import Mathlib.Data.List.Flatten
import Mathlib.Data.List.Nodup

/-!
# Which checks are started, and in which order

A check is started by the first poll of its task.  So the checks that a run starts
are read off the places that are polled, each place at its first occurrence.  The
schedule polls every place of a run, therefore every check of a plan is started
exactly once, whatever the validators answer.
-/

namespace FormCheck

/-- Elements that give nothing can be left out. -/
theorem flatMap_filter_eq
    {α β : Type} {p : α → Bool} {f : α → List β} {l : List α}
    (hnothing : ∀ a ∈ l, p a = false → f a = []) : (l.filter p).flatMap f = l.flatMap f := by
  induction l with
  | nil => rfl
  | cons a rest ih =>
      rw [List.forall_mem_cons] at hnothing
      cases ha : p a with
      | true => rw [List.filter_cons_of_pos ha, List.flatMap_cons, List.flatMap_cons, ih hnothing.2]
      | false =>
          rw [List.filter_cons_of_neg (by simp [ha]), List.flatMap_cons, hnothing.1 ha,
            List.nil_append, ih hnothing.2]

/-! ## Places -/

def FieldRun.places (number : ℕ) (field : FieldRun) : List Place :=
  (List.range field.tasks.length).map fun task => { field := number, task }

theorem FieldRun.mem_places_iff {number : ℕ} {field : FieldRun} {place : Place} :
    place ∈ field.places number ↔ place.field = number ∧ place.task < field.tasks.length := by
  obtain ⟨i, j⟩ := place
  simp only [places, List.mem_map, List.mem_range, Place.mk.injEq]
  constructor
  · rintro ⟨task, hbound, rfl, rfl⟩
    exact ⟨rfl, hbound⟩
  · rintro ⟨rfl, hbound⟩
    exact ⟨j, hbound, rfl, rfl⟩

theorem FieldRun.nodup_places (number : ℕ) (field : FieldRun) : (field.places number).Nodup := by
  refine List.Nodup.map ?_ List.nodup_range
  intro task other hsame
  exact (Place.mk.inj hsame).2

theorem FieldRun.places_eq_zipIdx (number : ℕ) (field : FieldRun) :
    field.places number =
      field.tasks.zipIdx.map fun entry => { field := number, task := entry.2 } := by
  unfold places
  rw [List.range_eq_range', ← List.zipIdx_map_snd 0 field.tasks, List.map_map]
  rfl

namespace Run

def places (run : Run) : List Place :=
  (run.mapIdx FieldRun.places).flatten

theorem mem_places_iff {run : Run} {place : Place} :
    place ∈ places run ↔ ∃ task, task? run place = some task := by
  simp only [places, List.mem_flatten, List.mem_mapIdx, task?, Option.bind_eq_some_iff]
  constructor
  · rintro ⟨_, ⟨number, hbound, rfl⟩, hplace⟩
    obtain ⟨rfl, htask⟩ := FieldRun.mem_places_iff.mp hplace
    exact ⟨_, _, List.getElem?_eq_getElem hbound, List.getElem?_eq_getElem htask⟩
  · rintro ⟨task, field, hfield, htask⟩
    obtain ⟨hbound, rfl⟩ := List.getElem?_eq_some_iff.mp hfield
    exact ⟨_, ⟨place.field, hbound, rfl⟩,
      FieldRun.mem_places_iff.mpr ⟨rfl, (List.getElem?_eq_some_iff.mp htask).1⟩⟩

theorem nodup_places (run : Run) : (places run).Nodup := by
  unfold places
  rw [List.nodup_flatten]
  constructor
  · intro list hlist
    obtain ⟨number, hbound, rfl⟩ := List.mem_mapIdx.mp hlist
    exact FieldRun.nodup_places _ _
  · rw [List.pairwise_iff_getElem]
    intro i j hi hj hlt
    rw [List.getElem_mapIdx, List.getElem_mapIdx, List.disjoint_left]
    intro place hfirst hsecond
    have hfield := (FieldRun.mem_places_iff.mp hfirst).1
    have hother := (FieldRun.mem_places_iff.mp hsecond).1
    omega

end Run

/-! ## What polls start -/

theorem Task.starts_poll (task : Task) : task.poll.starts = [] := by
  obtain ⟨check, progress⟩ := task
  rcases progress with _ | (_ | left) | answer
  · simp only [poll]
    split <;> rfl
  · rfl
  · rfl
  · rfl

theorem Task.starts_idle (check : Check) : (Task.idle check).starts = [check] := rfl

namespace Run

/-- The check that is started when a place is polled, if any. -/
def startsAt (run : Run) (place : Place) : List Check :=
  (task? run place).toList.flatMap Task.starts

theorem startsAt_of_task
    {run : Run} {place : Place} {task : Task} (htask : task? run place = some task) :
    startsAt run place = task.starts := by
  simp [startsAt, htask]

theorem startsAt_eq_nil {run : Run} {place : Place} (hplace : place ∉ places run) :
    startsAt run place = [] := by
  cases htask : task? run place with
  | none => simp [startsAt, htask]
  | some task => exact absurd (mem_places_iff.mpr ⟨task, htask⟩) hplace

theorem startsAt_poll (run : Run) (polled place : Place) :
    startsAt (poll run polled) place = if polled = place then [] else startsAt run place := by
  unfold startsAt
  rw [task?_poll]
  cases task? run place with
  | none => simp
  | some task =>
      by_cases hplace : polled = place
      · simp [hplace, Task.starts_poll]
      · simp [hplace]

theorem flatMap_startsAt_poll (run : Run) (place : Place) (polls : List Place) :
    polls.flatMap (startsAt (poll run place)) =
      (polls.filter fun other => !other == place).flatMap (startsAt run) := by
  rw [← flatMap_filter_eq (p := fun other => !other == place)]
  · apply List.flatMap_congr
    intro other hother
    have hne : other ≠ place := by simpa using List.of_mem_filter hother
    rw [startsAt_poll, if_neg hne.symm]
  · intro other _ hother
    have heq : other = place := by simpa using hother
    rw [startsAt_poll, if_pos heq.symm]

/-- Polls start checks by the first occurrences of their places. -/
theorem started_eq (run : Run) (polls : List Place) :
    started run polls = polls.eraseDups.flatMap (startsAt run) := by
  induction polls generalizing run with
  | nil => rfl
  | cons place rest ih =>
      -- After the first poll of a place nothing is started there any more.
      rw [started, ih, flatMap_startsAt_poll, ← eraseDups_filter, List.eraseDups_cons,
        List.flatMap_cons]
      rfl

theorem flatMap_startsAt_field
    {run : Run} {number : ℕ} {field : FieldRun} (hfield : run[number]? = some field) :
    (field.places number).flatMap (startsAt run) = field.tasks.flatMap Task.starts := by
  rw [FieldRun.places_eq_zipIdx, List.flatMap_map]
  conv_rhs => rw [← List.zipIdx_map_fst 0 field.tasks, List.flatMap_map]
  apply List.flatMap_congr
  rintro ⟨task, index⟩ hentry
  have htask : task? run { field := number, task := index } = some task := by
    simpa [task?, hfield] using List.mk_mem_zipIdx_iff_getElem?.mp hentry
  exact startsAt_of_task htask

theorem flatMap_startsAt_places (run : Run) :
    (places run).flatMap (startsAt run) = (tasks run).flatMap Task.starts := by
  unfold places tasks
  rw [List.mapIdx_eq_zipIdx_map, ← List.flatMap_def, List.flatMap_assoc, List.flatMap_assoc]
  conv_rhs => rw [← List.zipIdx_map_fst 0 run, List.flatMap_map]
  apply List.flatMap_congr
  rintro ⟨field, number⟩ hentry
  exact flatMap_startsAt_field (List.mk_mem_zipIdx_iff_getElem?.mp hentry)

/-- Polls that reach every place of a run start each of its idle tasks once. -/
theorem started_perm
    {run : Run} {polls : List Place} (hpolls : ∀ place ∈ places run, place ∈ polls) :
    (started run polls).Perm ((tasks run).flatMap Task.starts) := by
  have hplaces :
      (polls.eraseDups.filter fun place => place ∈ places run).Perm (places run) := by
    rw [List.perm_ext_iff_of_nodup ((nodup_eraseDups polls).filter _) (nodup_places run)]
    intro place
    simp only [List.mem_filter, List.mem_eraseDups, decide_eq_true_eq]
    exact ⟨fun hboth => hboth.2, fun hplace => ⟨hpolls place hplace, hplace⟩⟩
  have hothers :
      (polls.eraseDups.filter fun place => place ∈ places run).flatMap (startsAt run) =
        polls.eraseDups.flatMap (startsAt run) := by
    apply flatMap_filter_eq
    intro place _ hplace
    exact startsAt_eq_nil (by simpa using hplace)
  rw [started_eq, ← flatMap_startsAt_places, ← hothers]
  exact hplaces.flatMap_right _

theorem flatMap_starts_ofPlan (goal : Plan) :
    (tasks (ofPlan goal)).flatMap Task.starts = goal.flatMap FieldPlan.checks := by
  unfold tasks ofPlan
  rw [List.flatMap_map, List.flatMap_assoc]
  apply List.flatMap_congr
  intro field _
  simp [FieldRun.ofPlan, List.flatMap_map, Task.starts_idle]

end Run

/-! ## The jobs of a schedule -/

theorem Repeated.call_log {β : Type} (job : Repeated β) : (Job.call job).1 = [job.item] := rfl

theorem Repeated.mem_owed_iff {β : Type} {job : Repeated β} {b : β} :
    b ∈ Job.owed job ↔ b = job.item := by
  change b ∈ List.replicate (job.more + 1) job.item ↔ _
  simp

namespace FieldRun

theorem items_jobs (number : ℕ) (field : FieldRun) :
    (field.jobs number).jobs.map Repeated.item = field.places number := by
  unfold jobs Group.ofJobs
  rw [places_eq_zipIdx, List.mapIdx_eq_zipIdx_map, List.map_map]
  rfl

theorem log_jobs (number : ℕ) (field : FieldRun) :
    ((field.jobs number).jobs.flatMap fun job => (Job.call job).1) = field.places number := by
  rw [← items_jobs, List.map_eq_flatMap]
  rfl

theorem mem_owed_jobs_iff {number : ℕ} {field : FieldRun} {place : Place} :
    place ∈ Job.owed (field.jobs number) ↔ place ∈ field.places number := by
  change place ∈ (field.jobs number).jobs.flatMap Job.owed ↔ _
  rw [← items_jobs, List.mem_flatMap, List.mem_map]
  simp only [Repeated.mem_owed_iff, eq_comm]

theorem field_of_mem_owed
    {number : ℕ} {field : FieldRun} {place : Place}
    (hplace : place ∈ Job.owed (field.jobs number)) : place.field = number :=
  (mem_places_iff.mp (mem_owed_jobs_iff.mp hplace)).1

theorem eraseDups_run_jobs (number : ℕ) (field : FieldRun) :
    (Job.run (field.jobs number)).eraseDups = field.places number := by
  rw [← log_jobs]
  refine Group.eraseDups_run ?_ ?_ ?_
  · intro job _
    exact List.prefix_rfl
  · intro job _ place hplace
    simpa [Repeated.call_log] using Repeated.mem_owed_iff.mp hplace
  · rw [log_jobs]
    exact field.nodup_places number

end FieldRun

namespace Run

theorem lead_jobs (run : Run) :
    ((jobs run).jobs.flatMap fun field => field.jobs.map Repeated.item) = places run := by
  unfold jobs places Group.ofJobs
  rw [List.flatMap_def, List.mapIdx_eq_zipIdx_map, List.mapIdx_eq_zipIdx_map, List.map_map]
  simp only [Function.comp_def, FieldRun.items_jobs]

theorem mem_jobs_iff {run : Run} {group : Group (Repeated Place)} :
    group ∈ (jobs run).jobs ↔
      ∃ number field, run[number]? = some field ∧ group = FieldRun.jobs number field := by
  simp only [jobs, Group.ofJobs, List.mem_iff_getElem?, List.getElem?_mapIdx,
    Option.map_eq_some_iff]
  constructor
  · rintro ⟨number, field, hfield, rfl⟩
    exact ⟨number, field, hfield, rfl⟩
  · rintro ⟨number, field, hfield, rfl⟩
    exact ⟨number, field, hfield, rfl⟩

/-- When the first call of every field polls all its tasks, the tasks are polled for
the first time field by field. -/
theorem eraseDups_schedule
    {run : Run}
    (hbegins : ∀ number field, run[number]? = some field →
      (FieldRun.jobs number field).BeginsInOrder) :
    (schedule run).eraseDups = places run := by
  unfold schedule
  rw [← lead_jobs]
  refine Group.eraseDups_run ?_ ?_ ?_
  · intro group hgroup
    obtain ⟨number, field, hfield, rfl⟩ := mem_jobs_iff.mp hgroup
    rw [FieldRun.items_jobs, ← FieldRun.log_jobs]
    exact hbegins number field hfield
  · intro group hgroup place hplace
    obtain ⟨number, field, -, rfl⟩ := mem_jobs_iff.mp hgroup
    rw [FieldRun.items_jobs]
    exact FieldRun.mem_owed_jobs_iff.mp hplace
  · rw [lead_jobs]
    exact nodup_places run

/-- What is scheduled for a field is what would be scheduled for it alone. -/
theorem filter_schedule
    {run : Run} {number : ℕ} {field : FieldRun} (hfield : run[number]? = some field) :
    (schedule run).filter (fun place => place.field = number) =
      Job.run (field.jobs number) := by
  have hgroup : (jobs run).jobs[number]? = some (field.jobs number) := by
    simp [jobs, Group.ofJobs, hfield]
  obtain ⟨hbound, hget⟩ := List.getElem?_eq_some_iff.mp hgroup
  have hsplit : (jobs run).jobs =
      (jobs run).jobs.take number ++ field.jobs number :: (jobs run).jobs.drop (number + 1) := by
    rw [← hget, ← List.drop_eq_getElem_cons hbound, List.take_append_drop]
  have hothers : ∀ other ∈ (jobs run).jobs.take number ++ (jobs run).jobs.drop (number + 1),
      ∃ index waiting, index ≠ number ∧ other = FieldRun.jobs index waiting := by
    intro other hother
    rcases List.mem_append.mp hother with hfirst | hlast
    · obtain ⟨index, hindex, rfl⟩ := List.mem_take_iff_getElem.mp hfirst
      exact ⟨index, _, by omega, List.getElem_mapIdx⟩
    · obtain ⟨index, hindex, rfl⟩ := List.mem_drop_iff_getElem.mp hlast
      exact ⟨number + 1 + index, _, by omega, List.getElem_mapIdx⟩
  unfold schedule
  rw [Group.run_eq_runLine, hsplit]
  refine Group.filter_runLine ?_ ?_
  · intro place hplace
    simpa using FieldRun.field_of_mem_owed hplace
  · intro other hother place hplace
    obtain ⟨index, waiting, hindex, rfl⟩ := hothers other hother
    simpa [FieldRun.field_of_mem_owed hplace] using hindex

/-- The tasks of one field are polled for the first time in order, whatever happens to
the other fields. -/
theorem places_sublist_schedule
    {run : Run} {number : ℕ} {field : FieldRun} (hfield : run[number]? = some field) :
    (field.places number).Sublist (schedule run).eraseDups := by
  rw [← FieldRun.eraseDups_run_jobs, ← filter_schedule hfield, eraseDups_filter]
  exact List.filter_sublist

theorem mem_schedule {run : Run} {place : Place} (hplace : place ∈ places run) :
    place ∈ schedule run := by
  obtain ⟨task, htask⟩ := mem_places_iff.mp hplace
  obtain ⟨field, hfield, hbound⟩ := Option.bind_eq_some_iff.mp htask
  rw [← List.mem_eraseDups]
  refine (places_sublist_schedule hfield).subset (FieldRun.mem_places_iff.mpr ⟨rfl, ?_⟩)
  exact (List.getElem?_eq_some_iff.mp hbound).1

end Run

/-! ## Plans -/

namespace Plan

/-- The first call of the group of a field's tasks polls all of them in order.  This
is all that is assumed of how tasks take turns.  Only a group of more than thirty
tasks, two of which in succession wait, begins otherwise. -/
def BeginsInOrder (goal : Plan) : Prop :=
  ∀ number field, (Run.ofPlan goal)[number]? = some field →
    (FieldRun.jobs number field).BeginsInOrder

theorem started_carryOut (goal : Plan) :
    goal.carryOut.started =
      Run.started (Run.ofPlan goal) (Run.schedule (Run.ofPlan goal)) := rfl

theorem started_carryOut_perm (goal : Plan) :
    goal.carryOut.started.Perm (goal.flatMap FieldPlan.checks) := by
  rw [started_carryOut, ← Run.flatMap_starts_ofPlan]
  exact Run.started_perm fun place hplace => Run.mem_schedule hplace

theorem checks_sublist_started
    {goal : Plan} {field : FieldPlan} (hfield : field ∈ goal) :
    field.checks.Sublist goal.carryOut.started := by
  obtain ⟨number, hnumber⟩ := List.mem_iff_getElem?.mp hfield
  have hrun : (Run.ofPlan goal)[number]? = some (FieldRun.ofPlan field) := by
    simp [Run.ofPlan, hnumber]
  have hchecks : (FieldRun.ofPlan field).tasks.flatMap Task.starts = field.checks := by
    simp [FieldRun.ofPlan, List.flatMap_map, Task.starts_idle]
  rw [started_carryOut, Run.started_eq, ← hchecks, ← Run.flatMap_startsAt_field hrun]
  exact (Run.places_sublist_schedule hrun).flatMap _

theorem started_of_beginsInOrder {goal : Plan} (hbegins : goal.BeginsInOrder) :
    goal.carryOut.started = goal.flatMap FieldPlan.checks := by
  rw [started_carryOut, Run.started_eq, Run.eraseDups_schedule hbegins,
    Run.flatMap_startsAt_places, Run.flatMap_starts_ofPlan]

/-- Up to thirty checks of a field are polled in one call, and any number of them if
none suspends. -/
theorem beginsInOrder_of_small_or_prompt
    {goal : Plan}
    (hfields : ∀ field ∈ goal, field.checks.length ≤ Group.greatestSize ∨
      ∀ check ∈ field.checks, check.validator.suspensions check.context = 0) :
    goal.BeginsInOrder := by
  intro number run hrun
  simp only [Run.ofPlan, List.getElem?_map, Option.map_eq_some_iff] at hrun
  obtain ⟨field, hfield, rfl⟩ := hrun
  rcases hfields field (List.mem_of_getElem? hfield) with hsmall | hprompt
  · apply Group.beginsInOrder_of_not_crowded
    simpa [FieldRun.jobs, Group.ofJobs, FieldRun.ofPlan] using hsmall
  · apply Group.beginsInOrder_of_done
    intro job hjob
    obtain ⟨index, hindex, rfl⟩ := List.mem_mapIdx.mp hjob
    have hbound : index < field.checks.length := by
      simpa [FieldRun.ofPlan] using hindex
    have hcheck := hprompt field.checks[index] (List.getElem_mem hbound)
    simp [FieldRun.ofPlan, Task.idle, Task.remaining, hcheck, Job.call, Repeated.call]

theorem Covers.flatMap_contexts
    {form : Option String} {rules : RuleMap} {registry : Registry}
    {submission : Submission} {plan : Plan}
    (hcovers : Covers form rules registry submission plan) :
    (plan.flatMap FieldPlan.checks).map Check.context =
      submission.entries.flatMap (contextsOf form rules submission) := by
  have hcontexts := congrArg (List.flatMap Prod.snd) hcovers.contexts
  rw [List.flatMap_map, List.flatMap_map, flatMap_filter_eq] at hcontexts
  · rw [List.map_flatMap]
    exact hcontexts
  · intro entry _ hempty
    have hrules : rulesOf rules entry.1 = [] := by simpa using hempty
    simp [contextsOf, hrules]

theorem Covers.exists_field
    {form : Option String} {rules : RuleMap} {registry : Registry}
    {submission : Submission} {plan : Plan} {entry : String × Value}
    (hcovers : Covers form rules registry submission plan)
    (hentry : entry ∈ submission.entries) (hrules : rulesOf rules entry.1 ≠ []) :
    ∃ field ∈ plan, field.checks.map Check.context = contextsOf form rules submission entry := by
  have hmem : (entry.1, contextsOf form rules submission entry) ∈
      plan.map fun field => (field.key, field.checks.map Check.context) := by
    rw [hcovers.contexts]
    exact List.mem_map.mpr ⟨entry, List.mem_filter.mpr ⟨hentry, by simpa using hrules⟩, rfl⟩
  obtain ⟨field, hfield, hsame⟩ := List.mem_map.mp hmem
  exact ⟨field, hfield, (Prod.mk.inj hsame).2⟩

end Plan

/-! ## Validations -/

namespace Checker

/-- When every rule has a validator, a validation asks the validator of every rule of
every submitted field exactly once, in the context of the rule, whatever the
validators answer.  The rules of a field are asked in the order of declaration.  If
the first call of each field's group polls all its tasks, the fields follow each
other in the order of submission. -/
theorem validate_starts_every_rule_once
    (checker : Checker) (submission : Submission) (plan : Plan)
    (hplan : Plan.make? checker.form checker.rules checker.registry submission =
      .ok plan) :
    (∀ check ∈ (checker.validate submission).started,
      checker.registry.resolve? check.context.rule = some check.validator) ∧
    ((checker.validate submission).started.map Check.context).Perm
      (submission.entries.flatMap
        (Plan.contextsOf checker.form checker.rules submission)) ∧
    (∀ entry ∈ submission.entries,
      (Plan.contextsOf checker.form checker.rules submission entry).Sublist
        ((checker.validate submission).started.map Check.context)) ∧
    (plan.BeginsInOrder →
      (checker.validate submission).started.map Check.context =
        submission.entries.flatMap
          (Plan.contextsOf checker.form checker.rules submission)) := by
  have hcovers := Plan.covers_of_make? hplan
  have hperm := plan.started_carryOut_perm
  rw [validate_of_ok hplan, ← hcovers.flatMap_contexts]
  refine ⟨?_, hperm.map Check.context, ?_, ?_⟩
  · intro check hcheck
    obtain ⟨field, hfield, hmem⟩ := List.mem_flatMap.mp (hperm.mem_iff.mp hcheck)
    exact hcovers.resolved field hfield check hmem
  · intro entry hentry
    by_cases hrules : Plan.rulesOf checker.rules entry.1 = []
    · simp [Plan.contextsOf, hrules]
    · obtain ⟨field, hfield, hcontexts⟩ := hcovers.exists_field hentry hrules
      rw [← hcontexts]
      exact (Plan.checks_sublist_started hfield).map Check.context
  · intro hbegins
    rw [Plan.started_of_beginsInOrder hbegins]

def reluctant : Validator where
  origin := .custom
  answer := fun _ => false
  suspensions := fun _ => 2

def hesitating : Checker where
  form := some ""
  rules :=
    { entries :=
        [("a", [⟨"wait", ["1", ""]⟩, ⟨"required", []⟩, ⟨"wait", ["1", ""]⟩]),
          ("b", [⟨"isTrue", []⟩]), ("c", [])]
      keys_nodup := by decide }
  registry := Registry.builtins.register "wait" reluctant

def reversed : Submission where
  entries := [("c", .text "x"), ("b", .bool false), ("a", .text "")]
  keys_nodup := by decide

def reversedPlan : Plan :=
  [{ key := "b",
     checks :=
       [{ validator := Builtin.validator .isTrue,
          context := ⟨"b", .bool false, reversed, some "", "isTrue", []⟩ }] },
    { key := "a",
      checks :=
        [{ validator := reluctant,
           context := ⟨"a", .text "", reversed, some "", "wait", ["1", ""]⟩ },
          { validator := Builtin.validator .required,
            context := ⟨"a", .text "", reversed, some "", "required", []⟩ },
          { validator := reluctant,
            context := ⟨"a", .text "", reversed, some "", "wait", ["1", ""]⟩ }] }]

theorem validate_reversed_starts_in_order :
    Plan.make? hesitating.form hesitating.rules hesitating.registry reversed =
      .ok reversedPlan ∧
    reversedPlan.BeginsInOrder ∧
    (hesitating.validate reversed).started.map Check.context =
      [⟨"b", .bool false, reversed, some "", "isTrue", []⟩,
        ⟨"a", .text "", reversed, some "", "wait", ["1", ""]⟩,
        ⟨"a", .text "", reversed, some "", "required", []⟩,
        ⟨"a", .text "", reversed, some "", "wait", ["1", ""]⟩] := by
  have hplan : Plan.make? hesitating.form hesitating.rules hesitating.registry reversed =
      .ok reversedPlan := by rfl
  have hbegins : reversedPlan.BeginsInOrder := by
    apply Plan.beginsInOrder_of_small_or_prompt
    intro field hfield
    left
    revert field
    decide
  have hstarts := validate_starts_every_rule_once hesitating reversed reversedPlan hplan
  refine ⟨hplan, hbegins, ?_⟩
  rw [hstarts.2.2.2 hbegins]
  rfl

end Checker

end FormCheck
