import FormCheck.Check.Run
import FormCheck.Check.Turns

/-!
# Schedules

A run is finished by polling its tasks until all of them are settled.  The tasks
of a field form a group, and the fields form a group of such groups.  The order
in which the tasks are polled follows from the turns that are taken in these
groups, hence from the number of tasks and from how often each of them waits.
-/

namespace FormCheck

namespace FieldRun

/-- The tasks of a field as jobs, which log the places of the tasks. -/
def jobs (number : Nat) (field : FieldRun) : Group (Repeated Place) :=
  Group.ofJobs <| field.tasks.mapIdx fun task state =>
    { item := { field := number, task }, more := state.remaining - 1 }

end FieldRun

namespace Run

def jobs (run : Run) : Group (Group (Repeated Place)) :=
  Group.ofJobs (run.mapIdx FieldRun.jobs)

/-- The places at which a run is polled until it is finished, in order. -/
def schedule (run : Run) : List Place :=
  Job.run (jobs run)

theorem sublist_flatMap_of_mem {α β : Type} {l : List α} {a : α} (f : α → List β) (hmem : a ∈ l) :
    (f a).Sublist (l.flatMap f) := by
  rw [List.flatMap_def]
  exact List.sublist_flatten_of_mem (List.mem_map_of_mem hmem)

theorem remaining_le_count_schedule {run : Run} {place : Place} {task : Task}
    (htask : task? run place = some task) : task.remaining ≤ (schedule run).count place := by
  obtain ⟨field, hfield, htask⟩ := Option.bind_eq_some_iff.mp htask
  let job : Repeated Place := { item := place, more := task.remaining - 1 }
  have hjob : job ∈ (FieldRun.jobs place.field field).jobs := by
    refine List.mem_of_getElem? (i := place.task) ?_
    simp [FieldRun.jobs, Group.ofJobs, htask, job]
  have hgroup : FieldRun.jobs place.field field ∈ (jobs run).jobs := by
    refine List.mem_of_getElem? (i := place.field) ?_
    simp [jobs, Group.ofJobs, hfield]
  have hsublist : (List.replicate (job.more + 1) place).Sublist (Job.owed (jobs run)) :=
    (sublist_flatMap_of_mem Job.owed hjob).trans (sublist_flatMap_of_mem Job.owed hgroup)
  have hcount := hsublist.count_le place
  rw [List.count_replicate_self, ← (Job.run_perm (jobs run)).count_eq] at hcount
  simp only [schedule, job] at hcount ⊢
  omega

/-- A run has a report when it was polled as scheduled. -/
theorem isSome_report?_schedule (run : Run) :
    (report? (pollAll run (schedule run))).isSome = true := by
  have hsettled : (tasks (pollAll run (schedule run))).all Task.isSettled = true := by
    rw [List.all_eq_true]
    intro task hmem
    obtain ⟨place, htask⟩ := mem_tasks_iff.mp hmem
    have hremaining := remaining_pollAll run (schedule run) place
    rw [htask, Option.map_some] at hremaining
    obtain ⟨start, hstart, hleft⟩ := Option.map_eq_some_iff.mp hremaining.symm
    have hcount := remaining_le_count_schedule hstart
    rw [Task.isSettled_iff_remaining]
    omega
  simp [report?, hsettled]

def finish (run : Run) : Report :=
  (report? (pollAll run (schedule run))).get (isSome_report?_schedule run)

end Run

end FormCheck
