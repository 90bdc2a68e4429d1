import FormCheck.Check.Plan
import FormCheck.Check.Report

/-!
# Runs

A run carries out a plan.  Every check is a task of its own: it is started when
it is first polled, may then wait for a number of further polls, and settles
with the answer of its validator.  The tasks can be polled in any order.  The
answer is kept with the task, so it does not matter in which order the tasks
settle.  A report can be read off a run when all its tasks are settled, and not
before.
-/

namespace FormCheck

inductive Progress where
  | idle
  | waiting (left : Nat)
  | settled (answer : Bool)
  deriving DecidableEq

structure Task where
  check : Check
  progress : Progress

namespace Task

def idle (check : Check) : Task := { check, progress := .idle }

def poll (task : Task) : Task :=
  match task.progress with
  | .idle =>
    -- A validator that does not suspend answers in the poll that starts it.
    match task.check.validator.suspensions task.check.context with
    | 0 => { task with progress := .settled task.check.passes }
    | left + 1 => { task with progress := .waiting left }
  | .waiting 0 => { task with progress := .settled task.check.passes }
  | .waiting (left + 1) => { task with progress := .waiting left }
  | .settled _ => task

def starts (task : Task) : List Check :=
  match task.progress with
  | .idle => [task.check]
  | _ => []

def isSettled (task : Task) : Bool :=
  match task.progress with
  | .settled _ => true
  | _ => false

def isFailed (task : Task) : Bool :=
  task.progress = .settled false

/-- The number of polls until a task is settled. -/
def remaining (task : Task) : Nat :=
  match task.progress with
  | .idle => task.check.validator.suspensions task.check.context + 1
  | .waiting left => left + 1
  | .settled _ => 0

theorem remaining_poll (task : Task) : task.poll.remaining = task.remaining - 1 := by
  obtain ⟨check, progress⟩ := task
  rcases progress with _ | (_ | left) | answer
  · simp only [poll]
    split
    · next h => simp [remaining, h]
    · next left h => simp [remaining, h]
  · simp [poll, remaining]
  · simp [poll, remaining]
  · simp [poll, remaining]

theorem isSettled_iff_remaining (task : Task) : task.isSettled = true ↔ task.remaining = 0 := by
  obtain ⟨check, progress⟩ := task
  cases progress <;> simp [isSettled, remaining]

end Task

structure FieldRun where
  key : String
  tasks : List Task

namespace FieldRun

def ofPlan (plan : FieldPlan) : FieldRun :=
  { key := plan.key, tasks := plan.checks.map Task.idle }

def poll (field : FieldRun) (number : Nat) : FieldRun :=
  { field with tasks := field.tasks.modify number Task.poll }

def errors (field : FieldRun) : FieldErrors :=
  { key := field.key,
    failed := (field.tasks.filter Task.isFailed).map fun task => task.check.context.rule }

end FieldRun

/-- The place of a task in a run: the number of its field, and its own number in the field. -/
structure Place where
  field : Nat
  task : Nat
  deriving DecidableEq

abbrev Run := List FieldRun

namespace Run

def ofPlan (plan : Plan) : Run :=
  plan.map FieldRun.ofPlan

def tasks (run : Run) : List Task :=
  run.flatMap FieldRun.tasks

def task? (run : Run) (place : Place) : Option Task :=
  run[place.field]?.bind fun field => field.tasks[place.task]?

def poll (run : Run) (place : Place) : Run :=
  run.modify place.field fun field => field.poll place.task

def pollAll (run : Run) (places : List Place) : Run :=
  places.foldl poll run

/-- The checks that are started when tasks are polled one after the other. -/
def started (run : Run) : List Place → List Check
  | [] => []
  | place :: rest => (task? run place).toList.flatMap Task.starts ++ started (poll run place) rest

/-- The report of a run, once every task is settled. -/
def report? (run : Run) : Option Report :=
  if (tasks run).all Task.isSettled then some (Report.ofFields (run.map FieldRun.errors)) else none

theorem mem_tasks_iff {run : Run} {task : Task} :
    task ∈ tasks run ↔ ∃ place, task? run place = some task := by
  rw [tasks, List.mem_flatMap]
  simp only [List.mem_iff_getElem?, task?, Option.bind_eq_some_iff]
  constructor
  · rintro ⟨field, ⟨i, hfield⟩, j, htask⟩
    exact ⟨⟨i, j⟩, field, hfield, htask⟩
  · rintro ⟨place, field, hfield, htask⟩
    exact ⟨field, ⟨place.field, hfield⟩, place.task, htask⟩

theorem task?_poll (run : Run) (polled place : Place) :
    task? (poll run polled) place =
      (task? run place).map fun task => if polled = place then task.poll else task := by
  obtain ⟨i, j⟩ := polled
  obtain ⟨k, l⟩ := place
  simp only [task?, poll, List.getElem?_modify, Place.mk.injEq]
  cases run[k]? with
  | none => rfl
  | some field =>
    by_cases hfield : i = k
    · simp [hfield, FieldRun.poll, List.getElem?_modify]
    · simp [hfield]

/-- Every poll of a task takes one from what remains of it. -/
theorem remaining_pollAll (run : Run) (places : List Place) (place : Place) :
    (task? (pollAll run places) place).map Task.remaining =
      (task? run place).map fun task => task.remaining - places.count place := by
  induction places generalizing run with
  | nil => simp [pollAll]
  | cons polled rest ih =>
    have hrest := ih (poll run polled)
    simp only [pollAll, List.foldl_cons] at hrest ⊢
    rw [hrest, task?_poll, Option.map_map]
    congr 1
    funext task
    by_cases hplace : polled = place
    · simp [hplace, Task.remaining_poll]
      omega
    · simp [hplace]

end Run

end FormCheck
