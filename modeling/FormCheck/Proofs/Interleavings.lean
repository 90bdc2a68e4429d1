import FormCheck.Proofs.Joins
import Mathlib.Algebra.GroupWithZero.Nat
import Mathlib.Logic.Relation

/-!
# Interleavings

The tasks of a plan may suspend any number of times, and they may be polled in any
order.  A field stores its errors at any time after its tasks are settled, so the
fields are finished in any order too.  An invariant relates the slots that are
filled to the tasks that are settled.  It follows that the report does not depend
on the interleaving, and that it is the report of the plan whose checks are
answered one after the other.
-/

namespace FormCheck

/-! ## Plans with other suspensions -/

private theorem map_mapIdx_of_eq
    {α β : Type} {f : ℕ → α → α} {g : α → β} (hfg : ∀ i a, g (f i a) = g a)
    (l : List α) : (l.mapIdx f).map g = l.map g := by
  apply List.ext_getElem?
  intro i
  rw [List.getElem?_map, List.getElem?_map, List.getElem?_mapIdx]
  cases l[i]? with
  | none => rfl
  | some a => exact congrArg some (hfg i a)

def Check.suspending (check : Check) (count : ℕ) : Check :=
  { check with validator := { check.validator with suspensions := fun _ => count } }

theorem FieldPlan.errors_eq_of_asked
    {field other : FieldPlan} (hkey : field.key = other.key)
    (hasked : (field.checks.map fun check => (check.passes, check.context.rule)) =
      other.checks.map fun check => (check.passes, check.context.rule)) :
    field.errors = other.errors := by
  have hfailed := congrArg
    (fun asked : List (Bool × String) => (asked.filter fun one => !one.1).map Prod.snd) hasked
  simp only [List.filter_map, List.map_map] at hfailed
  unfold errors
  rw [hkey]
  exact congrArg (FieldErrors.mk other.key) hfailed

namespace Plan

/-- The plan in which every check suspends as often as is given for its place. -/
def suspending (goal : Plan) (counts : Place → ℕ) : Plan :=
  goal.mapIdx fun number field =>
    { field with
      checks := field.checks.mapIdx fun task check =>
        check.suspending (counts { field := number, task }) }

def checkAt? (goal : Plan) (place : Place) : Option Check :=
  goal[place.field]?.bind fun field => field.checks[place.task]?

theorem checkAt?_suspending (goal : Plan) (counts : Place → ℕ) (place : Place) :
    (goal.suspending counts).checkAt? place =
      (goal.checkAt? place).map fun check => check.suspending (counts place) := by
  unfold checkAt? suspending
  rw [List.getElem?_mapIdx]
  cases goal[place.field]? with
  | none => rfl
  | some field => simp [List.getElem?_mapIdx]

theorem map_errors_suspending (goal : Plan) (counts : Place → ℕ) :
    (goal.suspending counts).map FieldPlan.errors = goal.map FieldPlan.errors := by
  apply map_mapIdx_of_eq
  intro number field
  apply FieldPlan.errors_eq_of_asked
  · rfl
  · apply map_mapIdx_of_eq
    intro task check
    rfl

theorem report_suspending (goal : Plan) (counts : Place → ℕ) :
    (goal.suspending counts).report = goal.report := by
  unfold report
  rw [map_errors_suspending]

end Plan

/-! ## Steps -/

/-- A plan that is under way: its tasks, which hold their answers, and a slot for the
errors of each field. -/
structure Joining where
  run : Run
  slots : List (Option FieldErrors)

namespace Joining

def start (goal : Plan) : Joining where
  run := Run.ofPlan goal
  slots := goal.map fun _ => none

def answer? (state : Joining) (place : Place) : Option Bool :=
  (Run.task? state.run place).bind Task.answer?

def report? (state : Joining) : Option Report :=
  (join state.slots).map Report.ofFields

/-- A task that is not settled is polled, or a field whose answers are all there
stores its errors. -/
inductive Step : Joining → Joining → Prop where
  | poll {state : Joining} {place : Place} {task : Task}
      (htask : Run.task? state.run place = some task)
      (hpending : task.isSettled = false) :
      Step state { state with run := Run.poll state.run place }
  | store {state : Joining} {number : ℕ} {field : FieldRun} {errors : FieldErrors}
      (hfield : state.run[number]? = some field)
      (houtput : field.output? = some errors)
      (hempty : state.slots[number]? = some none) :
      Step state { state with slots := state.slots.set number (some errors) }

def Leads : Joining → Joining → Prop :=
  Relation.ReflTransGen Step

theorem leads_poll (state : Joining) (place : Place) :
    Leads state { state with run := Run.poll state.run place } := by
  by_cases hsettled : ∀ task, Run.task? state.run place = some task → task.isSettled = true
  · rw [Run.poll_eq_self hsettled]
    exact .refl
  · simp only [not_forall, Bool.not_eq_true] at hsettled
    obtain ⟨task, htask, hpending⟩ := hsettled
    exact .single (Step.poll htask hpending)

/-- Polls in any order are an interleaving. -/
theorem leads_pollAll (state : Joining) (places : List Place) :
    Leads state { state with run := Run.pollAll state.run places } := by
  induction places generalizing state with
  | nil => exact .refl
  | cons place rest ih =>
      have hfirst := leads_poll state place
      exact hfirst.trans (ih { state with run := Run.poll state.run place })

/-! ## What an interleaving keeps -/

/-- A slot that is filled holds the errors of its own field, all of whose tasks are
settled. -/
structure Follows (state : Joining) (goal : Plan) : Prop where
  carriesOut : Run.CarriesOut state.run goal
  length_slots : state.slots.length = state.run.length
  stored : ∀ (number : ℕ) (errors : FieldErrors), state.slots[number]? = some (some errors) →
    ∃ field : FieldRun, state.run[number]? = some field ∧ field.output? = some errors

variable {state next : Joining} {goal : Plan}

theorem follows_start (goal : Plan) : (start goal).Follows goal := by
  constructor
  · exact Run.carriesOut_ofPlan goal
  · simp [start, Run.ofPlan]
  · intro number errors hslot
    have hnever : some errors ∈ goal.map fun _ => (none : Option FieldErrors) :=
      List.mem_of_getElem? hslot
    simp at hnever

theorem Follows.poll (hstate : state.Follows goal) (place : Place) :
    Follows { state with run := Run.poll state.run place } goal := by
  constructor
  · exact hstate.carriesOut.poll place
  · simpa [Run.poll] using hstate.length_slots
  · intro number errors hslot
    obtain ⟨field, hfield, houtput⟩ := hstate.stored number errors hslot
    by_cases hnumber : place.field = number
    · refine ⟨field.poll place.task, ?_, FieldRun.output?_poll houtput place.task⟩
      simp [Run.poll, hfield, hnumber]
    · refine ⟨field, ?_, houtput⟩
      simp [Run.poll, hfield, hnumber]

theorem Follows.store
    {number : ℕ} {field : FieldRun} {errors : FieldErrors}
    (hstate : state.Follows goal) (hfield : state.run[number]? = some field)
    (houtput : field.output? = some errors) :
    Follows { state with slots := state.slots.set number (some errors) } goal := by
  constructor
  · exact hstate.carriesOut
  · simpa using hstate.length_slots
  · intro other found hslot
    by_cases hnumber : number = other
    · subst hnumber
      have hbound := (List.getElem?_eq_some_iff.mp hslot).1
      rw [List.getElem?_set_self (by simpa using hbound)] at hslot
      have hfound : errors = found := by simpa using hslot
      exact ⟨field, hfield, hfound ▸ houtput⟩
    · rw [List.getElem?_set_ne hnumber] at hslot
      exact hstate.stored other found hslot

theorem Follows.step (hstate : state.Follows goal) (hstep : Step state next) :
    next.Follows goal := by
  cases hstep with
  | poll htask hpending => exact hstate.poll _
  | store hfield houtput hempty => exact hstate.store hfield houtput

theorem Follows.leads (hstate : state.Follows goal) (hleads : Leads state next) :
    next.Follows goal := by
  induction hleads with
  | refl => exact hstate
  | tail _ hstep ih => exact ih.step hstep

/-! ## What the slots hold -/

theorem Follows.answer?_eq
    {place : Place} {answer : Bool} (hstate : state.Follows goal)
    (hanswer : state.answer? place = some answer) :
    (goal.checkAt? place).map Check.passes = some answer := by
  obtain ⟨task, htask, hslot⟩ := Option.bind_eq_some_iff.mp hanswer
  have hsound := hstate.carriesOut.sound task (Run.mem_tasks_iff.mpr ⟨place, htask⟩)
  have hcheck : goal.checkAt? place = some task.check := by
    obtain ⟨field, hfield, hnumber⟩ := Option.bind_eq_some_iff.mp htask
    rw [← hstate.carriesOut.plan_eq]
    simp [Plan.checkAt?, Run.plan, FieldRun.plan, hfield, hnumber]
  rw [hcheck, Option.map_some, hsound.answer?_eq hslot]

theorem Follows.stored_eq
    {number : ℕ} {errors : FieldErrors} (hstate : state.Follows goal)
    (hslot : state.slots[number]? = some (some errors)) :
    goal[number]?.map FieldPlan.errors = some errors := by
  obtain ⟨field, hfield, houtput⟩ := hstate.stored number errors hslot
  obtain ⟨hsettled, herrors⟩ := FieldRun.output?_eq_some_iff.mp houtput
  have hsound : ∀ task ∈ field.tasks, task.Sound := by
    intro task htask
    exact hstate.carriesOut.sound task
      (List.mem_flatMap.mpr ⟨field, List.mem_of_getElem? hfield, htask⟩)
  have hplan : goal[number]? = some field.plan := by
    rw [← hstate.carriesOut.plan_eq]
    simp [Run.plan, hfield]
  rw [hplan, Option.map_some, ← FieldRun.errors_eq_of_settled hsound hsettled, herrors]

/-- When all slots are filled, they hold what could be read off the tasks. -/
theorem Follows.report?_run
    {report : Report} (hstate : state.Follows goal) (hreport : state.report? = some report) :
    Run.report? state.run = some report := by
  obtain ⟨outputs, hjoin, hfields⟩ := Option.map_eq_some_iff.mp hreport
  have hslots := join_eq_some_iff.mp hjoin
  have houtputs : List.map FieldRun.output? state.run = state.slots := by
    apply List.ext_getElem
    · rw [List.length_map, hstate.length_slots]
    · intro number hrun hslot
      have hfilled : state.slots[number] ∈ outputs.map some :=
        hslots ▸ List.getElem_mem hslot
      obtain ⟨errors, -, herrors⟩ := List.mem_map.mp hfilled
      obtain ⟨field, hfield, houtput⟩ := hstate.stored number errors
        (by rw [List.getElem?_eq_getElem hslot, herrors])
      rw [List.getElem?_eq_getElem (by simpa using hrun)] at hfield
      rw [List.getElem_map, Option.some.inj hfield, houtput, herrors]
  rw [Run.report?_eq_join, houtputs, hjoin, Option.map_some, hfields]

theorem Follows.all_settled
    {report : Report} (hstate : state.Follows goal) (hreport : state.report? = some report) :
    (Run.tasks state.run).all Task.isSettled = true := by
  have hrun := hstate.report?_run hreport
  unfold Run.report? at hrun
  by_contra hpending
  rw [if_neg hpending] at hrun
  exact absurd hrun (by simp)

theorem Follows.report_eq
    {report : Report} (hstate : state.Follows goal) (hreport : state.report? = some report) :
    report = goal.report :=
  hstate.carriesOut.report_eq (hstate.report?_run hreport)

/-! ## How interleavings end -/

private theorem sum_map_modify_lt
    {α : Type} {f : α → α} {g : α → ℕ} {l : List α} {i : ℕ} {a : α}
    (ha : l[i]? = some a) (hlt : g (f a) < g a) :
    ((l.modify i f).map g).sum < (l.map g).sum := by
  induction l generalizing i with
  | nil => simp at ha
  | cons head rest ih =>
      cases i with
      | zero =>
          obtain rfl : head = a := by simpa using ha
          simpa using hlt
      | succ i => simpa using ih (by simpa using ha)

/-- The polls and the stores that are left. -/
def left (state : Joining) : ℕ :=
  (state.run.map fun field => (field.tasks.map Task.remaining).sum).sum +
    state.slots.countP Option.isNone

theorem left_lt_of_step (hstep : Step state next) : next.left < state.left := by
  cases hstep with
  | @poll place task htask hpending =>
      obtain ⟨field, hfield, hnumber⟩ := Option.bind_eq_some_iff.mp htask
      have hremaining : task.poll.remaining < task.remaining := by
        have hne : task.remaining ≠ 0 := by
          rw [Ne, ← Task.isSettled_iff_remaining, hpending]
          exact Bool.false_ne_true
        rw [Task.remaining_poll]
        omega
      have hpolled : ((field.poll place.task).tasks.map Task.remaining).sum <
          (field.tasks.map Task.remaining).sum := sum_map_modify_lt hnumber hremaining
      have hrun := sum_map_modify_lt (f := fun field => field.poll place.task)
        (g := fun field => (field.tasks.map Task.remaining).sum) hfield hpolled
      unfold left
      exact Nat.add_lt_add_right hrun _
  | @store number field errors hfield houtput hempty =>
      obtain ⟨hbound, hget⟩ := List.getElem?_eq_some_iff.mp hempty
      have hcount : 0 < state.slots.countP Option.isNone :=
        List.countP_pos_iff.mpr ⟨none, List.mem_of_getElem? hempty, rfl⟩
      have hslots : (state.slots.set number (some errors)).countP Option.isNone <
          state.slots.countP Option.isNone := by
        rw [List.countP_set hbound, hget]
        simp only [Option.isNone_none, Option.isNone_some, if_pos, Bool.false_eq_true, if_neg,
          not_false_eq_true]
        omega
      unfold left
      exact Nat.add_lt_add_left hslots _

theorem wellFounded_step : WellFounded fun next state : Joining => Step state next :=
  Subrelation.wf left_lt_of_step (measure left).wf

theorem report?_eq_none_iff :
    state.report? = none ↔ ∃ number : ℕ, state.slots[number]? = some none := by
  unfold report?
  rw [Option.map_eq_none_iff, join_eq_none_iff, List.mem_iff_getElem?]

/-- As long as there is no report some step can be taken, and none afterwards. -/
theorem Follows.report?_eq_none_iff_step (hstate : state.Follows goal) :
    state.report? = none ↔ ∃ next, Step state next := by
  constructor
  · intro hreport
    obtain ⟨number, hempty⟩ := report?_eq_none_iff.mp hreport
    have hbound : number < state.run.length := by
      rw [← hstate.length_slots]
      exact (List.getElem?_eq_some_iff.mp hempty).1
    have hfield := List.getElem?_eq_getElem hbound
    cases houtput : state.run[number].output? with
    | some errors => exact ⟨_, Step.store hfield houtput hempty⟩
    | none =>
        obtain ⟨task, hmem, hpending⟩ := FieldRun.output?_eq_none_iff.mp houtput
        obtain ⟨index, hindex⟩ := List.mem_iff_getElem?.mp hmem
        have htask : Run.task? state.run ⟨number, index⟩ = some task := by
          simp [Run.task?, hfield, hindex]
        exact ⟨_, Step.poll htask hpending⟩
  · rintro ⟨next, hstep⟩
    cases hreport : state.report? with
    | none => rfl
    | some report =>
        cases hstep with
        | poll htask hpending =>
            have hall := List.all_eq_true.mp (hstate.all_settled hreport) _
              (Run.mem_tasks_iff.mpr ⟨_, htask⟩)
            rw [hpending] at hall
            exact absurd hall Bool.false_ne_true
        | store hfield houtput hempty =>
            rw [report?_eq_none_iff.mpr ⟨_, hempty⟩] at hreport
            exact absurd hreport (by simp)

theorem Follows.exists_report (hstate : state.Follows goal) :
    ∃ last, Leads state last ∧ last.report? = some goal.report := by
  induction state using wellFounded_step.induction with
  | h state ih =>
      cases hreport : state.report? with
      | some report => exact ⟨state, .refl, hstate.report_eq hreport ▸ hreport⟩
      | none =>
          obtain ⟨next, hstep⟩ := hstate.report?_eq_none_iff_step.mp hreport
          obtain ⟨last, hleads, hlast⟩ := ih next hstep (hstate.step hstep)
          exact ⟨last, .head hstep hleads, hlast⟩

end Joining

end FormCheck
