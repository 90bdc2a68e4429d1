/-!
# Turns

Jobs that are carried out side by side take turns.  A job is called time and
again until it is done, and every call leaves a log.

A group of at most thirty jobs is called through: a call of the group calls
every job that is not done, one after the other.  The jobs of a larger group
stand in a line.  A call of such a group calls the job at the front, which goes
to the back of the line unless it is done, and so on.  The call ends when two
jobs in succession are not done, or when the only job that is left is not done.

Whatever the order of the calls is, together they log what the jobs owe.
-/

namespace FormCheck

/-- Something that is called until it is done.  A call gives its log and what is left of the job,
which is nothing when the job is done. -/
class Job (α : Type) (β : outParam Type) where
  call : α → List β × Option α
  /-- What the calls of the job log, in some order. -/
  owed : α → List β
  owed_perm (job : α) : (owed job).Perm ((call job).1 ++ (call job).2.elim [] owed)
  log_ne_nil {job later : α} : (call job).2 = some later → (call job).1 ≠ []

namespace Job

variable {α β : Type} [Job α β]

/-- What is left of a job that is not done owes less than the job. -/
theorem length_owed_lt {job later : α} (hlater : (call job).2 = some later) :
    (owed later).length < (owed job).length := by
  have hlength := (owed_perm job).length_eq
  have hlog := List.length_pos_iff.mpr (log_ne_nil hlater)
  rw [hlater, Option.elim_some, List.length_append] at hlength
  omega

def run (job : α) : List β :=
  match _ : call job with
  | (log, none) => log
  | (log, some later) => log ++ run later
  termination_by (owed job).length
  decreasing_by exact length_owed_lt (by simp [*])

/-- A job that is run logs what it owes. -/
theorem run_perm (job : α) : (run job).Perm (owed job) := by
  fun_induction run job with
  | case1 job log hcall =>
    have howed := owed_perm job
    rw [hcall] at howed
    simpa using howed.symm
  | case2 job log later hcall ih =>
    have howed := owed_perm job
    rw [hcall] at howed
    exact (ih.append_left log).trans howed.symm

end Job

structure Repeated (β : Type) where
  item : β
  /-- The number of calls after the next one. -/
  more : Nat

namespace Repeated

variable {β : Type}

def call (job : Repeated β) : List β × Option (Repeated β) :=
  ([job.item], match job.more with
    | 0 => none
    | more + 1 => some { job with more })

instance : Job (Repeated β) β where
  call := call
  owed job := List.replicate (job.more + 1) job.item
  owed_perm job := by
    obtain ⟨item, _ | more⟩ := job
    · exact List.Perm.refl _
    · exact List.Perm.refl _
  log_ne_nil _ := by simp [call]

end Repeated

/-- Jobs that are carried out side by side, without those that are done. -/
structure Group (α : Type) where
  /-- Whether there were too many jobs at the start to call all of them each time. -/
  crowded : Bool
  jobs : List α

namespace Group

variable {α β : Type}

/-- The most jobs of a group that is not crowded. -/
abbrev greatestSize : Nat := 30

def ofJobs (jobs : List α) : Group α where
  crowded := greatestSize < jobs.length
  jobs := jobs

/-- The number of jobs in succession that may be called without getting done. -/
def patience (line : List α) : Nat :=
  min 2 line.length

variable [Job α β]

def callAll : List α → List β × List α
  | [] => ([], [])
  | job :: rest =>
    let first := Job.call job
    let later := callAll rest
    (first.1 ++ later.1, first.2.toList ++ later.2)

/-- Calls the jobs of a line from the front, as long as there is patience. -/
def callLine : Nat → List α → List β × List α
  | _, [] => ([], [])
  | 0, line => ([], line)
  | left + 1, job :: rest =>
    match Job.call job with
    | (log, none) =>
      let later := callLine (patience rest) rest
      (log ++ later.1, later.2)
    | (log, some job) =>
      -- A job that is not done goes to the end of the line.
      let later := callLine left (rest ++ [job])
      (log ++ later.1, later.2)
  termination_by left line => (line.length, left)

def callJobs (group : Group α) : List β × List α :=
  if group.crowded then callLine (patience group.jobs) group.jobs else callAll group.jobs

def call (group : Group α) : List β × Option (Group α) :=
  let called := group.callJobs
  (called.1, if called.2.isEmpty then none else some { group with jobs := called.2 })

def owed (jobs : List α) : List β :=
  jobs.flatMap Job.owed

theorem append_perm_append {first second log₁ log₂ rest₁ rest₂ : List β}
    (hfirst : first.Perm (log₁ ++ rest₁)) (hsecond : second.Perm (log₂ ++ rest₂)) :
    (first ++ second).Perm ((log₁ ++ log₂) ++ (rest₁ ++ rest₂)) := by
  refine (hfirst.append hsecond).trans ?_
  rw [List.append_assoc, List.append_assoc]
  exact (List.perm_append_comm_assoc rest₁ log₂ rest₂).append_left log₁

theorem owed_callAll (jobs : List α) :
    (owed jobs).Perm ((callAll jobs).1 ++ owed (callAll jobs).2) := by
  induction jobs with
  | nil => exact List.Perm.refl _
  | cons job rest ih =>
    have hjob := Job.owed_perm job
    have hleft : (Job.call job).2.elim [] Job.owed = owed (Job.call job).2.toList := by
      cases (Job.call job).2 <;> simp [owed]
    rw [hleft] at hjob
    simp only [callAll, owed, List.flatMap_cons, List.flatMap_append] at ih hjob ⊢
    exact append_perm_append hjob ih

theorem owed_callLine (left : Nat) (line : List α) :
    (owed line).Perm ((callLine left line).1 ++ owed (callLine left line).2) := by
  fun_induction callLine left line with
  | case1 left => exact List.Perm.refl _
  | case2 line => exact List.Perm.refl _
  | case3 left job rest log hcall later ih =>
    have hjob := Job.owed_perm job
    rw [hcall] at hjob
    have hboth := append_perm_append hjob ih
    simpa [owed] using hboth
  | case4 left job rest log next hcall later ih =>
    have hjob := Job.owed_perm job
    rw [hcall] at hjob
    have hmoved : (owed (job :: rest)).Perm (log ++ owed (rest ++ [next])) := by
      simp only [owed, List.flatMap_cons, List.flatMap_append, List.flatMap_nil, List.append_nil]
      refine (hjob.append_right _).trans ?_
      rw [List.append_assoc]
      exact List.perm_append_comm.append_left log
    have hlater := hmoved.trans (ih.append_left log)
    rwa [← List.append_assoc] at hlater

theorem owed_callJobs (group : Group α) :
    (owed group.jobs).Perm (group.callJobs.1 ++ owed group.callJobs.2) := by
  unfold callJobs
  split
  · exact owed_callLine _ _
  · exact owed_callAll _

theorem callAll_log_ne_nil {jobs : List α} (hleft : (callAll jobs).2 ≠ []) :
    (callAll jobs).1 ≠ [] := by
  induction jobs with
  | nil => exact absurd rfl hleft
  | cons job rest ih =>
    simp only [callAll] at hleft ⊢
    intro hlog
    rw [List.append_eq_nil_iff] at hlog
    cases hjob : (Job.call job).2 with
    | none =>
      rw [hjob] at hleft
      exact ih hleft hlog.2
    | some later => exact Job.log_ne_nil hjob hlog.1

theorem callLine_log_ne_nil {left : Nat} {line : List α} (hpatience : 0 < left)
    (hleft : (callLine left line).2 ≠ []) : (callLine left line).1 ≠ [] := by
  fun_induction callLine left line with
  | case1 left => exact absurd rfl hleft
  | case2 line => exact absurd hpatience (Nat.lt_irrefl 0)
  | case3 left job rest log hcall later ih =>
    intro hlog
    rw [List.append_eq_nil_iff] at hlog
    cases rest with
    | nil => simp [later, callLine] at hleft
    | cons next rest => exact ih (by simp only [patience, List.length_cons]; omega) hleft hlog.2
  | case4 left job rest log next hcall later ih =>
    have hjob : (Job.call job).1 ≠ [] := Job.log_ne_nil (by rw [hcall])
    rw [hcall] at hjob
    intro hlog
    exact hjob (List.append_eq_nil_iff.mp hlog).1

theorem callJobs_log_ne_nil {group : Group α} (hleft : group.callJobs.2 ≠ []) :
    group.callJobs.1 ≠ [] := by
  unfold callJobs at hleft ⊢
  split at hleft
  · next hcrowded =>
    rw [if_pos hcrowded]
    refine callLine_log_ne_nil ?_ hleft
    cases hjobs : group.jobs with
    | nil => simp [hjobs, callLine] at hleft
    | cons job rest => simp only [patience, List.length_cons]; omega
  · next hcrowded =>
    rw [if_neg hcrowded]
    exact callAll_log_ne_nil hleft

instance : Job (Group α) β where
  call := call
  owed group := owed group.jobs
  owed_perm group := by
    have hcalled := group.owed_callJobs
    by_cases hdone : group.callJobs.2 = []
    · simpa [call, hdone, owed] using hcalled
    · simpa [call, hdone] using hcalled
  log_ne_nil {group later} hlater := by
    refine callJobs_log_ne_nil fun hdone => ?_
    simp [call, hdone] at hlater

end Group

end FormCheck
