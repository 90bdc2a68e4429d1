import FormCheck.Check.Turns
import Mathlib.Data.List.Basic

/-!
# Groups are lines

Whether a group is called through or worked off in a line, and wherever its calls
end, a job that is not done is called again only after all others.  Running a
group is therefore working off one line, in which the front is called and goes to
the back.  So every job is called for the first time in the order of the group,
and the jobs do not disturb each other: what a job logs in the group is what it
logs alone.
-/

namespace FormCheck

/-! ## First occurrences -/

section FirstOccurrences

variable {β : Type} [DecidableEq β]

theorem eraseDups_of_nodup {l : List β} (hnodup : l.Nodup) : l.eraseDups = l := by
  induction l with
  | nil => rfl
  | cons b rest ih =>
      obtain ⟨hb, hrest⟩ := List.nodup_cons.mp hnodup
      have hfilter : rest.filter (fun c => !c == b) = rest := by
        rw [List.filter_eq_self]
        intro c hc
        simpa using ne_of_mem_of_not_mem hc hb
      rw [List.eraseDups_cons, hfilter, ih hrest]

theorem eraseDups_filter (p : β → Bool) (l : List β) :
    (l.filter p).eraseDups = l.eraseDups.filter p := by
  match l with
  | [] => rfl
  | b :: rest =>
      have hshorter : (rest.filter fun c => !c == b).length < rest.length + 1 :=
        Nat.lt_succ_of_le (List.length_filter_le _ _)
      have ih := eraseDups_filter p (rest.filter fun c => !c == b)
      rw [List.filter_comm] at ih
      rw [List.eraseDups_cons]
      cases hb : p b with
      | true =>
          rw [List.filter_cons_of_pos hb, List.filter_cons_of_pos hb, List.eraseDups_cons, ih]
      | false =>
          have hne : (rest.filter p).filter (fun c => !c == b) = rest.filter p := by
            rw [List.filter_eq_self]
            intro c hc
            have hpc := List.of_mem_filter hc
            simp only [Bool.not_eq_true', beq_eq_false_iff_ne]
            rintro rfl
            simp [hb] at hpc
          rw [List.filter_cons_of_neg (by simp [hb]), List.filter_cons_of_neg (by simp [hb]),
            ← ih, hne]
  termination_by l.length

theorem nodup_eraseDups (l : List β) : l.eraseDups.Nodup := by
  match l with
  | [] => exact List.nodup_nil
  | b :: rest =>
      have hshorter : (rest.filter fun c => !c == b).length < rest.length + 1 :=
        Nat.lt_succ_of_le (List.length_filter_le _ _)
      rw [List.eraseDups_cons, List.nodup_cons]
      refine ⟨?_, nodup_eraseDups _⟩
      simp
  termination_by l.length

end FirstOccurrences

namespace Job

variable {α β : Type} [Job α β]

theorem run_eq (job : α) : run job = (call job).1 ++ (call job).2.elim [] run := by
  fun_cases run job with
  | case1 log hcall => simp [hcall]
  | case2 log later hcall => simp [hcall]

theorem mem_owed_of_mem_log {job : α} {b : β} (hb : b ∈ (call job).1) : b ∈ owed job :=
  (owed_perm job).mem_iff.mpr (List.mem_append_left _ hb)

theorem mem_owed_of_later {job later : α} {b : β}
    (hlater : (call job).2 = some later) (hb : b ∈ owed later) : b ∈ owed job := by
  refine (owed_perm job).mem_iff.mpr (List.mem_append_right _ ?_)
  rwa [hlater]

end Job

namespace Group

variable {α β : Type} [Job α β]

/-! ## One line -/

/-- Calls the front of a line, which goes to the back unless it is done, until no job
is left. -/
def runLine : List α → List β
  | [] => []
  | job :: rest => (Job.call job).1 ++ runLine (rest ++ (Job.call job).2.toList)
  termination_by line => (owed line).length + line.length
  decreasing_by
    have howed := (Job.owed_perm job).length_eq
    cases hlater : (Job.call job).2 with
    | none =>
        simp [hlater, owed] at howed ⊢
        omega
    | some later =>
        have hlog := List.length_pos_iff.mpr (Job.log_ne_nil hlater)
        simp [hlater, owed] at howed ⊢
        omega

theorem runLine_append (jobs back : List α) :
    runLine (jobs ++ back) = (callAll jobs).1 ++ runLine (back ++ (callAll jobs).2) := by
  induction jobs generalizing back with
  | nil => simp [callAll]
  | cons job rest ih =>
      rw [List.cons_append, runLine, List.append_assoc, ih]
      simp [callAll]

theorem runLine_callLine (left : ℕ) (line : List α) :
    runLine line = (callLine left line).1 ++ runLine (callLine left line).2 := by
  fun_induction callLine left line with
  | case1 left => rfl
  | case2 line => rfl
  | case3 left job rest log hcall later ih =>
      rw [runLine, hcall]
      simpa using ih
  | case4 left job rest log next hcall later ih =>
      rw [runLine, hcall]
      simpa using ih

theorem runLine_callJobs (group : Group α) :
    runLine group.jobs = group.callJobs.1 ++ runLine group.callJobs.2 := by
  unfold callJobs
  split
  · exact runLine_callLine _ _
  · simpa using runLine_append group.jobs []

theorem runLine_call (group : Group α) :
    runLine group.jobs =
      (Job.call group).1 ++ ((Job.call group).2.elim [] fun later => runLine later.jobs) := by
  rw [runLine_callJobs]
  change _ = group.call.1 ++ group.call.2.elim [] _
  unfold call
  cases hleft : group.callJobs.2 with
  | nil => simp [hleft, runLine]
  | cons job rest => simp [hleft]

/-- Wherever the calls of a group end, together they work off one line. -/
theorem run_eq_runLine (group : Group α) : Job.run group = runLine group.jobs := by
  fun_induction Job.run group with
  | case1 group log hcall =>
      rw [runLine_call, hcall]
      simp
  | case2 group log later hcall ih =>
      rw [runLine_call, hcall, ih]
      rfl

theorem runLine_perm (line : List α) : (runLine line).Perm (owed line) := by
  rw [← run_eq_runLine { crowded := false, jobs := line }]
  exact Job.run_perm _

theorem mem_runLine_iff {line : List α} {b : β} :
    b ∈ runLine line ↔ ∃ job ∈ line, b ∈ Job.owed job := by
  rw [(runLine_perm line).mem_iff, owed, List.mem_flatMap]

/-! ## Jobs do not disturb each other -/

theorem filter_runLine_eq_nil
    {p : β → Bool} {line : List α}
    (hline : ∀ job ∈ line, ∀ b ∈ Job.owed job, p b = false) :
    (runLine line).filter p = [] := by
  rw [List.filter_eq_nil_iff]
  intro b hb
  obtain ⟨job, hjob, howed⟩ := mem_runLine_iff.mp hb
  simp [hline job hjob b howed]

/-- What one job of a line logs is what it logs when it is run alone. -/
theorem filter_runLine
    {p : β → Bool} {before after : List α} {job : α}
    (hjob : ∀ b ∈ Job.owed job, p b = true)
    (hothers : ∀ other ∈ before ++ after, ∀ b ∈ Job.owed other, p b = false) :
    (runLine (before ++ job :: after)).filter p = Job.run job := by
  generalize hline : before ++ job :: after = line
  fun_induction runLine line generalizing before job after with
  | case1 => simp at hline
  | case2 front rest ih =>
      rw [List.filter_append]
      cases before with
      | nil =>
          obtain ⟨rfl, rfl⟩ := List.cons.inj hline
          have hlog : (Job.call job).1.filter p = (Job.call job).1 := by
            rw [List.filter_eq_self]
            intro b hb
            exact hjob b (Job.mem_owed_of_mem_log hb)
          rw [hlog, Job.run_eq]
          congr 1
          cases hlater : (Job.call job).2 with
          | none => simpa using filter_runLine_eq_nil hothers
          | some later =>
              -- The job is at the back now and all others stand before it.
              rw [hlater] at ih
              exact ih (fun b hb => hjob b (Job.mem_owed_of_later hlater hb))
                (by simpa using hothers) rfl
      | cons other before =>
          obtain ⟨rfl, rfl⟩ := List.cons.inj hline
          have hother := hothers other List.mem_cons_self
          have hlog : (Job.call other).1.filter p = [] := by
            rw [List.filter_eq_nil_iff]
            intro b hb
            simp [hother b (Job.mem_owed_of_mem_log hb)]
          rw [hlog, List.nil_append]
          have hline : before ++ job :: (after ++ (Job.call other).2.toList) =
              (before ++ job :: after) ++ (Job.call other).2.toList := by simp
          refine ih hjob ?_ hline
          intro waiting hwaiting b hb
          rw [← List.append_assoc, List.mem_append] at hwaiting
          rcases hwaiting with hrest | hlater
          · exact hothers waiting (List.mem_cons_of_mem other hrest) b hb
          · rw [Option.mem_toList] at hlater
            exact hother b (Job.mem_owed_of_later hlater hb)

/-! ## The order of first calls -/

section FirstCalls

variable [DecidableEq β]

theorem removeAll_eq_nil {l seen : List β} (hseen : ∀ b ∈ l, b ∈ seen) :
    l.removeAll seen = [] := by
  unfold List.removeAll
  rw [List.filter_eq_nil_iff]
  intro b hb
  simpa using hseen b hb

theorem removeAll_eq_self {l seen : List β} (hnew : ∀ b ∈ l, b ∉ seen) :
    l.removeAll seen = l := by
  unfold List.removeAll
  rw [List.filter_eq_self]
  intro b hb
  simpa using hnew b hb

theorem append_removeAll (l other seen : List β) :
    (l ++ other).removeAll seen = l.removeAll seen ++ other.removeAll seen :=
  List.filter_append _ _

theorem removeAll_removeAll (l seen other : List β) :
    (l.removeAll seen).removeAll other = l.removeAll (seen ++ other) := by
  simp [List.removeAll, List.filter_filter, Bool.and_comm]

/-- If the first call of every fresh job begins with all that the job owes, then
things are logged for the first time job after job, and nothing new comes from
the jobs that have been called before. -/
theorem eraseDups_runLine_append
    {lead : α → List β} {fresh begun : List α} {seen : List β}
    (hlead : ∀ job ∈ fresh, lead job <+: (Job.call job).1)
    (howed : ∀ job ∈ fresh, ∀ b ∈ Job.owed job, b ∈ lead job)
    (hbegun : ∀ job ∈ begun, ∀ b ∈ Job.owed job, b ∈ seen)
    (hnodup : (seen ++ fresh.flatMap lead).Nodup) :
    ((runLine (fresh ++ begun)).removeAll seen).eraseDups = fresh.flatMap lead := by
  induction fresh generalizing begun seen with
  | nil =>
      have hnone : (runLine begun).removeAll seen = [] := by
        apply removeAll_eq_nil
        intro b hb
        obtain ⟨job, hjob, hmem⟩ := mem_runLine_iff.mp hb
        exact hbegun job hjob b hmem
      rw [List.nil_append, hnone]
      rfl
  | cons job rest ih =>
      rw [List.forall_mem_cons] at hlead howed
      rw [List.flatMap_cons, ← List.append_assoc] at hnodup
      obtain ⟨extra, hcall⟩ := hlead.1
      have hextra : ∀ b ∈ extra, b ∈ lead job := by
        intro b hb
        refine howed.1 b (Job.mem_owed_of_mem_log ?_)
        rw [← hcall]
        exact List.mem_append_right _ hb
      have hbegun' : ∀ waiting ∈ begun ++ (Job.call job).2.toList,
          ∀ b ∈ Job.owed waiting, b ∈ seen ++ lead job := by
        intro waiting hwaiting b hb
        rcases List.mem_append.mp hwaiting with hold | hlater
        · exact List.mem_append_left _ (hbegun waiting hold b hb)
        · rw [Option.mem_toList] at hlater
          exact List.mem_append_right _ (howed.1 b (Job.mem_owed_of_later hlater hb))
      have hrest := ih hlead.2 howed.2 hbegun' hnodup
      obtain ⟨-, hfirst, hdisjoint⟩ := List.nodup_append.mp (List.nodup_append.mp hnodup).1
      have hnew : (lead job).removeAll seen = lead job := by
        apply removeAll_eq_self
        intro b hb hold
        exact hdisjoint b hold b hb rfl
      have hlog :
          runLine (job :: rest ++ begun) =
            lead job ++ (extra ++ runLine (rest ++ (begun ++ (Job.call job).2.toList))) := by
        rw [List.cons_append, runLine, ← hcall]
        simp only [List.append_assoc]
      have hnothing : (extra.removeAll seen).removeAll (lead job) = [] := by
        apply removeAll_eq_nil
        intro b hb
        exact hextra b (List.mem_of_mem_filter hb)
      rw [hlog, append_removeAll, hnew, List.eraseDups_append, append_removeAll,
        append_removeAll, hnothing, List.nil_append, removeAll_removeAll, hrest,
        eraseDups_of_nodup hfirst, List.flatMap_cons]

theorem eraseDups_run
    {lead : α → List β} {group : Group α}
    (hlead : ∀ job ∈ group.jobs, lead job <+: (Job.call job).1)
    (howed : ∀ job ∈ group.jobs, ∀ b ∈ Job.owed job, b ∈ lead job)
    (hnodup : (group.jobs.flatMap lead).Nodup) :
    (Job.run group).eraseDups = group.jobs.flatMap lead := by
  have hnone : ∀ job ∈ ([] : List α), ∀ b ∈ Job.owed job, b ∈ ([] : List β) := by simp
  have horder := eraseDups_runLine_append hlead howed hnone (by simpa using hnodup)
  rwa [List.append_nil, List.removeAll_nil, ← run_eq_runLine] at horder

end FirstCalls

/-! ## First calls of a group -/

/-- The first call of the group calls all jobs in order before it calls one of them
again. -/
def BeginsInOrder (group : Group α) : Prop :=
  (group.jobs.flatMap fun job => (Job.call job).1) <+: (Job.call group).1

theorem callAll_log (jobs : List α) :
    (callAll jobs).1 = jobs.flatMap fun job => (Job.call job).1 := by
  induction jobs with
  | nil => rfl
  | cons job rest ih => rw [List.flatMap_cons, ← ih, callAll]

theorem beginsInOrder_of_not_crowded
    {group : Group α} (hroom : group.crowded = false) : group.BeginsInOrder := by
  have hcall : (Job.call group).1 = (callAll group.jobs).1 := by
    change group.callJobs.1 = _
    simp [callJobs, hroom]
  refine ⟨[], ?_⟩
  rw [List.append_nil, hcall, callAll_log]

theorem callLine_of_done
    {left : ℕ} {line : List α}
    (hdone : ∀ job ∈ line, (Job.call job).2 = none) (hpatience : line ≠ [] → 0 < left) :
    (callLine left line).1 = line.flatMap fun job => (Job.call job).1 := by
  fun_induction callLine left line with
  | case1 left => rfl
  | case2 line hline => exact absurd (hpatience hline) (Nat.lt_irrefl 0)
  | case3 left job rest log hcall later ih =>
      rw [List.forall_mem_cons] at hdone
      rw [List.flatMap_cons, hcall, ← ih hdone.2 ?_]
      intro hrest
      have hlength := List.length_pos_iff.mpr hrest
      unfold patience
      omega
  | case4 left job rest log next hcall later ih =>
      have hjob := hdone job List.mem_cons_self
      rw [hcall] at hjob
      cases hjob

/-- A group of any size begins in order when every job is done by its first call. -/
theorem beginsInOrder_of_done
    {group : Group α} (hdone : ∀ job ∈ group.jobs, (Job.call job).2 = none) :
    group.BeginsInOrder := by
  by_cases hcrowded : group.crowded
  · have hcall : (Job.call group).1 = (callLine (patience group.jobs) group.jobs).1 := by
      change group.callJobs.1 = _
      simp [callJobs, hcrowded]
    have hpatience : group.jobs ≠ [] → 0 < patience group.jobs := by
      intro hjobs
      have hlength := List.length_pos_iff.mpr hjobs
      unfold patience
      omega
    refine ⟨[], ?_⟩
    rw [List.append_nil, hcall, callLine_of_done hdone hpatience]
  · exact beginsInOrder_of_not_crowded (by simpa using hcrowded)

end Group

end FormCheck
