import Mathlib
import ProfileLikelihood.Minimize.Multistart
import ProfileLikelihood.Profile.Request

/-! The engine never changes an answer. A pool writes each output into its task's slot, and a
scheduler finishes every task of a batch exactly once, so the buffer read out is the outputs in
task order, whatever the order the tasks finished in. Every task is built with its own copy of
the problem and of the optimizer as the caller holds them, so profiling and fitting from several
starts give on every engine what running the tasks one after another gives, for every
optimizer, also one that counts its calls. -/

namespace ProfileLikelihood

variable {α β : Type}

/-! ### The output buffer -/

/-- Writing outputs in the order `order`, each position once: a position written holds its
task's output, and every other slot is as it was. -/
theorem getElem?_foldl_set (run : α → β) (tasks : List α) :
    ∀ {order : List Nat} {buf : List (Option β)}, order.Nodup → (∀ k ∈ order, k < buf.length) →
      ∀ j, (order.foldl (fun buf k => buf.set k ((tasks[k]?).map run)) buf)[j]? =
        if j ∈ order then some ((tasks[j]?).map run) else buf[j]?
  | [], _, _, _, j => by simp
  | k :: order, buf, hnd, hlt, j => by
    obtain ⟨hk, hnd⟩ := List.nodup_cons.1 hnd
    have hlt' : ∀ k' ∈ order, k' < (buf.set k ((tasks[k]?).map run)).length := by
      simpa using fun k' hk' => hlt k' (List.mem_cons_of_mem _ hk')
    rw [List.foldl_cons, getElem?_foldl_set run tasks hnd hlt' j]
    -- a later write never lands on `k`, so only the first write decides its slot
    by_cases hj : j ∈ order
    · simp [hj]
    · by_cases hjk : j = k
      · subst hjk
        simp [hj, hlt j List.mem_cons_self]
      · simp [hj, hjk, Ne.symm hjk]

/-- A buffer filled in the order of a permutation of the tasks holds every task's output at its
position. -/
theorem collect_of_perm (run : α → β) (tasks : List α) {order : List Nat}
    (hperm : order.Perm (List.range tasks.length)) :
    collect run tasks order = tasks.map fun t => some (run t) := by
  have hmem : ∀ j, j ∈ order ↔ j < tasks.length := fun j => by simp [hperm.mem_iff]
  apply List.ext_getElem?
  intro j
  rw [collect, getElem?_foldl_set run tasks (hperm.nodup_iff.2 List.nodup_range)
    (fun k hk => by simpa using (hmem k).1 hk) j]
  by_cases hj : j < tasks.length
  · simp [(hmem j).2 hj, hj]
  · simp [hmem, hj]

theorem Engine.execute_eq_map (eng : Engine) (sched : Scheduler) (run : α → β)
    (tasks : List α) : eng.execute sched run tasks = tasks.map run := by
  cases eng with
  | single => rfl
  | pool threads =>
    rw [Engine.execute, collect_of_perm run tasks (sched.perm tasks.length), List.filterMap_map]
    simp

/-! ### Fitting and profiling on an engine -/

theorem multistartOn_eq (eng : Engine) (sched : Scheduler) (p : Problem) (opt : Optimizer)
    (starts : List Vec) : multistartOn eng sched p opt starts = multistart p opt starts := by
  have hfold : ((startTasks p opt starts).map OptimizerTask.run).foldlM Ranking.addOutput {} =
      ((List.range starts.length).zip starts).foldlM (Ranking.addStart p opt) {} := by
    rw [startTasks, List.map_map, List.foldlM_map]
    rfl
  rw [multistartOn, multistart, Engine.execute_eq_map, hfold]

/-- Profiling gives on every engine what running the plan's tasks one after another gives. -/
theorem parameterProfileOn_eq (eng : Engine) (sched : Scheduler) (p : Problem) (e : Estimation)
    (opt : Optimizer) (r : ProfileRequest) :
    parameterProfileOn eng sched p e opt r = parameterProfile p e opt r := by
  have hrun : ∀ (plan : ProfilePlan) st k,
      ((plan.tasks p opt r.method).map ProfilerTask.run).foldlM (ProfilePlan.write k)
        (st, plan.skipped) = plan.run p opt r.method st k := by
    intro plan st k
    rw [ProfilePlan.tasks, List.map_map, List.foldlM_map, ProfilePlan.run, ← Array.foldlM_toList]
    rfl
  simp only [parameterProfileOn, parameterProfile, Engine.execute_eq_map, hrun]

/-- The choice of engine is invisible. -/
theorem engine_choice_invisible :
    (∀ (eng : Engine) (sched : Scheduler) (α β : Type) (run : α → β) (tasks : List α),
      eng.execute sched run tasks = tasks.map run) ∧
    (∀ (eng : Engine) (sched : Scheduler) (p : Problem) (e : Estimation) (opt : Optimizer)
      (r : ProfileRequest), parameterProfileOn eng sched p e opt r = parameterProfile p e opt r) ∧
    ∀ (eng : Engine) (sched : Scheduler) (p : Problem) (opt : Optimizer) (starts : List Vec),
      multistartOn eng sched p opt starts = multistart p opt starts :=
  ⟨fun eng sched _ _ run tasks => Engine.execute_eq_map eng sched run tasks,
    parameterProfileOn_eq, multistartOn_eq⟩

end ProfileLikelihood
