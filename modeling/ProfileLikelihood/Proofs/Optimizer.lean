import ProfileLikelihood.Minimize.Optimizer
import ProfileLikelihood.Proofs.Fixed
import ProfileLikelihood.Proofs.Basic

/-! Fits hold the fixed parameters where they were fixed. A full vector is built by merging the
free entries with the fixed map, index by index; on a well-formed map the merge has a closed
form, entry `i` being the fixed value of `i` or else the free entry at the rank of `i` among the
free indices, so every fixed index gets its fixed value. Every fit an optimizer reports is such a full vector, whichever way the run ended,
so every reported fit holds each fixed parameter at its fixed value. -/

namespace ProfileLikelihood

namespace Problem

/-! ### The merge -/

theorem filter_succ_le_of_filter_le {l : List (Nat × Float)} {n : Nat} :
    l.filter (fun q => n + 1 ≤ q.1) = (l.filter fun q => n ≤ q.1).filter fun q => n + 1 ≤ q.1 := by
  rw [List.filter_filter]
  congr 1
  funext q
  by_cases h : n + 1 ≤ q.1
  · simp [h, Nat.le_of_succ_le h]
  · simp [h]

/-- In a list sorted by index, an entry at the least index still to come leads the rest. -/
theorem head_of_mem_filter_le {l rest : List (Nat × Float)} {n j : Nat} {v : Float}
    (hs : l.Pairwise (·.1 < ·.1)) (hf : l.filter (fun q => n ≤ q.1) = (j, v) :: rest)
    {q : Nat × Float} (hq : q ∈ l) (hqn : q.1 = n) : q = (j, v) := by
  have hmem : q ∈ (j, v) :: rest := by
    rw [← hf, List.mem_filter]
    exact ⟨hq, by simp [hqn]⟩
  have hjn : n ≤ j := by
    have hj : (j, v) ∈ l.filter (fun q => n ≤ q.1) := by rw [hf]; exact List.mem_cons_self
    simpa using (List.mem_filter.1 hj).2
  have hsorted : ((j, v) :: rest).Pairwise (·.1 < ·.1) := hf ▸ hs.filter _
  rcases List.mem_cons.1 hmem with h | h
  · exact h
  · have hlt := (List.pairwise_cons.1 hsorted).1 q h
    simp only at hlt
    omega

/-! ### The closed form -/

/-- The number of free parameters below index `i`. -/
def freeRank (p : Problem) (i : Nat) : Nat := ((List.range i).filter (!p.isFixed ·)).length

/-- Entry `i` of the full vector built from the free entries `xFree`: the fixed value of a fixed
index, else the free entry at the index's rank among the free ones. -/
def fullEntry (p : Problem) (xFree : Vec) (i : Nat) : Float :=
  (p.fixed.lookup i).getD (xFree.entry (p.freeRank i))

theorem freeRank_succ (p : Problem) (n : Nat) :
    p.freeRank (n + 1) = p.freeRank n + if p.isFixed n then 0 else 1 := by
  by_cases h : p.isFixed n <;> simp [freeRank, List.range_succ, List.filter_append, h]

theorem lookup_eq_none_iff_isFixed (p : Problem) (i : Nat) :
    p.fixed.lookup i = none ↔ p.isFixed i = false := by
  rw [lookup_eq_none_iff, isFixed_eq, fixedIndices, decide_eq_false_iff_not]

/-- In a map sorted by index, a listed pair is what looking its index up gives. -/
theorem lookup_of_mem {l : List (Nat × Float)} (hs : l.Pairwise (·.1 < ·.1)) {j : Nat} {v : Float}
    (h : (j, v) ∈ l) : l.lookup j = some v := by
  induction l with
  | nil => cases h
  | cons e l ih =>
    obtain ⟨k, w⟩ := e
    obtain ⟨hk, hl⟩ := List.pairwise_cons.1 hs
    rw [lookup_cons_pair]
    rcases List.mem_cons.1 h with he | h
    · cases he
      simp
    · -- an index further down lies past `k`
      have hkj : k < j := hk (j, v) h
      rw [if_neg (by omega)]
      exact ih hl h

theorem mem_of_lookup {l : List (Nat × Float)} {j : Nat} {v : Float} (h : l.lookup j = some v) :
    (j, v) ∈ l := by
  obtain ⟨l₁, l₂, rfl, -⟩ := List.lookup_eq_some_iff.1 h
  simp

theorem fullEntry_of_lookup {p : Problem} {xFree : Vec} {j : Nat} {w : Float}
    (h : p.fixed.lookup j = some w) : p.fullEntry xFree j = w := by
  simp [fullEntry, h]

/-- The merge after the indices below `n`: the entries of the closed form (last first), the
fixed entries from `n` on still to come, and the number of free entries used. -/
theorem foldl_mergeStep_eq {p : Problem} (hok : p.FixedOK) (xFree : Vec) (n : Nat) :
    (List.range n).foldl (mergeStep xFree) ([], p.fixed, 0) =
      (((List.range n).map (p.fullEntry xFree)).reverse, p.fixed.filter (fun q => n ≤ q.1),
        p.freeRank n) := by
  induction n with
  | zero => simp [freeRank]
  | succ n ih =>
    rw [List.range_succ, List.foldl_append, ih, List.foldl_cons, List.foldl_nil, List.map_append,
      List.reverse_append, freeRank_succ]
    have hnext := filter_succ_le_of_filter_le (l := p.fixed) (n := n)
    cases hf : p.fixed.filter (fun q => n ≤ q.1) with
    | nil =>
      have hfree : p.fixed.lookup n = none := by
        rw [lookup_eq_none_iff]
        intro hmem
        obtain ⟨q, hq, hqn⟩ := List.mem_map.1 hmem
        have : q ∈ p.fixed.filter (fun q => n ≤ q.1) := List.mem_filter.2 ⟨hq, by simp [hqn]⟩
        simp [hf] at this
      have hnf : p.isFixed n = false := (lookup_eq_none_iff_isFixed p n).1 hfree
      rw [hf, List.filter_nil] at hnext
      rw [hnext]
      simp [mergeStep, fullEntry, hfree, hnf]
    | cons e rest =>
      obtain ⟨j, v⟩ := e
      have hsorted : ((j, v) :: rest).Pairwise (·.1 < ·.1) := hf ▸ hok.sorted.filter _
      have hjmem : (j, v) ∈ p.fixed.filter (fun q => n ≤ q.1) := by rw [hf]; exact List.mem_cons_self
      have hjn : n ≤ j := by simpa using (List.mem_filter.1 hjmem).2
      have hrest : rest.filter (fun q => n + 1 ≤ q.1) = rest :=
        List.filter_eq_self.2 fun q hq => by
          have hlt := (List.pairwise_cons.1 hsorted).1 q hq
          simp only at hlt
          simp only [decide_eq_true_eq]
          omega
      rw [hf] at hnext
      by_cases hj : j = n
      · -- the next fixed index is `n` itself: its value goes in, and it leaves the queue
        subst hj
        have hlook : p.fixed.lookup j = some v :=
          lookup_of_mem hok.sorted (List.mem_filter.1 hjmem).1
        have hfix : p.isFixed j = true := by
          cases h : p.isFixed j
          · rw [(lookup_eq_none_iff_isFixed p j).2 h] at hlook
            cases hlook
          · rfl
        have hdrop : ((j, v) :: rest).filter (fun q => j + 1 ≤ q.1) = rest := by
          rw [List.filter_cons_of_neg (by simp), hrest]
        rw [hnext, hdrop]
        simp [mergeStep, fullEntry, hlook, hfix]
      · -- the next fixed index lies past `n`, so `n` is free
        have hfree : p.fixed.lookup n = none := by
          rw [lookup_eq_none_iff]
          intro hmem
          obtain ⟨q, hq, hqn⟩ := List.mem_map.1 hmem
          have hhead := head_of_mem_filter_le hok.sorted hf hq hqn
          subst hhead
          exact hj hqn
        have hnf : p.isFixed n = false := (lookup_eq_none_iff_isFixed p n).1 hfree
        have hkeep : ((j, v) :: rest).filter (fun q => n + 1 ≤ q.1) = (j, v) :: rest := by
          rw [List.filter_cons_of_pos (by simp only [decide_eq_true_eq]; omega), hrest]
        rw [hnext, hkeep]
        simp [mergeStep, fullEntry, hfree, hnf, hj]

theorem fullVector_eq_ok {p : Problem} (hok : p.FixedOK) {xFree : Vec} (hsize : xFree.size = p.dim) :
    p.fullVector xFree = .ok ((List.range p.dimFull).map (p.fullEntry xFree)).toArray := by
  unfold fullVector
  rw [foldl_mergeStep_eq hok]
  simp [hsize]

theorem fullVector_of_size_ne {p : Problem} {xFree : Vec} (h : xFree.size ≠ p.dim) :
    p.fullVector xFree = .error (.thetaLengthMismatch p.dim xFree.size) := by
  unfold fullVector
  simp [h]

theorem fullVector_fixed {p : Problem} (hok : p.FixedOK) {xFree v : Vec}
    (h : p.fullVector xFree = .ok v) {q : Nat × Float} (hq : q ∈ p.fixed) : v[q.1]? = some q.2 := by
  by_cases hs : xFree.size = p.dim
  · rw [fullVector_eq_ok hok hs] at h
    cases h
    have hlt := hok.lt_dimFull q hq
    simp [hlt, fullEntry_of_lookup (lookup_of_mem hok.sorted hq)]
  · rw [fullVector_of_size_ne hs] at h
    cases h

end Problem

/-! ### Reported fits -/

theorem Check.firstNonFinite_eq_none {v : Vec} (h : Check.firstNonFinite v = none) :
    ∀ x ∈ v, x.isFinite = true := by
  intro x hx
  obtain ⟨i, hi⟩ := List.mem_iff_getElem?.1 (Array.mem_toList_iff.2 hx)
  have hmem : (x, i) ∈ v.toList.zipIdx := List.mem_zipIdx_iff_getElem?.2 hi
  have hnone := List.findSome?_eq_none_iff.1 h _ hmem
  by_cases hfin : x.isFinite = true
  · exact hfin
  · simp [hfin] at hnone

/-- A solver's best point passes the check when it is present and finite. -/
theorem Check.thetaHat_eq_ok {t : Option Vec} {θ : Vec} (h : Check.thetaHat t = .ok θ) :
    t = some θ ∧ ∀ x ∈ θ, x.isFinite = true := by
  cases t with
  | none => cases h
  | some t =>
    unfold Check.thetaHat at h
    dsimp only at h
    cases hf : Check.firstNonFinite t with
    | some e => rw [hf] at h; cases h
    | none => rw [hf] at h; cases h; exact ⟨rfl, Check.firstNonFinite_eq_none hf⟩

theorem Check.value_eq_ok {v : Float} (h : Check.value v = .ok ()) : v.isFinite = true := by
  unfold Check.value at h
  split at h
  · assumption
  · cases h

namespace Outcome

/-- A result at a point: the point and the value as given, both finite, converged. -/
theorem atPoint_eq_ok {θ : Vec} {v : Float} {s : String} {o : Outcome}
    (h : atPoint θ v s = .ok o) :
    o.thetaHat = θ ∧ o.value = v ∧ o.converged = true ∧ o.status = s ∧
      (∀ x ∈ θ, x.isFinite = true) ∧ v.isFinite = true := by
  unfold atPoint at h
  obtain ⟨θ', hθ, h⟩ := Except.bind_eq_ok.1 h
  obtain ⟨_, hv, h⟩ := Except.bind_eq_ok.1 h
  cases h
  obtain ⟨hsome, hfin⟩ := Check.thetaHat_eq_ok hθ
  cases hsome
  exact ⟨rfl, rfl, rfl, rfl, hfin, Check.value_eq_ok hv⟩

theorem atPoint_thetaHat {θ : Vec} {v : Float} {s : String} {o : Outcome}
    (h : atPoint θ v s = .ok o) : o.thetaHat = θ :=
  (atPoint_eq_ok h).1

/-- The result of a run that did not give up: its best point and value, both finite, converged
as the reason to stop says. -/
theorem ofRun_eq_ok {θ : Option Vec} {v : Float} {t : Termination} {n : Nat} {e : Evaluations}
    {g : Option Vec} {o : Outcome} (h : ofRun θ v t n e g = .ok o) :
    θ = some o.thetaHat ∧ o.value = v ∧ o.converged = t.isConverged ∧ o.status = t.text ∧
      (∀ x ∈ o.thetaHat, x.isFinite = true) ∧ v.isFinite = true := by
  unfold ofRun at h
  split at h
  · cases h
  · obtain ⟨θ', hθ, h⟩ := Except.bind_eq_ok.1 h
    obtain ⟨_, hv, h⟩ := Except.bind_eq_ok.1 h
    cases h
    obtain ⟨hsome, hfin⟩ := Check.thetaHat_eq_ok hθ
    exact ⟨hsome, rfl, rfl, rfl, hfin, Check.value_eq_ok hv⟩

end Outcome

/-- The start meets the gradient tolerance: the fit is the start's full vector and the value its
cost. -/
theorem earlyExit_eq_some {opts : MinimizeOptions} {u : Unbounded} {z0 : Vec} {o : Outcome}
    (h : earlyExit opts u z0 = .ok (some o)) :
    u.fullVector z0 = .ok o.thetaHat ∧ u.cost z0 = .ok o.value ∧ o.converged = true ∧
      o.status = "Gradient tolerance met at start" ∧ ∀ x ∈ o.thetaHat, x.isFinite = true := by
  unfold earlyExit at h
  split at h
  · cases h
  · obtain ⟨v, hv, h⟩ := Except.bind_eq_ok.1 h
    obtain ⟨_, -, h⟩ := Except.bind_eq_ok.1 h
    dsimp only at h
    split at h
    · obtain ⟨θ, hθ, h⟩ := Except.bind_eq_ok.1 h
      obtain ⟨o', ho', h⟩ := Except.bind_eq_ok.1 h
      cases h
      obtain ⟨rfl, rfl, hconv, hstatus, hfin, -⟩ := Outcome.atPoint_eq_ok ho'
      exact ⟨hθ, hv, hconv, hstatus, hfin⟩
    · cases h

/-- A run that did not give up: the fit is the full vector of the solver's best point and the
value its best cost, converged as the reason to stop says. -/
theorem runLbfgs_eq_ok {argmin : Argmin} {opts : MinimizeOptions} {u : Unbounded} {z0 : Vec}
    {o : Outcome} (h : runLbfgs argmin opts u z0 = .ok o) :
    ∃ r z, argmin opts.lineSearch opts.settings u.oracle z0 = .ok r ∧ r.bestPoint = some z ∧
      u.fullVector z = .ok o.thetaHat ∧ o.value = r.bestCost ∧
      o.converged = r.termination.isConverged ∧ o.status = r.termination.text ∧
      ∀ x ∈ o.thetaHat, x.isFinite = true := by
  unfold runLbfgs at h
  obtain ⟨r, hrun, h⟩ := Except.bind_eq_ok.1 h
  obtain ⟨θ, hθ, h⟩ := Except.bind_eq_ok.1 h
  obtain ⟨hsome, hval, hconv, hstatus, hfin, -⟩ := Outcome.ofRun_eq_ok h
  cases hb : r.bestPoint with
  | none =>
    rw [hb] at hθ
    cases hθ
    cases hsome
  | some z =>
    rw [hb, Option.mapM_some] at hθ
    obtain ⟨θ', hθ', rfl⟩ := Except.map_eq_ok.1 hθ
    cases hsome
    exact ⟨r, z, hrun, hb, hθ', hval, hconv, hstatus, hfin⟩

theorem minimizeInBox_thetaHat {argmin : Argmin} {opts : MinimizeOptions} {p : Problem} {x0 : Vec}
    {o : Outcome} (h : minimizeInBox argmin opts p x0 = .ok o) :
    ∃ xf, p.fullVector xf = .ok o.thetaHat := by
  unfold minimizeInBox at h
  obtain ⟨_, -, h⟩ := Except.bind_eq_ok.1 h
  split at h
  · -- no free parameter: the fixed values themselves
    obtain ⟨x, hx, h⟩ := Except.bind_eq_ok.1 h
    obtain ⟨_, -, h⟩ := Except.bind_eq_ok.1 h
    exact ⟨x0, (Outcome.atPoint_thetaHat h) ▸ hx⟩
  · dsimp only at h
    obtain ⟨_, -, h⟩ := Except.bind_eq_ok.1 h
    obtain ⟨early, hearly, h⟩ := Except.bind_eq_ok.1 h
    suffices ∃ z, (Unbounded.ofProblem p).fullVector z = .ok o.thetaHat by
      obtain ⟨z, hz⟩ := this
      exact ⟨_, hz⟩
    cases early with
    | some o' =>
      cases h
      exact ⟨_, (earlyExit_eq_some hearly).1⟩
    | none =>
      obtain ⟨-, z, -, -, hθ, -⟩ := runLbfgs_eq_ok h
      exact ⟨z, hθ⟩

namespace Optimizer

/-- The contract every optimizer keeps: on a problem with a well-formed fixed map, a fit that a
call reports holds each fixed parameter at its fixed value, whatever calls came before. -/
def KeepsFixed (opt : Optimizer) : Prop :=
  ∀ earlier p x0 o, opt.call earlier p x0 = .ok o → p.FixedOK →
    ∀ q ∈ p.fixed, o.thetaHat[q.1]? = some q.2

theorem keepsFixed_of_fullVector {opt : Optimizer}
    (h : ∀ earlier p x0 o, opt.call earlier p x0 = .ok o → ∃ xf, p.fullVector xf = .ok o.thetaHat) :
    opt.KeepsFixed := by
  intro earlier p x0 o hcall hok q hq
  obtain ⟨xf, hxf⟩ := h earlier p x0 o hcall
  exact Problem.fullVector_fixed hok hxf hq

theorem lbfgs_keepsFixed (argmin : Argmin) (opts : MinimizeOptions) :
    (lbfgs argmin opts).KeepsFixed :=
  keepsFixed_of_fullVector fun _ _ _ _ h => minimizeInBox_thetaHat h

theorem startOutcome_thetaHat {p : Problem} {x0 : Vec} {o : Outcome}
    (h : startOutcome p x0 = .ok o) : p.fullVector x0 = .ok o.thetaHat := by
  unfold startOutcome at h
  obtain ⟨x, hx, h⟩ := Except.bind_eq_ok.1 h
  obtain ⟨_, -, h⟩ := Except.bind_eq_ok.1 h
  exact (Outcome.atPoint_thetaHat h) ▸ hx

theorem atStart_keepsFixed (conv : Bool) (fails unconv : List Nat) :
    (atStart conv fails unconv).KeepsFixed := by
  refine keepsFixed_of_fullVector fun earlier p x0 o h => ⟨x0, ?_⟩
  simp only [atStart] at h
  split at h
  · cases h
  · -- the start outcome, with only its convergence flag changed
    obtain ⟨o', ho', rfl⟩ := Except.map_eq_ok.1 h
    have hθ := startOutcome_thetaHat ho'
    exact hθ

theorem broken_keepsFixed : broken.KeepsFixed := by
  intro _ _ _ _ h
  cases h

variable {opt opt' : Optimizer} {p : Problem} {x0 : Vec} {o : Outcome}

@[simp] theorem minimize_call : (opt.minimize p x0).2.call = opt.call := rfl

theorem KeepsFixed.minimize (hopt : opt.KeepsFixed) (h : opt.minimize p x0 = (r, opt')) :
    opt'.KeepsFixed := by
  cases h
  exact hopt

theorem KeepsFixed.minimize_fixed (hopt : opt.KeepsFixed) (hok : p.FixedOK)
    (h : opt.minimize p x0 = (.ok o, opt')) {q : Nat × Float} (hq : q ∈ p.fixed) :
    o.thetaHat[q.1]? = some q.2 :=
  hopt opt.calls p x0 o (Prod.mk.inj h).1 hok q hq

end Optimizer

end ProfileLikelihood
