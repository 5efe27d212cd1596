import ProfileLikelihood.Proofs.Search
import ProfileLikelihood.Proofs.Float
import ProfileLikelihood.Objective.Catalog

/-! Which loops of a proposal end. The degree of a polynomial trend falls on every refit, so
the fit never needs more than `degree + 1` attempts and a larger budget changes nothing.

A step-size search goes on from a round exactly when that round's scaled step, on its own, gives
a candidate short of both the end of the range and the target; its steps are the iterates of
the scaling. In doubles the scaled steps are told apart by their bits, so two of any `2⁶⁴ + 1`
of them are equal and the steps come round again: a search still going after `2⁶⁴` rounds
never ends, and its budget is never what stops it. It can go round for ever: a step that its
growth factor leaves where it was, as `1.25` leaves the least positive double, is met again in
every round. -/

namespace ProfileLikelihood

open Numeric

/-! ### The degree loop of a polynomial fit -/

section Degree

variable {α : Type}

/-- A refit comes at a smaller degree: the rank it reports is positive and below the number of
coefficients. -/
theorem fitAttempt_retry [Scalar α] {svd : SvdLibrary α} {us ys : Array α} {degree rank : Nat}
    (h : fitAttempt svd us ys degree = .ok (.inr rank)) : rank - 1 < degree := by
  unfold fitAttempt at h
  split at h
  · obtain ⟨r, -, h⟩ := Except.bind_eq_ok.1 h
    split at h
    · cases h
    · split at h
      · cases h
        omega
      · cases h
  · cases h

/-- Retries that always come at a smaller degree give the same fit for any two budgets above the
degree. -/
theorem retryDegree_congr {attempt : Nat → Except ProfileError (Option (Array α) ⊕ Nat)}
    (hdrop : ∀ d rank, attempt d = .ok (.inr rank) → rank - 1 < d) {fuel fuel' degree : Nat}
    (h : degree < fuel) (h' : degree < fuel') :
    retryDegree attempt fuel degree = retryDegree attempt fuel' degree := by
  induction fuel generalizing fuel' degree with
  | zero => omega
  | succ fuel ih =>
    obtain ⟨fuel', rfl⟩ : ∃ k, fuel' = k + 1 := ⟨fuel' - 1, by omega⟩
    cases hfit : attempt degree with
    | error e => simp only [retryDegree, hfit, Except.error_bind]
    | ok r =>
      cases r with
      | inl fit => simp only [retryDegree, hfit, Except.ok_bind]
      | inr rank =>
        have hlt := hdrop degree rank hfit
        simp only [retryDegree, hfit, Except.ok_bind]
        exact ih (by omega) (by omega)

theorem retryDegree_fitAttempt [Scalar α] {svd : SvdLibrary α} {us ys : Array α} {fuel degree : Nat}
    (h : degree < fuel) :
    retryDegree (fitAttempt svd us ys) fuel degree = fitPolynomial svd us ys degree :=
  retryDegree_congr (fun _ _ => fitAttempt_retry) h (Nat.lt_succ_self degree)

end Degree

/-! ### How a proposal can fail -/

/-- A failure on the shape of points: an entry past the end of a point, or two points whose
lengths do not broadcast. -/
inductive ProfileError.Misshapen : ProfileError → Prop
  | indexOutOfBounds (index size : Nat) : Misshapen (.indexOutOfBounds index size)
  | incompatibleLengths (a b : Nat) : Misshapen (.incompatibleLengths a b)

/-- A failure of the decomposition a trend fit asks for: one that does not end, or singular
values that give no rank. -/
inductive ProfileError.OfDecomposition : ProfileError → Prop
  | endless : OfDecomposition .endlessDecomposition
  | negativeRankCutoff : OfDecomposition .negativeRankCutoff

section Points

variable {α : Type} {e : ProfileError}

theorem Profile.pointEntry_error {x : Array α} {i : Nat} (h : Profile.pointEntry x i = .error e) :
    e.Misshapen := by
  unfold Profile.pointEntry at h
  split at h
  · cases h
  · cases h
    exact .indexOutOfBounds _ _

theorem Profile.pointSet_error {x : Array α} {i : Nat} {v : α}
    (h : Profile.pointSet x i v = .error e) : e.Misshapen := by
  unfold Profile.pointSet at h
  split at h
  · cases h
  · cases h
    exact .indexOutOfBounds _ _

theorem Profile.pointZip_error [OfScientific α] {f : α → α → α} {a b : Array α}
    (h : Profile.pointZip f a b = .error e) : e.Misshapen := by
  unfold Profile.pointZip at h
  dsimp only at h
  split at h
  · cases h
  · split at h
    · cases h
    · split at h
      · cases h
      · cases h
        exact .incompatibleLengths _ _

theorem Profile.mapM_entry_error {β : Type} {xs : Array (Array α)} {j : Nat} {k : α → β}
    (h : xs.mapM (fun x => Profile.pointEntry x j >>= fun v => pure (k v)) = .error e) :
    e.Misshapen :=
  Except.arrayMapM_error (fun x err hx => by
    rcases Except.bind_eq_error.1 hx with hx | ⟨_, -, hx⟩
    · exact Profile.pointEntry_error hx
    · cases hx) h

end Points

section Failures

variable {α : Type} {e : ProfileError}

theorem retryDegree_error {E : ProfileError → Prop}
    {attempt : Nat → Except ProfileError (Option (Array α) ⊕ Nat)}
    (hatt : ∀ d err, attempt d = .error err → E err) :
    ∀ {fuel degree : Nat}, retryDegree attempt fuel degree = .error e → E e
  | 0, _, h => by cases h
  | fuel + 1, degree, h => by
    rw [retryDegree] at h
    rcases Except.bind_eq_error.1 h with h | ⟨r, -, h⟩
    · exact hatt degree e h
    · cases r with
      | inl fit => cases h
      | inr rank => exact retryDegree_error hatt h

variable [Scalar α]

theorem fitAttempt_error {svd : SvdLibrary α} {us ys : Array α} {degree : Nat}
    (h : fitAttempt svd us ys degree = .error e) : e.OfDecomposition := by
  unfold fitAttempt at h
  split at h
  · rcases Except.bind_eq_error.1 h with h | ⟨r, -, h⟩
    · unfold rankAbove at h
      split at h
      · cases h
      · cases h
        exact .negativeRankCutoff
    · split at h
      · cases h
      · split at h <;> cases h
  · cases h
    exact .endless

theorem RegressionFit.new?_error {svd : SvdLibrary α} {xPath : Array (Array α)}
    {par dimFull : Nat} {isFixed : Nat → Bool} {regPoints regOrder : Nat}
    (h : RegressionFit.new? svd xPath par dimFull isFixed regPoints regOrder = .error e) :
    e.Misshapen ∨ e.OfDecomposition := by
  unfold RegressionFit.new? at h
  rcases Except.bind_eq_error.1 h with h | ⟨ts, -, h⟩
  · exact .inl (Profile.mapM_entry_error h)
  · dsimp only at h
    split at h
    · cases h
    · rcases Except.bind_eq_error.1 h with h | ⟨_, -, h⟩
      · refine Except.foldlM_error (P := fun err => err.Misshapen ∨ err.OfDecomposition)
          (fun acc j err hj => ?_) h
        split at hj
        · cases hj
        · split at hj
          · cases hj
          · rcases Except.bind_eq_error.1 hj with hj | ⟨_, -, hj⟩
            · exact .inl (Except.arrayMapM_error (fun x err hx => Profile.pointEntry_error hx) hj)
            · exact .inr (retryDegree_error (fun _ _ => fitAttempt_error)
                (Except.bind_pure_eq_error.1 hj))
      · cases h

theorem Extrapolation.lastStep_error {last prev unit : Array α} {step : α}
    (h : Extrapolation.lastStep last prev unit step = .error e) : e.Misshapen := by
  unfold Extrapolation.lastStep at h
  split at h
  · exact Profile.pointZip_error (Except.bind_pure_eq_error.1 h)
  · cases h

theorem Extrapolation.point_error {ex : Extrapolation α} {x : Array α} {par : Nat} {d h : α}
    (hp : ex.point x par d h = .error e) : e.Misshapen := by
  cases ex with
  | linear dir => exact Profile.pointZip_error hp
  | polynomial fit => cases hp

namespace Proposer

variable {P : Proposer α} {x : Array α} {par : Nat} {dir : Direction}

theorem extrapolate_error {ex : Extrapolation α} {d h : α}
    (hp : P.extrapolate ex x par d h = .error e) : e.Misshapen :=
  Extrapolation.point_error (Except.bind_pure_eq_error.1 hp)

theorem interpolate_error {nextObj lastObj target : α} {next last : Array α}
    (h : P.interpolate nextObj lastObj next last target = .error e) : e.Misshapen := by
  unfold interpolate at h
  dsimp only at h
  split at h
  · cases h
  · rcases Except.bind_eq_error.1 h with h | ⟨_, -, h⟩
    · exact Profile.pointZip_error h
    · exact Profile.pointZip_error (Except.bind_pure_eq_error.1 h)

theorem fixedStep_error (h : P.fixedStep x par dir = .error e) : e.Misshapen :=
  Profile.pointEntry_error (Except.bind_pure_eq_error.1 h)

theorem jumpBound_error (h : P.jumpBound x par dir = .error e) : e.Misshapen := by
  unfold jumpBound at h
  rcases Except.bind_eq_error.1 h with h | ⟨_, -, h⟩
  · exact Profile.pointEntry_error h
  · cases dir <;> exact Profile.pointEntry_error (Except.bind_pure_eq_error.1 h)

theorem history_error {follow : Follow} (h : P.history x par dir follow = .error e) :
    e.Misshapen ∨ e.OfDecomposition := by
  unfold history at h
  rcases Except.bind_eq_error.1 h with h | ⟨unit, -, h⟩
  · exact .inl (Profile.pointSet_error h)
  dsimp only at h
  split at h
  · cases h
  rcases Except.bind_eq_error.1 h with h | ⟨_, -, h⟩
  · exact .inl (Profile.pointEntry_error h)
  rcases Except.bind_eq_error.1 h with h | ⟨_, -, h⟩
  · exact .inl (Profile.pointEntry_error h)
  cases follow with
  | hold => cases h
  | lastStep => exact .inl (Extrapolation.lastStep_error (Except.bind_pure_eq_error.1 h))
  | regression =>
    dsimp only at h
    split at h
    · exact .inl (Extrapolation.lastStep_error (Except.bind_pure_eq_error.1 h))
    · rcases Except.bind_eq_error.1 h with h | ⟨fit?, -, h⟩
      · exact RegressionFit.new?_error h
      · cases fit? with
        | some fit => cases h
        | none => exact .inl (Extrapolation.lastStep_error (Except.bind_pure_eq_error.1 h))

end Proposer

end Failures

/-! ### Rounds that go on -/

namespace StepSearch

variable {α : Type} [Scalar α] {s : StepSearch α} {e : ProfileError}

/-- A round whose scaled step is `step` goes on: it reaches a candidate, short of the end of the
range, whose value does not cross the target. -/
def GoesOn (s : StepSearch α) (step : α) : Prop :=
  ∃ c, s.proposer.extrapolate s.extrapolation s.x s.par s.d step = .ok c ∧
    s.atEnd step = false ∧ s.crosses (s.proposer.objective c) = false

theorem round_error {next : Array α} {step nextObj : α}
    (h : s.round next step nextObj = .error e) : e.Misshapen := by
  unfold round at h
  rcases Except.bind_eq_error.1 h with h | ⟨_, -, h⟩
  · exact Proposer.extrapolate_error h
  · dsimp only at h
    split at h
    · cases h
    · split at h
      · exact Proposer.interpolate_error (Except.bind_pure_eq_error.1 h)
      · cases h

/-- A search spends a budget of `fuel` rounds exactly when the first `fuel` iterates of its scaling
all go on. -/
theorem run_eq_endless_iff : ∀ {fuel : Nat} {next : Array α} {step nextObj : α},
    s.run fuel next step nextObj = .error .endlessSearch ↔
      ∀ k < fuel, s.GoesOn (s.scale^[k + 1] step)
  | 0, _, _, _ => ⟨fun _ k hk => absurd hk (Nat.not_lt_zero k), fun _ => rfl⟩
  | fuel + 1, next, step, nextObj => by
    have hfirst : s.GoesOn (s.scale^[0 + 1] step) ↔ s.GoesOn (s.scale step) := Iff.rfl
    rw [run]
    cases hr : s.round next step nextObj with
    | error err =>
      -- a round fails on a misshapen point, never by spending the budget
      refine ⟨fun h => ?_, fun h => ?_⟩
      · cases h
        cases round_error hr
      · obtain ⟨c, hc, hend, hcross⟩ := hfirst.1 (h 0 (Nat.succ_pos _))
        rw [round_of_goesOn hc hend hcross] at hr
        cases hr
    | ok r =>
      obtain ⟨c, hc, ⟨hend, rfl⟩ | ⟨hend, hcross, y, -, rfl⟩ | ⟨hend, hcross, rfl⟩⟩ :=
        round_eq_ok hr
      · refine ⟨fun h => ?_, fun h => ?_⟩
        · cases h
        obtain ⟨_, _, hend', _⟩ := hfirst.1 (h 0 (Nat.succ_pos _))
        rw [hend] at hend'
        cases hend'
      · refine ⟨fun h => ?_, fun h => ?_⟩
        · cases h
        obtain ⟨c', hc', _, hcross'⟩ := hfirst.1 (h 0 (Nat.succ_pos _))
        rw [hc] at hc'
        cases hc'
        rw [hcross] at hcross'
        cases hcross'
      · rw [Except.ok_bind]
        refine run_eq_endless_iff.trans ⟨fun h k hk => ?_, fun h k hk => ?_⟩
        · cases k with
          | zero => exact ⟨c, hc, hend, hcross⟩
          | succ k => exact (Function.iterate_succ_apply s.scale (k + 1) step) ▸ h k (by omega)
        · exact (Function.iterate_succ_apply s.scale (k + 1) step) ▸ h (k + 1) (by omega)

/-- A search that ends within a budget ends the same way within any larger one. -/
theorem run_of_ne_endless : ∀ {fuel fuel' : Nat} {next : Array α} {step nextObj : α},
    fuel ≤ fuel' → s.run fuel next step nextObj ≠ .error .endlessSearch →
      s.run fuel' next step nextObj = s.run fuel next step nextObj
  | 0, _, _, _, _, _, h => absurd rfl h
  | fuel + 1, fuel', next, step, nextObj, hle, h => by
    obtain ⟨fuel', rfl⟩ : ∃ k, fuel' = k + 1 := ⟨fuel' - 1, by omega⟩
    rw [run] at h ⊢
    rw [run]
    cases hr : s.round next step nextObj with
    | error err => rfl
    | ok r =>
      rw [hr] at h
      cases r with
      | inl y => rfl
      | inr going => exact run_of_ne_endless (by omega) h

end StepSearch

/-! ### Steps with one bit pattern -/

/-- An orbit comes back: when its points after the start at `i + 1` and `j + 1` agree, with `i < j
≤ n`, what holds at its first `n` points after the start holds at all of them. -/
theorem forall_iterate_of_return {β : Type} {f : β → β} {b : β} {P : β → Prop} {n i j : Nat}
    (hij : i < j) (hjn : j ≤ n) (heq : f^[i + 1] b = f^[j + 1] b)
    (h : ∀ k < n, P (f^[k + 1] b)) (k : Nat) : P (f^[k + 1] b) := by
  induction k using Nat.strong_induction_on with
  | _ k ih =>
    by_cases hk : k < n
    · exact h k hk
    · obtain ⟨t, rfl⟩ := Nat.exists_eq_add_of_le (show j ≤ k by omega)
      have hback : f^[j + t + 1] b = f^[j + t - (j - i) + 1] b := by
        rw [show j + t + 1 = t + (j + 1) by omega, show j + t - (j - i) + 1 = t + (i + 1) by omega,
          Function.iterate_add_apply f t (j + 1), Function.iterate_add_apply f t (i + 1), heq]
      rw [hback]
      exact ih _ (by omega)

/-- An orbit whose points after the start are told apart by 64 bits: two of its first `2⁶⁴ + 1`
such points share their bits, so what holds at its first `2⁶⁴` of them holds at all. -/
theorem forall_iterate_of_bits {β : Type} {f : β → β} {key : β → UInt64}
    (hkey : ∀ a b, key (f a) = key (f b) → f a = f b) {P : β → Prop} {b : β}
    (h : ∀ k < 2 ^ 64, P (f^[k + 1] b)) (k : Nat) : P (f^[k + 1] b) := by
  obtain ⟨i, j, hne, hij⟩ := Fintype.exists_ne_map_eq_of_card_lt
    (fun k : Fin (2 ^ 64 + 1) => (⟨(key (f^[k.1 + 1] b)).toNat, UInt64.toNat_lt _⟩ : Fin (2 ^ 64)))
    (by simp)
  have hsame : f^[i.1 + 1] b = f^[j.1 + 1] b := by
    rw [Function.iterate_succ_apply', Function.iterate_succ_apply'] at hij ⊢
    exact hkey _ _ (UInt64.toNat_inj.1 (Fin.mk.inj hij))
  rcases Nat.lt_or_gt_of_ne (Fin.val_ne_of_ne hne) with hlt | hlt
  · exact forall_iterate_of_return hlt (Nat.lt_succ_iff.1 j.2) hsame h k
  · exact forall_iterate_of_return hlt (Nat.lt_succ_iff.1 i.2) hsame.symm h k

namespace StepSearch

variable {s : StepSearch Double} {next : Array Double} {step nextObj : Double}

theorem canonical_scale (s : StepSearch Double) (step : Double) : (s.scale step).Canonical :=
  Double.canonical_clamp (Double.canonical_map2 _ _ _) _ _

theorem run_endless_of_budget (h : s.run searchBudget next step nextObj = .error .endlessSearch)
    (fuel : Nat) : s.run fuel next step nextObj = .error .endlessSearch :=
  run_eq_endless_iff.2 fun k _ => forall_iterate_of_bits
    (fun a b hab => Double.eq_of_toBits_eq (canonical_scale s a) (canonical_scale s b) hab)
    (run_eq_endless_iff.1 h) k

theorem run_budget_suffices {fuel : Nat} (hfuel : searchBudget ≤ fuel) :
    s.run fuel next step nextObj = s.run searchBudget next step nextObj := by
  by_cases h : s.run searchBudget next step nextObj = .error .endlessSearch
  · rw [h, run_endless_of_budget h]
  · exact run_of_ne_endless hfuel h

end StepSearch

/-! ### Proposals that do not end -/

namespace Proposer

variable {P : Proposer Double} {x : Array Double} {par : Nat} {dir : Direction}

/-- An adaptive step that does not end has a history, does not jump onto the bound, reaches its
first candidate, and runs a search that spends its whole budget. -/
theorem adaptiveStep_endless {follow : Follow}
    (h : P.adaptiveStep x par dir follow = .error .endlessSearch) :
    ∃ hist next, P.history x par dir follow = .ok hist ∧ P.jumpBound x par dir = .ok none ∧
      P.extrapolate hist.extrapolation x par (Scalar.ofFloat dir.sign)
        (Scalar.clamp hist.stepSize P.minEff P.maxEff) = .ok next ∧
      (P.search x par dir hist (P.objective next)).run searchBudget next
        (Scalar.clamp hist.stepSize P.minEff P.maxEff) (P.objective next) =
        .error .endlessSearch := by
  cases hh : P.history x par dir follow with
  | error err =>
    rw [adaptiveStep, hh] at h
    cases h
    rcases history_error hh with h | h <;> cases h
  | ok hist =>
    cases hj : P.jumpBound x par dir with
    | error err =>
      rw [adaptiveStep, hh, Except.ok_bind, hj] at h
      cases h
      cases jumpBound_error hj
    | ok jb =>
      cases jb with
      | some b =>
        rw [adaptiveStep_of_jump hh hj] at h
        rcases Except.bind_eq_error.1 h with h | ⟨_, -, h⟩
        · cases extrapolate_error h
        · cases Profile.pointSet_error h
      | none =>
        rw [adaptiveStep_of_search hh hj] at h
        rcases Except.bind_eq_error.1 h with h | ⟨next, hnext, h⟩
        · cases extrapolate_error h
        · exact ⟨hist, next, rfl, rfl, hnext, h⟩

/-- A proposal in doubles that does not end is an adaptive step whose step-size search never ends,
whatever its budget: its history, its first candidate and all its rounds come back, and none of
them ends the search. -/
theorem nextGuess_endless_search_runs_forever (P : Proposer Double) (x : Array Double)
    (par : Nat) (dir : Direction) (m : NextGuessMethod) :
    (P.nextGuess x par dir m = .error .endlessSearch →
      ∃ follow hist next, P.history x par dir follow = .ok hist ∧
        P.jumpBound x par dir = .ok none ∧
        P.extrapolate hist.extrapolation x par (Scalar.ofFloat dir.sign)
          (Scalar.clamp hist.stepSize P.minEff P.maxEff) = .ok next ∧
        ∀ fuel, (P.search x par dir hist (P.objective next)).run fuel next
          (Scalar.clamp hist.stepSize P.minEff P.maxEff) (P.objective next) =
          .error .endlessSearch) ∧
    (∀ (svd : SvdLibrary Double) (us ys : Array Double) (degree fuel : Nat), degree < fuel →
      retryDegree (fitAttempt svd us ys) fuel degree = fitPolynomial svd us ys degree) := by
  refine ⟨fun h => ?_, fun _ _ _ _ _ h => retryDegree_fitAttempt h⟩
  have hstep : ∃ follow, P.adaptiveStep x par dir follow = .error .endlessSearch := by
    cases m with
    | fixedStep => cases fixedStep_error h
    | adaptiveOrder0 => exact ⟨.hold, h⟩
    | adaptiveOrder1 => exact ⟨.lastStep, h⟩
    | adaptiveRegression => exact ⟨.regression, h⟩
  obtain ⟨follow, hstep⟩ := hstep
  obtain ⟨hist, next, hh, hj, hnext, hrun⟩ := adaptiveStep_endless hstep
  exact ⟨follow, hist, next, hh, hj, hnext, StepSearch.run_endless_of_budget hrun⟩

end Proposer

namespace GuessContext

/-- An adaptive step held along the axis from `0` in `[-1, 1]`, with the least and first step the
least positive double, on a flat objective, after a walking end whose value is `+∞`: its target is
`+∞` or a NaN, so no candidate crosses it, and growing the step by `1.25` leaves it where it was. -/
theorem nextGuess_least_step_endless :
    let c : GuessContext :=
      { options := { minStepSize := Float.ofBits 1, defaultStepSize := Float.ofBits 1 },
        profile := Profile.new 0 { x := #[.ofFloat 0.0], fval := .ofFloat inf },
        problem := { objective := ({ formula := .linear #[.ofFloat 0.0] (.ofFloat 0.0) } :
                       Objective.Spec).toObjective,
                     lbFull := #[-1.0], ubFull := #[1.0] },
        globalOpt := 0.0 }
    c.nextGuess #[.ofFloat 0.0] 0 .increasing .adaptiveOrder0 = .error .endlessSearch := by
  intro c
  let hist : StepHistory Double := ⟨.ofFloat (Float.ofBits 1), .linear #[.ofFloat 1.0], 0.0⟩
  have hh : c.proposer.history #[.ofFloat 0.0] 0 .increasing .hold = .ok hist := rfl
  have hj : c.proposer.jumpBound #[.ofFloat 0.0] 0 .increasing = .ok none :=
    Except.toOption_eq_some.1 (by decide +kernel)
  have hstep : Scalar.clamp hist.stepSize c.proposer.minEff c.proposer.maxEff =
      .ofFloat (Float.ofBits 1) := by decide
  have hnext : c.proposer.extrapolate hist.extrapolation #[.ofFloat 0.0] 0
      (Scalar.ofFloat Direction.increasing.sign)
      (Scalar.clamp hist.stepSize c.proposer.minEff c.proposer.maxEff) =
      .ok #[.ofFloat (Float.ofBits 1)] := by
    rw [hstep]
    exact Except.toOption_eq_some.1 (by decide +kernel)
  have hobj : c.proposer.objective #[.ofFloat (Float.ofBits 1)] = 0.0 := by decide +kernel
  have htarget : (c.proposer.target hist).float = inf ∨ (c.proposer.target hist).float.isNaN := by
    have hsum : (c.proposer.target hist).float = inf - Float.log (1.0 - 0.1) + 0.5 * 0.0 := by
      show (Double.map2 _ (Double.map2 _ _ (Double.map Float.log _)) (Double.map2 _ _ _)).float = _
      have hratio : (1.0 - c.proposer.options.deltaRatioMax).float = 1.0 - 0.1 :=
        Double.float_map2 _ _ _
      simp only [Double.float_map2, Double.float_map, hratio]
      rfl
    rw [hsum]
    rcases inf_sub_eq_inf_or_isNaN (Float.log (1.0 - 0.1)) with h | h
    · left
      rw [h]
      decide
    · exact .inr (isNaN_add_of_isNaN _ h)
  have hgrows : ¬(0.0 : Double) > c.proposer.target hist := by
    show ¬(c.proposer.target hist).float < (0.0 : Float)
    rcases htarget with h | h
    · rw [h]
      decide
    · exact not_lt_of_isNaN_left h
  have hshort : ¬c.proposer.target hist ≤ 0.0 := by
    show ¬(c.proposer.target hist).float ≤ (0.0 : Float)
    rcases htarget with h | h
    · rw [h]
      decide
    · exact not_le_of_isNaN_left h
  have hadapt : (c.proposer.search #[.ofFloat 0.0] 0 .increasing hist 0.0).adapt = .ofFloat 1.25 :=
    if_neg hgrows
  show c.proposer.adaptiveStep _ _ _ .hold = _
  refine Proposer.adaptiveStep_endless_of_fixed_step hh hj hnext ?_ ?_ ?_ <;> rw [hobj]
  · unfold StepSearch.scale
    rw [hadapt, hstep]
    decide
  · unfold StepSearch.atEnd StepSearch.shrinks
    rw [hadapt, hstep]
    decide
  · unfold StepSearch.crosses StepSearch.shrinks
    rw [hadapt, if_neg (by decide)]
    exact decide_eq_false hshort

/-- Options that pass every check, with the least and first step the least positive double,
still give a proposal that never ends. -/
theorem least_step_options_stall_the_search :
    ({ minStepSize := Float.ofBits 1, defaultStepSize := Float.ofBits 1 } :
      ProfileOptions).firstViolation.isNone = true ∧
    ({ options := { minStepSize := Float.ofBits 1, defaultStepSize := Float.ofBits 1 },
       profile := Profile.new 0 { x := #[.ofFloat 0.0], fval := .ofFloat inf },
       problem := { objective := ({ formula := .linear #[.ofFloat 0.0] (.ofFloat 0.0) } :
                      Objective.Spec).toObjective,
                    lbFull := #[-1.0], ubFull := #[1.0] },
       globalOpt := 0.0 } : GuessContext).nextGuess #[.ofFloat 0.0] 0 .increasing
      .adaptiveOrder0 = .error .endlessSearch :=
  ⟨by decide, nextGuess_least_step_endless⟩

/-- The proposal of `nextGuess_least_step_endless` runs a search that no budget ends. -/
theorem least_step_search_runs_forever :
    let c : GuessContext :=
      { options := { minStepSize := Float.ofBits 1, defaultStepSize := Float.ofBits 1 },
        profile := Profile.new 0 { x := #[.ofFloat 0.0], fval := .ofFloat inf },
        problem := { objective := ({ formula := .linear #[.ofFloat 0.0] (.ofFloat 0.0) } :
                       Objective.Spec).toObjective,
                     lbFull := #[-1.0], ubFull := #[1.0] },
        globalOpt := 0.0 }
    ∃ follow hist next, c.proposer.history #[.ofFloat 0.0] 0 .increasing follow = .ok hist ∧
      c.proposer.jumpBound #[.ofFloat 0.0] 0 .increasing = .ok none ∧
      c.proposer.extrapolate hist.extrapolation #[.ofFloat 0.0] 0
        (Scalar.ofFloat Direction.increasing.sign)
        (Scalar.clamp hist.stepSize c.proposer.minEff c.proposer.maxEff) = .ok next ∧
      ∀ fuel, (c.proposer.search #[.ofFloat 0.0] 0 .increasing hist
        (c.proposer.objective next)).run fuel next
        (Scalar.clamp hist.stepSize c.proposer.minEff c.proposer.maxEff)
        (c.proposer.objective next) = .error .endlessSearch :=
  (Proposer.nextGuess_endless_search_runs_forever _ _ _ _ _).1 nextGuess_least_step_endless

end GuessContext

end ProfileLikelihood
