import ProfileLikelihood.Profile.Guess
import ProfileLikelihood.Proofs.Basic

/-! Adaptive proposals: the jump onto a bound, and the step-size search, one round at a time. A
round scales the step, reaches a candidate, and then ends the search at the end of the admissible
range or where the objective crosses the target, or goes on from the candidate. What goes on
depends on the step alone, so a round that leaves its step where it was comes back to itself:
such a search never ends, whatever its budget. -/

namespace ProfileLikelihood.Profile

variable {α : Type} {x : Array α} {i n : Nat}

theorem pointEntry_eq_ok {e : α} (h : pointEntry x i = .ok e) : x[i]? = some e := by
  unfold pointEntry at h
  split at h
  · rename_i hi
    cases h
    exact Array.getElem?_eq_getElem hi
  · cases h

theorem pointEntry_of_lt (h : i < x.size) : pointEntry x i = .ok x[i] := by
  simp [pointEntry, h]

theorem pointSet_of_lt {v : α} (h : i < x.size) :
    ∃ y, pointSet x i v = .ok y ∧ y.size = x.size := by
  refine ⟨x.set! i v, ?_, by simp⟩
  simp [pointSet, h]

theorem pointZip_of_size [OfScientific α] (f : α → α → α) {a b : Array α} (ha : a.size = n)
    (hb : b.size = n) : ∃ z, pointZip f a b = .ok z ∧ z.size = n := by
  unfold pointZip
  rw [if_pos (ha.trans hb.symm)]
  exact ⟨_, rfl, by simp [ha]⟩

end ProfileLikelihood.Profile

namespace ProfileLikelihood.StepSearch

open Numeric

variable {α : Type} [Scalar α] {s : StepSearch α} {next cand : Array α} {step nextObj candObj : α}

/-- What one round can do: end at the end of the range with its candidate, end across the
target with the interpolation between its candidate and the last one, or go on from its
candidate with the scaled step and the candidate's value. -/
theorem round_eq_ok {r : Array α ⊕ Array α × α × α} (h : s.round next step nextObj = .ok r) :
    ∃ c, s.proposer.extrapolate s.extrapolation s.x s.par s.d (s.scale step) = .ok c ∧
      ((s.atEnd (s.scale step) = true ∧ r = .inl c) ∨
        (s.atEnd (s.scale step) = false ∧ s.crosses (s.proposer.objective c) = true ∧
          ∃ y, s.proposer.interpolate (s.proposer.objective c) nextObj c next s.target = .ok y ∧
            r = .inl y) ∨
        (s.atEnd (s.scale step) = false ∧ s.crosses (s.proposer.objective c) = false ∧
          r = .inr (c, s.scale step, s.proposer.objective c))) := by
  unfold round at h
  obtain ⟨c, hc, h⟩ := Except.bind_eq_ok.1 h
  refine ⟨c, hc, ?_⟩
  cases hend : s.atEnd (s.scale step)
  · cases hcross : s.crosses (s.proposer.objective c)
    · simp only [hend, hcross, Bool.false_eq_true, if_false, Except.pure_eq,
        Except.ok.injEq] at h
      exact .inr (.inr ⟨rfl, rfl, h.symm⟩)
    · simp only [hend, hcross, Bool.false_eq_true, if_false, if_true] at h
      obtain ⟨y, hy, h⟩ := Except.bind_eq_ok.1 h
      cases h
      exact .inr (.inl ⟨rfl, rfl, y, hy, rfl⟩)
  · simp only [hend, if_true, Except.pure_eq, Except.ok.injEq] at h
    exact .inl ⟨rfl, h.symm⟩

theorem round_of_goes_on
    (h : s.round next step nextObj = .ok (.inr (cand, s.scale step, candObj)))
    (next' : Array α) (nextObj' : α) :
    s.round next' step nextObj' = .ok (.inr (cand, s.scale step, candObj)) := by
  obtain ⟨c, hc, ⟨-, h⟩ | ⟨-, -, y, -, h⟩ | ⟨hend, hcross, h⟩⟩ := round_eq_ok h
  · cases h
  · cases h
  · cases h
    simp [round, hc, hend, hcross]

/-- A round that leaves its step where it was comes back to the candidate and value it went on
from, so it repeats itself for ever. -/
theorem round_repeat (h : s.round next step nextObj = .ok (.inr (cand, step, candObj))) :
    s.round cand step candObj = .ok (.inr (cand, step, candObj)) := by
  obtain ⟨c, -, ⟨-, h'⟩ | ⟨-, -, y, -, h'⟩ | ⟨-, -, h'⟩⟩ := round_eq_ok h
  · cases h'
  · cases h'
  · -- it went on with the scaled step, which is the step itself
    simp only [Sum.inr.injEq, Prod.mk.injEq] at h'
    obtain ⟨rfl, hscale, rfl⟩ := h'
    have hgo : s.round next step nextObj =
        .ok (.inr (cand, s.scale step, s.proposer.objective cand)) := by
      rw [h, ← hscale]
    have hagain := round_of_goes_on hgo cand (s.proposer.objective cand)
    rwa [← hscale] at hagain

theorem round_of_goesOn
    (hc : s.proposer.extrapolate s.extrapolation s.x s.par s.d (s.scale step) = .ok cand)
    (hend : s.atEnd (s.scale step) = false) (hcross : s.crosses (s.proposer.objective cand) = false) :
    s.round next step nextObj = .ok (.inr (cand, s.scale step, s.proposer.objective cand)) := by
  simp only [round, hc, Except.ok_bind, hend, hcross, Bool.false_eq_true, if_false]
  rfl

theorem round_of_fixed_step (hscale : s.scale step = step)
    (hc : s.proposer.extrapolate s.extrapolation s.x s.par s.d step = .ok cand)
    (hend : s.atEnd step = false) (hcross : s.crosses (s.proposer.objective cand) = false) :
    s.round next step nextObj = .ok (.inr (cand, step, s.proposer.objective cand)) := by
  have hround : s.round next step nextObj =
      .ok (.inr (cand, s.scale step, s.proposer.objective cand)) :=
    round_of_goesOn (by rw [hscale]; exact hc) (by rw [hscale]; exact hend) hcross
  rwa [hscale] at hround

theorem run_of_repeat (h : s.round next step nextObj = .ok (.inr (cand, step, candObj))) :
    ∀ fuel, s.run fuel cand step candObj = .error .endlessSearch
  | 0 => rfl
  | fuel + 1 => by
    simp only [run, round_repeat h, Except.ok_bind]
    exact run_of_repeat h fuel

end ProfileLikelihood.StepSearch

namespace ProfileLikelihood.Proposer

open Numeric

variable {α : Type} [Scalar α] {P : Proposer α} {x : Array α} {par : Nat} {dir : Direction}
  {follow : Follow} {hist : StepHistory α}

/-- A bound an adaptive step jumps onto is the lower or the upper bound of the parameter. -/
theorem jumpBound_eq_some {b : α} (h : P.jumpBound x par dir = .ok (some b)) :
    P.lb[par]? = some b ∨ P.ub[par]? = some b := by
  unfold jumpBound at h
  obtain ⟨v, -, h⟩ := Except.bind_eq_ok.1 h
  cases dir with
  | decreasing =>
    obtain ⟨l, hl, h⟩ := Except.bind_eq_ok.1 h
    split at h <;> cases h
    exact .inl (Profile.pointEntry_eq_ok hl)
  | increasing =>
    obtain ⟨u, hu, h⟩ := Except.bind_eq_ok.1 h
    split at h <;> cases h
    exact .inr (Profile.pointEntry_eq_ok hu)

theorem adaptiveStep_of_jump {b : α} (hh : P.history x par dir follow = .ok hist)
    (hj : P.jumpBound x par dir = .ok (some b)) :
    P.adaptiveStep x par dir follow =
      (P.extrapolate hist.extrapolation x par (Scalar.ofFloat dir.sign)
        (Scalar.abs (b - x.getD par 0.0)) >>= fun z => Profile.pointSet z par b) := by
  rw [adaptiveStep, hh, Except.ok_bind, hj, Except.ok_bind]

theorem adaptiveStep_of_search (hh : P.history x par dir follow = .ok hist)
    (hj : P.jumpBound x par dir = .ok none) :
    P.adaptiveStep x par dir follow =
      (P.extrapolate hist.extrapolation x par (Scalar.ofFloat dir.sign)
        (Scalar.clamp hist.stepSize P.minEff P.maxEff) >>= fun next =>
          (P.search x par dir hist (P.objective next)).run searchBudget next
            (Scalar.clamp hist.stepSize P.minEff P.maxEff) (P.objective next)) := by
  rw [adaptiveStep, hh, Except.ok_bind, hj, Except.ok_bind]

/-- An adaptive step whose search leaves its first step where it was, short of the end of the
range and with a first candidate short of the target, never ends. -/
theorem adaptiveStep_endless_of_fixed_step {next : Array α}
    (hh : P.history x par dir follow = .ok hist) (hj : P.jumpBound x par dir = .ok none)
    (hnext : P.extrapolate hist.extrapolation x par (Scalar.ofFloat dir.sign)
      (Scalar.clamp hist.stepSize P.minEff P.maxEff) = .ok next)
    (hscale : (P.search x par dir hist (P.objective next)).scale
      (Scalar.clamp hist.stepSize P.minEff P.maxEff) = Scalar.clamp hist.stepSize P.minEff P.maxEff)
    (hend : (P.search x par dir hist (P.objective next)).atEnd
      (Scalar.clamp hist.stepSize P.minEff P.maxEff) = false)
    (hcross : (P.search x par dir hist (P.objective next)).crosses (P.objective next) = false) :
    P.adaptiveStep x par dir follow = .error .endlessSearch := by
  rw [adaptiveStep_of_search hh hj, hnext, Except.ok_bind]
  -- the first round, from the first candidate, goes on from that same candidate
  have hround : (P.search x par dir hist (P.objective next)).round next
      (Scalar.clamp hist.stepSize P.minEff P.maxEff) (P.objective next) =
      .ok (.inr (next, Scalar.clamp hist.stepSize P.minEff P.maxEff, P.objective next)) :=
    StepSearch.round_of_fixed_step hscale hnext hend hcross
  exact StepSearch.run_of_repeat hround _

end ProfileLikelihood.Proposer
