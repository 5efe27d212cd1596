import ProfileLikelihood.Profile.Guess
import ProfileLikelihood.Proofs.Search
import ProfileLikelihood.Proofs.Float

/-! Every proposal of a profile walk stays in the box, entry by entry. Each way a proposal is
made ends in a clip into the box (a step along a line or along fitted trends, an interpolation
between two candidates), returns a candidate that did, or jumps onto a bound of the profiled
parameter after a clipped step. A clip can only leave a NaN outside the box, so every entry of a
proposal that is a number lies between its parameter's bounds. -/

namespace ProfileLikelihood

open Numeric

namespace Problem

/-! ### The box of one parameter -/

/-- A checked pair of bound vectors has one pair of bounds per parameter, both numbers and in
order. -/
theorem checkBounds_eq_ok {lb ub : Vec} (h : checkBounds lb ub = .ok ()) :
    lb.size = ub.size ∧ ∀ i < lb.size, (lb.entry i).isNaN = false ∧ (ub.entry i).isNaN = false ∧
      lb.entry i ≤ ub.entry i := by
  unfold checkBounds at h
  split at h
  · cases h
  · rename_i hsize
    refine ⟨Classical.not_not.1 hsize, fun i hi => ?_⟩
    dsimp only at h
    split at h
    · cases h
    · rename_i hnone
      have hgood := List.find?_eq_none.1 hnone i (List.mem_range.2 hi)
      simp only [Bool.or_eq_true, decide_eq_true_eq, not_or, Bool.not_eq_true] at hgood
      obtain ⟨⟨hl, hu⟩, hlt⟩ := hgood
      exact ⟨hl, hu, float_le_of_not_lt hu hl hlt⟩

/-- The box of parameter `par`: both bounds present, numbers, and in order. -/
structure BoxAt (p : Problem) (par : Nat) : Prop where
  lt_lb : par < p.lbFull.size
  lt_ub : par < p.ubFull.size
  lb_num : (p.lbFull.entry par).isNaN = false
  ub_num : (p.ubFull.entry par).isNaN = false
  le : p.lbFull.entry par ≤ p.ubFull.entry par

theorem BoxAt.of_checkBounds {p : Problem} {par : Nat} (h : checkBounds p.lbFull p.ubFull = .ok ())
    (hpar : par < p.lbFull.size) : p.BoxAt par := by
  obtain ⟨hsize, hbox⟩ := checkBounds_eq_ok h
  obtain ⟨hl, hu, hle⟩ := hbox par hpar
  exact ⟨hpar, hsize ▸ hpar, hl, hu, hle⟩

theorem BoxAt.congr {p q : Problem} {par : Nat} (hb : p.BoxAt par) (hl : q.lbFull = p.lbFull)
    (hu : q.ubFull = p.ubFull) : q.BoxAt par := by
  obtain ⟨h₁, h₂, h₃, h₄, h₅⟩ := hb
  rw [← hl, ← hu] at *
  exact ⟨h₁, h₂, h₃, h₄, h₅⟩

/-- Entry `par` of `x`, when it is a number, lies in the box of parameter `par`. -/
def BoundedAt (p : Problem) (par : Nat) (x : Point) : Prop :=
  ∀ v, x[par]? = some v → v.float.isNaN = false →
    p.lbFull.entry par ≤ v.float ∧ v.float ≤ p.ubFull.entry par

variable {p : Problem} {par : Nat}

theorem getD_ofFloats (v : Vec) (i : Nat) :
    (Double.ofFloats v).getD i 0.0 = .ofFloat (v.entry i) := by
  simp only [Double.ofFloats, Array.getD_eq_getD_getElem?, Array.getElem?_map, Vec.entry]
  cases v[i]? <;> rfl

theorem BoxAt.clip (hb : p.BoxAt par) (x : Point) :
    p.BoundedAt par (clipInto (Double.ofFloats p.lbFull) (Double.ofFloats p.ubFull) x) := by
  intro v hv hnum
  simp only [clipInto, Array.getElem?_mapIdx, Double.ofFloats, Array.size_map, hb.lt_lb,
    hb.lt_ub, and_self, if_true, Option.map_eq_some_iff] at hv
  obtain ⟨w, -, rfl⟩ := hv
  rw [← Double.ofFloats, ← Double.ofFloats, getD_ofFloats, getD_ofFloats] at hnum ⊢
  exact Double.clamp_mem hb.lb_num hb.ub_num hb.le hnum

/-- A bound itself lies in the box. -/
theorem BoxAt.bound_mem (hb : p.BoxAt par) {b : Double}
    (hbound : (Double.ofFloats p.lbFull)[par]? = some b ∨
      (Double.ofFloats p.ubFull)[par]? = some b) :
    p.lbFull.entry par ≤ b.float ∧ b.float ≤ p.ubFull.entry par := by
  have hl : (Double.ofFloats p.lbFull)[par]? = some (.ofFloat (p.lbFull.entry par)) := by
    simp [Double.ofFloats, Vec.entry, Array.getD_eq_getD_getElem?, hb.lt_lb]
  have hu : (Double.ofFloats p.ubFull)[par]? = some (.ofFloat (p.ubFull.entry par)) := by
    simp [Double.ofFloats, Vec.entry, Array.getD_eq_getD_getElem?, hb.lt_ub]
  rcases hbound with h | h
  · obtain rfl := Option.some.inj (h.symm.trans hl)
    exact ⟨float_le_refl hb.lb_num, hb.le⟩
  · obtain rfl := Option.some.inj (h.symm.trans hu)
    exact ⟨hb.le, float_le_refl hb.ub_num⟩

/-- Setting entry `par` to a bound leaves it in the box, and every other entry as it was. -/
theorem BoxAt.pointSet {j : Nat} (hb : p.BoxAt j) {x y : Point} {b : Double}
    (hbound : j = par → (Double.ofFloats p.lbFull)[par]? = some b ∨
      (Double.ofFloats p.ubFull)[par]? = some b) (hx : p.BoundedAt j x)
    (h : Profile.pointSet x par b = .ok y) : p.BoundedAt j y := by
  unfold Profile.pointSet at h
  split at h
  · rename_i hlt
    cases h
    intro v hv hnum
    rw [Array.set!_eq_setIfInBounds] at hv
    by_cases hj : j = par
    · subst hj
      rw [Array.getElem?_setIfInBounds_self_of_lt hlt] at hv
      cases hv
      exact hb.bound_mem (hbound rfl)
    · rw [Array.getElem?_setIfInBounds_ne (Ne.symm hj)] at hv
      exact hx v hv hnum
  · cases h

end Problem

/-! ### Every way of proposing -/

namespace Proposer

variable {α : Type} [Scalar α] {P : Proposer α} {Q : Array α → Prop} {x y : Array α} {par : Nat}
  {dir : Direction}

theorem extrapolate_of_clip (hclip : ∀ z, Q (P.clip z)) {e : Extrapolation α} {d h : α}
    (happly : P.extrapolate e x par d h = .ok y) : Q y := by
  obtain ⟨z, -, happly⟩ := Except.bind_eq_ok.1 happly
  cases happly
  exact hclip z

theorem interpolate_of_clip (hclip : ∀ z, Q (P.clip z)) {nextObj lastObj target : α}
    {next last : Array α} (hnext : Q next)
    (h : P.interpolate nextObj lastObj next last target = .ok y) : Q y := by
  unfold interpolate at h
  dsimp only at h
  split at h
  · cases h
    exact hnext
  · obtain ⟨span, -, h⟩ := Except.bind_eq_ok.1 h
    obtain ⟨z, -, h⟩ := Except.bind_eq_ok.1 h
    cases h
    exact hclip z

theorem fixedStep_of_clip (hclip : ∀ z, Q (P.clip z)) (h : P.fixedStep x par dir = .ok y) :
    Q y := by
  unfold fixedStep at h
  obtain ⟨v, -, h⟩ := Except.bind_eq_ok.1 h
  cases h
  exact hclip _

end Proposer

namespace StepSearch

variable {α : Type} [Scalar α] {s : StepSearch α} {Q : Array α → Prop}

theorem round_of_clip (hclip : ∀ z, Q (s.proposer.clip z)) {next y : Array α} {step nextObj : α}
    (h : s.round next step nextObj = .ok (.inl y)) : Q y := by
  obtain ⟨c, hc, ⟨-, hy⟩ | ⟨-, -, z, hz, hy⟩ | ⟨-, -, hy⟩⟩ := round_eq_ok h <;> cases hy
  · exact Proposer.extrapolate_of_clip hclip hc
  · exact Proposer.interpolate_of_clip hclip (Proposer.extrapolate_of_clip hclip hc) hz

/-- The geometric search returns the candidate of the round that ends it or the interpolation
between two candidates; each went through the clip. -/
theorem run_of_clip (hclip : ∀ z, Q (s.proposer.clip z)) :
    ∀ {fuel : Nat} {next y : Array α} {step nextObj : α},
      s.run fuel next step nextObj = .ok y → Q y
  | 0, _, _, _, _, h => by cases h
  | fuel + 1, next, y, step, nextObj, h => by
    obtain ⟨r, hr, h⟩ := Except.bind_eq_ok.1 h
    rcases r with y' | ⟨c, st, o⟩
    · cases h
      exact round_of_clip hclip hr
    · exact run_of_clip hclip h

end StepSearch

namespace Proposer

variable {α : Type} [Scalar α] {P : Proposer α} {Q : Array α → Prop} {x y : Array α} {par : Nat}
  {dir : Direction}

/-- Every proposal is a clipped point, or a clipped point with the profiled entry put on a
bound: whatever holds of every clipped point, and survives putting entry `par` on a bound,
holds of every proposal. -/
theorem nextGuess_of_clip (hclip : ∀ z, Q (P.clip z))
    (hbound : ∀ z b w, P.lb[par]? = some b ∨ P.ub[par]? = some b → Q z →
      Profile.pointSet z par b = .ok w → Q w)
    {m : NextGuessMethod} (h : P.nextGuess x par dir m = .ok y) : Q y := by
  -- an adaptive step jumps onto a bound after a clipped step, or searches from a clipped step
  have hadaptive : ∀ follow, P.adaptiveStep x par dir follow = .ok y → Q y := by
    intro follow h
    obtain ⟨hist, hh, h'⟩ := Except.bind_eq_ok.1 h
    obtain ⟨jb, hj, -⟩ := Except.bind_eq_ok.1 h'
    cases jb with
    | some b =>
      rw [adaptiveStep_of_jump hh hj] at h
      obtain ⟨z, hz, h⟩ := Except.bind_eq_ok.1 h
      exact hbound z b y (jumpBound_eq_some hj) (extrapolate_of_clip hclip hz) h
    | none =>
      rw [adaptiveStep_of_search hh hj] at h
      obtain ⟨next, -, h⟩ := Except.bind_eq_ok.1 h
      exact StepSearch.run_of_clip hclip h
  cases m with
  | fixedStep => exact fixedStep_of_clip hclip h
  | adaptiveOrder0 => exact hadaptive _ h
  | adaptiveOrder1 => exact hadaptive _ h
  | adaptiveRegression => exact hadaptive _ h

end Proposer

theorem GuessContext.nextGuess_boundedAt {c : GuessContext} {x y : Point} {j par : Nat}
    {dir : Direction} (hb : c.problem.BoxAt j) {m : NextGuessMethod}
    (h : c.nextGuess x par dir m = .ok y) : c.problem.BoundedAt j y :=
  Proposer.nextGuess_of_clip (P := c.proposer) (fun z => hb.clip z)
    (fun _ _ _ hbound hz hset => hb.pointSet (fun hj => hj ▸ hbound) hz hset) h

end ProfileLikelihood
