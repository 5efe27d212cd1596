import ProfileLikelihood.Minimize.Lbfgs
import ProfileLikelihood.Proofs.Basic
import ProfileLikelihood.Proofs.Float

/-! The best cost of an L-BFGS run is the cost of its best point. Each line search lands on a
point together with the cost there: More–Thuente returns the trial it just evaluated, and
Hager–Zhang the best of the points it probed, which is the placeholder of cost `+∞` only when no
probe could be compared. A landing of cost `+∞` never improves on the best cost, so through every
iteration the best point and the best cost stay a point and its cost. -/

namespace ProfileLikelihood

open Numeric

/-- What a line search promises of its landing: its cost is the oracle's cost at its point, or
`+∞`. -/
def LandsHonestly (search : Lbfgs.LineSearch) : Prop :=
  ∀ o ray land, search o ray = .ok land → land.cost = inf ∨ o.cost land.point = .ok land.cost

/-! ### More–Thuente -/

namespace MoreThuente

/-- The trials of a search end on the last point evaluated, with its cost. -/
theorem Search.run_lands {o : Oracle} {ray : Ray} {finit dginit : Float} :
    ∀ {fuel calls : Nat} {s : Search} {land : Landing},
      Search.run o ray finit dginit fuel calls s = .ok land → o.cost land.point = .ok land.cost
  | 0, _, _, _, h => by cases h
  | fuel + 1, calls, s, land, h => by
    unfold Search.run at h
    dsimp only at h
    obtain ⟨f, hf, h⟩ := Except.bind_eq_ok.1 h
    obtain ⟨g, -, h⟩ := Except.bind_eq_ok.1 h
    rcases Except.ite_eq_ok h with h | h
    · -- the trial ends the search: it is the landing
      cases h
      exact Except.mapError_eq_ok.1 hf
    · obtain ⟨s', -, h⟩ := Except.bind_eq_ok.1 h
      exact Search.run_lands h

end MoreThuente

theorem moreThuente_lands : LandsHonestly moreThuente := by
  intro o ray land h
  unfold moreThuente at h
  dsimp only at h
  split at h
  · cases h
  · exact .inr (MoreThuente.Search.run_lands h)

/-! ### Hager–Zhang -/

namespace HagerZhang

/-- Every result of the counted computation `m` satisfies `P`. -/
def Yields {α : Type} (m : Probe α) (P : α → Prop) : Prop :=
  ∀ n a n', m n = .ok (a, n') → P a

section Yields

variable {α β : Type} {P : α → Prop} {Q : β → Prop}

theorem Yields.pure {a : α} (h : P a) : Yields (pure a : Probe α) P := by
  intro n b n' hb
  cases hb
  exact h

theorem Yields.throw {e : SearchFailure} : Yields (throw e : Probe α) P := by
  intro n b n' hb
  cases hb

theorem Yields.bind {m : Probe α} {f : α → Probe β} (hm : Yields m P)
    (hf : ∀ a, P a → Yields (f a) Q) : Yields (m >>= f) Q := by
  intro n b n' h
  obtain ⟨⟨a, s⟩, ha, hb⟩ := Except.bind_eq_ok.1 h
  exact hf a (hm n a s ha) s b n' hb

theorem Yields.lift {x : Except FitError α} (h : ∀ a, x = .ok a → P a) :
    Yields (liftM (liftEval x) : Probe α) P := by
  intro n b n' hb
  change (liftEval x >>= fun a => Except.ok (a, n)) = _ at hb
  obtain ⟨a, ha, hb⟩ := Except.bind_eq_ok.1 hb
  cases hb
  exact h _ (Except.mapError_eq_ok.1 ha)

theorem Yields.modify {f : Nat → Nat} {P : PUnit → Prop} (h : P ⟨⟩) :
    Yields (modify f : Probe PUnit) P :=
  fun _ _ _ _ => h

end Yields

variable {c : Context}

/-- A point whose value is the oracle's cost at its step along the ray, or `+∞`. -/
def Context.Honest (c : Context) (pt : Point) : Prop :=
  pt.value = inf ∨ c.oracle.cost (c.ray.point pt.step) = .ok pt.value

/-- Both ends of a bracket are honest. -/
def Context.HonestPair (c : Context) (r : Point × Point) : Prop := c.Honest r.1 ∧ c.Honest r.2

theorem probe_honest (t : Float) : Yields (probe c t) c.Honest := by
  unfold probe
  refine Yields.bind (Yields.modify (P := fun _ => True) trivial) fun _ _ => ?_
  refine Yields.bind (Yields.lift (P := fun f => c.oracle.cost (c.ray.point t) = .ok f)
    fun _ h => h) fun f hf => ?_
  exact Yields.bind (Yields.lift (P := fun _ => True) fun _ _ => trivial)
    fun _ _ => Yields.pure (.inr hf)

theorem bisect_honest : ∀ (fuel : Nat) {a b : Point}, c.Honest a → c.Honest b →
    Yields (bisect c fuel a b) c.HonestPair
  | 0, _, _, _, _ => Yields.throw
  | fuel + 1, a, b, ha, hb => by
    unfold bisect
    refine Yields.bind (probe_honest _) fun d hd => ?_
    split
    · exact Yields.pure ⟨ha, hd⟩
    · split
      · split
        · exact bisect_honest fuel hd hb
        · exact bisect_honest fuel ha hd
      · exact bisect_honest fuel ha hb

theorem update_honest {a b p : Point} (ha : c.Honest a) (hb : c.Honest b) (hp : c.Honest p) :
    Yields (update c a b p) c.HonestPair := by
  unfold update
  split
  · exact Yields.pure ⟨ha, hb⟩
  · split
    · exact Yields.pure ⟨ha, hp⟩
    · split
      · exact Yields.pure ⟨hp, hb⟩
      · split
        · exact bisect_honest budget ha hp
        · exact Yields.throw

theorem secant2_honest {a b : Point} (ha : c.Honest a) (hb : c.Honest b) :
    Yields (secant2 c a b) c.HonestPair := by
  unfold secant2
  refine Yields.bind (probe_honest _) fun p hp => ?_
  refine Yields.bind (update_honest ha hb hp) fun ⟨a', b'⟩ ⟨ha', hb'⟩ => ?_
  dsimp only
  split
  · exact Yields.bind (probe_honest _) fun q hq => update_honest ha' hb' hq
  · exact Yields.pure ⟨ha', hb'⟩

theorem round_honest {a b : Point} (ha : c.Honest a) (hb : c.Honest b) :
    Yields (round c a b) c.HonestPair := by
  unfold round
  refine Yields.bind (secant2_honest ha hb) fun ⟨a', b'⟩ ⟨ha', hb'⟩ => ?_
  dsimp only
  split
  · exact Yields.bind (probe_honest _) fun p hp => update_honest ha' hb' hp
  · exact Yields.pure ⟨ha', hb'⟩

/-- The best of four honest points is honest: it is one of them. -/
theorem best_honest {a b t prev : Point} (ha : c.Honest a) (hb : c.Honest b) (ht : c.Honest t)
    (hprev : c.Honest prev) : c.Honest (best a b t prev) := by
  unfold best
  dsimp only
  split
  · exact ht
  · split
    · exact hb
    · split
      · exact ha
      · exact hprev

theorem rounds_honest {dginit : Float} {first : Point} (hfirst : c.Honest first) :
    ∀ (fuel : Nat) {a b p : Point}, c.Honest a → c.Honest b → c.Honest p →
      Yields (rounds c dginit first fuel a b p) c.Honest
  | 0, _, _, _, _, _, _ => Yields.throw
  | fuel + 1, a, b, p, ha, hb, hp => by
    unfold rounds
    split
    · exact Yields.pure hp
    · refine Yields.bind (round_honest ha hb) fun ⟨a', b'⟩ ⟨ha', hb'⟩ => ?_
      exact rounds_honest hfirst fuel ha' hb' (best_honest ha' hb' hfirst hp)

end HagerZhang

theorem hagerZhang_lands : LandsHonestly hagerZhang := by
  intro o ray land h
  unfold hagerZhang at h
  dsimp only at h
  obtain ⟨⟨p, calls⟩, hrun, h⟩ := Except.bind_eq_ok.1 h
  cases h
  let c : HagerZhang.Context := ⟨o, ray, ray.cost, HagerZhang.epsilon * ray.cost.abs⟩
  -- the placeholder the first best point is chosen against has cost `+∞`
  have hnone : c.Honest ⟨0.0, inf, nan⟩ := .inl rfl
  have hsearch : HagerZhang.Yields (do
      let a ← HagerZhang.probe c HagerZhang.stepMin
      let b ← HagerZhang.probe c HagerZhang.stepMax
      let first ← HagerZhang.probe c HagerZhang.firstStep
      HagerZhang.rounds c ray.slope first HagerZhang.budget a b
        (HagerZhang.best a b first ⟨0.0, inf, nan⟩)) c.Honest :=
    HagerZhang.Yields.bind (HagerZhang.probe_honest _) fun a ha =>
      HagerZhang.Yields.bind (HagerZhang.probe_honest _) fun b hb =>
        HagerZhang.Yields.bind (HagerZhang.probe_honest _) fun first hfirst =>
          HagerZhang.rounds_honest hfirst _ ha hb (HagerZhang.best_honest ha hb hfirst hnone)
  exact hsearch 0 p calls hrun

theorem Lbfgs.searchOf_lands (k : LineSearchKind) : LandsHonestly (Lbfgs.searchOf k) := by
  cases k with
  | moreThuente => exact moreThuente_lands
  | hagerZhang => exact hagerZhang_lands

/-! ### L-BFGS -/

namespace Lbfgs

/-- The best point, when there is one, has the best cost as its cost. -/
def Iterate.Honest (o : Oracle) (st : Iterate) : Prop :=
  st.bestPoint.isEmpty = false → o.cost st.bestPoint = .ok st.bestCost

variable {search : LineSearch} {o : Oracle} {cfg : Settings}

theorem start_honest {z0 : Vec} {st : Iterate} (h : start o z0 = .ok st) : st.Honest o := by
  unfold start at h
  obtain ⟨c, hc, h⟩ := Except.bind_eq_ok.1 h
  obtain ⟨g, -, h⟩ := Except.bind_eq_ok.1 h
  cases h
  intro hne
  dsimp only at hne ⊢
  split
  · exact hc
  · rename_i himp
    simp [himp] at hne

/-- Moving to a landing keeps the best point honest: a landing of cost `+∞` never improves. -/
theorem Iterate.moveTo_honest {st : Iterate} (hst : st.Honest o) {land : Landing}
    (hland : land.cost = inf ∨ o.cost land.point = .ok land.cost) (g : Vec) :
    (st.moveTo land.point land.cost g).Honest o := by
  unfold Iterate.moveTo Iterate.Honest
  dsimp only
  by_cases hbetter : land.cost < st.bestCost
  · simp only [hbetter, if_true]
    intro _
    rcases hland with hinf | hcost
    · exact absurd (hinf ▸ hbetter) (not_inf_lt _)
    · exact hcost
  · simp only [hbetter, if_false]
    exact hst

theorem Iterate.advance_honest (hsearch : LandsHonestly search) {st next : Iterate}
    (hst : st.Honest o) (h : st.advance search o cfg = .ok (.inl next)) : next.Honest o := by
  unfold Iterate.advance at h
  dsimp only at h
  split at h
  · split at h <;> cases h
  · cases h
  · rename_i land hland
    obtain ⟨g, -, h⟩ := Except.bind_eq_ok.1 h
    cases h
    exact Iterate.moveTo_honest hst (hsearch _ _ _ hland) g

theorem Iterate.run_honest (hsearch : LandsHonestly search) :
    ∀ {fuel : Nat} {st st' : Iterate} {t : Termination}, st.Honest o →
      Iterate.run search o cfg fuel st = .ok (st', t) → st'.Honest o
  | 0, st, st', t, hst, h => by
    cases h
    exact hst
  | fuel + 1, st, st', t, hst, h => by
    unfold Iterate.run at h
    split at h
    · cases h
      exact hst
    · obtain ⟨r, hr, h⟩ := Except.bind_eq_ok.1 h
      cases r with
      | inl next => exact Iterate.run_honest hsearch (Iterate.advance_honest hsearch hst hr) h
      | inr t' =>
        cases h
        exact hst

theorem minimize_honest (hsearch : LandsHonestly search) {z0 : Vec} {st : Iterate}
    {t : Termination} (h : minimize search o cfg z0 = .ok (st, t)) : st.Honest o := by
  unfold minimize at h
  obtain ⟨st0, h0, h⟩ := Except.bind_eq_ok.1 h
  exact Iterate.run_honest hsearch (start_honest h0) h

/-- This library's solver reports the cost of its best point as its best cost. -/
theorem argmin_honest : Argmin.Honest argmin := by
  intro ls cfg o z0 r z h hz
  unfold argmin at h
  dsimp only at h
  split at h
  · obtain ⟨⟨st, t⟩, hrun, h⟩ := Except.bind_eq_ok.1 h
    cases h
    dsimp only at hz
    split at hz
    · cases hz
    · rename_i hne
      cases hz
      exact minimize_honest (searchOf_lands ls) hrun (by simpa using hne)
  · cases h

end Lbfgs

end ProfileLikelihood
