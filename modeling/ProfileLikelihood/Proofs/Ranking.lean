import ProfileLikelihood.Minimize.Multistart
import ProfileLikelihood.Proofs.Basic

/-! Rankings of fits. Adding a fit appends it and sorts stably by value, so fits added in start
order keep equal values in start order, and sorting by value alone sorts by value and then by
start. Fitting from several starts therefore ranks exactly the starts that succeed, each fit
carrying its start's position and vector, by value and then by position; it fails for want of
fits exactly when every start fails. -/

namespace ProfileLikelihood

open Numeric

/-! ### The total order of doubles -/

theorem Numeric.Double.totalLe_trans {a b c : Double} (hab : a.totalLe b) (hbc : b.totalLe c) :
    a.totalLe c := by
  simp only [Double.totalLe, decide_eq_true_eq] at *
  exact UInt64.le_trans hab hbc

theorem Numeric.Double.totalLe_refl (a : Double) : a.totalLe a := by
  simp [Double.totalLe]

theorem Numeric.Double.totalLe_total (a b : Double) : (a.totalLe b || b.totalLe a) = true := by
  simp only [Double.totalLe, Bool.or_eq_true, decide_eq_true_eq]
  exact UInt64.le_total _ _

namespace Fit

/-! ### Value, then start -/

/-- `a` ranks before `b`: a smaller value in the total order of doubles, or the same value and
a start no later. -/
def rankLe (a b : Fit) : Bool :=
  a.fval.totalLe b.fval && (!b.fval.totalLe a.fval || decide (a.id ≤ b.id))

theorem rankLe_trans (a b c : Fit) (hab : rankLe a b) (hbc : rankLe b c) : rankLe a c := by
  simp only [rankLe, Bool.and_eq_true, Bool.or_eq_true, Bool.not_eq_true', decide_eq_true_eq]
    at hab hbc ⊢
  have hac := Double.totalLe_trans hab.1 hbc.1
  refine ⟨hac, ?_⟩
  by_cases hca : c.fval.totalLe a.fval
  · have hba := Double.totalLe_trans hbc.1 hca
    have hcb := Double.totalLe_trans hca hab.1
    simp only [hba, hcb, Bool.true_eq_false, false_or] at hab hbc
    exact .inr (Nat.le_trans hab.2 hbc.2)
  · exact .inl (by simpa using hca)

theorem rankLe_total (a b : Fit) : (rankLe a b || rankLe b a) = true := by
  have h := Double.totalLe_total a.fval b.fval
  simp only [rankLe, Bool.or_eq_true, Bool.and_eq_true, Bool.not_eq_true', decide_eq_true_eq]
    at h ⊢
  rcases h with hab | hba
  · by_cases hba : b.fval.totalLe a.fval
    · rcases Nat.le_total a.id b.id with h | h
      · exact .inl ⟨hab, .inr h⟩
      · exact .inr ⟨hba, .inr h⟩
    · exact .inl ⟨hab, .inl (by simpa using hba)⟩
  · by_cases hab : a.fval.totalLe b.fval
    · rcases Nat.le_total a.id b.id with h | h
      · exact .inl ⟨hab, .inr h⟩
      · exact .inr ⟨hba, .inr h⟩
    · exact .inr ⟨hba, .inl (by simpa using hab)⟩

/-- `a` is ranked before `b`: its value is no greater, and when the values are equal its start
came first. -/
def RankedBefore (a b : Fit) : Prop :=
  a.fval.totalLe b.fval ∧ (b.fval.totalLe a.fval → a.id < b.id)

theorem rankedBefore_of_rankLe {a b : Fit} (h : rankLe a b) (hne : a.id ≠ b.id) :
    RankedBefore a b := by
  simp only [rankLe, Bool.and_eq_true, Bool.or_eq_true, Bool.not_eq_true', decide_eq_true_eq]
    at h
  refine ⟨h.1, fun hba => ?_⟩
  rcases h.2 with h' | h'
  · simp [hba] at h'
  · omega

/-- Sorting by value alone a list whose tied fits come in increasing start order sorts by
value and then by start: the sort is stable, so tied fits keep the order they came in. -/
theorem mergeSort_eq_rank {l : List Fit}
    (h : l.Pairwise fun a b => a.fval.totalLe b.fval → b.fval.totalLe a.fval → a.id < b.id) :
    l.mergeSort (fun a b => a.fval.totalLe b.fval) = l.mergeSort rankLe := by
  -- the library sorts stably by breaking ties with the positions; here starts order them alike
  rw [← List.mergeSort_zipIdx, List.map_mergeSort (s := rankLe), List.zipIdx_map_fst]
  rintro ⟨a, i⟩ ha ⟨b, j⟩ hb
  have ha' : l[i]? = some a := List.mem_zipIdx_iff_getElem?.1 ha
  have hb' : l[j]? = some b := List.mem_zipIdx_iff_getElem?.1 hb
  have hpos : a.fval.totalLe b.fval → b.fval.totalLe a.fval → (i ≤ j ↔ a.id ≤ b.id) := by
    intro hab hba
    have hget : ∀ {i j : Nat} {a b : Fit}, i < j → l[i]? = some a → l[j]? = some b →
        a.fval.totalLe b.fval → b.fval.totalLe a.fval → a.id < b.id := by
      intro i j a b hij hi hj
      obtain ⟨hi', rfl⟩ := List.getElem?_eq_some_iff.1 hi
      obtain ⟨hj', rfl⟩ := List.getElem?_eq_some_iff.1 hj
      exact List.pairwise_iff_getElem.1 h i j hi' hj' hij
    rcases Nat.lt_trichotomy i j with hij | rfl | hij
    · have := hget hij ha' hb' hab hba
      omega
    · rw [ha'] at hb'
      cases hb'
      simp
    · have := hget hij hb' ha' hba hab
      omega
  simp only [List.zipIdxLE, rankLe]
  by_cases hab : a.fval.totalLe b.fval <;> by_cases hba : b.fval.totalLe a.fval <;>
    simp [hab, hba, hpos]

end Fit

namespace Ranking

/-! ### Adding fits in start order -/

/-- The fits of a ranking built from starts before `next`: ranked by value and then start, each
start at most once. -/
structure Ranked (fits : List Fit) (next : Nat) : Prop where
  sorted : fits.Pairwise Fit.RankedBefore
  nodup : (fits.map (·.id)).Nodup
  lt_next : ∀ f ∈ fits, f.id < next

theorem ranked_nil (next : Nat) : Ranked [] next := ⟨.nil, .nil, by simp⟩

theorem Ranked.mono {fits : List Fit} {next next' : Nat} (h : Ranked fits next)
    (hle : next ≤ next') : Ranked fits next' :=
  ⟨h.sorted, h.nodup, fun f hf => Nat.lt_of_lt_of_le (h.lt_next f hf) hle⟩

/-- Adding the fit of a later start keeps a ranking ranked, and adds that fit alone. -/
theorem Ranked.append {r : Ranking} {next : Nat} (h : Ranked r.fits next) {f : Fit}
    (hf : next ≤ f.id) : Ranked (r.append f).fits (f.id + 1) ∧ (r.append f).fits.Perm (r.fits ++ [f]) := by
  have hlt : ∀ g ∈ r.fits, g.id < f.id := fun g hg => Nat.lt_of_lt_of_le (h.lt_next g hg) hf
  have hties : (r.fits ++ [f]).Pairwise fun a b =>
      a.fval.totalLe b.fval → b.fval.totalLe a.fval → a.id < b.id := by
    refine List.pairwise_append.2 ⟨h.sorted.imp fun hab _ hba => hab.2 hba, by simp, ?_⟩
    intro a ha b hb _ _
    rw [List.mem_singleton.1 hb]
    exact hlt a ha
  have hsort : (r.append f).fits = (r.fits ++ [f]).mergeSort Fit.rankLe :=
    Fit.mergeSort_eq_rank hties
  have hperm : (r.append f).fits.Perm (r.fits ++ [f]) := hsort ▸ List.mergeSort_perm _ _
  have hnodup : ((r.append f).fits.map (·.id)).Nodup := by
    refine (hperm.map _).nodup_iff.2 ?_
    rw [List.map_append, List.nodup_append]
    exact ⟨h.nodup, by simp, by simpa using fun g hg => Nat.ne_of_lt (hlt g hg)⟩
  refine ⟨⟨?_, hnodup, fun g hg => ?_⟩, hperm⟩
  · have hle : (r.append f).fits.Pairwise fun a b => Fit.rankLe a b := by
      rw [hsort]
      exact List.pairwise_mergeSort Fit.rankLe_trans Fit.rankLe_total _
    exact (hle.and (List.pairwise_map.1 hnodup)).imp fun ⟨hab, hne⟩ =>
      Fit.rankedBefore_of_rankLe hab hne
  · rcases List.mem_append.1 (hperm.mem_iff.1 hg) with hg | hg
    · exact Nat.lt_succ_of_lt (hlt g hg)
    · rw [List.mem_singleton.1 hg]
      exact Nat.lt_succ_self _

end Ranking

/-! ### Fitting from several starts -/

variable {p : Problem} {opt : Optimizer}

theorem fitFrom_eq_ok {id : Nat} {x0 : Vec} {f : Fit} (h : fitFrom p opt id x0 = .ok f) :
    f.id = id ∧ f.x0 = Double.ofFloats x0 := by
  unfold fitFrom at h
  obtain ⟨_, -, h⟩ := Except.bind_eq_ok.1 h
  obtain ⟨_, -, h⟩ := Except.bind_eq_ok.1 h
  cases h
  exact ⟨rfl, rfl⟩

/-- The fits of the starts in `xs` that succeed, in order. -/
def successfulFits (p : Problem) (opt : Optimizer) (xs : List (Nat × Vec)) : List Fit :=
  xs.filterMap fun x => (fitFrom p opt x.1 x.2).toOption

/-- What adding one start can do: add the start's fit, or leave the ranking alone when the
start fails without stopping the computation. -/
theorem Ranking.addStart_eq_ok {r r₁ : Ranking} {id : Nat} {x0 : Vec}
    (h : r.addStart p opt (id, x0) = .ok r₁) :
    (∃ f, fitFrom p opt id x0 = .ok f ∧ r₁ = r.append f) ∨
      (∃ e, fitFrom p opt id x0 = .error e ∧ e.stops = false ∧ r₁ = r) := by
  cases hfit : fitFrom p opt id x0 with
  | ok f =>
    simp only [Ranking.addStart, Ranking.addOutput, hfit, Except.pure_eq, Except.ok.injEq] at h
    exact .inl ⟨f, rfl, h.symm⟩
  | error e =>
    cases hstop : e.stops
    · simp only [Ranking.addStart, Ranking.addOutput, hfit, hstop, Bool.false_eq_true, if_false,
        Except.pure_eq, Except.ok.injEq] at h
      exact .inr ⟨e, rfl, hstop, h.symm⟩
    · simp [Ranking.addStart, Ranking.addOutput, hfit, hstop] at h

theorem Ranking.Ranked.addStart {r r₁ : Ranking} {next id : Nat} {x0 : Vec}
    (hr : Ranked r.fits next) (hid : next ≤ id) (h : r.addStart p opt (id, x0) = .ok r₁) :
    Ranked r₁.fits (id + 1) ∧ r₁.fits.Perm (r.fits ++ successfulFits p opt [(id, x0)]) := by
  rcases Ranking.addStart_eq_ok h with ⟨f, hfit, rfl⟩ | ⟨e, hfit, -, rfl⟩
  · obtain ⟨hf, -⟩ := fitFrom_eq_ok hfit
    subst hf
    simpa [successfulFits, hfit, Except.toOption] using hr.append (f := f) hid
  · simpa [successfulFits, hfit, Except.toOption] using hr.mono (Nat.le_succ_of_le hid)

theorem successfulFits_cons (x : Nat × Vec) (xs : List (Nat × Vec)) :
    successfulFits p opt (x :: xs) = successfulFits p opt [x] ++ successfulFits p opt xs := by
  rw [← List.singleton_append, successfulFits, List.filterMap_append]
  rfl

/-- Adding starts in increasing position to a ranking: the fits of those that succeed are
added, and the ranking stays ranked. -/
theorem foldlM_addStart {xs : List (Nat × Vec)} {r r' : Ranking} {next : Nat}
    (hr : Ranking.Ranked r.fits next) (hxs : (xs.map (·.1)).Pairwise (· < ·))
    (hge : ∀ x ∈ xs, next ≤ x.1) (h : xs.foldlM (Ranking.addStart p opt) r = .ok r') :
    (∃ next', Ranking.Ranked r'.fits next') ∧ r'.fits.Perm (r.fits ++ successfulFits p opt xs) := by
  induction xs generalizing r next with
  | nil =>
    cases h
    exact ⟨⟨next, hr⟩, by simp [successfulFits]⟩
  | cons x xs ih =>
    rw [List.foldlM_cons] at h
    obtain ⟨r₁, hstep, hrest⟩ := Except.bind_eq_ok.1 h
    rw [List.map_cons, List.pairwise_cons] at hxs
    have hge' : ∀ y ∈ xs, x.1 + 1 ≤ y.1 := fun y hy => hxs.1 y.1 (List.mem_map_of_mem hy)
    obtain ⟨hr₁, hperm₁⟩ := hr.addStart (hge x List.mem_cons_self) hstep
    obtain ⟨hranked, hperm⟩ := ih hr₁ hxs.2 hge' hrest
    refine ⟨hranked, hperm.trans ?_⟩
    rw [successfulFits_cons, ← List.append_assoc]
    exact hperm₁.append_right _

/-- Adding starts none of which stops the computation succeeds. -/
theorem foldlM_addStart_ok {xs : List (Nat × Vec)}
    (hret : ∀ x ∈ xs, ∀ e, fitFrom p opt x.1 x.2 = .error e → e.stops = false) (r : Ranking) :
    ∃ r', xs.foldlM (Ranking.addStart p opt) r = .ok r' := by
  induction xs generalizing r with
  | nil => exact ⟨r, rfl⟩
  | cons x xs ih =>
    have hstep : ∃ r₁, Ranking.addStart p opt r x = .ok r₁ := by
      obtain ⟨id, x0⟩ := x
      cases hfit : fitFrom p opt id x0 with
      | ok f => exact ⟨r.append f, by simp [Ranking.addStart, Ranking.addOutput, hfit]⟩
      | error e =>
        have hstop := hret _ List.mem_cons_self e hfit
        exact ⟨r, by simp [Ranking.addStart, Ranking.addOutput, hfit, hstop]⟩
    obtain ⟨r₁, h₁⟩ := hstep
    obtain ⟨r', h'⟩ := ih (fun y hy => hret y (List.mem_cons_of_mem _ hy)) r₁
    exact ⟨r', by rw [List.foldlM_cons, h₁, Except.ok_bind, h']⟩

theorem mem_successfulFits {xs : List (Nat × Vec)} {f : Fit} :
    f ∈ successfulFits p opt xs ↔ ∃ x ∈ xs, fitFrom p opt x.1 x.2 = .ok f := by
  simp only [successfulFits, List.mem_filterMap]
  refine exists_congr fun x => and_congr_right fun _ => ?_
  cases fitFrom p opt x.1 x.2 <;> simp [Except.toOption]

theorem successfulFits_eq_nil {xs : List (Nat × Vec)} :
    successfulFits p opt xs = [] ↔ ∀ x ∈ xs, ∃ e, fitFrom p opt x.1 x.2 = .error e := by
  simp only [successfulFits, List.filterMap_eq_nil_iff]
  refine forall_congr' fun x => imp_congr_right fun _ => ?_
  cases fitFrom p opt x.1 x.2 <;> simp [Except.toOption]

theorem mem_zip_range {α : Type} {l : List α} {i : Nat} {a : α} :
    (i, a) ∈ (List.range l.length).zip l ↔ l[i]? = some a := by
  simp only [List.mem_iff_getElem?, List.getElem?_zip_eq_some]
  grind

theorem multistart_eq {starts : List Vec} {r : Ranking}
    (h : ((List.range starts.length).zip starts).foldlM (Ranking.addStart p opt) {} = .ok r) :
    multistart p opt starts =
      if r.isEmpty then .error (.allStartsFailed starts.length) else .ok r := by
  simp only [multistart, h, Except.ok_bind]
  split <;> rfl

/-- A ranking of the fits from `starts`: every fit is the fit of the start at its position and
carries that start's vector, every start that succeeds has its fit there, no start twice, and
the fits are ranked by value and then by position. -/
structure RanksStarts (p : Problem) (opt : Optimizer) (starts : List Vec) (r : Ranking) :
    Prop where
  of_start : ∀ f ∈ r.fits, ∃ x0, starts[f.id]? = some x0 ∧ f.x0 = Double.ofFloats x0 ∧
    fitFrom p opt f.id x0 = .ok f
  mem : ∀ id x0 f, starts[id]? = some x0 → fitFrom p opt id x0 = .ok f → f ∈ r.fits
  nodup : (r.fits.map (·.id)).Nodup
  sorted : r.fits.Pairwise Fit.RankedBefore

/-- Fitting from several starts, when no start stops the whole computation, as the engines' tasks
all return. -/
theorem multistart_ranks_starts (p : Problem) (opt : Optimizer) (starts : List Vec)
    (hret : ∀ id x0 e, starts[id]? = some x0 → fitFrom p opt id x0 = .error e → e.stops = false) :
    (multistart p opt starts = .error (.allStartsFailed starts.length) ↔
      ∀ id x0, starts[id]? = some x0 → ∃ e, fitFrom p opt id x0 = .error e) ∧
    ((∃ id x0 f, starts[id]? = some x0 ∧ fitFrom p opt id x0 = .ok f) →
      ∃ r best, multistart p opt starts = .ok r ∧ RanksStarts p opt starts r ∧
        r.best? = some best ∧ best ∈ r.fits ∧ ∀ f ∈ r.fits, best.fval.totalLe f.fval) := by
  have hids : (((List.range starts.length).zip starts).map (·.1)).Pairwise (· < ·) := by
    rw [List.map_fst_zip (by simp)]
    exact List.pairwise_lt_range
  obtain ⟨r, hfold⟩ := foldlM_addStart_ok (fun x hx e he =>
    hret x.1 x.2 e (mem_zip_range.1 hx) he) {}
  obtain ⟨⟨_, hr⟩, hperm⟩ := foldlM_addStart (Ranking.ranked_nil 0) hids (by simp) hfold
  simp only [List.nil_append] at hperm
  have hmem : ∀ f, f ∈ r.fits ↔ ∃ id x0, starts[id]? = some x0 ∧ fitFrom p opt id x0 = .ok f := by
    intro f
    rw [hperm.mem_iff, mem_successfulFits]
    exact ⟨fun ⟨⟨id, x0⟩, hx, hf⟩ => ⟨id, x0, mem_zip_range.1 hx, hf⟩,
      fun ⟨id, x0, hx, hf⟩ => ⟨(id, x0), mem_zip_range.2 hx, hf⟩⟩
  rw [multistart_eq hfold]
  refine ⟨?_, fun ⟨id, x0, f, hx, hf⟩ => ?_⟩
  · have hempty : r.isEmpty ↔ ∀ id x0, starts[id]? = some x0 → ∃ e, fitFrom p opt id x0 = .error e := by
      rw [Ranking.isEmpty, hperm.isEmpty_eq, List.isEmpty_iff, successfulFits_eq_nil]
      exact ⟨fun h id x0 hx => h (id, x0) (mem_zip_range.2 hx),
        fun h x hx => h x.1 x.2 (mem_zip_range.1 hx)⟩
    by_cases he : r.isEmpty <;> simp [he, hempty.symm]
  · obtain ⟨best, rest, hfits⟩ : ∃ best rest, r.fits = best :: rest :=
      List.exists_cons_of_ne_nil (List.ne_nil_of_mem ((hmem f).2 ⟨id, x0, hx, hf⟩))
    have hnonempty : r.isEmpty = false := by simp [Ranking.isEmpty, hfits]
    refine ⟨r, best, by simp [hnonempty], ⟨fun g hg => ?_, fun id x0 g hx hg => (hmem g).2
      ⟨id, x0, hx, hg⟩, hr.nodup, hr.sorted⟩, by simp [Ranking.best?, hfits], by simp [hfits],
      fun g hg => ?_⟩
    · obtain ⟨id', x0', hx', hg'⟩ := (hmem g).1 hg
      obtain ⟨hid, hx0⟩ := fitFrom_eq_ok hg'
      subst hid
      exact ⟨x0', hx', hx0, hg'⟩
    · have hsorted := hr.sorted
      rw [hfits] at hsorted hg
      rcases List.mem_cons.1 hg with rfl | hg
      · exact Double.totalLe_refl _
      · exact (List.rel_of_pairwise_cons hsorted hg).1

/-- A problem of one parameter on `[-1, 1]` whose objective is constant. -/
def flatLine : Problem :=
  { objective := ⟨fun _ => .ok (.ofFloat 0.0), fun _ => .error .gradientNotImplemented,
      fun _ => .error .hessianNotImplemented⟩,
    lbFull := #[-1.0], ubFull := #[1.0] }

/-- Two starts, the first of the wrong length: it fails without stopping anything, and the
ranking holds the second start's fit alone. -/
theorem multistart_ranks_starts_past_misshapen :
    (∀ id x0 e, [#[1.0, 2.0], #[0.0]][id]? = some x0 →
      fitFrom flatLine (.atStart true [] []) id x0 = .error e → e.stops = false) ∧
    (multistart flatLine (.atStart true [] []) [#[1.0, 2.0], #[0.0]] =
        .error (.allStartsFailed 2) ↔
      ∀ id x0, [#[1.0, 2.0], #[0.0]][id]? = some x0 →
        ∃ e, fitFrom flatLine (.atStart true [] []) id x0 = .error e) ∧
    ((∃ id x0 f, [#[1.0, 2.0], #[0.0]][id]? = some x0 ∧
        fitFrom flatLine (.atStart true [] []) id x0 = .ok f) →
      ∃ r best, multistart flatLine (.atStart true [] []) [#[1.0, 2.0], #[0.0]] = .ok r ∧
        RanksStarts flatLine (.atStart true [] []) [#[1.0, 2.0], #[0.0]] r ∧
        r.best? = some best ∧ best ∈ r.fits ∧ ∀ f ∈ r.fits, best.fval.totalLe f.fval) := by
  have hret : ∀ id x0 e, [#[1.0, 2.0], #[0.0]][id]? = some x0 →
      fitFrom flatLine (.atStart true [] []) id x0 = .error e → e.stops = false := by
    intro id x0 e hx he
    match id, hx with
    | 0, hx =>
      obtain rfl : x0 = #[1.0, 2.0] := by simpa using hx.symm
      have h0 : fitFrom flatLine (.atStart true [] []) 0 #[1.0, 2.0] =
          .error (.thetaLengthMismatch 1 2) := rfl
      rw [h0] at he
      cases he
      rfl
    | 1, hx =>
      obtain rfl : x0 = #[0.0] := by simpa using hx.symm
      have h1 : (fitFrom flatLine (.atStart true [] []) 1 #[0.0]).isOk = true := by
        decide +kernel
      rw [he] at h1
      cases h1
    | n + 2, hx => simp at hx
  exact ⟨hret, multistart_ranks_starts _ _ _ hret⟩

end ProfileLikelihood
