import ProfileLikelihood.Proofs.Ranking
import ProfileLikelihood.Proofs.Float

/-! Adding fits to a ranking one at a time, with any values. Each addition appends the fit and
sorts stably in the total order of doubles, so after any sequence of additions the ranking holds
the fits added, sorted by value, the fits of one value in the order they came. At its ends the
total order is not the order of numbers: a NaN with its sign bit clear comes after every number,
but one with its sign bit set comes before every number, `-∞` included. The best fit is the
first in the total order; its value is the least number among the values whenever some value is
a number and no value is a NaN with its sign bit set. -/

namespace ProfileLikelihood

open Numeric

/-- Sorting stably keeps a class of mutually tied elements in the order it came. -/
theorem filter_mergeSort_of_tied {α : Type} {le : α → α → Bool} {p : α → Bool}
    (trans : ∀ a b c, le a b → le b c → le a c) (total : ∀ a b, (le a b || le b a) = true)
    (tied : ∀ a b, p a → p b → le a b) (l : List α) :
    (l.mergeSort le).filter p = l.filter p := by
  have hsorted : (l.filter p).Pairwise fun a b => le a b :=
    List.pairwise_filter.2 (List.pairwise_of_forall fun a b => tied a b)
  -- the class is a sorted sublist of the input, hence of the output, and no shorter there
  have hsub := List.sublist_mergeSort trans total hsorted (List.filter_sublist (p := p))
  have hsub' : List.Sublist (l.filter p) ((l.mergeSort le).filter p) := by
    simpa [List.filter_filter] using hsub.filter p
  have hlen : ((l.mergeSort le).filter p).length = (l.filter p).length :=
    ((List.mergeSort_perm l le).filter p).length_eq
  exact (hsub'.eq_of_length hlen.symm).symm

namespace Numeric.Double

/-- A NaN with its sign bit set. -/
def IsNegNaN (d : Double) : Prop := d.isNaN = true ∧ d.negNaN = true

/-- A NaN with its sign bit clear. -/
def IsPosNaN (d : Double) : Prop := d.isNaN = true ∧ d.negNaN = false

end Numeric.Double

namespace Ranking

/-- The fits of a ranking are the fits `added`, sorted stably by value: the same fits, each
value no later in the total order of doubles than the next, and the fits of any one value in
the order they were added. -/
structure SortsStably (r : Ranking) (added : List Fit) : Prop where
  perm : r.fits.Perm added
  sorted : r.fits.Pairwise fun a b => a.fval.totalLe b.fval
  ties : ∀ k, r.fits.filter (·.fval.totalKey == k) = added.filter (·.fval.totalKey == k)

theorem sortsStably_empty : SortsStably {} [] := ⟨.nil, .nil, fun _ => rfl⟩

/-- Adding a fit sorts it in after the fits of its value. -/
theorem SortsStably.append {r : Ranking} {added : List Fit} (h : r.SortsStably added) (f : Fit) :
    (r.append f).SortsStably (added ++ [f]) := by
  have hfits : (r.append f).fits = (r.fits ++ [f]).mergeSort fun a b => a.fval.totalLe b.fval :=
    rfl
  have trans : ∀ a b c : Fit, a.fval.totalLe b.fval → b.fval.totalLe c.fval →
      a.fval.totalLe c.fval := fun _ _ _ => Double.totalLe_trans
  have total : ∀ a b : Fit, (a.fval.totalLe b.fval || b.fval.totalLe a.fval) = true :=
    fun a b => Double.totalLe_total a.fval b.fval
  refine ⟨?_, ?_, fun k => ?_⟩
  · rw [hfits]
    exact (List.mergeSort_perm _ _).trans (h.perm.append_right [f])
  · rw [hfits]
    exact List.pairwise_mergeSort trans total _
  · -- fits of one key are tied, so the sort keeps them in the order they came
    have tied : ∀ a b : Fit, (a.fval.totalKey == k) = true → (b.fval.totalKey == k) = true →
        a.fval.totalLe b.fval = true := by
      intro a b ha hb
      simp only [beq_iff_eq] at ha hb
      simp [Double.totalLe, ha, hb]
    rw [hfits, filter_mergeSort_of_tied trans total tied, List.filter_append, h.ties k,
      List.filter_append]

theorem SortsStably.foldl_append {r : Ranking} {added : List Fit} (h : r.SortsStably added)
    (fs : List Fit) : (fs.foldl Ranking.append r).SortsStably (added ++ fs) := by
  induction fs generalizing r added with
  | nil => simpa using h
  | cons f fs ih => simpa using ih (h.append f)

variable {r : Ranking} {added : List Fit}

theorem SortsStably.posNaN_last (h : r.SortsStably added) :
    r.fits.Pairwise fun a b => a.fval.IsPosNaN → b.fval.IsPosNaN :=
  h.sorted.imp fun {_ _} hab ⟨hn, hs⟩ => Double.posNaN_of_totalLe hn hs hab

theorem SortsStably.negNaN_first (h : r.SortsStably added) :
    r.fits.Pairwise fun a b => b.fval.IsNegNaN → a.fval.IsNegNaN :=
  h.sorted.imp fun {_ _} hab ⟨hn, hs⟩ => Double.negNaN_of_totalLe hn hs hab

/-- The best fit is one of the fits added, and first among them in the total order. -/
theorem SortsStably.best_first (h : r.SortsStably added) {b : Fit} (hb : r.best? = some b) :
    b ∈ added ∧ ∀ f ∈ added, b.fval.totalLe f.fval := by
  obtain ⟨rest, hcons⟩ : ∃ rest, r.fits = b :: rest := by
    unfold best? at hb
    cases hr : r.fits with
    | nil => rw [hr] at hb; cases hb
    | cons c rest => rw [hr] at hb; cases hb; exact ⟨rest, rfl⟩
  have hsorted := h.sorted
  rw [hcons] at hsorted
  refine ⟨h.perm.mem_iff.1 (hcons ▸ List.mem_cons_self), fun f hf => ?_⟩
  have hf' : f ∈ b :: rest := hcons ▸ h.perm.mem_iff.2 hf
  rcases List.mem_cons.1 hf' with rfl | hf'
  · exact Double.totalLe_refl _
  · exact List.rel_of_pairwise_cons hsorted hf'

/-- When no value added is a NaN with its sign bit set and some value is a number, the best
fit's value is a number, and no greater than any value that is one. -/
theorem SortsStably.best_least_number (h : r.SortsStably added)
    (hneg : ∀ f ∈ added, ¬f.fval.IsNegNaN) {f : Fit} (hf : f ∈ added)
    (hnum : f.fval.isNaN = false) :
    ∃ b, r.best? = some b ∧ b.fval.isNaN = false ∧
      ∀ g ∈ added, g.fval.isNaN = false → b.fval.float ≤ g.fval.float := by
  obtain ⟨b, hb⟩ : ∃ b, r.best? = some b := by
    unfold best?
    cases hr : r.fits with
    | nil =>
      have hmem := h.perm.mem_iff.2 hf
      rw [hr] at hmem
      cases hmem
    | cons c _ => exact ⟨c, rfl⟩
  obtain ⟨hbmem, hfirst⟩ := h.best_first hb
  have hbnum : b.fval.isNaN = false := by
    cases hbn : b.fval.isNaN with
    | false => rfl
    | true =>
      cases hbs : b.fval.negNaN with
      | false =>
        have := (Double.posNaN_of_totalLe hbn hbs (hfirst f hf)).1
        rw [hnum] at this
        cases this
      | true => exact absurd ⟨hbn, hbs⟩ (hneg b hbmem)
  exact ⟨b, hb, hbnum, fun g hg hgnum => Double.le_of_totalLe hbnum hgnum (hfirst g hg)⟩

/-- What a ranking built by adding the fits `added` one by one guarantees. -/
structure OrderLaws (r : Ranking) (added : List Fit) : Prop where
  sorts_stably : r.SortsStably added
  posNaN_last : r.fits.Pairwise fun a b => a.fval.IsPosNaN → b.fval.IsPosNaN
  negNaN_first : r.fits.Pairwise fun a b => b.fval.IsNegNaN → a.fval.IsNegNaN
  best_first : ∀ b ∈ r.best?, b ∈ added ∧ ∀ f ∈ added, b.fval.totalLe f.fval
  best_least_number : (∀ f ∈ added, ¬f.fval.IsNegNaN) → ∀ f ∈ added, f.fval.isNaN = false →
    ∃ b, r.best? = some b ∧ b.fval.isNaN = false ∧
      ∀ g ∈ added, g.fval.isNaN = false → b.fval.float ≤ g.fval.float

/-- Fits added one by one to an empty ranking, with any values: the ranking sorts them stably
in the total order of doubles, NaNs with the sign bit clear last and those with it set first,
and its best fit has the least number as value when no value is a NaN with the sign bit set. -/
theorem appending_orders_fits (added : List Fit) :
    (added.foldl append {}).OrderLaws added := by
  have h : (added.foldl append {}).SortsStably added := by
    simpa using sortsStably_empty.foldl_append added
  exact ⟨h, h.posNaN_last, h.negNaN_first, fun _ hb => h.best_first hb,
    fun hneg _ hf hnum => h.best_least_number hneg hf hnum⟩

/-- A value of `1.0` added first and a NaN with its sign bit set added second: the NaN ranks
first and is the best fit. -/
theorem negative_nan_ranks_first :
    let r := ([{ id := 0, x := #[], fval := 1.0, x0 := #[] },
      { id := 1, x := #[], fval := Double.negativeNaN, x0 := #[] }] : List Fit).foldl append {}
    r.fits.map (·.id) = [1, 0] ∧ (r.best?.map (·.id)) = some 1 := by
  have hkey : ((1.0 : Double).totalLe Double.negativeNaN) = false := by decide
  simp [append, sort, best?, List.mergeSort, List.MergeSort.Internal.splitInTwo, hkey]

end Ranking

end ProfileLikelihood
