import ProfileLikelihood.Proofs.Approximate
import ProfileLikelihood.Proofs.LogDensity

/-! Gaussian profiles, as an approximation writes them. Each is sampled at `n` evenly spaced
points across its parameter's bounds, moves the fit in that coordinate alone and records the
negated normal log-density there. Its optimum is the last sample of greatest log-density in the
total order of doubles, found by a scan that keeps the later of two equal samples; when no
log-density is a NaN and one is finite, the peak is finite, since a log-density is never `+∞`,
its ratio is `1` and every ratio `exp (l - top)` lies in `[0, 1]`. -/

namespace ProfileLikelihood

open Numeric

/-! ### The last greatest sample -/

/-- An optimum at `b` among `n` samples of log-density `lnPdf`: a greatest value in the total
order of doubles and the last one, with ratio `1` there and every ratio in `[0, 1]`, as long as
no log-density is a NaN and one is finite. -/
structure Peak (lnPdf : Nat → Double) (ratios : Array Double) (n b : Nat) : Prop where
  lt : b < n
  greatest : ∀ s < n, (lnPdf s).totalLe (lnPdf b) = true
  last : ∀ s, b < s → s < n → (lnPdf b).totalLe (lnPdf s) = false
  ratios : (∀ s < n, (lnPdf s).isNaN = false) → (∃ s < n, (lnPdf s).float.isFinite = true) →
    Double.entry ratios b = 1.0 ∧
      ∀ s < n, 0.0 ≤ (Double.entry ratios s).float ∧ (Double.entry ratios s).float ≤ 1.0

theorem Peak.congr {f g : Nat → Double} {r : Array Double} {n b : Nat}
    (hfg : ∀ s < n, f s = g s) (h : Peak f r n b) : Peak g r n b where
  lt := h.lt
  greatest s hs := by rw [← hfg s hs, ← hfg b h.lt]; exact h.greatest s hs
  last s hs hs' := by rw [← hfg s hs', ← hfg b h.lt]; exact h.last s hs hs'
  ratios hnan hfin := by
    obtain ⟨s, hs, hfs⟩ := hfin
    exact h.ratios (fun s hs => hfg s hs ▸ hnan s hs) ⟨s, hs, (hfg s hs).symm ▸ hfs⟩

variable {p : Problem} {e e' : Estimation} {pi : Option (List Nat)} {pl : Option Nat}
  {ri n k : Nat} {ws : Array ProfileWarning} {lib : Numerics}

end ProfileLikelihood
