import ProfileLikelihood.Minimize.Ranking
import ProfileLikelihood.Profile.Store

/-!
The result of an estimation: the ranked local fits and the profiles computed from them.
-/

namespace ProfileLikelihood

/-- Ranked fits and stored profile lists. -/
structure Estimation where
  fits : Ranking := {}
  profiles : ProfileStore := {}

end ProfileLikelihood
