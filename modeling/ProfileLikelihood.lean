import ProfileLikelihood.Decimal.Shortest
import ProfileLikelihood.Decimal.Text
import ProfileLikelihood.Derivative.FiniteDiff
import ProfileLikelihood.Engine
import ProfileLikelihood.Error
import ProfileLikelihood.Estimation
import ProfileLikelihood.Interval
import ProfileLikelihood.Minimize.Bounded
import ProfileLikelihood.Minimize.Lbfgs
import ProfileLikelihood.Minimize.LineSearch.Basic
import ProfileLikelihood.Minimize.LineSearch.HagerZhang
import ProfileLikelihood.Minimize.LineSearch.MoreThuente
import ProfileLikelihood.Minimize.Multistart
import ProfileLikelihood.Minimize.Optimizer
import ProfileLikelihood.Minimize.Options
import ProfileLikelihood.Minimize.Outcome
import ProfileLikelihood.Minimize.Ranking
import ProfileLikelihood.Minimize.Unbounded
import ProfileLikelihood.Numeric.Double
import ProfileLikelihood.Numeric.Elementary
import ProfileLikelihood.Numeric.Fused
import ProfileLikelihood.Numeric.Reflection
import ProfileLikelihood.Numeric.Scalar
import ProfileLikelihood.Numeric.Svd
import ProfileLikelihood.Numeric.SymmetricEigen
import ProfileLikelihood.Numeric.Vector
import ProfileLikelihood.Numerics
import ProfileLikelihood.Objective.Basic
import ProfileLikelihood.Objective.Catalog
import ProfileLikelihood.Problem.Basic
import ProfileLikelihood.Problem.Evaluate
import ProfileLikelihood.Profile.Basic
import ProfileLikelihood.Profile.Gaussian
import ProfileLikelihood.Profile.Guess
import ProfileLikelihood.Profile.Options
import ProfileLikelihood.Profile.Regression
import ProfileLikelihood.Profile.Request
import ProfileLikelihood.Profile.Store
import ProfileLikelihood.Profile.Walk
import ProfileLikelihood.Profile.Warning
import ProfileLikelihood.Stats.ChiSquared
import ProfileLikelihood.Stats.Gamma
import ProfileLikelihood.Stats.Normal
import ProfileLikelihood.Text
import ProfileLikelihood.Transform
import ProfileLikelihood.Validation
import ProfileLikelihood.Proofs.Store
import ProfileLikelihood.Proofs.Walk
import ProfileLikelihood.Proofs.Basic
import ProfileLikelihood.Proofs.Request
import ProfileLikelihood.Proofs.Fixed
import ProfileLikelihood.Proofs.Float
import ProfileLikelihood.Proofs.Optimizer
import ProfileLikelihood.Proofs.Search
import ProfileLikelihood.Proofs.Termination
import ProfileLikelihood.Proofs.Proposal
import ProfileLikelihood.Proofs.ProposalShape
import ProfileLikelihood.Proofs.WalkEnds
import ProfileLikelihood.Proofs.Ranking
import ProfileLikelihood.Proofs.Approximate
import ProfileLikelihood.Proofs.Engine
import ProfileLikelihood.Proofs.WalkTrace
import ProfileLikelihood.Proofs.Conversion
import ProfileLikelihood.Proofs.LineSearch
import ProfileLikelihood.Proofs.Minimizer
import ProfileLikelihood.Proofs.RankingOrder
import ProfileLikelihood.Proofs.BoundMaps
import ProfileLikelihood.Proofs.Rounding
import ProfileLikelihood.Proofs.Doubles
import ProfileLikelihood.Proofs.FloatArith
import ProfileLikelihood.Proofs.InteriorStart
import ProfileLikelihood.Proofs.ConfidenceInterval
import ProfileLikelihood.Proofs.Halving
import ProfileLikelihood.Proofs.Hessian
import ProfileLikelihood.Proofs.LogDensity
import ProfileLikelihood.Proofs.GaussianShape
import ProfileLikelihood.Proofs.StepWindow
import ProfileLikelihood.Proofs.ExactTrend
