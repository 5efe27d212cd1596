import ProfileLikelihood.Objective.Basic

/-!
A bounded problem: an objective over full parameter vectors, a lower and an upper bound per
parameter, and a map of fixed parameters. Free parameters are those not in the map; a
reduced vector lists their values in increasing index order. The fixed map is a list of
`(index, value)` pairs kept in strictly increasing index order.

Bounds are checked when set (same length, no NaN, `lb ≤ ub`). Fixing checks every pair before
writing anything, and a later pair for the same index wins. Freeing checks each index as it
goes, so indices before a bad one are already free when the error is reported.
-/

namespace ProfileLikelihood

/-- An objective with box bounds and fixed parameters. -/
structure Problem where
  objective : Objective
  lbFull : Vec
  ubFull : Vec
  fixed : List (Nat × Float) := []

namespace Problem

/-- Equal lengths, then for each parameter no NaN and `lb ≤ ub` (the first failure). -/
def checkBounds (lb ub : Vec) : Except FitError Unit :=
  if lb.size ≠ ub.size then .error (.boundsDimMismatch lb.size ub.size)
  else
    let bad := (List.range lb.size).find? fun i =>
      let l := lb.entry i
      let u := ub.entry i
      l.isNaN || u.isNaN || l > u
    match bad with
    | some i => .error (.invalidBounds i (lb.entry i) (ub.entry i))
    | none => .ok ()

/-- A problem with checked bounds and nothing fixed. -/
def new (objective : Objective) (lb ub : Vec) : Except FitError Problem := do
  checkBounds lb ub
  return { objective, lbFull := lb, ubFull := ub }

def dimFull (p : Problem) : Nat := p.lbFull.size

def dim (p : Problem) : Nat := p.dimFull - p.fixed.length

def fixedIndices (p : Problem) : List Nat := p.fixed.map (·.1)

def fixedValues (p : Problem) : List Float := p.fixed.map (·.2)

def isFixed (p : Problem) (i : Nat) : Bool := p.fixed.any (·.1 == i)

def freeIndices (p : Problem) : List Nat := (List.range p.dimFull).filter (!p.isFixed ·)

def reduce (p : Problem) (x : Vec) : Vec := (p.freeIndices.map x.entry).toArray

def lb (p : Problem) : Vec := p.reduce p.lbFull

def ub (p : Problem) : Vec := p.reduce p.ubFull

/-- The position of a full index among the free ones; `none` if fixed or out of range. -/
def freeIndexOf (p : Problem) (i : Nat) : Option Nat :=
  if i ≥ p.dimFull ∨ p.isFixed i then none
  else some (i - (p.fixed.filter (·.1 < i)).length)

/-- New bounds, checked, of the problem's length. -/
def setBounds (p : Problem) (lb ub : Vec) : Except FitError Problem := do
  checkBounds lb ub
  if lb.size ≠ p.dimFull then throw (.thetaLengthMismatch p.dimFull lb.size)
  return { p with lbFull := lb, ubFull := ub }

/-- The fixed map with `i ↦ v` written in, keeping increasing index order. -/
def insertFixed : List (Nat × Float) → Nat → Float → List (Nat × Float)
  | [], i, v => [(i, v)]
  | (j, w) :: rest, i, v =>
    if i < j then (i, v) :: (j, w) :: rest
    else if i = j then (i, v) :: rest
    else (j, w) :: insertFixed rest i v

/-- The first problem among pairs to be fixed: an index out of range or a non-finite value. -/
def fixProblem (dimFull : Nat) : List (Nat × Float) → Option FitError
  | [] => none
  | (i, v) :: rest =>
    if i ≥ dimFull then some (.indexOutOfRange i dimFull)
    else if !v.isFinite then some (.invalidFixedValue i v)
    else fixProblem dimFull rest

/-- Fixes `indices[k]` to `values[k]`, all checked before any is written. -/
def fix (p : Problem) (indices : List Nat) (values : List Float) : Except FitError Problem := do
  if indices.length ≠ values.length then
    throw (.fixedValuesMismatch indices.length values.length)
  let pairs := indices.zip values
  match fixProblem p.dimFull pairs with
  | some e => throw e
  | none => return { p with fixed := pairs.foldl (fun m (i, v) => insertFixed m i v) p.fixed }

/-- Frees the given indices one after another. -/
def unfixPartial (p : Problem) : List Nat → Problem × Option FitError
  | [] => (p, none)
  | i :: rest =>
    if i ≥ p.dimFull then (p, some (.indexOutOfRange i p.dimFull))
    else unfixPartial { p with fixed := p.fixed.filter (·.1 != i) } rest

/-- Frees the given indices; on an index out of range, the error. -/
def unfix (p : Problem) (indices : List Nat) : Except FitError Problem :=
  match p.unfixPartial indices with
  | (q, none) => .ok q
  | (_, some e) => .error e

/-- One index of the merge that builds a full vector, with the entries so far (last first), the
fixed entries still to come and the next free position: the next fixed value if its index has
come, else the next free entry. -/
def mergeStep (xFree : Vec) :
    List Float × List (Nat × Float) × Nat → Nat → List Float × List (Nat × Float) × Nat
  | (out, (j, v) :: rest, k), i =>
    if j = i then (v :: out, rest, k) else (xFree.entry k :: out, (j, v) :: rest, k + 1)
  | (out, [], k), _ => (xFree.entry k :: out, [], k + 1)

/-- The full vector with the fixed values at fixed indices and `xFree` in order at the rest. -/
def fullVector (p : Problem) (xFree : Vec) : Except FitError Vec := do
  if xFree.size ≠ p.dim then throw (.thetaLengthMismatch p.dim xFree.size)
  let (out, _, _) := (List.range p.dimFull).foldl (mergeStep xFree) ([], p.fixed, 0)
  return out.reverse.toArray

/-- The free entries of a full vector. -/
def reducedVector (p : Problem) (x : Vec) : Except FitError Vec := do
  if x.size ≠ p.dimFull then throw (.thetaLengthMismatch p.dimFull x.size)
  return p.reduce x

/-- The free rows and columns of a full square matrix. -/
def reducedMatrix (p : Problem) (m : Mat) : Except FitError Mat := do
  let (r, c) := m.shape
  if r ≠ p.dimFull ∨ c ≠ p.dimFull then throw (.hessianDimMismatch p.dimFull r c)
  let free := p.freeIndices.toArray
  return free.map fun i => free.map fun j => m.entry i j

end Problem

end ProfileLikelihood
