import ProfileLikelihood.Numeric.Vector

/-!
The orthogonal building blocks of the dense decompositions: plane (Givens) rotations that zero
one entry of a pair, Householder reflections that zero all but the first entry of a vector,
and the Wilkinson shift of a symmetric `2 × 2` block. Each is written in one fixed operation
order, so that the decompositions built on them reproduce their results to the last bit.
-/

namespace ProfileLikelihood.Numeric

/-- The magnitude and sign of a number: `(x, 1)` when `x ≥ 0`, else `(-x, -1)`. -/
def toExp (x : Float) : Float × Float := if x ≥ 0.0 then (x, 1.0) else (-x, -1.0)

/-- A plane rotation `[[c, -s], [s, c]]`. -/
structure Givens where
  c : Float
  s : Float

namespace Givens

def identity : Givens := ⟨1.0, 0.0⟩

def inverse (g : Givens) : Givens := ⟨g.c, -g.s⟩

/-- The rotation taking `(x, y)` to `(r, 0)`, and `r`; none when `y = 0`. -/
def cancelY (x y : Float) : Option (Givens × Float) :=
  if y == 0.0 then none
  else
    let (m, sg) := toExp x
    let denom := (m * m + y * y).sqrt
    some (⟨m / denom, -y / (sg * denom)⟩, sg * denom)

/-- The rotation taking `(x, y)` to `(0, r)`, and `r`; none when `x = 0`. -/
def cancelX (x y : Float) : Option (Givens × Float) :=
  if x == 0.0 then none
  else
    let (m, sg) := toExp y
    let denom := (m * m + x * x).sqrt
    some (⟨m / denom, x / (sg * denom)⟩, sg * denom)

/-- The rotation with unnormalised cosine `c` and sine `s`, and the signed norm of `(c, s)`;
none when that norm is at most `eps`. -/
def ofComponents? (c s eps : Float) : Option (Givens × Float) :=
  let (m, sg) := toExp c
  let denom := (m * m + s * s).sqrt
  if denom > eps then some (⟨m / denom, s / (sg * denom)⟩, sg * denom) else none

/-- The rotation with unnormalised cosine `c` and sine `s`, and the signed norm of `(c, s)`;
the identity and zero when both vanish. -/
def ofComponents (c s : Float) : Givens × Float :=
  (ofComponents? c s 0.0).getD (identity, 0.0)

/-- Rows `i` and `k` of `m` multiplied on the left by the rotation. -/
def rotate (g : Givens) (m : Mat) (i k : Nat) : Mat :=
  let ri := m.getD i #[]
  let rk := m.getD k #[]
  let ri' := Array.zipWith (fun a b => a * g.c - g.s * b) ri rk
  let rk' := Array.zipWith (fun a b => g.s * a + b * g.c) ri rk
  (m.set! i ri').set! k rk'

/-- Columns `i` and `k` of `m` multiplied on the right by the rotation. -/
def rotateRows (g : Givens) (m : Mat) (i k : Nat) : Mat :=
  m.map fun row =>
    let a := row.getD i 0.0
    let b := row.getD k 0.0
    (row.set! i (a * g.c + g.s * b)).set! k (-g.s * a + b * g.c)

end Givens

namespace Householder

/-- The unit axis of the reflection taking `v` to `(∓‖v‖, 0, …)`, the first entry of the image, and
whether a reflection was needed. -/
def axis (v : Vec) : Vec × Float × Bool :=
  let sq := v.dot v
  let nrm := sq.sqrt
  let (modulus, sign) := toExp (v.entry 0)
  let signedNorm := sign * nrm
  let factor := (sq + modulus * nrm) * 2.0
  let v := v.modify 0 (· + signedNorm)
  if factor != 0.0 then
    let d := factor.sqrt
    let v : Vec := v.map (· / d)
    -- normalised once more, so that rounding in the first division leaves a unit vector
    let n := (v.dot v).sqrt
    (v.map (· / n), -signedNorm, true)
  else (v, signedNorm, false)

/-- Columns `cols` of the rows `r₀ …` of `m`, each replaced by `f * axis + sign * column` with
`f = -2 sign (axis · column)`: the reflection applied from the left, times `sign`. -/
def reflectColumns (m : Mat) (ax : Vec) (r0 : Nat) (cols : List Nat) (sign : Float) : Mat :=
  cols.foldl (fun m j =>
    let col : Vec := (Array.range ax.size).map fun t => m.entry (r0 + t) j
    let factor := (ax.dot col - 0.0) * (sign * -2.0)
    (List.range ax.size).foldl (fun m t =>
      m.modify (r0 + t) (·.set! j (factor * ax.entry t + sign * col.entry t))) m) m

/-- Rows `rows` of the columns `c₀ …` of `m` reflected from the right, times `sign`: with
`w = M a` accumulated column by column, each entry becomes `(-2 sign aⱼ) wᵣ + sign mᵣⱼ`. -/
def reflectRowsOf (m : Mat) (ax : Vec) (c0 : Nat) (rows : List Nat) (sign : Float) : Mat :=
  rows.foldl (fun m r =>
    let row : Vec := m.getD r #[]
    let w := (List.range ax.size).tail.foldl (fun acc t => row.entry (c0 + t) * ax.entry t + acc)
      (1.0 * row.entry c0 * ax.entry 0)
    let mTwo := sign * -2.0
    m.modify r fun row => (List.range ax.size).foldl (fun row t =>
      row.set! (c0 + t) ((mTwo * ax.entry t) * w + sign * row.getD (c0 + t) 0.0)) row) m

end Householder

/-- The shift of an implicit QR step: the eigenvalue of `[[tmm, tmn], [tmn, tnn]]` nearer to
`tnn`. -/
def wilkinsonShift (tmm tnn tmn : Float) : Float :=
  let sq := tmn * tmn
  if sq != 0.0 then
    let d := (tmm - tnn) * 0.5
    tnn - sq / (d + signum d * (d * d + sq).sqrt)
  else tnn

/-- The largest magnitude of an entry, `0` for no entry. -/
def maxAbs (m : Mat) : Float :=
  let cols := (m[0]?.map (·.size)).getD 0
  match (List.range cols).flatMap fun c => m.toList.map fun row => (row.getD c 0.0).abs with
  | [] => 0.0
  | x :: xs => xs.foldl (fun acc e => if acc ≥ e then acc else e) x

end ProfileLikelihood.Numeric
