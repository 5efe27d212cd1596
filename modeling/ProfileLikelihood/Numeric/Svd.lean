import ProfileLikelihood.Numeric.Reflection

/-!
The singular value decomposition `A = U Σ Vᵀ` of a dense matrix, by Golub–Kahan: the matrix is
scaled by its largest magnitude, reduced to bidiagonal form by alternating Householder
reflections (upper bidiagonal when it has at least as many rows as columns, lower otherwise),
and the bidiagonal is diagonalised by implicit-shift QR sweeps with Givens rotations, the shift
being the Wilkinson shift of the trailing `2 × 2` block. Negligible off-diagonal entries split
the problem; a negligible diagonal entry is chased out of its row or column by rotations; a
trailing `2 × 2` block is solved in closed form. The singular values are then made
non-negative, scaled back and sorted in decreasing order, with `U` and `Vᵀ` permuted to match.

Every step keeps the operation order of the textbook formulation, so the results are
reproducible to the last bit. Least squares solutions use the decomposition with a cut-off:
singular values at most the cut-off count as zero.
-/

namespace ProfileLikelihood.Numeric

/-- A matrix during bidiagonalisation: the reflection axes stored in place, the signed
diagonal and off-diagonal, and which side the off-diagonal is on. -/
structure Bidiagonal where
  uv : Mat
  diag : Vec
  off : Vec
  upper : Bool

namespace Bidiagonal

/-- Clear column `icol` below row `icol + shift` by a reflection from the left; the axis is stored
in the column. -/
def clearColumn (m : Mat) (icol shift : Nat) : Mat × Float :=
  let (nrows, ncols) := m.shape
  let r0 := icol + shift
  let v : Vec := (Array.range (nrows - r0)).map fun t => m.entry (r0 + t) icol
  let (ax, norm, needed) := Householder.axis v
  let m := (List.range ax.size).foldl (fun m t => m.modify (r0 + t) (·.set! icol (ax.entry t))) m
  if needed then
    (Householder.reflectColumns m ax r0 ((List.range ncols).drop (icol + 1)) (signum norm), norm)
  else (m, norm)

/-- Clear row `irow` right of column `irow + shift` by a reflection from the right; the axis is
stored in the row. -/
def clearRow (m : Mat) (irow shift : Nat) : Mat × Float :=
  let (nrows, ncols) := m.shape
  let c0 := irow + shift
  let v : Vec := (Array.range (ncols - c0)).map fun t => m.entry irow (c0 + t)
  let (ax, norm, needed) := Householder.axis v
  let m := if needed then
      Householder.reflectRowsOf m ax c0 ((List.range nrows).drop (irow + 1)) (signum norm)
    else m
  let m := m.modify irow fun row =>
    (List.range ax.size).foldl (fun row t => row.set! (c0 + t) (ax.entry t)) row
  (m, norm)

/-- The bidiagonalisation of a non-empty matrix. -/
def ofMatrix (m : Mat) : Bidiagonal :=
  let (nrows, ncols) := m.shape
  let dim := min nrows ncols
  let upper := nrows ≥ ncols
  let step : Mat × Array Float × Array Float → Nat → Mat × Array Float × Array Float :=
    fun (m, d, e) ite =>
      if upper then
        let (m, a) := clearColumn m ite 0
        let (m, b) := clearRow m ite 1
        (m, d.push a, e.push b)
      else
        let (m, a) := clearRow m ite 0
        let (m, b) := clearColumn m ite 1
        (m, d.push a, e.push b)
  let (m, d, e) := (List.range (dim - 1)).foldl step (m, #[], #[])
  let (m, last) := if upper then clearColumn m (dim - 1) 0 else clearRow m (dim - 1) 0
  ⟨m, d.push last, e, upper⟩

/-- The orthogonal factor on the left, `nrows × dim`. -/
def u (b : Bidiagonal) : Mat :=
  let (nrows, ncols) := b.uv.shape
  let dim := min nrows ncols
  let shift := if b.upper then 0 else 1
  let res := Mat.build nrows dim fun i j => if i = j then 1.0 else 0.0
  (List.range (dim - shift)).reverse.foldl (fun res i =>
    let ax : Vec := (Array.range (nrows - (i + shift))).map fun t => b.uv.entry (i + shift + t) i
    if ax.dot ax == 0.0 then res
    else
      let sign := signum (if b.upper then b.diag.entry i else b.off.entry i)
      Householder.reflectColumns res ax (i + shift) ((List.range dim).drop i) sign) res

/-- The orthogonal factor on the right, transposed, `dim × ncols`. -/
def vt (b : Bidiagonal) : Mat :=
  let (nrows, ncols) := b.uv.shape
  let dim := min nrows ncols
  let shift := if b.upper then 1 else 0
  let res := Mat.build dim ncols fun i j => if i = j then 1.0 else 0.0
  (List.range (dim - shift)).reverse.foldl (fun res i =>
    let ax : Vec := (Array.range (ncols - (i + shift))).map fun t => b.uv.entry i (i + shift + t)
    if ax.dot ax == 0.0 then res
    else
      let sign := signum (if b.upper then b.off.entry i else b.diag.entry i)
      Householder.reflectRowsOf res ax (i + shift) ((List.range dim).drop i) sign) res

end Bidiagonal

/-- The singular values of the upper triangular `[[m11, m12], [0, m22]]` with the rotations on
the left and on the right that diagonalise it. -/
def svd2x2 (m11 m12 m22 : Float) : Givens × (Float × Float) × Givens :=
  let denom := hypot (m11 + m22) m12 + hypot (m11 - m22) m12
  let v1 := m11 * m22 * 2.0 / denom
  let v2 := 0.5 * denom
  let (csv, sgnV) := Givens.ofComponents (m11 * m12) (v1 * v1 - m11 * m11)
  let v1 := v1 * sgnV
  let v2 := v2 * sgnV
  let cu := (m11 * csv.c + m12 * csv.s) / v1
  let su := (m22 * csv.s) / v1
  let (csu, sgnU) := Givens.ofComponents cu su
  (csu, (v1 * sgnU, v2 * sgnU), csv)

/-- The state of the diagonalisation: the bidiagonal's two diagonals and the two factors. -/
structure Sweep where
  diag : Vec
  off : Vec
  u : Mat
  vt : Mat
  upper : Bool

namespace Sweep

/-- Chase the off-diagonal entry `i` along the row to column `stop`, after the diagonal entry
`i` was found negligible. -/
def cancelHorizontal (w : Sweep) (i stop : Nat) : Sweep :=
  let rec go (w : Sweep) (k : Nat) (x y : Float) : Nat → Sweep
    | 0 => w
    | fuel + 1 =>
      match Givens.cancelX x y with
      | none => w
      | some (rot, norm) =>
        let w := { w with diag := w.diag.set! (k + 1) norm }
        let w := if w.upper then { w with u := rot.inverse.rotateRows w.u i (k + 1) }
          else { w with vt := rot.rotate w.vt i (k + 1) }
        if k + 1 != stop then
          let x' := -rot.s * w.off.entry (k + 1)
          let y' := w.diag.entry (k + 2)
          let w := { w with off := w.off.modify (k + 1) (· * rot.c) }
          go w (k + 1) x' y' fuel
        else w
  let x := w.off.entry i
  let y := w.diag.entry (i + 1)
  go { w with off := w.off.set! i 0.0 } i x y (stop - i)

/-- Chase the off-diagonal entry `i` up the column, after the diagonal entry `i + 1` was found
negligible. -/
def cancelVertical (w : Sweep) (i : Nat) : Sweep :=
  let rec go (w : Sweep) (k : Nat) (x y : Float) : Nat → Sweep
    | 0 => w
    | fuel + 1 =>
      match Givens.cancelY x y with
      | none => w
      | some (rot, norm) =>
        let w := { w with diag := w.diag.set! k norm }
        let w := if w.upper then { w with vt := rot.rotate w.vt k (i + 1) }
          else { w with u := rot.inverse.rotateRows w.u k (i + 1) }
        if k > 0 then
          let x' := w.diag.entry (k - 1)
          let y' := rot.s * w.off.entry (k - 1)
          let w := { w with off := w.off.modify (k - 1) (· * rot.c) }
          go w (k - 1) x' y' fuel
        else w
  let x := w.diag.entry i
  let y := w.off.entry i
  go { w with off := w.off.set! i 0.0 } i x y (i + 1)

/-- Whether the off-diagonal entry `m` is negligible next to its diagonal neighbours. -/
def splits (w : Sweep) (eps : Float) (m : Nat) : Bool :=
  (w.off.entry m).abs ≤ eps * ((w.diag.entry (m + 1)).abs + (w.diag.entry m).abs)

/-- The unreduced block `[start, stop]` ending at or before `stop`, zeroing negligible entries on
the way; `(0, 0)` when none is left. -/
def delimit (w : Sweep) (stop : Nat) (eps : Float) : Sweep × Nat × Nat :=
  let rec down (w : Sweep) (n : Nat) : Nat → Sweep × Nat
    | 0 => (w, n)
    | fuel + 1 =>
      if n = 0 then (w, n)
      else
        let m := n - 1
        if w.off.entry m == 0.0 || w.splits eps m then
          down { w with off := w.off.set! m 0.0 } (n - 1) fuel
        else if (w.diag.entry m).abs ≤ eps then
          let w := { w with diag := w.diag.set! m 0.0 }
          let w := w.cancelHorizontal m (m + 1)
          let w := if m != 0 then w.cancelVertical (m - 1) else w
          down w (n - 1) fuel
        else if (w.diag.entry n).abs ≤ eps then
          let w := { w with diag := w.diag.set! n 0.0 }
          down (w.cancelVertical m) (n - 1) fuel
        else (w, n)
  let rec up (w : Sweep) (n s : Nat) : Nat → Sweep × Nat
    | 0 => (w, s)
    | fuel + 1 =>
      if s = 0 then (w, s)
      else
        let m := s - 1
        if w.splits eps m then ({ w with off := w.off.set! m 0.0 }, s)
        else if (w.diag.entry m).abs ≤ eps then
          let w := { w with diag := w.diag.set! m 0.0 }
          let w := w.cancelHorizontal m n
          let w := if m != 0 then w.cancelVertical (m - 1) else w
          (w, s)
        else up w n (s - 1) fuel
  let (w, n) := down w stop (stop + 1)
  if n = 0 then (w, 0, 0)
  else
    let (w, s) := up w n (n - 1) n
    (w, s, n)

/-- One implicit-shift QR sweep over the block `[start, stop]`, of three or more entries. -/
def qrStep (w : Sweep) (start stop : Nat) : Sweep :=
  let m := stop - 1
  let n := stop
  let dm := w.diag.entry m
  let dn := w.diag.entry n
  let fm := w.off.entry m
  let tmm := dm * dm + w.off.entry (m - 1) * w.off.entry (m - 1)
  let tmn := dm * fm
  let tnn := dn * dn + fm * fm
  let shift := wilkinsonShift tmm tnn tmn
  let ds := w.diag.entry start
  let rec go (w : Sweep) (k : Nat) (x y : Float) : Nat → Sweep
    | 0 => w
    | fuel + 1 =>
      match Givens.cancelY x y with
      | none => w
      | some (rot1, norm1) =>
        let m12 := if k == n - 1 then 0.0 else w.off.entry (k + 1)
        -- the 2 × 3 window [[d_k, e_k, 0], [0, d_k+1, m12]], its first two columns rotated
        let c := rot1.c
        let s' := -rot1.s
        let a00 := w.diag.entry k * c + s' * w.off.entry k
        let a01 := -s' * w.diag.entry k + w.off.entry k * c
        let a10 := 0.0 * c + s' * w.diag.entry (k + 1)
        let a11 := -s' * 0.0 + w.diag.entry (k + 1) * c
        let w := if k > start then { w with off := w.off.set! (k - 1) norm1 } else w
        let (rot2, norm2) := (Givens.cancelY a00 a10).getD (Givens.identity, a00)
        let b01 := a01 * rot2.c - rot2.s * a11
        let b11 := rot2.s * a01 + a11 * rot2.c
        let b02 := 0.0 * rot2.c - rot2.s * m12
        let b12 := rot2.s * 0.0 + m12 * rot2.c
        let w := { w with vt := (if w.upper then rot1 else rot2).rotate w.vt k (k + 1) }
        let w := { w with u := (if w.upper then rot2 else rot1).inverse.rotateRows w.u k (k + 1) }
        let w := { w with
          diag := (w.diag.set! k norm2).set! (k + 1) b11,
          off := w.off.set! k b01 }
        let w := if k != n - 1 then { w with off := w.off.set! (k + 1) b12 } else w
        go w (k + 1) b01 b02 fuel
  go w start (ds * ds - shift) (ds * w.off.entry start) (n - start)

/-- The closed-form step on the trailing `2 × 2` block at `start`. -/
def step2x2 (w : Sweep) (start : Nat) : Sweep :=
  let (u2, (s1, s2), v2) :=
    svd2x2 (w.diag.entry start) (w.off.entry start) (w.diag.entry (start + 1))
  let w := { w with
    diag := (w.diag.set! start s1).set! (start + 1) s2,
    off := w.off.set! start 0.0 }
  let w := { w with u := (if w.upper then u2 else v2).rotateRows w.u start (start + 1) }
  { w with vt := (if w.upper then v2 else u2).inverse.rotate w.vt start (start + 1) }

/-- Sweeps until the bidiagonal is diagonal, at most `fuel` of them; none if they run out. -/
def run (eps : Float) : Nat → Sweep → Nat → Nat → Option Sweep
  | 0, _, _, _ => none
  | fuel + 1, w, start, stop =>
    if stop == start then some w
    else
      let sub := stop - start + 1
      let (w, stop) :=
        if sub > 2 then (w.qrStep start stop, stop)
        else (w.step2x2 start, stop - 1)
      let (w, start, stop) := w.delimit stop eps
      run eps fuel w start stop

end Sweep

/-- A singular value decomposition: `U` (`nrows × dim`), the singular values in decreasing
order and `Vᵀ` (`dim × ncols`). -/
structure Svd where
  u : Mat
  values : Vec
  vt : Mat

def svdBudget : Nat := 100000

/-- The tolerance below which an entry of the bidiagonal counts as zero, relative to its
neighbours: five machine epsilons. -/
def svdTolerance : Float := 5.0 * epsilon

/-- The singular value decomposition of a non-empty matrix; none if the iteration does not
settle within its budget. -/
def Svd.ofMatrix (a : Mat) : Option Svd := do
  let amax := maxAbs a
  let a := if amax != 0.0 then a.map (·.map (· / amax)) else a
  let b := Bidiagonal.ofMatrix a
  let dim := b.diag.size
  let w0 : Sweep := ⟨b.diag.map Float.abs, b.off.map Float.abs, b.u, b.vt, b.upper⟩
  let (w, start, stop) := w0.delimit (dim - 1) svdTolerance
  let w ← Sweep.run svdTolerance svdBudget w start stop
  let values : Vec := w.diag.map (· * amax)
  let (values, u) := (List.range dim).foldl (fun ((vs : Vec), u) i =>
    let v := vs.entry i
    if v < 0.0 then (vs.set! i (-v), u.map fun row => row.modify i (fun x => -x)) else (vs, u))
    (values, w.u)
  let order := (List.range dim).mergeSort fun i j => values.entry i ≥ values.entry j
  let perm := order.toArray
  return {
    u := u.map fun row => perm.map fun k => row.getD k 0.0
    values := perm.map values.entry
    vt := perm.map fun k => w.vt.getD k #[] }

namespace Svd

def rank (s : Svd) (eps : Float) : Nat := (s.values.toList.filter (· > eps)).length

/-- The least-squares solution `V Σ⁺ Uᵀ b`, singular values at most `eps` counting as zero. -/
def solve (s : Svd) (b : Vec) (eps : Float) : Vec :=
  let dim := s.values.size
  let col (m : Mat) (j : Nat) : Vec := m.map (·.getD j 0.0)
  let utb : Vec := (Array.range dim).map fun i =>
    let x := (col s.u i).dot b
    let v := s.values.entry i
    if v > eps then x / v else 0.0
  let ncols := (s.vt.getD 0 #[]).size
  (Array.range ncols).map fun i => (col s.vt i).dot utb

end Svd

end ProfileLikelihood.Numeric
