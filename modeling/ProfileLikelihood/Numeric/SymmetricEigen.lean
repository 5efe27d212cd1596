import ProfileLikelihood.Numeric.Reflection

/-!
The eigendecomposition `A = Q Λ Qᵀ` of a symmetric matrix: the matrix is scaled by its largest
magnitude, reduced to tridiagonal form by Householder reflections applied from both sides (only
the lower triangle is read and updated), and the tridiagonal is diagonalised by implicit
Wilkinson-shifted QR sweeps, a trailing `2 × 2` block being solved in closed form. The
eigenvalues are scaled back and come in the order the sweeps leave them, each with its column
of `Q`.
-/

namespace ProfileLikelihood.Numeric

namespace Tridiagonal

/-- The product `2 S x` of the symmetric block `S` (rows and columns `o …` of `m`, lower
triangle only) with `x`: column by column, each entry below the diagonal feeding both its row
and, through a dot product, its column. -/
def symmetricProduct (m : Mat) (o : Nat) (x : Vec) : Vec :=
  let d := x.size
  let s := fun r c => m.entry (o + r) (o + c)
  let col := fun (j from_ : Nat) => ((List.range (d - from_)).map fun t => s (from_ + t) j).toArray
  let x0 := x.entry 0
  let p : Vec := (Array.range d).map fun r => 2.0 * x0 * s r 0 * 1.0
  let p := p.modify 0 (· + 2.0 * Vec.dot (col 0 1) (x.extract 1 d))
  (List.range d).tail.foldl (fun (p : Vec) j =>
    let p := p.modify j (· + 2.0 * Vec.dot (col j j) (x.extract j d))
    let a := 2.0 * x.entry j
    (List.range d).foldl (fun (p : Vec) r =>
      if r > j then p.modify r (fun y => a * s r j * 1.0 + y) else p) p) p

/-- The lower triangle of the block at `o` updated by `alpha x yᵀ`, column by column. -/
def rankOne (m : Mat) (o : Nat) (alpha : Float) (x y : Vec) : Mat :=
  let d := x.size
  (List.range d).foldl (fun m j =>
    let a := alpha * y.entry j
    (List.range d).foldl (fun m r =>
      if r ≥ j then m.setEntry (o + r) (o + j) (a * x.entry r * 1.0 + m.entry (o + r) (o + j))
      else m) m) m

/-- One reduction step: column `i` below the diagonal becomes a reflection axis, stored in place,
and the trailing block is reflected on both sides. -/
def reduceColumn (m : Mat) (i : Nat) : Mat × Float :=
  let n := m.size
  let o := i + 1
  let v : Vec := (Array.range (n - o)).map fun t => m.entry (o + t) i
  let (ax, norm, needed) := Householder.axis v
  let m := (List.range ax.size).foldl (fun m t => m.setEntry (o + t) i (ax.entry t)) m
  if needed then
    let p := symmetricProduct m o ax
    let dot := ax.dot p
    let m := rankOne m o (-1.0) p ax
    let m := rankOne m o (-1.0) ax p
    (rankOne m o (dot * 2.0) ax ax, norm)
  else (m, norm)

/-- The reduced matrix with the axes in place, and the signed off-diagonal. -/
def reduce (m : Mat) : Mat × Vec :=
  (List.range (m.size - 1)).foldl (fun (m, off) i =>
    let (m, e) := reduceColumn m i
    (m, off.push e)) (m, #[])

/-- The orthogonal factor of the reduction, accumulated from the last reflection back. -/
def q (m : Mat) (off : Vec) : Mat :=
  let n := m.size
  let res := Mat.build n n fun i j => if i = j then 1.0 else 0.0
  (List.range (n - 1)).reverse.foldl (fun res i =>
    let ax : Vec := (Array.range (n - i - 1)).map fun t => m.entry (i + 1 + t) i
    Householder.reflectColumns res ax (i + 1) ((List.range n).drop i) (signum (off.entry i))) res

end Tridiagonal

/-- The state of the diagonalisation: the tridiagonal's diagonal and off-diagonal, and the
accumulated eigenvectors. -/
structure EigenSweep where
  diag : Vec
  off : Vec
  q : Mat

namespace EigenSweep

/-- Whether the off-diagonal entry `m` is negligible next to its diagonal neighbours. -/
def negligible (w : EigenSweep) (eps : Float) (m : Nat) : Bool :=
  (w.off.entry m).abs ≤ eps * ((w.diag.entry (m + 1)).abs + (w.diag.entry m).abs)

/-- The unreduced block ending at or before `stop`; `(0, 0)` when none is left. -/
def delimit (w : EigenSweep) (stop : Nat) (eps : Float) : EigenSweep × Nat × Nat :=
  let n := ((List.range (stop + 1)).reverse.find? fun n =>
    n = 0 || (w.off.entry (n - 1)).abs > eps * ((w.diag.entry n).abs + (w.diag.entry (n - 1)).abs)).getD 0
  if n = 0 then (w, 0, 0)
  else
    let start := ((List.range n).reverse.find? fun s =>
      s = 0 || w.off.entry (s - 1) == 0.0 || w.negligible eps (s - 1)).getD 0
    if start = 0 then (w, 0, n) else ({ w with off := w.off.set! (start - 1) 0.0 }, start, n)

/-- One implicit-shift QR sweep over the block `[start, stop]`, of three or more entries. -/
def qrStep (w : EigenSweep) (start stop : Nat) : EigenSweep :=
  let m := stop - 1
  let n := stop
  let shift := wilkinsonShift (w.diag.entry m) (w.diag.entry n) (w.off.entry m)
  let rec go (w : EigenSweep) (i : Nat) (x y : Float) : Nat → EigenSweep
    | 0 => w
    | fuel + 1 =>
      match Givens.cancelY x y with
      | none => w
      | some (rot, norm) =>
        let j := i + 1
        let w := if i > start then { w with off := w.off.set! (i - 1) norm } else w
        let mii := w.diag.entry i
        let mjj := w.diag.entry j
        let mij := w.off.entry i
        let cc := rot.c * rot.c
        let ss := rot.s * rot.s
        let cs := rot.c * rot.s
        let b := cs * 2.0 * mij
        let w := { w with
          diag := (w.diag.set! i (cc * mii + ss * mjj - b)).set! j (ss * mii + cc * mjj + b),
          off := w.off.set! i (cs * (mii - mjj) + mij * (cc - ss)) }
        let w := { w with q := rot.inverse.rotateRows w.q i j }
        if i != n - 1 then
          let x' := w.off.entry i
          let y' := -rot.s * w.off.entry (i + 1)
          go { w with off := w.off.modify (i + 1) (· * rot.c) } (i + 1) x' y' fuel
        else w
  go w start (w.diag.entry start - shift) (w.off.entry start) (n - start)

/-- The closed-form step on the `2 × 2` block at `start`. -/
def step2x2 (w : EigenSweep) (start : Nat) (eps : Float) : EigenSweep :=
  let h00 := w.diag.entry start
  let h11 := w.diag.entry (start + 1)
  let h01 := w.off.entry start
  let half := (h00 - h11) * 0.5
  let discr := h01 * h01 + half * half
  let (e0, e1) :=
    if discr == 0.0 then (h00, h00)
    else
      let r := discr.sqrt
      let halfTrace := (h00 + h11) * 0.5
      (halfTrace + r, halfTrace - r)
  let w := { w with diag := (w.diag.set! start e0).set! (start + 1) e1 }
  match Givens.ofComponents? (e0 - h11) h01 eps with
  | some (rot, _) => { w with q := rot.rotateRows w.q start (start + 1) }
  | none => w

/-- Sweeps until the tridiagonal is diagonal, at most `fuel` of them. -/
def run (eps : Float) : Nat → EigenSweep → Nat → Nat → Option EigenSweep
  | 0, _, _, _ => none
  | fuel + 1, w, start, stop =>
    if stop == start then some w
    else
      let (w, stop) :=
        if stop - start + 1 > 2 then
          let w := w.qrStep start stop
          (w, if w.negligible eps (stop - 1) then stop - 1 else stop)
        else (w.step2x2 start eps, stop - 1)
      let (w, start, stop) := w.delimit stop eps
      run eps fuel w start stop

end EigenSweep

/-- The eigenvalues and eigenvectors (as columns) of a symmetric matrix. -/
structure SymmetricEigen where
  values : Vec
  vectors : Mat

def eigenBudget : Nat := 100000

/-- The eigendecomposition of a non-empty symmetric matrix, of which only the lower triangle is
read; none if the sweeps do not settle within their budget. -/
def SymmetricEigen.ofMatrix (a : Mat) : Option SymmetricEigen := do
  let amax := maxAbs a
  let a := if amax != 0.0 then a.map (·.map (· / amax)) else a
  let dim := a.size
  let (t, off) := Tridiagonal.reduce a
  let diag : Vec := (Array.range dim).map fun i => t.entry i i
  let w0 : EigenSweep := ⟨diag, off.map Float.abs, Tridiagonal.q t off⟩
  if dim = 1 then return ⟨diag.map (· * amax), w0.q⟩
  let (w, start, stop) := w0.delimit (dim - 1) epsilon
  let w ← EigenSweep.run epsilon eigenBudget w start stop
  return ⟨w.diag.map (· * amax), w.q⟩

end ProfileLikelihood.Numeric
