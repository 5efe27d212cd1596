import ProfileLikelihood.Numeric.Elementary

/-!
Vectors and matrices of doubles, with the arithmetic of the solvers. Sums are evaluated in a
fixed order: `dot` keeps eight partial sums over blocks of eight entries and adds the rest one
by one, `sum` adds from the left starting at `-0.0`, so the empty sum is `-0.0`.
-/

namespace ProfileLikelihood

abbrev Vec := Array Float

abbrev Mat := Array (Array Float)

namespace Vec

def zeros (n : Nat) : Vec := Array.replicate n 0.0

def entry (v : Vec) (i : Nat) : Float := v.getD i 0.0

def sum (v : Vec) : Float := v.foldl (· + ·) (-0.0)

def allFinite (v : Vec) : Bool := v.all Float.isFinite

def add (a b : Vec) : Vec := Array.zipWith (· + ·) a b

def sub (a b : Vec) : Vec := Array.zipWith (· - ·) a b

def scale (a : Vec) (s : Float) : Vec := a.map (· * s)

def axpy (a : Vec) (s : Float) (d : Vec) : Vec := Array.zipWith (fun x y => x + y * s) a d

/-- Eight running sums over whole blocks of eight, combined pairwise, then the remaining
products added one by one. -/
def dot (a b : Vec) : Float :=
  let n := min a.size b.size
  let blocks := n / 8
  let p : Array Float := (List.range blocks).foldl (fun acc j =>
      acc.mapIdx fun r s => s + a.entry (8 * j + r) * b.entry (8 * j + r))
    (Array.replicate 8 0.0)
  let q := fun r => p.getD r 0.0
  let head := 0.0 + (q 0 + q 4) + (q 1 + q 5) + (q 2 + q 6) + (q 3 + q 7)
  (List.range (n - 8 * blocks)).foldl (fun s i => s + a.entry (8 * blocks + i) * b.entry (8 * blocks + i))
    head

/-- Euclidean norm: the root of the sum of squares, added from the left (`sum`). -/
def norm (a : Vec) : Float := (sum (a.map fun x => x * x)).sqrt

end Vec

namespace Mat

def fill (r c : Nat) (v : Float) : Mat := Array.replicate r (Array.replicate c v)

def entry (m : Mat) (i j : Nat) : Float := ((m.getD i #[]).getD j 0.0)

def shape (m : Mat) : Nat × Nat := (m.size, (m.getD 0 #[]).size)

def setEntry (m : Mat) (r c : Nat) (v : Float) : Mat := m.modify r (·.set! c v)

/-- The matrix with entries `f i j`. -/
def build (r c : Nat) (f : Nat → Nat → Float) : Mat :=
  (Array.range r).map fun i => (Array.range c).map fun j => f i j

/-- A matrix as its rows together with its number of columns, which the rows alone do not give
when there are none. -/
structure Sized where
  rows : Mat
  cols : Nat

def sized (m : Mat) : Sized := ⟨m, m.shape.2⟩

def fillSized (r c : Nat) (v : Float) : Sized := ⟨fill r c v, c⟩

end Mat

end ProfileLikelihood
