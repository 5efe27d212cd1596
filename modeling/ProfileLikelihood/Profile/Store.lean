import ProfileLikelihood.Profile.Basic
import ProfileLikelihood.Error

/-!
The profiles of a fit, kept as lists with one slot per parameter. A list is added empty for a
given dimension, or whole, in which case it must have as many slots as the first list. A slot
holds the profile of its parameter once one has been computed.
-/

namespace ProfileLikelihood

/-- Lists of profile slots, one slot per parameter. -/
structure ProfileStore where
  lists : Array (Array (Option Profile)) := #[]

namespace ProfileStore

def size (s : ProfileStore) : Nat := s.lists.size

def isEmpty (s : ProfileStore) : Bool := s.lists.isEmpty

def lastIndex? (s : ProfileStore) : Option Nat := if s.size = 0 then none else some (s.size - 1)

/-- The store with an empty list of `dim` slots, and that list's index. -/
def appendEmpty (s : ProfileStore) (dim : Nat) : ProfileStore × Nat :=
  (⟨s.lists.push (Array.replicate dim none)⟩, s.size)

/-- The list at index `k`. -/
def list (s : ProfileStore) (k : Nat) : Except ProfileError (Array (Option Profile)) :=
  match s.lists[k]? with
  | some l => .ok l
  | none => .error (.invalidProfileList k s.size)

/-- The slot of parameter `i` in list `k`. -/
def get (s : ProfileStore) (i k : Nat) : Except ProfileError (Option Profile) := do
  let l ← s.list k
  match l[i]? with
  | some slot => return slot
  | none => throw (.parameterIndexOutOfRange i l.size)

/-- The store with `prof` in the slot of parameter `i` of list `k`. -/
def set (s : ProfileStore) (k i : Nat) (prof : Profile) : Except ProfileError ProfileStore := do
  let l ← s.list k
  if i < l.size then return ⟨s.lists.set! k (l.set! i (some prof))⟩
  else throw (.parameterIndexOutOfRange i l.size)

/-- The store with each profile written into its parameter's slot of list `k`, in order. -/
def setEach (s : ProfileStore) (k : Nat) : List Profile → ProfileStore × Option ProfileError
  | [] => (s, none)
  | prof :: rest =>
    match s.set k prof.iPar prof with
    | .ok s' => s'.setEach k rest
    | .error err => (s, some err)

/-- The store with the list `slots` added, and its index; its length must match the first
list's. -/
def append (s : ProfileStore) (slots : Array (Option Profile)) :
    Except ProfileError (ProfileStore × Nat) :=
  match s.lists[0]? with
  | some first =>
    if first.size ≠ slots.size then .error (.dimensionMismatch first.size slots.size)
    else .ok (⟨s.lists.push slots⟩, s.size)
  | none => .ok (⟨s.lists.push slots⟩, s.size)

end ProfileStore

end ProfileLikelihood
