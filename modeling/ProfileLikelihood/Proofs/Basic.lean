import Mathlib
import ProfileLikelihood.Error

/-! The error monad, peeled one step at a time: a chain of steps succeeds when each step does,
and fails with the first step that fails. Proofs about the library's computations take them
apart with these lemmas instead of unfolding `bind`. -/

namespace ProfileLikelihood.Except

variable {ε α β : Type} {x : Except ε α} {f : α → Except ε β}

@[simp] theorem throw_eq (err : ε) : (throw err : Except ε α) = .error err := rfl

@[simp] theorem pure_eq (a : α) : (pure a : Except ε α) = .ok a := rfl

@[simp] theorem ok_bind (a : α) : (Except.ok a >>= f) = f a := rfl

@[simp] theorem error_bind (err : ε) : (Except.error err >>= f) = .error err := rfl

theorem bind_eq_ok {b : β} : x >>= f = .ok b ↔ ∃ a, x = .ok a ∧ f a = .ok b := by
  cases x <;> simp

theorem bind_eq_error {err : ε} :
    x >>= f = .error err ↔ x = .error err ∨ ∃ a, x = .ok a ∧ f a = .error err := by
  cases x <;> simp

theorem toOption_eq_some {a : α} : x.toOption = some a ↔ x = .ok a := by
  cases x <;> simp [Except.toOption]

theorem bind_pure_eq_error {g : α → β} {err : ε} :
    (x >>= fun a => pure (g a)) = .error err ↔ x = .error err := by
  cases x <;> simp

theorem bind_pure_eq_ok_of {g : α → β} (h : ∃ a, x = .ok a) :
    ∃ b, (x >>= fun a => pure (g a)) = .ok b := by
  obtain ⟨a, rfl⟩ := h
  exact ⟨g a, rfl⟩

theorem bind_pure_eq_ok_and {g : α → β} {P : α → Prop} {Q : β → Prop}
    (hPQ : ∀ a, P a → Q (g a)) (h : ∃ a, x = .ok a ∧ P a) :
    ∃ b, (x >>= fun a => pure (g a)) = .ok b ∧ Q b := by
  obtain ⟨a, rfl, ha⟩ := h
  exact ⟨g a, rfl, hPQ a ha⟩

theorem ite_eq_ok {c : Prop} [Decidable c] {y z : Except ε α} {a : α}
    (h : (if c then y else z) = .ok a) : y = .ok a ∨ z = .ok a := by
  by_cases hc : c
  · exact .inl (by simpa [hc] using h)
  · exact .inr (by simpa [hc] using h)

theorem map_eq_ok {g : α → β} {b : β} : x.map g = .ok b ↔ ∃ a, x = .ok a ∧ g a = b := by
  cases x <;> simp [Except.map]

theorem mapError_eq_ok {ε' : Type} {g : ε → ε'} {a : α} : x.mapError g = .ok a ↔ x = .ok a := by
  cases x <;> simp [Except.mapError]

/-- What every image says of its element, the images of a successful mapping say of the list,
position by position. -/
theorem mapM_eq_ok_map {γ : Type} {f : α → Except ε β} {g : β → γ} {h : α → γ}
    (hfg : ∀ a b, f a = .ok b → g b = h a) :
    ∀ {l : List α} {l' : List β}, l.mapM f = .ok l' → l'.map g = l.map h
  | [], _, hl => by cases hl; rfl
  | a :: l, l', hl => by
    rw [List.mapM_cons] at hl
    obtain ⟨b, hb, hl⟩ := bind_eq_ok.1 hl
    obtain ⟨bs, hbs, hl⟩ := bind_eq_ok.1 hl
    cases hl
    simp [hfg a b hb, mapM_eq_ok_map hfg hbs]

/-- Each image of a successful mapping is the image of an element. -/
theorem mapM_eq_ok_mem {f : α → Except ε β} :
    ∀ {l : List α} {l' : List β}, l.mapM f = .ok l' → ∀ b ∈ l', ∃ a ∈ l, f a = .ok b
  | [], _, hl => by cases hl; simp
  | a :: l, l', hl => by
    rw [List.mapM_cons] at hl
    obtain ⟨b, hb, hl⟩ := bind_eq_ok.1 hl
    obtain ⟨bs, hbs, hl⟩ := bind_eq_ok.1 hl
    cases hl
    intro b' hb'
    rcases List.mem_cons.1 hb' with rfl | hb'
    · exact ⟨a, List.mem_cons_self, hb⟩
    · obtain ⟨a', ha', h'⟩ := mapM_eq_ok_mem hbs b' hb'
      exact ⟨a', List.mem_cons_of_mem _ ha', h'⟩

theorem mapM_eq_ok_of {f : α → Except ε β} :
    ∀ {l : List α}, (∀ a ∈ l, ∃ b, f a = .ok b) → ∃ l', l.mapM f = .ok l'
  | [], _ => ⟨[], rfl⟩
  | a :: l, h => by
    obtain ⟨b, hb⟩ := h a List.mem_cons_self
    obtain ⟨l', hl'⟩ := mapM_eq_ok_of fun a' ha' => h a' (List.mem_cons_of_mem _ ha')
    exact ⟨b :: l', by rw [List.mapM_cons, hb, ok_bind, hl', ok_bind]; rfl⟩

theorem arrayMapM_eq_ok_of {f : α → Except ε β} {xs : Array α}
    (h : ∀ a ∈ xs, ∃ b, f a = .ok b) : ∃ ys, xs.mapM f = .ok ys := by
  obtain ⟨l', hl'⟩ := mapM_eq_ok_of fun a ha => h a (Array.mem_toList_iff.1 ha)
  exact ⟨l'.toArray, by rw [Array.mapM_eq_mapM_toList, hl']; rfl⟩

/-- A successful mapping gives, at each position, the image of the element there. -/
theorem mapM_eq_ok_getElem? {f : α → Except ε β} :
    ∀ {l : List α} {l' : List β}, l.mapM f = .ok l' →
      l'.length = l.length ∧ ∀ i (hi : i < l.length), ∃ b, l'[i]? = some b ∧ f l[i] = .ok b
  | [], _, hl => by cases hl; simp
  | a :: l, l', hl => by
    rw [List.mapM_cons] at hl
    obtain ⟨b, hb, hl⟩ := bind_eq_ok.1 hl
    obtain ⟨bs, hbs, hl⟩ := bind_eq_ok.1 hl
    cases hl
    obtain ⟨hlen, hget⟩ := mapM_eq_ok_getElem? hbs
    refine ⟨by simp [hlen], fun i hi => ?_⟩
    cases i with
    | zero => exact ⟨b, rfl, hb⟩
    | succ i => exact hget i (by simpa using hi)

/-- A mapping over `0, …, n - 1` succeeds with one image per index, each the image of its index. -/
theorem rangeMapM_eq_ok {f : Nat → Except ε β} {n : Nat} {ys : Array β}
    (h : (Array.range n).mapM f = .ok ys) :
    ys.size = n ∧ ∀ i < n, ∃ b, ys[i]? = some b ∧ f i = .ok b := by
  rw [Array.mapM_eq_mapM_toList, Array.toList_range] at h
  cases hl : (List.range n).mapM f with
  | error e => rw [hl] at h; cases h
  | ok l =>
    rw [hl] at h
    cases h
    obtain ⟨hlen, hget⟩ := mapM_eq_ok_getElem? hl
    refine ⟨by simpa using hlen, fun i hi => ?_⟩
    obtain ⟨b, hb, hf⟩ := hget i (by simpa using hi)
    exact ⟨b, by simpa using hb, by simpa using hf⟩

theorem foldlM_eq_ok_of {f : β → α → Except ε β} :
    ∀ {l : List α} (init : β), (∀ b, ∀ a ∈ l, ∃ b', f b a = .ok b') →
      ∃ r, l.foldlM f init = .ok r
  | [], init, _ => ⟨init, rfl⟩
  | a :: l, init, h => by
    obtain ⟨b, hb⟩ := h init a List.mem_cons_self
    obtain ⟨r, hr⟩ := foldlM_eq_ok_of b fun b' a' ha' => h b' a' (List.mem_cons_of_mem _ ha')
    exact ⟨r, by rw [List.foldlM_cons, hb, ok_bind, hr]⟩

theorem foldlM_invariant {f : β → α → Except ε β} (P : β → Prop) :
    ∀ {l : List α} {init r : β}, (∀ b, ∀ a ∈ l, ∀ b', P b → f b a = .ok b' → P b') →
      P init → l.foldlM f init = .ok r → P r
  | [], _, _, _, hinit, hl => by cases hl; exact hinit
  | a :: l, init, r, hstep, hinit, hl => by
    rw [List.foldlM_cons] at hl
    obtain ⟨b, hb, hl⟩ := bind_eq_ok.1 hl
    exact foldlM_invariant P (fun b' a' ha' => hstep b' a' (List.mem_cons_of_mem _ ha'))
      (hstep init a List.mem_cons_self b hinit hb) hl

/-- A mapping fails only as one of its images fails: whatever those failures share, the
mapping's failure has too. -/
theorem mapM_error {P : ε → Prop} {f : α → Except ε β} (hf : ∀ a err, f a = .error err → P err) :
    ∀ {l : List α} {err : ε}, l.mapM f = .error err → P err
  | [], _, hl => by cases hl
  | a :: l, err, hl => by
    rw [List.mapM_cons] at hl
    rcases bind_eq_error.1 hl with ha | ⟨_, -, hl⟩
    · exact hf a err ha
    · rcases bind_eq_error.1 hl with hl | ⟨_, -, hl⟩
      · exact mapM_error hf hl
      · cases hl

theorem arrayMapM_error {P : ε → Prop} {f : α → Except ε β}
    (hf : ∀ a err, f a = .error err → P err) {xs : Array α} {err : ε}
    (h : xs.mapM f = .error err) : P err := by
  rw [Array.mapM_eq_mapM_toList] at h
  cases hl : xs.toList.mapM f with
  | error e =>
    rw [hl] at h
    cases h
    exact mapM_error hf hl
  | ok l => rw [hl] at h; cases h

theorem foldlM_error {P : ε → Prop} {f : β → α → Except ε β}
    (hf : ∀ b a err, f b a = .error err → P err) :
    ∀ {l : List α} {init : β} {err : ε}, l.foldlM f init = .error err → P err
  | [], _, _, hl => by cases hl
  | a :: l, init, err, hl => by
    rw [List.foldlM_cons] at hl
    rcases bind_eq_error.1 hl with ha | ⟨_, -, hl⟩
    · exact hf init a err ha
    · exact foldlM_error hf hl

/-! ### Outcomes -/

/-- What is known of a computation's outcome: a failure that `E` allows, or a success that `P`
holds of. -/
def Outcome (E : ε → Prop) (P : α → Prop) : Except ε α → Prop
  | .error err => E err
  | .ok a => P a

namespace Outcome

variable {E : ε → Prop} {P : α → Prop}

theorem of_ok {a : α} (h : x = .ok a) (hp : P a) : Outcome E P x := by
  subst h
  exact hp

theorem of_error (h : ∀ err, x = .error err → E err) : Outcome E (fun _ => True) x := by
  cases x with
  | error err => exact h err rfl
  | ok a => trivial

theorem bind {Q : β → Prop} (hx : Outcome E P x) (hf : ∀ a, P a → Outcome E Q (f a)) :
    Outcome E Q (x >>= f) := by
  cases x with
  | error err => exact hx
  | ok a => exact hf a hx

theorem mono {E' : ε → Prop} {P' : α → Prop} (h : Outcome E P x) (hE : ∀ err, E err → E' err)
    (hP : ∀ a, P a → P' a) : Outcome E' P' x := by
  cases x with
  | error err => exact hE err h
  | ok a => exact hP a h

theorem cases (h : Outcome E P x) :
    (∃ err, x = .error err ∧ E err) ∨ ∃ a, x = .ok a ∧ P a := by
  cases x with
  | error err => exact .inl ⟨err, rfl, h⟩
  | ok a => exact .inr ⟨a, rfl, h⟩

theorem foldlM {g : β → α → Except ε β} {Q : β → Prop} :
    ∀ {l : List α} {init : β}, (∀ b, Q b → ∀ a ∈ l, Outcome E Q (g b a)) → Q init →
      Outcome E Q (l.foldlM g init)
  | [], _, _, hinit => hinit
  | a :: l, init, hstep, hinit => by
    rw [List.foldlM_cons]
    exact (hstep init hinit a List.mem_cons_self).bind fun b hb =>
      foldlM (fun b' hb' a' ha' => hstep b' hb' a' (List.mem_cons_of_mem _ ha')) hb

end Outcome

end ProfileLikelihood.Except
