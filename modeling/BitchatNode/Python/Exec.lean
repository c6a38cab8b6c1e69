-- Calls that read and write a state and may raise. A call that raises keeps
-- the changes it made to the state before it raised, as in Python.
import Mathlib.Order.Defs.Unbundled

namespace python

variable {ε σ τ α β : Type}

/-- A call on a state of type `σ` that returns an `α` or raises an `ε`. -/
abbrev Py (ε σ α : Type) := ExceptT ε (StateM σ) α

/-- What the call returns or raises, and the state it leaves. -/
def exec (x : Py ε σ α) (s : σ) : Except ε α × σ := StateT.run (ExceptT.run x) s

/-- The call on one part of a larger state. -/
def onPart (part : σ → τ) (put : τ → σ → σ) (x : Py ε τ α) : Py ε σ α :=
  fun s => ((exec x (part s)).1, put (exec x (part s)).2 s)

/-- The outcome of the call as a value: nothing is raised further. -/
def attempt (x : Py ε σ α) : Py ε σ (Except ε α) := fun s => (.ok (exec x s).1, (exec x s).2)

/-- `try: x` with an `except` clause that drops every exception. -/
def suppress (x : Py ε σ α) : Py ε σ Unit := fun s => (.ok (), (exec x s).2)

/-- A result that was computed without the state. -/
def outcome : Except ε α → Py ε σ α
  | .ok a => pure a
  | .error e => throw e

/-! ## What each construct does -/

@[simp] theorem exec_pure (a : α) (s : σ) : exec (pure a : Py ε σ α) s = (.ok a, s) := rfl

@[simp] theorem exec_throw (e : ε) (s : σ) : exec (throw e : Py ε σ α) s = (.error e, s) := rfl

@[simp] theorem exec_get (s : σ) : exec (get : Py ε σ σ) s = (.ok s, s) := rfl

@[simp] theorem exec_set (t s : σ) : exec (set t : Py ε σ PUnit) s = (.ok (), t) := rfl

@[simp] theorem exec_modify (f : σ → σ) (s : σ) :
    exec (modify f : Py ε σ PUnit) s = (.ok (), f s) := rfl

@[simp] theorem exec_attempt (x : Py ε σ α) (s : σ) :
    exec (attempt x) s = (.ok (exec x s).1, (exec x s).2) := rfl

@[simp] theorem exec_suppress (x : Py ε σ α) (s : σ) :
    exec (suppress x) s = (.ok (), (exec x s).2) := rfl

@[simp] theorem exec_onPart (part : σ → τ) (put : τ → σ → σ) (x : Py ε τ α) (s : σ) :
    exec (onPart part put x) s = ((exec x (part s)).1, put (exec x (part s)).2 s) := rfl

@[simp] theorem exec_outcome_ok (a : α) (s : σ) :
    exec (outcome (.ok a) : Py ε σ α) s = (.ok a, s) := rfl

@[simp] theorem exec_outcome_error (e : ε) (s : σ) :
    exec (outcome (.error e) : Py ε σ α) s = (.error e, s) := rfl

theorem exec_outcome (r : Except ε α) (s : σ) : exec (outcome r : Py ε σ α) s = (r, s) := by
  cases r <;> rfl

@[simp] theorem exec_bind (x : Py ε σ α) (f : α → Py ε σ β) (s : σ) :
    exec (x >>= f) s = match exec x s with
      | (.ok a, s') => exec (f a) s'
      | (.error e, s') => (.error e, s') := by
  simp only [exec, ExceptT.run_bind, StateT.run_bind]
  rcases StateT.run (ExceptT.run x) s with ⟨r, s'⟩
  cases r <;> rfl

@[simp] theorem exec_map (f : α → β) (x : Py ε σ α) (s : σ) :
    exec (f <$> x) s = match exec x s with
      | (.ok a, s') => (.ok (f a), s')
      | (.error e, s') => (.error e, s') := by
  rw [← bind_pure_comp, exec_bind]
  rfl

theorem exec_discard (x : Py ε σ α) (s : σ) : (exec (discard x) s).2 = (exec x s).2 := by
  show (exec ((fun _ => ()) <$> x) s).2 = _
  rw [exec_map]
  rcases exec x s with ⟨r, s'⟩
  cases r <;> rfl

@[simp] theorem exec_ite (c : Prop) [Decidable c] (x y : Py ε σ α) (s : σ) :
    exec (if c then x else y) s = if c then exec x s else exec y s := by
  split <;> rfl

@[simp] theorem ok_bind (a : α) (f : α → Except ε β) : (Except.ok a >>= f) = f a := rfl

@[simp] theorem error_bind (e : ε) (f : α → Except ε β) :
    (Except.error e >>= f) = Except.error e := rfl

theorem bind_eq_ok_iff {x : Except ε α} {f : α → Except ε β} {b : β} :
    (x >>= f) = .ok b ↔ ∃ a, x = .ok a ∧ f a = .ok b := by
  cases x <;> simp

theorem map_eq_ok_iff {f : α → β} {x : Except ε α} {b : β} :
    f <$> x = .ok b ↔ ∃ a, x = .ok a ∧ f a = b := by
  cases x <;> simp [Functor.map, Except.map]

/-- A call that returns is followed by the rest. -/
theorem exec_bind_ok {x : Py ε σ α} {s s' : σ} {a : α} (f : α → Py ε σ β)
    (h : exec x s = (.ok a, s')) : exec (x >>= f) s = exec (f a) s' := by
  rw [exec_bind, h]

/-- A call that raises skips the rest. -/
theorem exec_bind_error {x : Py ε σ α} {s s' : σ} {e : ε} (f : α → Py ε σ β)
    (h : exec x s = (.error e, s')) : exec (x >>= f) s = (.error e, s') := by
  rw [exec_bind, h]

/-- A sequence returns only if its first call does. -/
theorem exec_bind_eq_ok {x : Py ε σ α} {f : α → Py ε σ β} {s s' : σ} {b : β}
    (h : exec (x >>= f) s = (.ok b, s')) :
    ∃ a t, exec x s = (.ok a, t) ∧ exec (f a) t = (.ok b, s') := by
  rw [exec_bind] at h
  rcases hx : exec x s with ⟨r, t⟩
  rw [hx] at h
  cases r with
  | ok a => exact ⟨a, t, rfl, h⟩
  | error e => cases h

/-- The same for a result. -/
theorem exec_outcome_bind_eq_ok {r : Except ε α} {f : α → Py ε σ β} {s s' : σ} {b : β}
    (h : exec (outcome r >>= f) s = (.ok b, s')) :
    ∃ a, r = .ok a ∧ exec (f a) s = (.ok b, s') := by
  obtain ⟨a, t, hr, hrest⟩ := exec_bind_eq_ok h
  rw [exec_outcome, Prod.mk.injEq] at hr
  obtain ⟨rfl, rfl⟩ := hr
  exact ⟨a, rfl, hrest⟩

/-! ## What a call can change -/

/-- However the call ends, the state it leaves is `R`-related to the state
it found. -/
def Moves (R : σ → σ → Prop) (x : Py ε σ α) : Prop := ∀ s, R s (exec x s).2

/-- Where the invariant held before, it holds after. -/
def Keeps (I : σ → Prop) (s s' : σ) : Prop := I s → I s'

instance (I : σ → Prop) : IsPreorder σ (Keeps I) where
  refl _ h := h
  trans _ _ _ hst htu h := htu (hst h)

section Moves

variable {R : σ → σ → Prop} [IsPreorder σ R]

theorem Moves.pure (a : α) : Moves R (Pure.pure a : Py ε σ α) := fun s => refl_of R s

theorem Moves.throw (e : ε) : Moves R (MonadExcept.throw e : Py ε σ α) := fun s => refl_of R s

theorem Moves.outcome (r : Except ε α) : Moves R (outcome r : Py ε σ α) := by
  cases r
  · exact Moves.throw _
  · exact Moves.pure _

/-- What follows a result may rely on it. -/
theorem Moves.outcome_bind {r : Except ε α} {f : α → Py ε σ β}
    (hf : ∀ a, r = .ok a → Moves R (f a)) : Moves R (python.outcome r >>= f) := by
  cases r with
  | error e => exact Moves.throw e
  | ok a => exact hf a rfl

/-- What follows may rely on how the first call moved. -/
theorem Moves.bind_after {x : Py ε σ α} {f : α → Py ε σ β} {s : σ} (hx : R s (exec x s).2)
    (hf : ∀ a s', R s s' → R s' (exec (f a) s').2) : R s (exec (x >>= f) s).2 := by
  rw [exec_bind]
  rcases he : exec x s with ⟨r, s'⟩
  rw [he] at hx
  cases r with
  | ok a => exact trans_of R hx (hf a s' hx)
  | error e => exact hx

/-- A call that moves from the given state, followed by one that moves from
any. -/
theorem Moves.bind_from {x : Py ε σ α} {f : α → Py ε σ β} {s : σ} (hx : R s (exec x s).2)
    (hf : ∀ a, Moves R (f a)) : R s (exec (x >>= f) s).2 :=
  Moves.bind_after hx fun a s' _ => hf a s'

theorem Moves.bind {x : Py ε σ α} {f : α → Py ε σ β} (hx : Moves R x)
    (hf : ∀ a, Moves R (f a)) : Moves R (x >>= f) := fun s => Moves.bind_from (hx s) hf

omit [IsPreorder σ R] in
/-- A call whose last part may do more than the parts before it. -/
theorem Moves.bind_last {Q : σ → σ → Prop} {x : Py ε σ α} {f : α → Py ε σ β} (hx : Moves R x)
    (hf : ∀ a, Moves Q (f a)) (hsub : ∀ s t, R s t → Q s t)
    (htrans : ∀ s t u, R s t → Q t u → Q s u) : Moves Q (x >>= f) := by
  intro s
  have hfirst := hx s
  rw [exec_bind]
  rcases he : exec x s with ⟨r, s'⟩
  rw [he] at hfirst
  cases r with
  | ok a => exact htrans _ _ _ hfirst (hf a s')
  | error e => exact hsub _ _ hfirst

theorem Moves.map {x : Py ε σ α} (f : α → β) (hx : Moves R x) : Moves R (f <$> x) := by
  rw [← bind_pure_comp]
  exact hx.bind fun a => Moves.pure (f a)

omit [IsPreorder σ R] in
theorem Moves.attempt {x : Py ε σ α} (hx : Moves R x) : Moves R (attempt x) := hx

omit [IsPreorder σ R] in
theorem Moves.suppress {x : Py ε σ α} (hx : Moves R x) : Moves R (suppress x) := hx

omit [IsPreorder σ R] in
theorem Moves.ite {c : Prop} [Decidable c] {x y : Py ε σ α} (hx : Moves R x)
    (hy : Moves R y) : Moves R (if c then x else y) := by
  split
  · exact hx
  · exact hy

omit [IsPreorder σ R] in
theorem Moves.mono {Q : σ → σ → Prop} {x : Py ε σ α} (h : ∀ s s', R s s' → Q s s')
    (hx : Moves R x) : Moves Q x := fun s => h s _ (hx s)

end Moves

/-! ## What a call ensures -/

/-- From the state `s` the call returns a value and leaves a state as in `Q`,
or raises an exception as in `E`. -/
def Ensures (Q : α → σ → Prop) (E : ε → Prop) (x : Py ε σ α) (s : σ) : Prop :=
  match exec x s with
  | (.ok a, s') => Q a s'
  | (.error e, _) => E e

section Ensures

variable {Q : α → σ → Prop} {E : ε → Prop}

@[simp] theorem ensures_pure (a : α) (s : σ) : Ensures Q E (pure a) s ↔ Q a s := Iff.rfl

@[simp] theorem ensures_throw (e : ε) (s : σ) : Ensures Q E (throw e) s ↔ E e := Iff.rfl

@[simp] theorem ensures_get {Q : σ → σ → Prop} (s : σ) : Ensures Q E get s ↔ Q s s := Iff.rfl

@[simp] theorem ensures_modify {Q : PUnit → σ → Prop} (f : σ → σ) (s : σ) :
    Ensures Q E (modify f) s ↔ Q () (f s) := Iff.rfl

@[simp] theorem ensures_outcome (r : Except ε α) (s : σ) :
    Ensures Q E (outcome r) s ↔ (∀ a, r = .ok a → Q a s) ∧ ∀ e, r = .error e → E e := by
  cases r <;> simp [Ensures]

@[simp] theorem ensures_bind {Q : β → σ → Prop} (x : Py ε σ α) (f : α → Py ε σ β) (s : σ) :
    Ensures Q E (x >>= f) s ↔ Ensures (fun a => Ensures Q E (f a)) E x s := by
  unfold Ensures
  rw [exec_bind]
  rcases exec x s with ⟨r, s'⟩
  cases r <;> rfl

theorem Ensures.mono {Q' : α → σ → Prop} {x : Py ε σ α} {s : σ} (h : Ensures Q E x s)
    (hQ : ∀ a s', Q a s' → Q' a s') : Ensures Q' E x s := by
  unfold Ensures at h ⊢
  rcases he : exec x s with ⟨r, s'⟩
  rw [he] at h
  cases r with
  | ok a => exact hQ a s' h
  | error e => exact h

theorem Ensures.ok {x : Py ε σ α} {s s' : σ} {a : α} (h : Ensures Q E x s)
    (hx : exec x s = (.ok a, s')) : Q a s' := by
  unfold Ensures at h
  rwa [hx] at h

theorem Ensures.error {x : Py ε σ α} {s s' : σ} {e : ε} (h : Ensures Q E x s)
    (hx : exec x s = (.error e, s')) : E e := by
  unfold Ensures at h
  rwa [hx] at h

end Ensures

end python
