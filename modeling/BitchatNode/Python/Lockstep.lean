-- Two calls side by side. They agree if states that are related before the
-- calls are related after them, and if they return or raise the same.
import BitchatNode.Python.Exec

namespace python

variable {ε σ τ α β : Type}

/-- From `R`-related states both calls end alike, in `R`-related states. -/
def Agree (R : σ → σ → Prop) (x y : Py ε σ α) : Prop :=
  ∀ s t, R s t → (exec y t).1 = (exec x s).1 ∧ R (exec x s).2 (exec y t).2

namespace Agree

variable {R : σ → σ → Prop} {x y : Py ε σ α}

theorem pure (a : α) : Agree R (Pure.pure a : Py ε σ α) (Pure.pure a) := fun _ _ h => ⟨rfl, h⟩

theorem throw (e : ε) : Agree R (MonadExcept.throw e : Py ε σ α) (MonadExcept.throw e) :=
  fun _ _ h => ⟨rfl, h⟩

theorem outcome (r : Except ε α) : Agree R (python.outcome r) (python.outcome r) := by
  cases r with
  | ok a => exact Agree.pure a
  | error e => exact Agree.throw e

theorem modify {f g : σ → σ} (h : ∀ s t, R s t → R (f s) (g t)) :
    Agree R (modify f : Py ε σ PUnit) (modify g) :=
  fun s t hst => ⟨rfl, h s t hst⟩

/-- What follows is run from related states again, and on the same value. -/
theorem bind {f g : α → Py ε σ β} (hx : Agree R x y) (hf : ∀ a, Agree R (f a) (g a)) :
    Agree R (x >>= f) (y >>= g) := by
  intro s t hst
  obtain ⟨hsame, hafter⟩ := hx s t hst
  rw [exec_bind, exec_bind]
  rcases hx : exec x s with ⟨r, s'⟩
  rcases hy : exec y t with ⟨r', t'⟩
  rw [hx, hy] at hsame hafter
  obtain rfl : r' = r := hsame
  cases r' with
  | ok a => exact hf a s' t' hafter
  | error e => exact ⟨rfl, hafter⟩

/-- Two results that may differ. -/
theorem outcome_ok {a b : α} {f g : α → Py ε σ β} (h : Agree R (f a) (g b)) :
    Agree R (python.outcome (.ok a) >>= f) (python.outcome (.ok b) >>= g) := by
  intro s t hst
  rw [exec_bind, exec_bind, exec_outcome_ok, exec_outcome_ok]
  exact h s t hst

theorem attempt (hx : Agree R x y) : Agree R (python.attempt x) (python.attempt y) := by
  intro s t hst
  obtain ⟨hsame, hafter⟩ := hx s t hst
  rw [exec_attempt, exec_attempt, hsame]
  exact ⟨rfl, hafter⟩

theorem suppress (hx : Agree R x y) : Agree R (python.suppress x) (python.suppress y) :=
  fun s t hst => ⟨rfl, (hx s t hst).2⟩

theorem ite {c : Prop} [Decidable c] {x' y' : Py ε σ α} (hx : Agree R x y)
    (hx' : Agree R x' y') : Agree R (if c then x else x') (if c then y else y') := by
  split
  · exact hx
  · exact hx'

/-- A call on a part that is the same on both sides. -/
theorem onPart {part : σ → τ} {put : τ → σ → σ} (x : Py ε τ α)
    (hpart : ∀ s t, R s t → part t = part s)
    (hput : ∀ p s t, R s t → R (put p s) (put p t)) :
    Agree R (python.onPart part put x) (python.onPart part put x) := by
  intro s t hst
  rw [exec_onPart, exec_onPart, hpart s t hst]
  exact ⟨rfl, hput _ s t hst⟩

end Agree

end python
