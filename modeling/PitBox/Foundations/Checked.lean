import Mathlib.Tactic

/-!
# Computations that can fail and panic

A computation yields a result or an error, and `none` if it panics. A sequence
of steps succeeds exactly when each of its steps does, so a successful run is
taken apart, and put together, with one lemma for each kind of step.
-/

namespace PitBox

instance instDecidableEqExcept {ε α : Type} [DecidableEq ε] [DecidableEq α] :
    DecidableEq (Except ε α)
  | .ok a, .ok b => decidable_of_iff (a = b) (by simp)
  | .error a, .error b => decidable_of_iff (a = b) (by simp)
  | .ok _, .error _ | .error _, .ok _ => isFalse (by simp)

theorem bind_eq_ok {ε α β : Type} {x : Except ε α} {f : α → Except ε β} {b : β} :
    x >>= f = .ok b ↔ ∃ a, x = .ok a ∧ f a = .ok b := by
  cases x <;> simp [bind, Except.bind]

theorem map_eq_ok {ε α β : Type} {x : Except ε α} {f : α → β} {b : β} :
    x.map f = .ok b ↔ ∃ a, x = .ok a ∧ f a = b := by
  cases x <;> simp [Except.map]

/-- A result, an error, or `none` for a panic. -/
abbrev Checked (ε α : Type) := ExceptT ε Option α

namespace Checked

variable {ε α β : Type}

/-- The computation succeeds with a result. -/
def Yields (x : Checked ε α) (a : α) : Prop := x.run = some (.ok a)

def ensure (condition : Bool) (error : ε) : Checked ε Unit :=
  if condition then pure () else throw error

/-- A value that has to be there. -/
def require (value : Option α) (error : ε) : Checked ε α :=
  match value with
  | some a => pure a
  | none => throw error

/-- An operation that panics where it has no value. -/
def orPanic (value : Option α) : Checked ε α := ExceptT.mk (value.map .ok)

def ofExcept (x : Except ε α) : Checked ε α := ExceptT.mk (some x)

variable {x : Checked ε α} {f : α → Checked ε β} {a b : α} {c : β} {e : ε}

theorem yields_pure : (pure a : Checked ε α).Yields b ↔ a = b := by
  simp [Yields]

theorem not_yields_throw : ¬ (throw e : Checked ε α).Yields a := by
  simp [Yields]

theorem yields_bind : (x >>= f).Yields c ↔ ∃ a, x.Yields a ∧ (f a).Yields c := by
  unfold Yields
  rw [ExceptT.run_bind]
  rcases x.run with _ | e | a <;> simp

theorem bind_congr_of_yields {g : α → Checked ε β} (h : ∀ a, x.Yields a → f a = g a) :
    x >>= f = x >>= g := by
  apply ExceptT.ext
  rw [ExceptT.run_bind, ExceptT.run_bind]
  cases hx : x.run with
  | none => rfl
  | some result =>
    cases result with
    | error e => rfl
    | ok a => exact congrArg ExceptT.run (h a hx)

theorem yields_ensure {condition : Bool} {u : Unit} :
    (ensure condition e).Yields u ↔ condition := by
  cases condition
  · simp [ensure, not_yields_throw]
  · simp [ensure, yields_pure]

theorem yields_require {value : Option α} : (require value e).Yields a ↔ value = some a := by
  cases value
  · simp [require, not_yields_throw]
  · simp [require, yields_pure]

theorem yields_orPanic {value : Option α} :
    (orPanic value : Checked ε α).Yields a ↔ value = some a := by
  cases value <;> simp [orPanic, Yields]

theorem yields_ofExcept {y : Except ε α} : (ofExcept y).Yields a ↔ y = .ok a := by
  simp [ofExcept, Yields]

/-! ### Panics -/

/-- The computation panics. -/
def Panics (x : Checked ε α) : Prop := x.run = none

theorem not_panics_pure : ¬ (pure a : Checked ε α).Panics := by
  simp [Panics]

theorem panics_bind : (x >>= f).Panics ↔ x.Panics ∨ ∃ a, x.Yields a ∧ (f a).Panics := by
  unfold Panics Yields
  rw [ExceptT.run_bind]
  rcases x.run with _ | e | a <;> simp

theorem not_panics_bind (hx : ¬ x.Panics) (hf : ∀ a, x.Yields a → ¬ (f a).Panics) :
    ¬ (x >>= f).Panics := by
  rw [panics_bind]
  rintro (h | ⟨a, ha, h⟩)
  · exact hx h
  · exact hf a ha h

theorem not_panics_ensure {condition : Bool} : ¬ (ensure condition e).Panics := by
  cases condition <;> simp [ensure, Panics]

theorem not_panics_require {value : Option α} : ¬ (require value e).Panics := by
  cases value <;> simp [require, Panics]

theorem panics_orPanic {value : Option α} :
    (orPanic value : Checked ε α).Panics ↔ value = none := by
  cases value <;> simp [orPanic, Panics]

theorem not_panics_ofExcept {y : Except ε α} : ¬ (ofExcept y).Panics := by
  simp [ofExcept, Panics]

/-! ### Steps whose outcome is known -/

theorem orPanic_some_bind (a : α) (f : α → Checked ε β) : orPanic (some a) >>= f = f a := rfl

theorem panics_orPanic_none_bind (f : α → Checked ε β) : (orPanic none >>= f).Panics := rfl

theorem ofExcept_ok_bind (a : α) (f : α → Checked ε β) : ofExcept (.ok a) >>= f = f a := rfl

theorem ensure_bind {condition : Bool} (h : condition = true) (f : Unit → Checked ε β) :
    ensure condition e >>= f = f () := by
  rw [h]
  rfl

theorem ensure_bind_run {condition : Bool} (h : condition = false) (f : Unit → Checked ε β) :
    (ensure condition e >>= f).run = some (.error e) := by
  rw [h]
  rfl

theorem exists_of_not_panics {value : Option α} {f : α → Checked ε β}
    (h : ¬ (orPanic value >>= f).Panics) : ∃ a, value = some a ∧ ¬ (f a).Panics := by
  cases value with
  | none => exact absurd (panics_orPanic_none_bind f) h
  | some a => exact ⟨a, rfl, h⟩

theorem exists_yields (h : x.run.any Except.isOk) : ∃ a, x.Yields a := by
  unfold Yields
  match hx : x.run with
  | none | some (.error _) => simp [hx, Except.isOk, Except.toBool] at h
  | some (.ok a) => exact ⟨a, rfl⟩

theorem Yields.not_panics (h : x.Yields a) : ¬ x.Panics := by
  intro hpanics
  rw [Yields, hpanics] at h
  cases h

end Checked

end PitBox
