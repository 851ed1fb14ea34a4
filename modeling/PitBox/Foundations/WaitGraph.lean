import Mathlib.Data.Set.Insert

/-!
# Pools of units whose holders wait for units of pools

Every pool has a number of units. A unit waits for a pool when its holder gives
it back only after it has been given a unit there; every other unit is open. A
set of pools is a knot when all their units wait within the set. A pool escapes
when following waits leads from it to an open unit, and the pools that do not
escape are the greatest knot.
-/

namespace PitBox

/-- For every pool its number of units, and for every unit the pool its holder
waits for, if it does. -/
structure WaitGraph (γ : Type*) where
  units : γ → ℕ
  target : γ → ℕ → Option γ

namespace WaitGraph

variable {γ : Type*} (G : WaitGraph γ)

/-- A set of pools, all of whose units wait for pools of the set. -/
def Knot (S : Set γ) : Prop :=
  S.Nonempty ∧ ∀ x ∈ S, 0 < G.units x ∧ ∀ l < G.units x, ∃ y ∈ S, G.target x l = some y

/-- Following waits one comes to an open unit. -/
inductive Escapes : γ → Prop
  | empty {x : γ} (h : G.units x = 0) : Escapes x
  | opened {x : γ} {l : ℕ} (hl : l < G.units x) (h : G.target x l = none) : Escapes x
  | waits {x y : γ} {l : ℕ} (hl : l < G.units x) (h : G.target x l = some y) (hy : Escapes y) :
    Escapes x

variable {G}

theorem Knot.not_escapes {S : Set γ} (h : G.Knot S) {x : γ} (hx : G.Escapes x) : x ∉ S := by
  induction hx with
  | empty hnone => exact fun hmem => (h.2 _ hmem).1.ne' hnone
  | opened hl hopen =>
    intro hmem
    obtain ⟨y, -, hy⟩ := (h.2 _ hmem).2 _ hl
    rw [hopen] at hy
    cases hy
  | waits hl htarget _ ih =>
    intro hmem
    obtain ⟨z, hz, htarget'⟩ := (h.2 _ hmem).2 _ hl
    rw [htarget] at htarget'
    exact ih (Option.some.inj htarget' ▸ hz)

theorem knot_of_not_escapes {x : γ} (hx : ¬ G.Escapes x) : G.Knot {y | ¬ G.Escapes y} := by
  refine ⟨⟨x, hx⟩, fun y hy => ⟨?_, fun l hl => ?_⟩⟩
  · exact Nat.pos_of_ne_zero fun hzero => hy (.empty hzero)
  · cases htarget : G.target y l with
    | none => exact absurd (.opened hl htarget) hy
    | some z => exact ⟨z, fun hz => hy (.waits hl htarget hz), rfl⟩

theorem not_exists_knot_iff : (¬ ∃ S, G.Knot S) ↔ ∀ x, G.Escapes x := by
  constructor
  · intro h x
    by_contra hx
    exact h ⟨_, knot_of_not_escapes hx⟩
  · rintro h ⟨S, hS⟩
    obtain ⟨x, hx⟩ := hS.1
    exact hS.not_escapes (h x) hx

theorem Escapes.of_open {G' : WaitGraph γ} (hunits : ∀ x, G'.units x = G.units x)
    (htarget : ∀ x l, G'.target x l = none ∨ G'.target x l = G.target x l) {x : γ}
    (h : G.Escapes x) : G'.Escapes x := by
  induction h with
  | empty hzero => exact .empty ((hunits _).trans hzero)
  | @opened x l hl hopen =>
    refine .opened ((hunits x).symm ▸ hl) ?_
    rcases htarget x l with h | h
    · exact h
    · rw [h, hopen]
  | @waits x y l hl hwaits _ ih =>
    rcases htarget x l with h | h
    · exact .opened ((hunits x).symm ▸ hl) h
    · exact .waits ((hunits x).symm ▸ hl) (h.trans hwaits) ih

theorem Escapes.of_wait {G' : WaitGraph γ} {y : γ} (hunits : ∀ x, G'.units x = G.units x)
    (htarget : ∀ x l, G'.target x l = some y ∨ G'.target x l = G.target x l)
    (hy : G'.Escapes y) {x : γ} (h : G.Escapes x) : G'.Escapes x := by
  induction h with
  | empty hzero => exact .empty ((hunits _).trans hzero)
  | @opened x l hl hopen =>
    have hl' : l < G'.units x := (hunits x).symm ▸ hl
    rcases htarget x l with h | h
    · exact .waits hl' h hy
    · exact .opened hl' (h.trans hopen)
  | @waits x z l hl hwaits _ ih =>
    have hl' : l < G'.units x := (hunits x).symm ▸ hl
    rcases htarget x l with h | h
    · exact .waits hl' h hy
    · exact .waits hl' (h.trans hwaits) ih

end WaitGraph

end PitBox
