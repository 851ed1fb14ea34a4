import PitBox.Foundations.Table

/-!
# Locks, semaphores and counters over a table of processes

A lock is exclusive when the processes holding it number one while it is held
and none while it is free. A counter is tracked when its word is the number of
processes it counts; the word wraps, so the equation holds modulo `2^64` and
needs no bound. The free permits of a semaphore and its holders add up to its
capacity. Each has the same rule: the step of one process moves the lock, the
permits or the word together with its own standing, and the equation is kept.
-/

namespace PitBox.Ledger

open Table

variable {β : Type*}

theorem tally_set {p : β → Bool} {xs : List β} {i : ℕ} {a b : β} (hi : xs[i]? = some a) :
    tally p (xs.set i b) + (p a).toNat = tally p xs + (p b).toNat :=
  total_set (fun a => (p a).toNat) hi

theorem tally_set_eq {p : β → Bool} {xs : List β} {i : ℕ} {a b : β} (hi : xs[i]? = some a)
    (hp : p b = p a) : tally p (xs.set i b) = tally p xs :=
  total_set_eq (fun a => (p a).toNat) hi (congrArg Bool.toNat hp)

@[simp] theorem tally_nil (p : β → Bool) : tally p [] = 0 := rfl

@[simp] theorem tally_concat (p : β → Bool) (xs : List β) (b : β) :
    tally p (xs ++ [b]) = tally p xs + (p b).toNat := by simp [tally]

theorem tally_pos {p : β → Bool} {xs : List β} {a : β} (ha : a ∈ xs) (hp : p a = true) :
    0 < tally p xs := by
  have := le_total (fun a => (p a).toNat) ha
  simp only [hp, Bool.toNat_true] at this
  exact this

theorem exists_of_tally_pos {p : β → Bool} {xs : List β} (h : 0 < tally p xs) :
    ∃ a ∈ xs, p a = true := by
  obtain ⟨a, ha, hpos⟩ := exists_of_total_pos h
  exact ⟨a, ha, by cases hp : p a <;> simp_all⟩

theorem tally_eq_zero {p : β → Bool} {xs : List β} : tally p xs = 0 ↔ ∀ a ∈ xs, p a = false := by
  simp [tally, total_eq_zero]

/-- The lock is held by exactly one process, or free and held by none. -/
def Exclusive (held : Bool) (holds : β → Bool) (xs : List β) : Prop :=
  tally holds xs = held.toNat

/-- What one step of a process can do to a lock. -/
inductive LockMove (holds : β → Bool) : Bool → β → Bool → β → Prop
  | keep {held a b} : holds b = holds a → LockMove holds held a held b
  | acquire {a b} : holds a = false → holds b = true → LockMove holds false a true b
  | release {held a b} : holds a = true → holds b = false → LockMove holds held a false b

theorem LockMove.comap {γ : Type*} {f : γ → β} {holds : β → Bool} {held held' : Bool} {x y : γ}
    (h : LockMove holds held (f x) held' (f y)) :
    LockMove (fun x => holds (f x)) held x held' y := by
  generalize hx : f x = a at h
  generalize hy : f y = b at h
  subst hx hy
  cases h with
  | keep hab => exact .keep hab
  | acquire ha hb => exact .acquire ha hb
  | release ha hb => exact .release ha hb

namespace Exclusive

variable {held held' : Bool} {holds : β → Bool} {xs : List β}

theorem push (h : Exclusive held holds xs) {b : β} (hb : holds b = false) :
    Exclusive held holds (xs ++ [b]) := by
  simpa [Exclusive, hb] using h

theorem move (h : Exclusive held holds xs) {i : ℕ} {a b : β} (hi : xs[i]? = some a)
    (hm : LockMove holds held a held' b) : Exclusive held' holds (xs.set i b) := by
  have ht := tally_set (p := holds) (b := b) hi
  have hle := le_total (fun a => (holds a).toNat) (List.mem_of_getElem? hi)
  have hone := Bool.toNat_le held
  unfold Exclusive at h ⊢
  change _ ≤ tally holds xs at hle
  cases hm with
  | keep hab =>
    rw [hab] at ht
    omega
  | acquire ha hb =>
    simp only [ha, hb, Bool.toNat_true, Bool.toNat_false] at ht h ⊢
    omega
  | release ha hb =>
    simp only [ha, hb, Bool.toNat_true, Bool.toNat_false] at ht hle ⊢
    omega

theorem held_of_holder (h : Exclusive held holds xs) {a : β} (ha : a ∈ xs)
    (hh : holds a = true) : held = true := by
  have hpos := tally_pos ha hh
  cases held with
  | false =>
    rw [show tally holds xs = 0 from h] at hpos
    exact absurd hpos (lt_irrefl 0)
  | true => rfl

theorem none_of_free (h : Exclusive false holds xs) {a : β} (ha : a ∈ xs) :
    holds a = false := tally_eq_zero.mp h a ha

theorem holder_injective (h : Exclusive held holds xs) {i j : ℕ} {a b : β}
    (hi : xs[i]? = some a) (hj : xs[j]? = some b) (ha : holds a = true) (hb : holds b = true) :
    i = j := by
  by_contra hij
  have h₁ := add_le_total (fun a => (holds a).toNat) hij hi hj
  have h₂ := Bool.toNat_le held
  rw [← (show tally holds xs = held.toNat from h)] at h₂
  simp only [ha, hb, Bool.toNat_true] at h₁
  exact absurd (h₁.trans h₂) (by decide)

end Exclusive

/-- The free permits of a semaphore and the processes that hold one. -/
def Permits (capacity free : ℕ) (holds : β → Bool) (xs : List β) : Prop :=
  free + tally holds xs = capacity

/-- What one step of a process can do to a semaphore. -/
inductive PermitMove (holds : β → Bool) : ℕ → β → ℕ → β → Prop
  | keep {free a b} : holds b = holds a → PermitMove holds free a free b
  | acquire {free a b} : holds a = false → holds b = true → PermitMove holds (free + 1) a free b
  | release {free a b} : holds a = true → holds b = false → PermitMove holds free a (free + 1) b

namespace Permits

variable {capacity free free' : ℕ} {holds : β → Bool} {xs : List β}

theorem push (h : Permits capacity free holds xs) {b : β} (hb : holds b = false) :
    Permits capacity free holds (xs ++ [b]) := by
  simpa [Permits, hb] using h

theorem move (h : Permits capacity free holds xs) {i : ℕ} {a b : β} (hi : xs[i]? = some a)
    (hm : PermitMove holds free a free' b) : Permits capacity free' holds (xs.set i b) := by
  have ht := tally_set (p := holds) (b := b) hi
  unfold Permits at h ⊢
  cases hm with
  | keep hab =>
    rw [hab] at ht
    omega
  | acquire ha hb =>
    simp only [ha, hb, Bool.toNat_true, Bool.toNat_false] at ht
    omega
  | release ha hb =>
    simp only [ha, hb, Bool.toNat_true, Bool.toNat_false] at ht
    omega

theorem tally_le (h : Permits capacity free holds xs) {p : β → Bool}
    (hp : ∀ a ∈ xs, p a = true → holds a = true) : tally p xs ≤ capacity := by
  have hle : tally p xs ≤ tally holds xs := by
    apply total_le_total
    intro a ha
    exact Bool.toNat_le_toNat fun hpa => hp a ha hpa
  unfold Permits at h
  omega

end Permits

/-- A word that counts modulo its size. -/
def Tracks (word : UInt64) (k : ℕ) : Prop := word = UInt64.ofNat k

namespace Tracks

variable {word word' : UInt64} {k k' : ℕ}

theorem raise (h : Tracks word k) (hk : k' = k + 1) : Tracks (word + 1) k' := by
  unfold Tracks at h ⊢
  rw [h, hk, UInt64.ofNat_add]
  rfl

theorem lower (h : Tracks word k) (hk : k = k' + 1) : Tracks (word - 1) k' := by
  unfold Tracks at h ⊢
  rw [h, hk, UInt64.ofNat_add]
  exact UInt64.add_sub_cancel _ _

theorem of_eq (h : Tracks word k) (hk : k' = k) : Tracks word k' := hk ▸ h

theorem toNat (h : Tracks word k) (hk : k < 2 ^ 64) : word.toNat = k := by
  unfold Tracks at h
  rw [h]
  exact UInt64.toNat_ofNat_of_lt' hk

end Tracks

/-- What one step of a process can do to a counter of processes and of `k`
settled ones. -/
inductive CountMove (counted : β → Bool) : UInt64 → ℕ → β → UInt64 → ℕ → β → Prop
  | keep {word k a k' b} : (counted b).toNat + k' = (counted a).toNat + k →
      CountMove counted word k a word k' b
  | raise {word k a k' b} : (counted b).toNat + k' = (counted a).toNat + k + 1 →
      CountMove counted word k a (word + 1) k' b
  | lower {word k a k' b} : (counted b).toNat + k' + 1 = (counted a).toNat + k →
      CountMove counted word k a (word - 1) k' b

theorem Tracks.move {counted : β → Bool} {xs : List β} {word word' : UInt64} {k k' : ℕ}
    (h : Tracks word (tally counted xs + k)) {i : ℕ} {a b : β} (hi : xs[i]? = some a)
    (hm : CountMove counted word k a word' k' b) :
    Tracks word' (tally counted (xs.set i b) + k') := by
  have ht := tally_set (p := counted) (b := b) hi
  cases hm with
  | keep hab => exact h.of_eq (by omega)
  | raise hab => exact h.raise (by omega)
  | lower hab => exact h.lower (by omega)

theorem Tracks.move_tally {counted : β → Bool} {xs : List β} {word word' : UInt64}
    (h : Tracks word (tally counted xs)) {i : ℕ} {a b : β} (hi : xs[i]? = some a)
    (hm : CountMove counted word 0 a word' 0 b) : Tracks word' (tally counted (xs.set i b)) :=
  Tracks.move (k := 0) h hi hm

end PitBox.Ledger
