import Mathlib.Algebra.BigOperators.Group.Finset.Basic
import Mathlib.Algebra.Order.BigOperators.Group.Finset
import Mathlib.Data.List.Basic
import Mathlib.Tactic

/-!
# Weighted totals over a table of processes

A system of processes keeps one entry per process in a list, and a step
replaces the entry of one process. Counts of processes in some phase are
totals of a weight, and the only facts needed about them are how the entries
and a total change when one entry is replaced or added.
-/

namespace PitBox.Table

variable {β : Type*}

theorem getElem?_set_of_some {xs : List β} {i : ℕ} {a : β} (h : xs[i]? = some a) (b : β) (j : ℕ) :
    (xs.set i b)[j]? = if j = i then some b else xs[j]? := by
  rcases eq_or_ne j i with rfl | hne
  · rw [if_pos rfl]
    exact List.getElem?_set_self (List.getElem?_eq_some_iff.mp h).1
  · rw [if_neg hne]
    exact List.getElem?_set_ne hne.symm

theorem getElem?_append_of_some {xs ys : List β} {i : ℕ} {a : β} (h : xs[i]? = some a) :
    (xs ++ ys)[i]? = some a := by
  rw [List.getElem?_append_left (List.getElem?_eq_some_iff.mp h).1, h]

theorem getElem?_concat_eq_some {xs : List β} {i : ℕ} {a b : β} (h : (xs ++ [b])[i]? = some a) :
    xs[i]? = some a ∨ i = xs.length ∧ a = b := by
  rcases Nat.lt_trichotomy i xs.length with hlt | rfl | hgt
  · rw [List.getElem?_append_left hlt] at h
    exact .inl h
  · rw [List.getElem?_concat_length] at h
    exact .inr ⟨rfl, (Option.some.inj h).symm⟩
  · rw [List.getElem?_eq_none (by simpa using hgt)] at h
    cases h

def total (f : β → ℕ) (xs : List β) : ℕ := (xs.map f).sum

@[simp] theorem total_nil (f : β → ℕ) : total f [] = 0 := rfl

@[simp] theorem total_cons (f : β → ℕ) (a : β) (xs : List β) :
    total f (a :: xs) = f a + total f xs := by simp [total]

@[simp] theorem total_append (f : β → ℕ) (xs ys : List β) :
    total f (xs ++ ys) = total f xs + total f ys := by simp [total]

theorem total_set (f : β → ℕ) {xs : List β} {i : ℕ} {a b : β} (h : xs[i]? = some a) :
    total f (xs.set i b) + f a = total f xs + f b := by
  induction xs generalizing i with
  | nil => simp at h
  | cons x xs ih =>
    cases i with
    | zero =>
      simp only [List.getElem?_cons_zero, Option.some.injEq] at h
      subst h
      simp
      omega
    | succ i =>
      have := ih (i := i) (by simpa using h)
      simp only [List.set_cons_succ, total_cons]
      omega

theorem total_set_eq (f : β → ℕ) {xs : List β} {i : ℕ} {a b : β} (h : xs[i]? = some a)
    (hf : f b = f a) : total f (xs.set i b) = total f xs := by
  have := total_set f (b := b) h
  omega

theorem le_total (f : β → ℕ) {xs : List β} {a : β} (h : a ∈ xs) : f a ≤ total f xs := by
  induction xs with
  | nil => simp at h
  | cons x xs ih =>
    rcases List.mem_cons.mp h with rfl | h
    · simp
    · have := ih h
      simp only [total_cons]
      omega

theorem total_le_of_sublist (f : β → ℕ) {xs ys : List β} (h : xs.Sublist ys) :
    total f xs ≤ total f ys :=
  (h.map f).sum_le_sum fun _ _ => Nat.zero_le _

theorem total_le_total {f g : β → ℕ} {xs : List β} (h : ∀ a ∈ xs, f a ≤ g a) :
    total f xs ≤ total g xs := by
  induction xs with
  | nil => simp
  | cons x xs ih =>
    have h₁ := h x (by simp)
    have h₂ := ih fun a ha => h a (by simp [ha])
    simp only [total_cons]
    omega

theorem total_congr {f g : β → ℕ} {xs : List β} (h : ∀ a ∈ xs, f a = g a) :
    total f xs = total g xs :=
  le_antisymm (total_le_total fun a ha => (h a ha).le) (total_le_total fun a ha => (h a ha).ge)

theorem total_eq_zero {f : β → ℕ} {xs : List β} : total f xs = 0 ↔ ∀ a ∈ xs, f a = 0 := by
  induction xs with
  | nil => simp
  | cons x xs ih => simp [ih]

theorem exists_of_total_pos {f : β → ℕ} {xs : List β} (h : 0 < total f xs) :
    ∃ a ∈ xs, 0 < f a := by
  by_contra hn
  push Not at hn
  have : total f xs = 0 := total_eq_zero.mpr fun a ha => Nat.le_zero.mp (hn a ha)
  omega

theorem total_add (f g : β → ℕ) (xs : List β) :
    total (fun a => f a + g a) xs = total f xs + total g xs := by
  induction xs with
  | nil => rfl
  | cons x xs ih =>
    simp only [total_cons, ih]
    omega

theorem total_mul (k : ℕ) (f : β → ℕ) (xs : List β) :
    total (fun a => k * f a) xs = k * total f xs := by
  induction xs with
  | nil => rfl
  | cons x xs ih => rw [total_cons, total_cons, ih, mul_add]

/-- Two different entries weigh together at most the total. -/
theorem add_le_total (f : β → ℕ) {xs : List β} {i j : ℕ} {a b : β} (hij : i ≠ j)
    (hi : xs[i]? = some a) (hj : xs[j]? = some b) : f a + f b ≤ total f xs := by
  induction xs generalizing i j with
  | nil => simp at hi
  | cons x xs ih =>
    have hrest {k : ℕ} {c : β} (h : xs[k]? = some c) : f c ≤ total f xs :=
      le_total f (List.mem_of_getElem? h)
    cases i with
    | zero =>
      cases j with
      | zero => exact absurd rfl hij
      | succ j =>
        have := hrest (k := j) (by simpa using hj)
        simp only [List.getElem?_cons_zero, Option.some.injEq] at hi
        subst hi
        simp only [total_cons]
        omega
    | succ i =>
      cases j with
      | zero =>
        have := hrest (k := i) (by simpa using hi)
        simp only [List.getElem?_cons_zero, Option.some.injEq] at hj
        subst hj
        simp only [total_cons]
        omega
      | succ j =>
        have := ih (i := i) (j := j) (by omega) (by simpa using hi) (by simpa using hj)
        simp only [total_cons]
        omega

theorem sum_total (f : ℕ → β → ℕ) (n : ℕ) (xs : List β) :
    ∑ l ∈ Finset.range n, total (f l) xs = total (fun a => ∑ l ∈ Finset.range n, f l a) xs := by
  induction xs with
  | nil => simp
  | cons x xs ih => simp [Finset.sum_add_distrib, ih]

def tally (p : β → Bool) : List β → ℕ := total fun a => (p a).toNat

theorem tally_eq_countP (p : β → Bool) (xs : List β) : tally p xs = xs.countP p := by
  induction xs with
  | nil => rfl
  | cons x xs ih =>
    have ih' : total (fun a => (p a).toNat) xs = xs.countP p := ih
    cases h : p x <;> simp [tally, ih', h]
    omega

theorem sum_any_getElem? (p : β → Bool) {n : ℕ} {xs : List β} (h : xs.length ≤ n) :
    ∑ l ∈ Finset.range n, (xs[l]?.any p).toNat = tally p xs := by
  induction xs generalizing n with
  | nil => simp [tally]
  | cons x xs ih =>
    obtain ⟨n, rfl⟩ : ∃ k, n = k + 1 := Nat.exists_eq_succ_of_ne_zero (by simp at h; omega)
    have hrest := ih (n := n) (by simpa using h)
    rw [Finset.sum_range_succ']
    simp only [List.getElem?_cons_succ, List.getElem?_cons_zero, Option.any_some, hrest]
    simp only [tally, total_cons]
    omega

end PitBox.Table
