import Mathlib.Data.List.Sort
import Mathlib.Data.List.TakeWhile
import PitBox.Foundations.Table

/-!
# Evicting the oldest entries of a store

A store is brought under a budget by removing entries oldest first until the
rest fits. The order is a stable sort by age of the order in which the entries
were scanned. Whether one entry survives is decided by its own size and the
sizes of the entries that come after it in that order: the strictly newer ones
scanned before it, and those at least as new scanned after it.
-/

namespace PitBox.Eviction

open Table

variable {α κ : Type*}

/-- Entries from the oldest to the newest, ties in the order of the scan. -/
def byAge (age : α → ℕ) (xs : List α) : List α := xs.insertionSort fun a b => age a ≤ age b

def evicted (size : α → ℕ) (budget : ℕ) : List α → List α
  | [] => []
  | x :: xs => if total size (x :: xs) ≤ budget then [] else x :: evicted size budget xs

theorem perm_byAge (age : α → ℕ) (xs : List α) : (byAge age xs).Perm xs :=
  List.perm_insertionSort _ _

theorem evicted_prefix (size : α → ℕ) (budget : ℕ) (xs : List α) :
    evicted size budget xs <+: xs := by
  induction xs with
  | nil => exact List.prefix_rfl
  | cons x xs ih =>
    unfold evicted
    split_ifs
    · exact List.nil_prefix
    · exact List.prefix_cons_inj x |>.mpr ih

theorem total_drop_evicted (size : α → ℕ) (budget : ℕ) (xs : List α) :
    total size (xs.drop (evicted size budget xs).length) ≤ budget := by
  induction xs with
  | nil => exact Nat.zero_le budget
  | cons x xs ih =>
    unfold evicted
    split_ifs with h
    · exact h
    · exact ih

theorem length_evicted_le {size : α → ℕ} {budget k : ℕ} {xs : List α}
    (h : total size (xs.drop k) ≤ budget) : (evicted size budget xs).length ≤ k := by
  induction xs generalizing k with
  | nil => exact Nat.zero_le k
  | cons x xs ih =>
    unfold evicted
    split_ifs with hfits
    · exact Nat.zero_le k
    · cases k with
      | zero => exact absurd h hfits
      | succ k => exact Nat.succ_le_succ (ih h)

/-- An entry is removed when it and what comes after it exceed the budget. -/
theorem key_mem_evicted {size : α → ℕ} {budget : ℕ} {key : α → κ} {before after : List α} {x : α}
    (hbefore : ∀ a ∈ before, key a ≠ key x) :
    key x ∈ (evicted size budget (before ++ x :: after)).map key ↔
      budget < size x + total size after := by
  induction before with
  | nil =>
    by_cases h : size x + total size after ≤ budget
    · simp [evicted, h]
    · simp [evicted, h, not_le.mp h]
  | cons a before ih =>
    have hne := hbefore a (by simp)
    have ih := ih fun b hb => hbefore b (by simp [hb])
    rw [List.cons_append, evicted]
    split_ifs with h
    · have hle : ¬ budget < size x + total size after := by
        simp only [total_cons, total_append] at h
        omega
      simp [hle]
    · rw [List.map_cons, List.mem_cons, ih]
      exact or_iff_right hne.symm

theorem total_perm (f : α → ℕ) {xs ys : List α} (h : xs.Perm ys) : total f xs = total f ys :=
  (h.map f).sum_eq

theorem byAge_map {β : Type*} (age : α → ℕ) (f : β → α) (xs : List β) :
    byAge age (xs.map f) = (byAge (fun b => age (f b)) xs).map f :=
  (List.map_insertionSort _ _ f xs fun _ _ _ _ => Iff.rfl).symm

theorem evicted_map {β : Type*} (size : α → ℕ) (budget : ℕ) (f : β → α) (xs : List β) :
    evicted size budget (xs.map f) = (evicted (fun b => size (f b)) budget xs).map f := by
  induction xs with
  | nil => rfl
  | cons x xs ih =>
    have htotal : total size ((x :: xs).map f) = total (fun b => size (f b)) (x :: xs) := by
      simp [total, Function.comp_def]
    rw [List.map_cons] at htotal ⊢
    rw [evicted, evicted, htotal, ih]
    split_ifs <;> rfl

section Split

variable (age : α → ℕ)

theorem dropWhile_eq_filter {xs : List α} (h : xs.Pairwise fun a b => age a ≤ age b) (m : ℕ) :
    (xs.dropWhile fun b => ¬ m ≤ age b) = xs.filter (m ≤ age ·) := by
  induction xs with
  | nil => rfl
  | cons a xs ih =>
    obtain ⟨ha, hxs⟩ := List.pairwise_cons.mp h
    by_cases hm : m ≤ age a
    · have hall : ∀ b ∈ xs, m ≤ age b := fun b hb => hm.trans (ha b hb)
      rw [List.dropWhile_cons_of_neg (by simpa using hm),
        List.filter_cons_of_pos (by simpa using hm),
        List.filter_eq_self.mpr (by simpa using hall)]
    · rw [List.dropWhile_cons_of_pos (by simpa using hm),
        List.filter_cons_of_neg (by simpa using hm),
        ih hxs]

theorem orderedInsert_before {x y : α} (h : age y ≤ age x) (before after : List α) :
    (before ++ x :: after).orderedInsert (fun a b => age a ≤ age b) y =
      before.orderedInsert (fun a b => age a ≤ age b) y ++ x :: after := by
  induction before with
  | nil => simp [h]
  | cons b before ih =>
    by_cases hb : age y ≤ age b
    · simp [hb]
    · simp [hb, ih]

theorem orderedInsert_after {x y : α} (h : age x < age y) {before : List α}
    (hbefore : ∀ a ∈ before, age a ≤ age x) (after : List α) :
    (before ++ x :: after).orderedInsert (fun a b => age a ≤ age b) y =
      before ++ x :: after.orderedInsert (fun a b => age a ≤ age b) y := by
  induction before with
  | nil => simp [h]
  | cons b before ih =>
    have hb : ¬ age y ≤ age b := by
      have := hbefore b (by simp)
      omega
    simp [hb, ih fun a ha => hbefore a (by simp [ha])]

/-- Where an entry stands after the sort, and what comes after it. -/
theorem byAge_split (x : α) (xs ys : List α) :
    ∃ before after, byAge age (xs ++ x :: ys) = before ++ x :: after ∧
      (∀ a ∈ before, age a ≤ age x) ∧
      after.Perm (xs.filter (age x < age ·) ++ ys.filter (age x ≤ age ·)) := by
  induction xs with
  | nil =>
    have hsorted : (byAge age ys).Pairwise fun a b => age a ≤ age b :=
      List.pairwise_insertionSort _ _
    refine ⟨_, _, List.insertionSort_cons_eq_take_drop _ x ys, fun a ha => ?_, ?_⟩
    · have := List.mem_takeWhile_imp ha
      simp only [decide_eq_true_eq, not_le] at this
      exact this.le
    · change ((byAge age ys).dropWhile _).Perm _
      rw [dropWhile_eq_filter age hsorted]
      exact (perm_byAge age ys).filter _
  | cons y xs ih =>
    obtain ⟨before, after, heq, hbefore, hafter⟩ := ih
    have hinsert : byAge age (y :: xs ++ x :: ys) =
        (before ++ x :: after).orderedInsert (fun a b => age a ≤ age b) y := by
      rw [← heq]
      rfl
    rw [hinsert]
    by_cases hy : age y ≤ age x
    · rw [orderedInsert_before age hy]
      refine ⟨_, after, rfl, fun a ha => ?_, ?_⟩
      · rcases List.mem_orderedInsert _ |>.mp ha with rfl | ha
        · exact hy
        · exact hbefore a ha
      · rwa [List.filter_cons_of_neg (by simpa using hy)]
    · rw [orderedInsert_after age (not_le.mp hy) hbefore]
      refine ⟨before, _, rfl, hbefore, ?_⟩
      rw [List.filter_cons_of_pos (by simpa using hy)]
      exact (List.perm_orderedInsert _ y after).trans (hafter.cons y)

end Split

theorem key_mem_evicted_byAge {size age : α → ℕ} {budget : ℕ} {key : α → κ} {xs ys : List α}
    {x : α} (hxs : ∀ a ∈ xs, key a ≠ key x) (hys : ∀ a ∈ ys, key a ≠ key x) :
    key x ∈ (evicted size budget (byAge age (xs ++ x :: ys))).map key ↔
      budget < size x + (total size (xs.filter (age x < age ·)) +
        total size (ys.filter (age x ≤ age ·))) := by
  obtain ⟨before, after, heq, -, hafter⟩ := byAge_split age x xs ys
  have hperm : (before ++ after).Perm (xs ++ ys) := by
    have h := (heq ▸ perm_byAge age (xs ++ x :: ys) : (before ++ x :: after).Perm _)
    exact ((List.perm_middle.symm.trans h).trans List.perm_middle).cons_inv
  have hbefore : ∀ a ∈ before, key a ≠ key x := by
    intro a ha
    rcases List.mem_append.mp (hperm.mem_iff.mp (List.mem_append_left after ha)) with ha | ha
    · exact hxs a ha
    · exact hys a ha
  rw [heq, key_mem_evicted hbefore, total_perm size hafter, total_append]

end PitBox.Eviction
