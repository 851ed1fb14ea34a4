import Mathlib.Data.List.Perm.Basic
import PitBox.Foundations.Ledger

/-!
# A queue shared through a cursor

Processes take the entries of a queue in order by advancing a shared cursor,
hold what they took, and settle it into a log. The books balance when every
entry is in the log or with a holder exactly as often as the cursor has passed
it. Once the cursor has passed the whole queue and nobody holds anything, the
log is the queue in some order: nothing is lost and nothing is done twice.
The cursor may run past the end of the queue.
-/

namespace PitBox.WorkQueue

open Table Ledger

variable {ε β : Type*} [DecidableEq ε]

def holding (holds : β → Option ε) (e : ε) (x : β) : Bool := holds x == some e

/-- Log and holders together account for what the cursor has passed. -/
def Balanced (queue : List ε) (cursor : ℕ) (log : List ε) (holds : β → Option ε)
    (xs : List β) : Prop :=
  ∀ e, log.count e + tally (holding holds e) xs = (queue.take cursor).count e

/-- What one step of a process can do to the cursor and the log. -/
inductive Move (queue : List ε) (holds : β → Option ε) :
    ℕ → List ε → β → ℕ → List ε → β → Prop
  | keep {cursor log a b} : holds b = holds a → Move queue holds cursor log a cursor log b
  | claim {cursor log a b} (e : ε) : queue[cursor]? = some e → holds a = none →
      holds b = some e → Move queue holds cursor log a (cursor + 1) log b
  | overshoot {cursor log a b} : queue.length ≤ cursor → holds b = holds a →
      Move queue holds cursor log a (cursor + 1) log b
  | settle {cursor log a b} (e : ε) : holds a = some e → holds b = none →
      Move queue holds cursor log a cursor (log ++ [e]) b

theorem holding_of_none {holds : β → Option ε} {x : β} (h : holds x = none) (e : ε) :
    holding holds e x = false := by simp [holding, h]

theorem holding_toNat {holds : β → Option ε} {x : β} {f : ε} (h : holds x = some f) (e : ε) :
    (holding holds e x).toNat = [f].count e := by
  by_cases hfe : f = e <;> simp [holding, h, hfe]

theorem count_take_succ {queue : List ε} {cursor : ℕ} {f : ε} (h : queue[cursor]? = some f)
    (e : ε) :
    (queue.take (cursor + 1)).count e = (queue.take cursor).count e + [f].count e := by
  rw [List.take_add_one, h, List.count_append, Option.toList_some]

namespace Balanced

variable {queue log log' : List ε} {cursor cursor' : ℕ} {holds : β → Option ε} {xs : List β}

theorem initial (h : ∀ x ∈ xs, holds x = none) : Balanced queue 0 [] holds xs := by
  intro e
  have hnone : tally (holding holds e) xs = 0 :=
    tally_eq_zero.mpr fun x hx => holding_of_none (h x hx) e
  simp [hnone]

theorem move (h : Balanced queue cursor log holds xs) {i : ℕ} {a b : β} (hi : xs[i]? = some a)
    (hm : Move queue holds cursor log a cursor' log' b) :
    Balanced queue cursor' log' holds (xs.set i b) := by
  intro e
  have he := h e
  have ht := tally_set (p := holding holds e) (b := b) hi
  cases hm with
  | keep hab =>
    rwa [tally_set_eq hi (by simp [holding, hab])]
  | claim f hf ha hb =>
    rw [holding_of_none ha, holding_toNat hb, Bool.toNat_false] at ht
    rw [count_take_succ hf]
    omega
  | overshoot hlen hab =>
    rw [tally_set_eq hi (by simp [holding, hab]), he, List.take_of_length_le hlen,
      List.take_of_length_le (by omega)]
  | settle f ha hb =>
    rw [holding_of_none hb, holding_toNat ha, Bool.toNat_false] at ht
    rw [List.count_append]
    omega

theorem perm (h : Balanced queue cursor log holds xs) (hend : queue.length ≤ cursor)
    (hnone : ∀ x ∈ xs, holds x = none) : log.Perm queue := by
  refine List.perm_iff_count.mpr fun e => ?_
  have he := h e
  rw [tally_eq_zero.mpr fun x hx => holding_of_none (hnone x hx) e,
    List.take_of_length_le hend] at he
  exact he

theorem count_filterMap (holds : β → Option ε) (xs : List β) (e : ε) :
    (xs.filterMap holds).count e = tally (holding holds e) xs := by
  induction xs with
  | nil => rfl
  | cons x xs ih =>
    simp only [tally, total_cons] at ih ⊢
    cases hx : holds x with
    | none =>
      rw [List.filterMap_cons_none hx, ih, holding_of_none hx, Bool.toNat_false, Nat.zero_add]
    | some f =>
      rw [List.filterMap_cons_some hx, List.count_cons, ih, holding_toNat hx, List.count_singleton]
      exact Nat.add_comm _ _

theorem held_perm (h : Balanced queue cursor log holds xs) :
    (log ++ xs.filterMap holds).Perm (queue.take cursor) := by
  apply List.perm_iff_count.mpr
  intro e
  rw [List.count_append, count_filterMap]
  exact h e

theorem tally_le (h : Balanced queue cursor log holds xs) :
    tally (fun x => (holds x).isSome) xs ≤ queue.length := by
  have hheld : (xs.filterMap holds).length = tally (fun x => (holds x).isSome) xs := by
    rw [List.length_filterMap_eq_countP, tally_eq_countP]
  have hlength := h.held_perm.length_eq
  rw [List.length_append, hheld] at hlength
  have hle := List.length_take_le' cursor queue
  omega

end Balanced

end PitBox.WorkQueue
