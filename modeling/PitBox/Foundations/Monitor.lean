import PitBox.Foundations.Ledger

/-!
# Counting abstraction of a monitor over a pool

A monitor hands out the free resources of a pool. Only four numbers matter:
the free resources, the processes asleep in the wait queue, the processes a
notification has taken out of the queue that have not re-entered, and the
processes inside the monitor that still have to act. A process inside either
takes a resource, goes to sleep because there is none, or has just returned a
resource and still owes the notification. Sleepers may also wake unnotified,
and anyone may enter ahead of a notified process.

The invariant bounds the free resources by the processes that are already on
their way to one; it holds for every order of the steps.
-/

namespace PitBox.Foundations

open Table Ledger

/-- The counts of a monitor. -/
structure Monitor where
  free : ℕ
  asleep : ℕ
  notified : ℕ
  inside : ℕ
  deriving DecidableEq, Repr

/-- Where one process stands with a monitor. -/
inductive Phase where
  | outside
  | asleep
  | notified
  | inside
  deriving DecidableEq, Repr

namespace Phase

@[simp] def isAsleep : Phase → Bool
  | .asleep => true
  | _ => false

@[simp] def isNotified : Phase → Bool
  | .notified => true
  | _ => false

@[simp] def isInside : Phase → Bool
  | .inside => true
  | _ => false

end Phase

namespace Monitor

/-- The changes of the counts. -/
inductive Step (m m' : Monitor) : Prop
  | enter (h : m' = { m with inside := m.inside + 1 })
  | reenter (h : { m' with notified := m'.notified + 1 } = { m with inside := m.inside + 1 })
  | take (h : { m' with free := m'.free + 1, inside := m'.inside + 1 } = m)
  | sleep (hf : m.free = 0)
      (h : { m' with inside := m'.inside + 1 } = { m with asleep := m.asleep + 1 })
  | wake (h : { m' with asleep := m'.asleep + 1 } = m)
  | give (h : m' = { m with free := m.free + 1, inside := m.inside + 1 })
  | notify (h : { m' with asleep := m'.asleep + 1, inside := m'.inside + 1 } =
      { m with notified := m.notified + 1 })
  | notifyNobody (hb : m.asleep = 0) (h : { m' with inside := m'.inside + 1 } = m)

/-- Either nobody sleeps, or every free resource has a process on its way. -/
def Covered (m : Monitor) : Prop := m.asleep = 0 ∨ m.free ≤ m.notified + m.inside

theorem Covered.step {m m' : Monitor} (h : m.Covered) (hs : Step m m') : m'.Covered := by
  cases m
  cases m'
  unfold Covered at h ⊢
  cases hs with
  | notifyNobody hb h =>
    left
    simp_all only [mk.injEq]
  | _ =>
    simp_all only [mk.injEq]
    omega

theorem Covered.pending {m : Monitor} (h : m.Covered) (hin : m.inside = 0) (hb : 0 < m.asleep) :
    m.free ≤ m.notified := by
  rcases h with h | h <;> omega

variable {β : Type*}

/-- The counts of a table of processes next to a pool. -/
def ofTable (free : ℕ) (phase : β → Phase) (xs : List β) : Monitor where
  free
  asleep := tally (fun x => (phase x).isAsleep) xs
  notified := tally (fun x => (phase x).isNotified) xs
  inside := tally (fun x => (phase x).isInside) xs

/-- What one process does to the pool while its phase changes. Notifying is
not among these, since it changes the phase of two processes. -/
inductive Move : ℕ → Phase → ℕ → Phase → Prop
  | stay {f a} : Move f a f a
  | enter {f} : Move f .outside f .inside
  | reenter {f} : Move f .notified f .inside
  | take {f} : Move (f + 1) .inside f .outside
  | sleep : Move 0 .inside 0 .asleep
  | wake {f} : Move f .asleep f .outside
  | give {f} : Move f .outside (f + 1) .inside

/-- A move of one process is a stutter or a step of the counts. -/
theorem Move.step {f f' : ℕ} {phase : β → Phase} {xs : List β} {i : ℕ} {a b : β}
    (hi : xs[i]? = some a) (hm : Move f (phase a) f' (phase b)) :
    ofTable f' phase (xs.set i b) = ofTable f phase xs ∨
      Step (ofTable f phase xs) (ofTable f' phase (xs.set i b)) := by
  have h₁ := tally_set (p := fun x => (phase x).isAsleep) (b := b) hi
  have h₂ := tally_set (p := fun x => (phase x).isNotified) (b := b) hi
  have h₃ := tally_set (p := fun x => (phase x).isInside) (b := b) hi
  generalize phase a = u at hm h₁ h₂ h₃
  generalize phase b = v at hm h₁ h₂ h₃
  unfold ofTable
  cases hm with
  | stay =>
    left
    simp_all
  | enter =>
    right
    refine .enter ?_
    simp_all
  | reenter =>
    right
    refine .reenter ?_
    simp_all
  | take =>
    right
    refine .take ?_
    simp_all
  | sleep =>
    right
    refine .sleep rfl ?_
    simp_all
  | wake =>
    right
    refine .wake ?_
    simp_all
  | give =>
    right
    refine .give ?_
    simp_all

theorem step_notify {f : ℕ} {phase : β → Phase} {xs : List β} {i j : ℕ} {a b c d : β}
    (hij : i ≠ j) (hi : xs[i]? = some a) (hj : xs[j]? = some c) (ha : phase a = .inside)
    (hb : phase b = .outside) (hc : phase c = .asleep) (hd : phase d = .notified) :
    Step (ofTable f phase xs) (ofTable f phase ((xs.set i b).set j d)) := by
  have hj' : (xs.set i b)[j]? = some c := by rwa [List.getElem?_set_ne hij]
  have h₁ := tally_set (p := fun x => (phase x).isAsleep) (b := b) hi
  have h₂ := tally_set (p := fun x => (phase x).isNotified) (b := b) hi
  have h₃ := tally_set (p := fun x => (phase x).isInside) (b := b) hi
  have h₄ := tally_set (p := fun x => (phase x).isAsleep) (b := d) hj'
  have h₅ := tally_set (p := fun x => (phase x).isNotified) (b := d) hj'
  have h₆ := tally_set (p := fun x => (phase x).isInside) (b := d) hj'
  refine .notify ?_
  simp_all [ofTable]

theorem step_notifyNobody {f : ℕ} {phase : β → Phase} {xs : List β} {i : ℕ} {a b : β}
    (hi : xs[i]? = some a) (ha : phase a = .inside) (hb : phase b = .outside)
    (hnone : tally (fun x => (phase x).isAsleep) xs = 0) :
    Step (ofTable f phase xs) (ofTable f phase (xs.set i b)) := by
  have h₁ := tally_set (p := fun x => (phase x).isAsleep) (b := b) hi
  have h₂ := tally_set (p := fun x => (phase x).isNotified) (b := b) hi
  have h₃ := tally_set (p := fun x => (phase x).isInside) (b := b) hi
  refine .notifyNobody hnone ?_
  simp_all [ofTable]

end Monitor

end PitBox.Foundations
