import PitBox.Foundations.Ledger

/-!
# A counter and its separately recorded peak

A process raises a counter, keeps the value it saw, and only later folds that
value into a shared peak. In between the peak lags behind. Two facts survive
every interleaving. The peak and the values still to be folded in together
have the greatest count there has been as their greatest element. And once a
process has folded its value in, it is covered: the covered processes never
outnumber the peak.
-/

namespace PitBox.HighWater

open Table Ledger

variable {β : Type*}

/-- The process is counted, and the value it saw is at most `v` or folded in. -/
def covered (counted : β → Bool) (pending : β → Option ℕ) (v : ℕ) (x : β) : Bool :=
  counted x && (pending x).all (· ≤ v)

/-- What one step of a process can do while `k` processes are counted. -/
inductive Move (counted : β → Bool) (pending : β → Option ℕ) (k : ℕ) : ℕ → β → ℕ → β → Prop
  | keep {peak a b} : counted b = counted a → pending b = pending a →
      Move counted pending k peak a peak b
  | raise {peak a b} : counted a = false → counted b = true → pending a = none →
      pending b = some (k + 1) → Move counted pending k peak a peak b
  | record {peak a b} (v : ℕ) : counted b = counted a → pending a = some v → pending b = none →
      Move counted pending k peak a (max peak v) b
  | lower {peak a b} : counted b = false → pending a = none → pending b = none →
      Move counted pending k peak a peak b

/-- The peak, the values still to be folded in, and the greatest count so far. -/
structure Recorded (counted : β → Bool) (pending : β → Option ℕ) (peak top : ℕ) (xs : List β) :
    Prop where
  peak_le : peak ≤ top
  pending_le : ∀ x ∈ xs, ∀ v ∈ pending x, v ≤ top
  attained : peak = top ∨ ∃ x ∈ xs, pending x = some top
  count_le : tally counted xs ≤ top
  covered_le : ∀ v, peak ≤ v → tally (covered counted pending v) xs ≤ v

namespace Recorded

variable {counted : β → Bool} {pending : β → Option ℕ} {peak peak' top : ℕ} {xs : List β}

theorem initial (hc : ∀ x ∈ xs, counted x = false) (hp : ∀ x ∈ xs, pending x = none) :
    Recorded counted pending 0 0 xs where
  peak_le := le_rfl
  pending_le := by
    intro x hx v hv
    rw [hp x hx] at hv
    cases hv
  attained := .inl rfl
  count_le := (tally_eq_zero.mpr hc).le
  covered_le := by
    intro v _
    have hnone : tally (covered counted pending v) xs = 0 :=
      tally_eq_zero.mpr fun x hx => by simp [covered, hc x hx]
    exact hnone.trans_le (Nat.zero_le v)

/-- A process that is not counted may join. -/
theorem push (h : Recorded counted pending peak top xs) {b : β} (hc : counted b = false)
    (hp : pending b = none) : Recorded counted pending peak top (xs ++ [b]) where
  peak_le := h.peak_le
  pending_le := by
    intro x hx v hv
    rcases List.mem_append.mp hx with hx | hx
    · exact h.pending_le x hx v hv
    · obtain rfl := List.mem_singleton.mp hx
      rw [hp] at hv
      cases hv
  attained := by
    rcases h.attained with heq | ⟨x, hx, hv⟩
    · exact .inl heq
    · exact .inr ⟨x, List.mem_append_left _ hx, hv⟩
  count_le := by simpa [hc] using h.count_le
  covered_le v hv := by simpa [covered, hc] using h.covered_le v hv

theorem peak_eq (h : Recorded counted pending peak top xs) (hnone : ∀ x ∈ xs, pending x = none) :
    peak = top := by
  rcases h.attained with heq | ⟨x, hx, hv⟩
  · exact heq
  · rw [hnone x hx] at hv
    cases hv

theorem tally_le_peak (h : Recorded counted pending peak top xs) {p : β → Bool}
    (hp : ∀ x ∈ xs, p x = true → counted x = true ∧ pending x = none) : tally p xs ≤ peak := by
  refine le_trans ?_ (h.covered_le peak le_rfl)
  apply total_le_total
  intro x hx
  apply Bool.toNat_le_toNat
  intro hpx
  obtain ⟨hcounted, hnone⟩ := hp x hx hpx
  simp [covered, hcounted, hnone]

theorem mem_set_of_ne {i : ℕ} {a b x : β} (hi : xs[i]? = some a) (hx : x ∈ xs) (hne : x ≠ a) :
    x ∈ xs.set i b := by
  obtain ⟨j, hj⟩ := List.mem_iff_getElem?.mp hx
  have hij : i ≠ j := by
    rintro rfl
    exact hne (Option.some.inj (hj.symm.trans hi))
  exact List.mem_of_getElem? (by rwa [List.getElem?_set_ne hij])

theorem mem_set_self {i : ℕ} {a b : β} (hi : xs[i]? = some a) : b ∈ xs.set i b :=
  List.mem_of_getElem? (List.getElem?_set_self (List.getElem?_eq_some_iff.mp hi).1)

theorem tally_covered_le (v : ℕ) : tally (covered counted pending v) xs ≤ tally counted xs := by
  apply total_le_total
  intro x _
  apply Bool.toNat_le_toNat
  intro hx
  exact (Bool.and_eq_true_iff.mp hx).1

/-- The process keeps its standing. -/
theorem keep (h : Recorded counted pending peak top xs) {i : ℕ} {a b : β} (hi : xs[i]? = some a)
    (hc : counted b = counted a) (hp : pending b = pending a) :
    Recorded counted pending peak top (xs.set i b) where
  peak_le := h.peak_le
  pending_le := by
    intro x hx v hv
    rcases List.mem_or_eq_of_mem_set hx with hx | rfl
    · exact h.pending_le x hx v hv
    · exact h.pending_le a (List.mem_of_getElem? hi) v (hp ▸ hv)
  attained := by
    rcases h.attained with heq | ⟨x, hx, hv⟩
    · exact .inl heq
    · by_cases hxa : x = a
      · exact .inr ⟨b, mem_set_self hi, by rw [hp, ← hxa, hv]⟩
      · exact .inr ⟨x, mem_set_of_ne hi hx hxa, hv⟩
  count_le := (tally_set_eq hi hc).trans_le h.count_le
  covered_le := by
    intro v hv
    rw [tally_set_eq hi (by simp [covered, hc, hp])]
    exact h.covered_le v hv

/-- The process is counted and keeps the value it saw. -/
theorem raise (h : Recorded counted pending peak top xs) {i : ℕ} {a b : β} (hi : xs[i]? = some a)
    (ha : counted a = false) (hb : counted b = true) (hpa : pending a = none)
    (hpb : pending b = some (tally counted xs + 1)) :
    Recorded counted pending peak (max (tally counted xs + 1) top) (xs.set i b) where
  peak_le := h.peak_le.trans (le_max_right _ _)
  pending_le := by
    intro x hx v hv
    rcases List.mem_or_eq_of_mem_set hx with hx | rfl
    · exact (h.pending_le x hx v hv).trans (le_max_right _ _)
    · rw [hpb] at hv
      cases hv
      exact le_max_left _ _
  attained := by
    rcases Nat.le_total (tally counted xs + 1) top with hle | hle
    · rw [max_eq_right hle]
      rcases h.attained with heq | ⟨x, hx, hv⟩
      · exact .inl heq
      · have hne : x ≠ a := by
          rintro rfl
          rw [hpa] at hv
          cases hv
        exact .inr ⟨x, mem_set_of_ne hi hx hne, hv⟩
    · rw [max_eq_left hle]
      exact .inr ⟨b, mem_set_self hi, hpb⟩
  count_le := by
    have ht := tally_set (p := counted) (b := b) hi
    simp only [ha, hb, Bool.toNat_true, Bool.toNat_false] at ht
    omega
  covered_le := by
    intro v hv
    have ht := tally_set (p := covered counted pending v) (b := b) hi
    have hall : tally (covered counted pending v) xs ≤ tally counted xs := tally_covered_le v
    have hold := h.covered_le v hv
    -- the newcomer is covered only by a value that covers everybody
    have hnew : (covered counted pending v b).toNat =
        (decide (tally counted xs + 1 ≤ v)).toNat := by
      simp [covered, hb, hpb]
    rw [hnew] at ht
    by_cases hv' : tally counted xs + 1 ≤ v
    · simp only [hv', decide_true, Bool.toNat_true] at ht
      omega
    · simp only [hv', decide_false, Bool.toNat_false] at ht
      omega

/-- The process folds its value into the peak. -/
theorem record (h : Recorded counted pending peak top xs) {i : ℕ} {a b : β} {w : ℕ}
    (hi : xs[i]? = some a) (hc : counted b = counted a) (hpa : pending a = some w)
    (hpb : pending b = none) :
    Recorded counted pending (max peak w) top (xs.set i b) where
  peak_le := max_le h.peak_le (h.pending_le a (List.mem_of_getElem? hi) w hpa)
  pending_le := by
    intro x hx v hv
    rcases List.mem_or_eq_of_mem_set hx with hx | rfl
    · exact h.pending_le x hx v hv
    · rw [hpb] at hv
      cases hv
  attained := by
    have hw := h.pending_le a (List.mem_of_getElem? hi) w hpa
    rcases h.attained with heq | ⟨x, hx, hv⟩
    · left
      rw [heq]
      exact max_eq_left hw
    · by_cases hxa : x = a
      · left
        rw [hxa, hpa] at hv
        cases hv
        exact max_eq_right h.peak_le
      · exact .inr ⟨x, mem_set_of_ne hi hx hxa, hv⟩
  count_le := (tally_set_eq hi hc).trans_le h.count_le
  covered_le := by
    intro v hv
    -- above the new peak the process was covered before it recorded
    have hsame : covered counted pending v b = covered counted pending v a := by
      simp [covered, hc, hpa, hpb, (le_max_right peak w).trans hv]
    rw [tally_set_eq hi hsame]
    exact h.covered_le v ((le_max_left peak w).trans hv)

/-- The process is no longer counted. -/
theorem lower (h : Recorded counted pending peak top xs) {i : ℕ} {a b : β} (hi : xs[i]? = some a)
    (hb : counted b = false) (hpa : pending a = none) (hpb : pending b = none) :
    Recorded counted pending peak top (xs.set i b) where
  peak_le := h.peak_le
  pending_le := by
    intro x hx v hv
    rcases List.mem_or_eq_of_mem_set hx with hx | rfl
    · exact h.pending_le x hx v hv
    · rw [hpb] at hv
      cases hv
  attained := by
    rcases h.attained with heq | ⟨x, hx, hv⟩
    · exact .inl heq
    · have hne : x ≠ a := by
        rintro rfl
        rw [hpa] at hv
        cases hv
      exact .inr ⟨x, mem_set_of_ne hi hx hne, hv⟩
  count_le := by
    have ht := tally_set (p := counted) (b := b) hi
    have := h.count_le
    simp only [hb, Bool.toNat_false] at ht
    omega
  covered_le := by
    intro v hv
    have ht := tally_set (p := covered counted pending v) (b := b) hi
    have hnone : covered counted pending v b = false := by simp [covered, hb]
    have := h.covered_le v hv
    simp only [hnone, Bool.toNat_false] at ht
    omega

/-- One step of one process; the greatest count takes in the count it leaves. -/
theorem move (h : Recorded counted pending peak top xs) {i : ℕ} {a b : β} (hi : xs[i]? = some a)
    (hm : Move counted pending (tally counted xs) peak a peak' b) :
    Recorded counted pending peak' (max (tally counted (xs.set i b)) top) (xs.set i b) := by
  cases hm with
  | keep hc hp =>
    have hset := h.keep hi hc hp
    rwa [max_eq_right hset.count_le]
  | raise ha hb hpa hpb =>
    have hcount : tally counted (xs.set i b) = tally counted xs + 1 := by
      have ht := tally_set (p := counted) (b := b) hi
      simpa [ha, hb] using ht
    rw [hcount]
    exact h.raise hi ha hb hpa hpb
  | record v hc hpa hpb =>
    have hset := h.record hi hc hpa hpb
    rwa [max_eq_right hset.count_le]
  | lower hb hpa hpb =>
    have hset := h.lower hi hb hpa hpb
    rwa [max_eq_right hset.count_le]

end Recorded

end PitBox.HighWater
