import PitBox.Foundations.Table

/-!
# Slot tables and their owners

A pool of slots is a list of optional occupants; a process owns at most one
slot. The pool is consistent when every slot is occupied exactly as often as
it is owned: once when occupied, never when free. Consistency is kept by the
three things a process may do to a slot, and it makes ownership exclusive.
-/

namespace PitBox.Slots

open Table

variable {ε β : Type*}

def occupied (slots : List (Option ε)) (l : ℕ) : ℕ := (slots[l]?.join).isSome.toNat

/-- One when the process owns slot `l`. -/
def owns (owner : β → Option ℕ) (l : ℕ) (x : β) : ℕ := (owner x == some l).toNat

/-- Every slot is occupied exactly as often as it is owned. -/
def Consistent (slots : List (Option ε)) (owner : β → Option ℕ) (xs : List β) : Prop :=
  ∀ l, total (owns owner l) xs = occupied slots l

theorem occupied_le_one (slots : List (Option ε)) (l : ℕ) : occupied slots l ≤ 1 :=
  Bool.toNat_le _

theorem occupied_replicate (n l : ℕ) : occupied (List.replicate n (none : Option ε)) l = 0 := by
  unfold occupied
  rw [List.getElem?_replicate]
  split_ifs <;> rfl

theorem occupied_of_none {slots : List (Option ε)} {l : ℕ} (h : slots[l]? = some none) :
    occupied slots l = 0 := by simp [occupied, h]

theorem exists_occupant {slots : List (Option ε)} {l : ℕ} (h : occupied slots l = 1) :
    ∃ e, slots[l]? = some (some e) := by
  unfold occupied at h
  cases hv : slots[l]? with
  | none => simp [hv] at h
  | some v => cases v <;> simp_all

theorem lt_length_of_occupied {slots : List (Option ε)} {l : ℕ} (h : 0 < occupied slots l) :
    l < slots.length := by
  by_contra hn
  simp [occupied, List.getElem?_eq_none (Nat.le_of_not_lt hn)] at h

theorem occupied_set {slots : List (Option ε)} {l : ℕ} (hl : l < slots.length) (v : Option ε)
    (m : ℕ) : occupied (slots.set l v) m = if m = l then v.isSome.toNat else occupied slots m := by
  by_cases h : m = l
  · subst h
    simp [occupied, hl]
  · simp [occupied, h, List.getElem?_set_ne (Ne.symm h)]

theorem owns_of_eq {owner : β → Option ℕ} {x : β} {l : ℕ} (h : owner x = some l) (m : ℕ) :
    owns owner m x = if m = l then 1 else 0 := by
  by_cases hm : m = l
  · subst hm
    simp [owns, h]
  · simp [owns, h, hm, Ne.symm hm]

theorem owns_pos {owner : β → Option ℕ} {x : β} {l : ℕ} :
    0 < owns owner l x ↔ owner x = some l := by
  cases h : owner x == some l <;> simp_all [owns]

@[simp] theorem owns_of_none {owner : β → Option ℕ} {x : β} (h : owner x = none) (m : ℕ) :
    owns owner m x = 0 := by simp [owns, h]

theorem owns_le_owns {f g : β → Option ℕ} {x : β} {l : ℕ} (h : f x = some l → g x = some l) :
    owns f l x ≤ owns g l x := by
  rcases Nat.eq_zero_or_pos (owns f l x) with h₀ | hpos
  · omega
  · rw [owns_of_eq (owns_pos.mp hpos), owns_of_eq (h (owns_pos.mp hpos))]

theorem sum_owns {owner : β → Option ℕ} {x : β} {n : ℕ} (h : ∀ l, owner x = some l → l < n) :
    ∑ l ∈ Finset.range n, owns owner l x = (owner x).isSome.toNat := by
  cases hx : owner x with
  | none => simp [owns, hx]
  | some l => simp [owns_of_eq hx, h l hx]

namespace Consistent

variable {slots : List (Option ε)} {owner : β → Option ℕ} {xs : List β}

theorem empty (n : ℕ) : Consistent (List.replicate n (none : Option ε)) owner ([] : List β) :=
  fun l => (occupied_replicate n l).symm

theorem push (h : Consistent slots owner xs) {b : β} (hb : owner b = none) :
    Consistent slots owner (xs ++ [b]) := by
  intro l
  simp [h l, owns_of_none hb]

theorem keep (h : Consistent slots owner xs) {i : ℕ} {a b : β} (hi : xs[i]? = some a)
    (hab : owner b = owner a) : Consistent slots owner (xs.set i b) := by
  intro l
  rw [total_set_eq _ hi (by simp [owns, hab]), h l]

theorem assign (h : Consistent slots owner xs) {i : ℕ} {a b : β} (hi : xs[i]? = some a)
    (ha : owner a = none) {l : ℕ} (hb : owner b = some l) (hl : slots[l]? = some none) (e : ε) :
    Consistent (slots.set l (some e)) owner (xs.set i b) := by
  intro m
  have ht := total_set (owns owner m) (b := b) hi
  rw [owns_of_none ha, owns_of_eq hb, h m] at ht
  rw [occupied_set (List.getElem?_eq_some_iff.mp hl).1]
  by_cases hm : m = l
  · subst hm
    rw [occupied_of_none hl] at ht
    simpa using ht
  · simpa [hm] using ht

/-- A process gives its slot back. -/
theorem release (h : Consistent slots owner xs) {i : ℕ} {a b : β} (hi : xs[i]? = some a)
    {l : ℕ} (ha : owner a = some l) (hb : owner b = none) :
    Consistent (slots.set l none) owner (xs.set i b) := by
  intro m
  have ht := total_set (owns owner m) (b := b) hi
  have hle := le_total (owns owner m) (List.mem_of_getElem? hi)
  rw [owns_of_eq ha] at ht hle
  rw [owns_of_none hb, h m] at ht
  rw [h m] at hle
  by_cases hm : m = l
  · subst hm
    have hpos : 1 ≤ occupied slots m := by simpa using hle
    rw [occupied_set (lt_length_of_occupied hpos)]
    have := occupied_le_one slots m
    simp only [↓reduceIte, Option.isSome_none, Bool.toNat_false] at ht ⊢
    omega
  · rcases Nat.lt_or_ge l slots.length with hl | hl
    · rw [occupied_set hl]
      simpa [hm] using ht
    · rw [List.set_eq_of_length_le hl]
      simpa [hm] using ht

theorem total_owns_le_one (h : Consistent slots owner xs) (l : ℕ) :
    total (owns owner l) xs ≤ 1 := (h l).trans_le (occupied_le_one slots l)

theorem occupied_of_owner (h : Consistent slots owner xs) {x : β} (hx : x ∈ xs) {l : ℕ}
    (ho : owner x = some l) : occupied slots l = 1 := by
  have hle := le_total (owns owner l) hx
  have := occupied_le_one slots l
  rw [owns_of_eq ho, h l] at hle
  simp only [↓reduceIte] at hle
  omega

theorem owner_lt (h : Consistent slots owner xs) {x : β} (hx : x ∈ xs) {l : ℕ}
    (ho : owner x = some l) : l < slots.length :=
  lt_length_of_occupied (by rw [h.occupied_of_owner hx ho]; exact Nat.one_pos)

theorem exists_owner (h : Consistent slots owner xs) {l : ℕ} {e : ε}
    (hl : slots[l]? = some (some e)) : ∃ x ∈ xs, owner x = some l := by
  have hpos : 0 < total (owns owner l) xs := by
    rw [h l]
    simp [occupied, hl]
  obtain ⟨x, hx, hw⟩ := exists_of_total_pos hpos
  exact ⟨x, hx, owns_pos.mp hw⟩

theorem owner_injective (h : Consistent slots owner xs) {i j : ℕ} {a b : β}
    (hi : xs[i]? = some a) (hj : xs[j]? = some b) {l : ℕ}
    (ha : owner a = some l) (hb : owner b = some l) : i = j := by
  by_contra hij
  have h₁ := add_le_total (owns owner l) hij hi hj
  have h₂ := h.total_owns_le_one l
  simp only [owns_of_eq ha, owns_of_eq hb, ↓reduceIte] at h₁
  omega

end Consistent

/-- What one step of a process can do to the slots. -/
inductive Move (owner : β → Option ℕ) :
    List (Option ε) → β → List (Option ε) → β → Prop
  | keep {slots a b} : owner b = owner a → Move owner slots a slots b
  | assign {slots a b} (l : ℕ) (e : ε) : slots[l]? = some none → owner a = none →
      owner b = some l → Move owner slots a (slots.set l (some e)) b
  | release {slots a b} (l : ℕ) : owner a = some l → owner b = none →
      Move owner slots a (slots.set l none) b

theorem Consistent.move {slots slots' : List (Option ε)} {owner : β → Option ℕ} {xs : List β}
    (h : Consistent slots owner xs) {i : ℕ} {a b : β} (hi : xs[i]? = some a)
    (hm : Move owner slots a slots' b) : Consistent slots' owner (xs.set i b) := by
  cases hm with
  | keep hab => exact h.keep hi hab
  | assign l e hl ha hb => exact h.assign hi ha hb hl e
  | release l ha hb => exact h.release hi ha hb

theorem Move.length_eq {slots slots' : List (Option ε)} {owner : β → Option ℕ} {a b : β}
    (hm : Move owner slots a slots' b) : slots'.length = slots.length := by
  cases hm <;> simp

/-- The slot a process owns holds the label of the process. -/
def Labelled (slots : List (Option ε)) (owner : β → Option ℕ) (label : β → ε) (xs : List β) :
    Prop :=
  ∀ (i : ℕ) (x : β), xs[i]? = some x → ∀ l, owner x = some l → slots[l]? = some (some (label x))

namespace Labelled

variable {slots slots' : List (Option ε)} {owner : β → Option ℕ} {label : β → ε} {xs : List β}

theorem push (h : Labelled slots owner label xs) {b : β} (hb : owner b = none) :
    Labelled slots owner label (xs ++ [b]) := by
  intro i x hi l hl
  rw [List.getElem?_append] at hi
  split_ifs at hi
  · exact h i x hi l hl
  · obtain rfl := List.mem_singleton.mp (List.mem_of_getElem? hi)
    rw [hb] at hl
    cases hl

/-- A process that takes a slot labels it; what it does to its slot leaves the
slots of the others alone. -/
theorem move (h : Labelled slots owner label xs) (hc : Consistent slots owner xs) {i : ℕ} {a b : β}
    (hi : xs[i]? = some a) (hm : Move owner slots a slots' b) (hlabel : label b = label a)
    (hassign : owner a = none → ∀ l, owner b = some l → slots'[l]? = some (some (label b))) :
    Labelled slots' owner label (xs.set i b) := by
  intro j x hj l hl
  rcases eq_or_ne i j with rfl | hij
  · rw [List.getElem?_set_self (List.getElem?_eq_some_iff.mp hi).1] at hj
    obtain rfl := Option.some.inj hj
    cases ha : owner a with
    | none => exact hassign ha l hl
    | some k =>
      cases hm with
      | keep hab =>
        rw [hlabel]
        exact h i a hi l (hab ▸ hl)
      | assign k e hk ha' hb => cases ha.symm.trans ha'
      | release k ha' hb => cases hl.symm.trans hb
  · rw [List.getElem?_set_ne hij] at hj
    have hold := h j x hj l hl
    cases hm with
    | keep hab => exact hold
    | assign k e hk ha hb =>
      have hkl : k ≠ l := by
        rintro rfl
        cases hold.symm.trans hk
      rwa [List.getElem?_set_ne hkl]
    | release k ha hb =>
      have hkl : k ≠ l := by
        rintro rfl
        exact hij (hc.owner_injective hi hj ha hl)
      rwa [List.getElem?_set_ne hkl]

end Labelled

def free (slots : List (Option ε)) : ℕ := tally Option.isNone slots

theorem free_assign {slots : List (Option ε)} {l : ℕ} (hl : slots[l]? = some none) (e : ε) :
    free (slots.set l (some e)) + 1 = free slots := by
  simpa [free, tally] using total_set (fun v : Option ε => v.isNone.toNat) (b := some e) hl

theorem free_release {slots : List (Option ε)} {l : ℕ} (hl : occupied slots l = 1) :
    free (slots.set l none) = free slots + 1 := by
  have hlt := lt_length_of_occupied (hl ▸ Nat.one_pos)
  cases hv : slots[l] with
  | none => simp [occupied, hlt, hv] at hl
  | some e =>
    have hget : slots[l]? = some (some e) := by rw [List.getElem?_eq_getElem hlt, hv]
    simpa [free, tally] using total_set (fun v : Option ε => v.isNone.toNat) (b := none) hget

theorem free_eq_zero {slots : List (Option ε)} :
    free slots = 0 ↔ ∀ v ∈ slots, v ≠ none := by
  simp [free, tally, total_eq_zero, ← Option.ne_none_iff_isSome]

theorem Consistent.tally_occupied {slots : List (Option ε)} {owner : β → Option ℕ} {xs : List β}
    (h : Consistent slots owner xs) :
    tally Option.isSome slots = tally (fun x => (owner x).isSome) xs := by
  calc tally Option.isSome slots
    _ = ∑ l ∈ Finset.range slots.length, (slots[l]?.any Option.isSome).toNat :=
        (sum_any_getElem? _ le_rfl).symm
    _ = ∑ l ∈ Finset.range slots.length, total (owns owner l) xs := by
        apply Finset.sum_congr rfl
        intro l _
        rw [h l, occupied]
        cases slots[l]? <;> rfl
    _ = total (fun x => ∑ l ∈ Finset.range slots.length, owns owner l x) xs := sum_total _ _ _
    _ = tally (fun x => (owner x).isSome) xs :=
        total_congr fun x hx => sum_owns fun l hl => h.owner_lt hx hl

theorem tally_occupied_add_free (slots : List (Option ε)) :
    tally Option.isSome slots + free slots = slots.length := by
  rw [free, tally_eq_countP, tally_eq_countP]
  have hsplit := List.length_eq_countP_add_countP (fun v : Option ε => v.isSome) (l := slots)
  rw [hsplit]
  congr 2
  funext v
  cases v <;> rfl

end PitBox.Slots
