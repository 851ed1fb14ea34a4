import Mathlib.Data.Char
import Mathlib.Data.List.Lex
import Mathlib.Tactic

/-!
# Decimal numbers of a fixed width

A number below `10 ^ n` has one spelling of `n` digits, and reading the digits
gives the number back.
-/

namespace PitBox.Decimal

/-- The last `n` digits of a number. -/
def pad : ℕ → ℕ → List Char
  | 0, _ => []
  | n + 1, k => pad n (k / 10) ++ [Nat.digitChar (k % 10)]

def value (s : List Char) : ℕ := Nat.ofDigitChars 10 s 0

variable {s : List Char} {n k : ℕ}

theorem length_pad : (pad n k).length = n := by
  induction n generalizing k with
  | zero => rfl
  | succ n ih => simp [pad, ih]

theorem isDigit_digitChar : ∀ d < 10, (Nat.digitChar d).isDigit := by decide

theorem digitChar_toNat {c : Char} (h : c.isDigit) :
    c.toNat - 48 < 10 ∧ Nat.digitChar (c.toNat - 48) = c := by
  have hall : ∀ d < 10, Nat.digitChar d = Char.ofNat (48 + d) := by decide
  have hbounds : 48 ≤ c.toNat ∧ c.toNat ≤ 57 := by
    simpa [Char.isDigit, UInt32.le_iff_toNat_le] using h
  refine ⟨by omega, ?_⟩
  rw [hall _ (by omega), Nat.add_sub_cancel' hbounds.1, Char.ofNat_toNat]

theorem isDigit_of_mem_pad {c : Char} (h : c ∈ pad n k) : c.isDigit := by
  induction n generalizing k with
  | zero => cases h
  | succ n ih =>
    rcases List.mem_append.mp h with h | h
    · exact ih h
    · rw [List.mem_singleton.mp h]
      exact isDigit_digitChar _ (Nat.mod_lt _ (by decide))

theorem value_concat (c : Char) : value (s ++ [c]) = 10 * value s + (c.toNat - 48) := by
  simp [value, Nat.ofDigitChars_append, Nat.ofDigitChars_cons]

theorem value_pad (h : k < 10 ^ n) : value (pad n k) = k := by
  induction n generalizing k with
  | zero =>
    obtain rfl : k = 0 := by simpa using h
    rfl
  | succ n ih =>
    have hk : k / 10 < 10 ^ n := by
      rw [Nat.div_lt_iff_lt_mul (by decide)]
      rwa [pow_succ] at h
    have hdigit : (Nat.digitChar (k % 10)).toNat - 48 = k % 10 :=
      Nat.toNat_digitChar_sub_48_of_lt_ten (Nat.mod_lt _ (by decide))
    rw [pad, value_concat, ih hk, hdigit, Nat.div_add_mod]

theorem value_lt (h : ∀ c ∈ s, c.isDigit) : value s < 10 ^ s.length := by
  induction s using List.reverseRecOn with
  | nil => decide
  | append_singleton s c ih =>
    have hs := ih fun d hd => h d (by simp [hd])
    have hc := (digitChar_toNat (h c (by simp))).1
    rw [value_concat, List.length_append, List.length_singleton, pow_succ]
    omega

theorem pad_value (h : ∀ c ∈ s, c.isDigit) : pad s.length (value s) = s := by
  induction s using List.reverseRecOn with
  | nil => rfl
  | append_singleton s c ih =>
    obtain ⟨hlt, hchar⟩ := digitChar_toNat (h c (by simp))
    have hs := ih fun d hd => h d (by simp [hd])
    have hdiv : (10 * value s + (c.toNat - 48)) / 10 = value s := by omega
    have hmod : (10 * value s + (c.toNat - 48)) % 10 = c.toNat - 48 := by omega
    rw [List.length_append, List.length_singleton, pad, value_concat, hdiv, hmod, hs, hchar]

/-! ### The order of numbers and of texts -/

theorem append_lt_append {a b s t : List Char} (h : a.length = b.length) :
    a ++ s < b ++ t ↔ a < b ∨ a = b ∧ s < t := by
  induction a generalizing b with
  | nil =>
    obtain rfl : b = [] := List.length_eq_zero_iff.mp h.symm
    simp
  | cons c a ih =>
    obtain ⟨d, b, rfl⟩ := List.exists_cons_of_length_eq_add_one h.symm
    have hrest := ih (b := b) (by simpa using h)
    simp only [List.cons_append, List.cons_lt_cons_iff, hrest, List.cons.injEq]
    tauto

theorem pad_inj {j : ℕ} (hj : j < 10 ^ n) (hk : k < 10 ^ n) : pad n j = pad n k ↔ j = k := by
  constructor
  · intro h
    rw [← value_pad hj, h, value_pad hk]
  · intro h
    rw [h]

theorem digitChar_lt : ∀ c < 10, ∀ d < 10, Nat.digitChar c < Nat.digitChar d ↔ c < d := by decide

/-- Padded numbers are ordered as the numbers. -/
theorem pad_lt_pad {j : ℕ} (hj : j < 10 ^ n) (hk : k < 10 ^ n) : pad n j < pad n k ↔ j < k := by
  induction n generalizing j k with
  | zero =>
    obtain rfl : j = 0 := by simpa using hj
    obtain rfl : k = 0 := by simpa using hk
    simp [pad]
  | succ n ih =>
    have hdiv {i : ℕ} (hi : i < 10 ^ (n + 1)) : i / 10 < 10 ^ n := by
      rw [Nat.div_lt_iff_lt_mul (by decide)]
      rwa [pow_succ] at hi
    have hlast := digitChar_lt (j % 10) (Nat.mod_lt _ (by decide)) (k % 10)
      (Nat.mod_lt _ (by decide))
    rw [pad, pad, append_lt_append (by rw [length_pad, length_pad]), ih (hdiv hj) (hdiv hk),
      pad_inj (hdiv hj) (hdiv hk), List.cons_lt_cons_iff, hlast]
    simp only [List.lt_irrefl, and_false, or_false]
    omega

theorem pad_append_lt {j : ℕ} {t : List Char} (hj : j < 10 ^ n) (hk : k < 10 ^ n) :
    pad n j ++ s < pad n k ++ t ↔ j < k ∨ j = k ∧ s < t := by
  rw [append_lt_append (by rw [length_pad, length_pad]), pad_lt_pad hj hk, pad_inj hj hk]

end PitBox.Decimal
