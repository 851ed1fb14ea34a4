import PitBox.Foundations.Chars

/-!
# Percent-encoding

Bytes that are kept stand for themselves, the others are written as a percent
sign and two upper-case digits. Decoding accepts digits of either case, and
inverts the encoding as long as the percent sign is not kept.
-/

namespace PitBox.Percent

open Chars

def percent : UInt8 := 0x25

def upperDigit (n : ℕ) : Char := if n < 10 then Char.ofNat (48 + n) else Char.ofNat (55 + n)

def encodeByte (keep : UInt8 → Bool) (b : UInt8) : List Char :=
  if keep b then [Char.ofNat b.toNat]
  else ['%', upperDigit (b.toNat / 16), upperDigit (b.toNat % 16)]

def encode (keep : UInt8 → Bool) (bytes : List UInt8) : List Char := bytes.flatMap (encodeByte keep)

/-- The value of a digit of either case. -/
def digit? (b : UInt8) : Option ℕ :=
  if 48 ≤ b ∧ b ≤ 57 then some (b.toNat - 48)
  else if 97 ≤ b ∧ b ≤ 102 then some (b.toNat - 87)
  else if 65 ≤ b ∧ b ≤ 70 then some (b.toNat - 55)
  else none

/-- The bytes that a list of bytes spells. -/
inductive Spells : List UInt8 → List UInt8 → Prop
  | nil : Spells [] []
  | literal {b : UInt8} {s t : List UInt8} (h : b ≠ percent) : Spells s t → Spells (b :: s) (b :: t)
  | escape {high low : UInt8} {h l : ℕ} {s t : List UInt8} (hh : digit? high = some h)
      (hl : digit? low = some l) :
      Spells s t → Spells (percent :: high :: low :: s) (UInt8.ofNat (16 * h + l) :: t)

def decode : List UInt8 → Option (List UInt8)
  | [] => some []
  | b :: s =>
    if b = percent then
      match s with
      | high :: low :: s =>
        match digit? high, digit? low with
        | some h, some l => (decode s).map (UInt8.ofNat (16 * h + l) :: ·)
        | _, _ => none
      | _ => none
    else (decode s).map (b :: ·)

section Decode

variable {b high low : UInt8} {h l : ℕ} {s t : List UInt8}

theorem digit_lt (hh : digit? b = some h) : h < 16 := by
  have hall : ∀ n < 256, ∀ k ∈ digit? (UInt8.ofNat n), k < 16 := by decide +kernel
  have hdigit := hall b.toNat b.toNat_lt h
  rw [UInt8.ofNat_toNat] at hdigit
  exact hdigit hh

theorem decode_literal (hb : b ≠ percent) : decode (b :: s) = (decode s).map (b :: ·) := by
  rcases s with _ | ⟨x, _ | ⟨y, s⟩⟩ <;> simp [decode, hb]

theorem decode_escape (hh : digit? high = some h) (hl : digit? low = some l) :
    decode (percent :: high :: low :: s) = (decode s).map (UInt8.ofNat (16 * h + l) :: ·) := by
  simp [decode, hh, hl]

theorem decode_bad_escape (hdigit : digit? high = none ∨ digit? low = none) :
    decode (percent :: high :: low :: s) = none := by
  rcases hdigit with h | h
  · simp [decode, h]
  · cases hh : digit? high <;> simp [decode, hh, h]

theorem decode_short_escape (hs : s.length < 2) : decode (percent :: s) = none := by
  rcases s with _ | ⟨x, _ | ⟨y, s⟩⟩
  · simp [decode]
  · simp [decode]
  · simp at hs

theorem decode_of_spells (hs : Spells s t) : decode s = some t := by
  induction hs with
  | nil => rfl
  | literal hb _ ih => rw [decode_literal hb, ih, Option.map_some]
  | escape hh hl _ ih => rw [decode_escape hh hl, ih, Option.map_some]

theorem spells_of_decode (hs : decode s = some t) : Spells s t := by
  induction s using decode.induct generalizing t with
  | case1 =>
    cases hs
    exact .nil
  | case2 high low s h l hl hh ih =>
    rw [decode_escape hh hl] at hs
    obtain ⟨t, ht, rfl⟩ := Option.map_eq_some_iff.mp hs
    exact .escape hh hl (ih ht)
  | case3 high low s hnone =>
    cases hh : digit? high with
    | none => simp [decode, hh] at hs
    | some h =>
      cases hl : digit? low with
      | none => simp [decode, hh, hl] at hs
      | some l => exact (hnone h l hh hl).elim
  | case4 s hshort =>
    rcases s with _ | ⟨x, _ | ⟨y, s⟩⟩
    · simp [decode] at hs
    · simp [decode] at hs
    · exact (hshort x y s rfl).elim
  | case5 b s hb ih =>
    rw [decode_literal hb] at hs
    obtain ⟨t, ht, rfl⟩ := Option.map_eq_some_iff.mp hs
    exact .literal hb (ih ht)

theorem decode_eq_some : decode s = some t ↔ Spells s t := ⟨spells_of_decode, decode_of_spells⟩

/-- Every percent sign is followed by two digits. -/
def Escaped (s : List UInt8) : Prop :=
  ∀ before after, s = before ++ percent :: after →
    ∃ high low rest, after = high :: low :: rest ∧ (digit? high).isSome ∧ (digit? low).isSome

theorem Escaped.of_cons (h : Escaped (b :: s)) : Escaped s := by
  rintro before after rfl
  exact h (b :: before) after rfl

theorem Spells.escaped (hs : Spells s t) : Escaped s := by
  have hpercent : digit? percent = none := by decide
  induction hs with
  | nil =>
    intro before after hsplit
    simp at hsplit
  | literal hb _ ih =>
    rintro (_ | ⟨c, before⟩) after hsplit
    · exact absurd (List.cons.inj hsplit).1 hb
    · exact ih before after (List.cons.inj hsplit).2
  | @escape high low _ _ s _ hh hl _ ih =>
    rintro (_ | ⟨_, _ | ⟨_, _ | ⟨_, before⟩⟩⟩) after hsplit
    · exact ⟨high, low, s, (List.cons.inj hsplit).2.symm, by simp [hh], by simp [hl]⟩
    · simp only [List.cons_append, List.nil_append, List.cons.injEq] at hsplit
      rw [hsplit.2.1, hpercent] at hh
      cases hh
    · simp only [List.cons_append, List.nil_append, List.cons.injEq] at hsplit
      rw [hsplit.2.2.1, hpercent] at hl
      cases hl
    · simp only [List.cons_append, List.cons.injEq] at hsplit
      exact ih before after hsplit.2.2.2

theorem Escaped.exists_spells (h : Escaped s) : ∃ t, Spells s t := by
  induction s using decode.induct with
  | case1 => exact ⟨[], .nil⟩
  | case2 high low s hv lv hl hh ih =>
    obtain ⟨t, ht⟩ := ih h.of_cons.of_cons.of_cons
    exact ⟨_, .escape hh hl ht⟩
  | case3 high low s hnone =>
    obtain ⟨_, _, _, heq, hh, hl⟩ := h [] _ rfl
    obtain ⟨rfl, rfl, -⟩ := by simpa using heq
    obtain ⟨hv, hh⟩ := Option.isSome_iff_exists.mp hh
    obtain ⟨lv, hl⟩ := Option.isSome_iff_exists.mp hl
    exact (hnone hv lv hh hl).elim
  | case4 s hshort =>
    obtain ⟨high, low, rest, rfl, -⟩ := h [] s rfl
    exact (hshort high low rest rfl).elim
  | case5 b s hb ih =>
    obtain ⟨t, ht⟩ := ih h.of_cons
    exact ⟨_, .literal hb ht⟩

theorem exists_spells_iff : (∃ t, Spells s t) ↔ Escaped s :=
  ⟨fun ⟨_, h⟩ => h.escaped, Escaped.exists_spells⟩

end Decode

/-! ### Decoding what was encoded -/

section Encode

variable {keep : UInt8 → Bool} {b : UInt8} {bytes : List UInt8}

theorem digit_upperDigit : ∀ n < 16, digit? (UInt8.ofNat (upperDigit n).toNat) = some n := by
  decide

theorem upperDigit_lt : ∀ n < 16, (upperDigit n).toNat < 128 := by decide

theorem mem_encodeByte {c : Char} (h : c ∈ encodeByte keep b) :
    c = Char.ofNat b.toNat ∧ keep b ∨ c = '%' ∨ ∃ n < 16, c = upperDigit n := by
  have hb := b.toNat_lt
  unfold encodeByte at h
  split_ifs at h with hkeep
  · exact .inl ⟨by simpa using h, hkeep⟩
  · simp only [List.mem_cons, List.not_mem_nil, or_false] at h
    rcases h with rfl | rfl | rfl
    · exact .inr (.inl rfl)
    · exact .inr (.inr ⟨_, by omega, rfl⟩)
    · exact .inr (.inr ⟨_, by omega, rfl⟩)

theorem mem_encode {c : Char} (h : c ∈ encode keep bytes) :
    (∃ b, c = Char.ofNat b.toNat ∧ keep b) ∨ c = '%' ∨ ∃ n < 16, c = upperDigit n := by
  obtain ⟨b, -, hc⟩ := List.mem_flatMap.mp h
  rcases mem_encodeByte hc with hkeep | hrest
  · exact .inl ⟨b, hkeep⟩
  · exact .inr hrest

theorem toNat_ofNat_lt : ∀ n < 128, (Char.ofNat n).toNat = n := by decide

/-- An encoded byte spells the byte. -/
theorem Spells.encodeByte (hkeep : ∀ b, keep b → b.toNat < 128 ∧ b ≠ percent) {s t : List UInt8}
    (hs : Spells s t) : Spells (utf8 (encodeByte keep b) ++ s) (b :: t) := by
  have hb := b.toNat_lt
  unfold Percent.encodeByte
  split_ifs with h
  · obtain ⟨hlt, hne⟩ := hkeep b h
    have hchar := toNat_ofNat_lt _ hlt
    have hbytes : utf8 [Char.ofNat b.toNat] = [b] := by
      rw [utf8_ascii (by simpa [hchar] using hlt)]
      simp [hchar]
    rw [hbytes]
    exact .literal hne hs
  · have hbytes : utf8 ['%', upperDigit (b.toNat / 16), upperDigit (b.toNat % 16)] =
        [percent, UInt8.ofNat (upperDigit (b.toNat / 16)).toNat,
          UInt8.ofNat (upperDigit (b.toNat % 16)).toNat] := by
      apply utf8_ascii
      simp only [List.mem_cons, List.not_mem_nil, or_false]
      rintro c (rfl | rfl | rfl)
      · decide
      · exact upperDigit_lt _ (by omega)
      · exact upperDigit_lt _ (by omega)
    have hescape := Spells.escape (digit_upperDigit (b.toNat / 16) (by omega))
      (digit_upperDigit (b.toNat % 16) (by omega)) hs
    rw [Nat.div_add_mod, UInt8.ofNat_toNat] at hescape
    rw [hbytes]
    exact hescape

theorem spells_encode (hkeep : ∀ b, keep b → b.toNat < 128 ∧ b ≠ percent) (bytes : List UInt8) :
    Spells (utf8 (encode keep bytes)) bytes := by
  induction bytes with
  | nil => exact .nil
  | cons b bytes ih =>
    rw [encode, List.flatMap_cons, utf8_append]
    exact ih.encodeByte hkeep

theorem encode_injective (hkeep : ∀ b, keep b → b.toNat < 128 ∧ b ≠ percent) :
    Function.Injective (encode keep) := by
  intro a b h
  have ha := decode_of_spells (spells_encode hkeep a)
  rw [h, decode_of_spells (spells_encode hkeep b)] at ha
  exact (Option.some.inj ha).symm

end Encode

end PitBox.Percent
