import PitBox.Foundations.Checked
import PitBox.Gateway.CanonicalTarget

/-!
# The percent codec

`percent_decode` as the loop over the bytes of a text, with an index that moves
by one byte or by the three of an escape, and where reading past the end
panics. It never does, and the loop decodes what the text spells.
-/

namespace PitBox.Gateway

open PitBox.Runtime Chars Checked

def toAsciiLowercase (b : UInt8) : UInt8 := if 65 ≤ b ∧ b ≤ 90 then b + 32 else b

/-- The closure that reads a digit of either case. -/
def digitOf? (b : UInt8) : Option UInt8 :=
  let lower := toAsciiLowercase b
  if 48 ≤ lower ∧ lower ≤ 57 then some (lower - 48)
  else if 97 ≤ lower ∧ lower ≤ 102 then some (lower - 97 + 10)
  else none

def escapeError : String := "invalid percent-encoding"

/-- The loop, with the bytes that are decoded and the index of the next one. -/
def percentDecodeFrom (bytes decoded : Bytes) (index : ℕ) : Checked String Bytes :=
  if index < bytes.length then do
    let b ← orPanic bytes[index]?
    if b ≠ 0x25 then percentDecodeFrom bytes (decoded ++ [b]) (index + 1)
    else do
      ensure (index + 2 < bytes.length) escapeError
      let high ← orPanic bytes[index + 1]?
      let low ← orPanic bytes[index + 2]?
      match digitOf? high, digitOf? low with
      | some high, some low =>
        percentDecodeFrom bytes (decoded ++ [(high <<< 4) ||| low]) (index + 3)
      | _, _ => throw escapeError
  else return decoded
termination_by bytes.length - index

def percentDecodeLoop (value : Text) : Checked String Bytes :=
  percentDecodeFrom (utf8 value) [] 0

/-! ### What the loop decodes -/

section Loop

variable {bytes decoded : Bytes} {index : ℕ}

theorem digitOf_spec : ∀ n < 256, (digitOf? (UInt8.ofNat n)).map UInt8.toNat =
    Percent.digit? (UInt8.ofNat n) := by
  decide +kernel

theorem digitOf_toNat (b : UInt8) : (digitOf? b).map UInt8.toNat = Percent.digit? b := by
  have hspec := digitOf_spec b.toNat b.toNat_lt
  rwa [UInt8.ofNat_toNat] at hspec

theorem shiftLeft_or_spec : ∀ h < 16, ∀ l < 16,
    (UInt8.ofNat h <<< 4) ||| UInt8.ofNat l = UInt8.ofNat (16 * h + l) := by
  decide +kernel

theorem escape_value {high low h l : UInt8} (hh : digitOf? high = some h)
    (hl : digitOf? low = some l) : Percent.digit? high = some h.toNat ∧
      Percent.digit? low = some l.toNat ∧
        (h <<< 4) ||| l = UInt8.ofNat (16 * h.toNat + l.toNat) := by
  have hhigh : Percent.digit? high = some h.toNat := by rw [← digitOf_toNat, hh, Option.map_some]
  have hlow : Percent.digit? low = some l.toNat := by rw [← digitOf_toNat, hl, Option.map_some]
  have hvalue := shiftLeft_or_spec h.toNat (Percent.digit_lt hhigh) l.toNat (Percent.digit_lt hlow)
  rw [UInt8.ofNat_toNat, UInt8.ofNat_toNat] at hvalue
  exact ⟨hhigh, hlow, hvalue⟩

theorem digit_eq_none {b : UInt8} (h : digitOf? b = none) : Percent.digit? b = none := by
  rw [← digitOf_toNat, h, Option.map_none]

/-- From an index on, the loop appends what the rest of the bytes decodes to. -/
theorem percentDecodeFrom_eq : percentDecodeFrom bytes decoded index =
    require ((Percent.decode (bytes.drop index)).map (decoded ++ ·)) escapeError := by
  induction hrest : bytes.length - index using Nat.strong_induction_on
    generalizing decoded index with
  | _ rest ih =>
    rw [percentDecodeFrom]
    split_ifs with hindex
    · rw [List.getElem?_eq_getElem hindex, orPanic_some_bind, List.drop_eq_getElem_cons hindex]
      generalize bytes[index] = b
      split_ifs with hb
      · rw [ih (bytes.length - (index + 1)) (by omega) rfl, Percent.decode_literal hb]
        simp [Function.comp_def]
      · obtain rfl : b = Percent.percent := not_not.mp hb
        by_cases hroom : index + 2 < bytes.length
        · rw [ensure_bind (decide_eq_true hroom), List.getElem?_eq_getElem (by omega),
            orPanic_some_bind, List.getElem?_eq_getElem hroom, orPanic_some_bind,
            List.drop_eq_getElem_cons (show index + 1 < bytes.length by omega),
            List.drop_eq_getElem_cons (show index + 1 + 1 < bytes.length from hroom)]
          generalize bytes[index + 1] = high
          generalize bytes[index + 2] = low
          cases hh : digitOf? high with
          | none =>
            rw [Percent.decode_bad_escape (.inl (digit_eq_none hh))]
            rfl
          | some h =>
            cases hl : digitOf? low with
            | none =>
              rw [Percent.decode_bad_escape (.inr (digit_eq_none hl))]
              rfl
            | some l =>
              obtain ⟨hhigh, hlow, hvalue⟩ := escape_value hh hl
              rw [Percent.decode_escape hhigh hlow]
              simp only [hvalue]
              rw [ih (bytes.length - (index + 3)) (by omega) rfl]
              simp [Function.comp_def]
        · rw [Percent.decode_short_escape (by rw [List.length_drop]; omega)]
          simp only [hroom, decide_false]
          rfl
    · rw [List.drop_eq_nil_of_le (Nat.le_of_not_lt hindex)]
      simp [Percent.decode, require]

end Loop

theorem percentDecodeLoop_eq (value : Text) :
    percentDecodeLoop value = ofExcept (percentDecode value) := by
  rw [percentDecodeLoop, percentDecodeFrom_eq, List.drop_zero, percentDecode]
  cases Percent.decode (utf8 value) with
  | none => rfl
  | some bytes => rfl

/-! ### The alphabet of the encoding -/

def isUpperHex (c : Char) : Bool := ('0' ≤ c && c ≤ '9') || ('A' ≤ c && c ≤ 'F')

/-- A byte that is kept or an escape. -/
def isPiece : Text → Bool
  | [c] => c.isAlphanum || c ∈ ['-', '_', '.', '~']
  | [mark, high, low] => mark == '%' && isUpperHex high && isUpperHex low
  | _ => false

theorem isPiece_spec : ∀ n < 256, isPiece (Percent.encodeByte isUnreserved (UInt8.ofNat n)) := by
  decide +kernel

theorem awsPercentEncode_pieces (bytes : Bytes) : ∃ pieces : List Text,
    awsPercentEncode bytes = pieces.flatten ∧ ∀ piece ∈ pieces, isPiece piece := by
  refine ⟨bytes.map (Percent.encodeByte isUnreserved), rfl, ?_⟩
  intro piece hpiece
  obtain ⟨b, -, rfl⟩ := List.mem_map.mp hpiece
  have hspec := isPiece_spec b.toNat b.toNat_lt
  rwa [UInt8.ofNat_toNat] at hspec

def reencode (value : Text) : Checked String Text := do
  return awsPercentEncode (← percentDecodeLoop value)

theorem yields_percentDecodeLoop {value : Text} {bytes : Bytes} :
    (percentDecodeLoop value).Yields bytes ↔ Percent.Spells (utf8 value) bytes := by
  rw [percentDecodeLoop_eq, yields_ofExcept, percentDecode_eq_ok]

theorem percentDecodeLoop_encode (bytes : Bytes) :
    (percentDecodeLoop (awsPercentEncode bytes)).Yields bytes :=
  yields_percentDecodeLoop.mpr (spells_awsPercentEncode bytes)

/-- Decoding stays within the text and succeeds exactly where every percent sign
is that of an escape; it inverts the encoding, whose pieces are kept characters
and upper-case escapes, and a text that was encoded again stays as it is. -/
theorem percentCodec_spec :
    (∀ value, ¬ (percentDecodeLoop value).Panics) ∧
    (∀ value, (∃ bytes, (percentDecodeLoop value).Yields bytes) ↔
      Percent.Escaped (utf8 value)) ∧
    (∀ value bytes, (percentDecodeLoop value).Yields bytes ↔
      Percent.Spells (utf8 value) bytes) ∧
    (∀ bytes, (percentDecodeLoop (awsPercentEncode bytes)).Yields bytes ∧
      ∃ pieces : List Text, awsPercentEncode bytes = pieces.flatten ∧
        ∀ piece ∈ pieces, isPiece piece) ∧
    ∀ value text, (reencode value).Yields text → (reencode text).Yields text := by
  refine ⟨?_, ?_, fun _ _ => yields_percentDecodeLoop,
    fun bytes => ⟨percentDecodeLoop_encode bytes, awsPercentEncode_pieces bytes⟩, ?_⟩
  · intro value
    rw [percentDecodeLoop_eq]
    exact not_panics_ofExcept
  · intro value
    simp only [yields_percentDecodeLoop]
    exact Percent.exists_spells_iff
  · intro value text h
    obtain ⟨bytes, -, htext⟩ := yields_bind.mp h
    rw [yields_pure] at htext
    subst htext
    exact yields_bind.mpr ⟨bytes, percentDecodeLoop_encode bytes, yields_pure.mpr rfl⟩

end PitBox.Gateway
