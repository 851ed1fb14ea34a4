import Mathlib.Data.List.Basic
import Mathlib.Tactic

/-!
# Lower-case hexadecimal

Two digits for each byte, high digit first. The encoding is injective, and its
characters are digits and the letters from `a` to `f`.
-/

namespace PitBox.Hex

def digit (n : ℕ) : Char := if n < 10 then Char.ofNat (48 + n) else Char.ofNat (87 + n)

def byte (b : UInt8) : List Char := [digit (b.toNat / 16), digit (b.toNat % 16)]

def encode (bytes : List UInt8) : List Char := bytes.flatMap byte

def isDigit (c : Char) : Bool := ('0' ≤ c && c ≤ '9') || ('a' ≤ c && c ≤ 'f')

theorem digit_injective : ∀ m < 16, ∀ n < 16, digit m = digit n → m = n := by decide

theorem isDigit_digit : ∀ n < 16, isDigit (digit n) = true := by decide

theorem byte_injective {a b : UInt8} (h : byte a = byte b) : a = b := by
  have ha := a.toNat_lt
  have hb := b.toNat_lt
  simp only [byte, List.cons.injEq, and_true] at h
  have hdiv := digit_injective _ (by omega) _ (by omega) h.1
  have hmod := digit_injective _ (by omega) _ (by omega) h.2
  apply UInt8.toNat_inj.mp
  omega

theorem encode_cons (b : UInt8) (bytes : List UInt8) :
    encode (b :: bytes) = byte b ++ encode bytes := rfl

theorem encode_injective : Function.Injective encode := by
  intro xs
  induction xs with
  | nil =>
    intro ys h
    cases ys with
    | nil => rfl
    | cons b ys => simp [encode, byte] at h
  | cons a xs ih =>
    intro ys h
    cases ys with
    | nil => simp [encode, byte] at h
    | cons b ys =>
      rw [encode_cons, encode_cons] at h
      obtain ⟨hbyte, hrest⟩ := List.append_inj h rfl
      rw [byte_injective hbyte, ih hrest]

theorem isDigit_of_mem_encode {bytes : List UInt8} {c : Char} (h : c ∈ encode bytes) :
    isDigit c = true := by
  obtain ⟨b, -, hc⟩ := List.mem_flatMap.mp h
  have hb := b.toNat_lt
  simp only [byte, List.mem_cons, List.not_mem_nil, or_false] at hc
  rcases hc with rfl | rfl
  · exact isDigit_digit _ (by omega)
  · exact isDigit_digit _ (by omega)

theorem length_encode (bytes : List UInt8) : (encode bytes).length = 2 * bytes.length := by
  induction bytes with
  | nil => rfl
  | cons b bytes ih =>
    rw [encode_cons, List.length_append, ih]
    simp [byte]
    omega

/-! ### Reading digits -/

/-- The value of a digit, of either case. -/
def value? (c : Char) : Option ℕ :=
  if '0' ≤ c ∧ c ≤ '9' then some (c.toNat - 48)
  else if 'a' ≤ c ∧ c ≤ 'f' then some (c.toNat - 87)
  else if 'A' ≤ c ∧ c ≤ 'F' then some (c.toNat - 55)
  else none

def decode : List Char → Option (List UInt8)
  | [] => some []
  | [_] => none
  | high :: low :: rest =>
    (value? high).bind fun h => (value? low).bind fun l =>
      (decode rest).map (UInt8.ofNat (16 * h + l) :: ·)

theorem value_digit : ∀ n < 16, value? (digit n) = some n := by decide

theorem decode_encode (bytes : List UInt8) : decode (encode bytes) = some bytes := by
  induction bytes with
  | nil => rfl
  | cons b bytes ih =>
    have hb := b.toNat_lt
    have hhigh := value_digit (b.toNat / 16) (by omega)
    have hlow := value_digit (b.toNat % 16) (by omega)
    have hbyte : UInt8.ofNat (16 * (b.toNat / 16) + b.toNat % 16) = b := by
      rw [Nat.div_add_mod]
      exact UInt8.ofNat_toNat
    rw [encode_cons]
    simp only [byte, List.cons_append, List.nil_append, decode, hhigh, hlow, Option.bind_some, ih,
      Option.map_some, hbyte]

end PitBox.Hex
