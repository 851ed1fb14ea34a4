import PitBox.Foundations.Chars
import PitBox.Runtime.Artifact

/-!
# Digests and signatures

`hmac_sha256` on byte lists. Copying between slices of different lengths
panics, which is the outcome `none`.
-/

namespace PitBox.Gateway

open PitBox.Runtime Chars

/-- `copy_from_slice`. -/
def copyFromSlice (dest source : Bytes) : Option Bytes :=
  if dest.length = source.length then some source else none

/-- The key in a block of 64 bytes. -/
def paddedKey (sha256 : Bytes → Sha256) (key : Bytes) : Option Bytes :=
  let padded : Bytes := List.replicate 64 0
  if key.length > padded.length then copyFromSlice padded (sha256 key).toList
  else (copyFromSlice (padded.take key.length) key).map (· ++ padded.drop key.length)

def hmacSha256 (sha256 : Bytes → Sha256) (key message : Bytes) : Option Sha256 :=
  (paddedKey sha256 key).map fun padded =>
    let inner := padded.map (· ^^^ 0x36)
    let outer := padded.map (· ^^^ 0x5c)
    sha256 (outer ++ (sha256 (inner ++ message)).toList)

/-! ### The keyed hash of RFC 2104 -/

/-- The key in a block: hashed if it is longer, and padded with zeros. -/
def blockKey (hash : Bytes → Sha256) (key : Bytes) : Bytes :=
  let key := if 64 < key.length then (hash key).toList else key
  key ++ List.replicate (64 - key.length) 0

/-- The keyed hash as it is specified, with blocks of 64 bytes. -/
def rfc2104 (hash : Bytes → Sha256) (key message : Bytes) : Sha256 :=
  let block := blockKey hash key
  hash (block.map (· ^^^ 0x5c) ++ (hash (block.map (· ^^^ 0x36) ++ message)).toList)

section Keys

variable {sha256 : Bytes → Sha256} {key : Bytes}

theorem paddedKey_long (h : 64 < key.length) : paddedKey sha256 key = none := by
  have hlength : (List.replicate 64 (0 : UInt8)).length ≠ (sha256 key).toList.length := by simp
  simp only [paddedKey, List.length_replicate]
  rw [if_pos h, copyFromSlice, if_neg hlength]

theorem paddedKey_short (h : key.length ≤ 64) :
    paddedKey sha256 key = some (blockKey sha256 key) := by
  have hlength : ((List.replicate 64 (0 : UInt8)).take key.length).length = key.length := by
    simpa using h
  simp only [paddedKey, List.length_replicate]
  rw [if_neg (Nat.not_lt.mpr h), copyFromSlice, if_pos hlength, Option.map_some, blockKey,
    if_neg (Nat.not_lt.mpr h), List.drop_replicate]

theorem hmacSha256_eq (message : Bytes) : hmacSha256 sha256 key message =
    if key.length ≤ 64 then some (rfc2104 sha256 key message) else none := by
  split_ifs with h
  · rw [hmacSha256, paddedKey_short h]
    rfl
  · rw [hmacSha256, paddedKey_long (Nat.not_le.mp h)]
    rfl

end Keys

/-! ### Comparing signatures -/

/-- Compares every byte before it answers. -/
def constantTimeHexEq (left right : Text) : Bool :=
  let l := utf8 left
  let r := utf8 right
  if l.length ≠ r.length then false
  else (l.zip r).foldl (fun difference pair => difference ||| (pair.1 ^^^ pair.2)) 0 == 0

theorem foldl_difference {l r : Bytes} (h : l.length = r.length) (d : UInt8) :
    (l.zip r).foldl (fun difference pair => difference ||| (pair.1 ^^^ pair.2)) d = 0 ↔
      d = 0 ∧ l = r := by
  induction l generalizing r d with
  | nil =>
    obtain rfl : r = [] := List.length_eq_zero_iff.mp h.symm
    simp
  | cons a l ih =>
    obtain ⟨b, r, rfl⟩ := List.exists_cons_of_length_eq_add_one h.symm
    have hrest := ih (r := r) (by simpa using h) (d ||| (a ^^^ b))
    rw [List.zip_cons_cons, List.foldl_cons, hrest, UInt8.or_eq_zero_iff, UInt8.xor_eq_zero_iff,
      List.cons.injEq, and_assoc]

theorem constantTimeHexEq_iff {left right : Text} :
    constantTimeHexEq left right ↔ left = right := by
  unfold constantTimeHexEq
  dsimp only
  split_ifs with h
  · constructor
    · rintro ⟨⟩
    · rintro rfl
      exact absurd rfl h
  · rw [beq_iff_eq, foldl_difference (not_not.mp h), utf8_injective.eq_iff]
    simp

end PitBox.Gateway
