import Mathlib.Data.List.Sort
import Mathlib.Data.Prod.Lex
import Mathlib.Data.Char
import PitBox.Foundations.Percent
import PitBox.Runtime.Artifact

/-!
# The canonical target of a signed request

The path and the query of a request are decoded and encoded again before they
are signed. The result depends only on what the target spells: the list of its
path segments and the multiset of its query pairs.
-/

namespace PitBox.Gateway

open PitBox.Runtime Chars

def isUnreserved (b : UInt8) : Bool :=
  (48 ≤ b && b ≤ 57) || (65 ≤ b && b ≤ 90) || (97 ≤ b && b ≤ 122) || b == 45 || b == 95 ||
    b == 46 || b == 126

def awsPercentEncode (value : Bytes) : Text := Percent.encode isUnreserved value

def percentDecode (value : Text) : Except String Bytes :=
  match Percent.decode (utf8 value) with
  | some bytes => .ok bytes
  | none => .error "invalid percent-encoding"

def sortPairs (pairs : List (Text × Text)) : List (Text × Text) :=
  ((pairs.map toLex).insertionSort (· ≤ ·)).map ofLex

def splitTarget (path : Text) : Text × Text := (splitOnce '?' path).getD (path, [])

def splitPair (part : Text) : Text × Text := (splitOnce '=' part).getD (part, [])

def joinPair (pair : Text × Text) : Text := pair.1 ++ '=' :: pair.2

def canonicalPart (part : Text) : Except String Text := do
  return awsPercentEncode (← percentDecode part)

/-- The closure that maps the parts of the query. -/
def canonicalPair (part : Text) : Except String (Text × Text) := do
  let (key, value) := splitPair part
  return (awsPercentEncode (← percentDecode key), awsPercentEncode (← percentDecode value))

def canonicalPathAndQuery (path : Text) : Except String (Text × Text) := do
  let (rawPath, rawQuery) := splitTarget path
  let canonicalPath := ['/'].intercalate (← (rawPath.splitOn '/').mapM canonicalPart)
  let query ← ((rawQuery.splitOn '&').filter fun part => !part.isEmpty).mapM canonicalPair
  return (if canonicalPath.isEmpty then ['/'] else canonicalPath,
    ['&'].intercalate ((sortPairs query).map joinPair))

/-! ### What a target spells -/

/-- The segments of a path and the pairs of a query, as bytes. -/
structure Target where
  segments : List Bytes
  query : List (Bytes × Bytes)
  deriving DecidableEq, Repr

/-- The parts of a target spell the segments and the pairs. Empty parts of the
query are left out, and a part without a value has an empty one. -/
structure Target.SpelledBy (target : Target) (path : Text) : Prop where
  segments : List.Forall₂ (fun part bytes => Percent.Spells (utf8 part) bytes)
    ((splitTarget path).1.splitOn '/') target.segments
  query : List.Forall₂
    (fun part pair => Percent.Spells (utf8 (splitPair part).1) pair.1 ∧
      Percent.Spells (utf8 (splitPair part).2) pair.2)
    (((splitTarget path).2.splitOn '&').filter fun part => !part.isEmpty) target.query

def encodePair (pair : Bytes × Bytes) : Text × Text :=
  (awsPercentEncode pair.1, awsPercentEncode pair.2)

namespace Target

def canonicalUri (target : Target) : Text :=
  let uri := ['/'].intercalate (target.segments.map awsPercentEncode)
  if uri.isEmpty then ['/'] else uri

def encodedPairs (target : Target) : List (Text × Text) := target.query.map encodePair

def canonicalQuery (target : Target) : Text :=
  ['&'].intercalate ((sortPairs target.encodedPairs).map joinPair)

end Target

theorem percentDecode_eq_ok {value : Text} {bytes : Bytes} :
    percentDecode value = .ok bytes ↔ Percent.Spells (utf8 value) bytes := by
  rw [← Percent.decode_eq_some, percentDecode]
  cases Percent.decode (utf8 value) <;> simp

theorem mapM_eq_ok {α β : Type} {f : α → Except String β} {xs : List α} {ys : List β} :
    xs.mapM f = .ok ys ↔ List.Forall₂ (fun x y => f x = .ok y) xs ys := by
  induction xs generalizing ys with
  | nil => cases ys <;> simp [pure, Except.pure]
  | cons x xs ih =>
    rw [List.mapM_cons]
    cases ys with
    | nil =>
      cases hx : f x <;> cases hxs : xs.mapM f <;>
        simp [bind, Except.bind, pure, Except.pure]
    | cons y ys =>
      rw [List.forall₂_cons, ← ih]
      cases hx : f x <;> cases hxs : xs.mapM f <;>
        simp [bind, Except.bind, pure, Except.pure]

theorem canonicalPart_eq_ok {part text : Text} : canonicalPart part = .ok text ↔
    ∃ bytes, Percent.Spells (utf8 part) bytes ∧ text = awsPercentEncode bytes := by
  simp only [← percentDecode_eq_ok, canonicalPart]
  cases percentDecode part <;> simp [bind, Except.bind, pure, Except.pure, eq_comm]

theorem canonicalPair_eq_ok {part : Text} {texts : Text × Text} :
    canonicalPair part = .ok texts ↔
      ∃ pair : Bytes × Bytes, (Percent.Spells (utf8 (splitPair part).1) pair.1 ∧
        Percent.Spells (utf8 (splitPair part).2) pair.2) ∧
          texts = (awsPercentEncode pair.1, awsPercentEncode pair.2) := by
  simp only [← percentDecode_eq_ok, canonicalPair, Prod.exists]
  cases percentDecode (splitPair part).1 <;> cases percentDecode (splitPair part).2 <;>
    simp [bind, Except.bind, pure, Except.pure, eq_comm]

theorem forall₂_exists_map {α β γ : Type} {R : α → γ → Prop} {g : γ → β} {xs : List α}
    {ys : List β} : List.Forall₂ (fun x y => ∃ z, R x z ∧ y = g z) xs ys ↔
      ∃ zs, List.Forall₂ R xs zs ∧ ys = zs.map g := by
  constructor
  · intro h
    induction h with
    | nil => exact ⟨[], .nil, rfl⟩
    | cons hxy _ ih =>
      obtain ⟨z, hz, rfl⟩ := hxy
      obtain ⟨zs, hzs, rfl⟩ := ih
      exact ⟨z :: zs, .cons hz hzs, rfl⟩
  · rintro ⟨zs, h, rfl⟩
    rw [List.forall₂_map_right_iff]
    exact h.imp fun _ z hz => ⟨z, hz, rfl⟩

/-- The canonical target is that of what the target spells. -/
theorem canonicalPathAndQuery_eq_ok {path : Text} {canonical : Text × Text} :
    canonicalPathAndQuery path = .ok canonical ↔
      ∃ target : Target, target.SpelledBy path ∧
        canonical = (target.canonicalUri, target.canonicalQuery) := by
  set parts := (splitTarget path).1.splitOn '/' with hparts
  set pairs := ((splitTarget path).2.splitOn '&').filter (fun part => !part.isEmpty) with hpairs
  have hspelled (target : Target) : target.SpelledBy path ↔
      List.Forall₂ (fun part bytes => Percent.Spells (utf8 part) bytes) parts target.segments ∧
        List.Forall₂ (fun part pair => Percent.Spells (utf8 (splitPair part).1) pair.1 ∧
          Percent.Spells (utf8 (splitPair part).2) pair.2) pairs target.query :=
    ⟨fun h => ⟨h.segments, h.query⟩, fun h => ⟨h.1, h.2⟩⟩
  have hpath (encoded : List Text) : parts.mapM canonicalPart = .ok encoded ↔
      ∃ segments, List.Forall₂ (fun part bytes => Percent.Spells (utf8 part) bytes) parts
        segments ∧ encoded = segments.map awsPercentEncode := by
    simp only [mapM_eq_ok, canonicalPart_eq_ok, forall₂_exists_map]
  have hquery (encoded : List (Text × Text)) : pairs.mapM canonicalPair = .ok encoded ↔
      ∃ query : List (Bytes × Bytes), List.Forall₂ (fun part pair =>
        Percent.Spells (utf8 (splitPair part).1) pair.1 ∧
          Percent.Spells (utf8 (splitPair part).2) pair.2) pairs query ∧
            encoded = query.map fun pair =>
              (awsPercentEncode pair.1, awsPercentEncode pair.2) := by
    simp only [mapM_eq_ok, canonicalPair_eq_ok, forall₂_exists_map]
  have hunfold : canonicalPathAndQuery path = (parts.mapM canonicalPart).bind fun encoded =>
      (pairs.mapM canonicalPair).bind fun query =>
        .ok (if (['/'].intercalate encoded).isEmpty then ['/'] else ['/'].intercalate encoded,
          ['&'].intercalate ((sortPairs query).map joinPair)) := rfl
  rw [hunfold]
  constructor
  · intro h
    cases hp : parts.mapM canonicalPart with
    | error e => simp [hp, Except.bind] at h
    | ok encoded =>
      cases hq : pairs.mapM canonicalPair with
      | error e => simp [hp, hq, Except.bind] at h
      | ok query =>
        simp only [hp, hq, Except.bind, Except.ok.injEq] at h
        obtain ⟨segments, hsegments, rfl⟩ := (hpath encoded).mp hp
        obtain ⟨pairs, hpairs, rfl⟩ := (hquery query).mp hq
        exact ⟨⟨segments, pairs⟩, (hspelled _).mpr ⟨hsegments, hpairs⟩, h.symm⟩
  · rintro ⟨target, htarget, rfl⟩
    obtain ⟨hsegments, hpairs⟩ := (hspelled target).mp htarget
    rw [(hpath _).mpr ⟨_, hsegments, rfl⟩, (hquery _).mpr ⟨_, hpairs, rfl⟩]
    rfl

/-! ### What the canonical target says -/

section Canonical

variable {bytes : Bytes} {c : Char} {t u : Target}

def isEncoded (c : Char) : Bool :=
  c.isAlphanum || c == '-' || c == '_' || c == '.' || c == '~' || c == '%'

theorem isUnreserved_spec : ∀ n < 256, isUnreserved (UInt8.ofNat n) →
    n < 128 ∧ n ≠ 0x25 ∧ isEncoded (Char.ofNat n) := by
  decide +kernel

theorem isUnreserved_ascii (b : UInt8) (h : isUnreserved b) :
    b.toNat < 128 ∧ b ≠ Percent.percent := by
  have hspec := isUnreserved_spec b.toNat b.toNat_lt (by rwa [UInt8.ofNat_toNat])
  refine ⟨hspec.1, ?_⟩
  rintro rfl
  exact hspec.2.1 rfl

theorem awsPercentEncode_injective : Function.Injective awsPercentEncode :=
  Percent.encode_injective isUnreserved_ascii

theorem spells_awsPercentEncode (bytes : Bytes) :
    Percent.Spells (utf8 (awsPercentEncode bytes)) bytes :=
  Percent.spells_encode isUnreserved_ascii bytes

theorem isEncoded_upperDigit : ∀ n < 16, isEncoded (Percent.upperDigit n) := by decide

theorem isEncoded_of_mem (h : c ∈ awsPercentEncode bytes) : isEncoded c := by
  rcases Percent.mem_encode h with ⟨b, rfl, hb⟩ | rfl | ⟨n, hn, rfl⟩
  · exact (isUnreserved_spec b.toNat b.toNat_lt (by rwa [UInt8.ofNat_toNat])).2.2
  · rfl
  · exact isEncoded_upperDigit n hn

theorem notMem_awsPercentEncode (h : isEncoded c = false) : c ∉ awsPercentEncode bytes := by
  intro hmem
  rw [isEncoded_of_mem hmem] at h
  cases h

/-! ### Sorting -/

theorem perm_sortPairs (pairs : List (Text × Text)) : (sortPairs pairs).Perm pairs := by
  have h := ((pairs.map toLex).perm_insertionSort (· ≤ ·)).map ofLex
  rwa [List.map_map, show ofLex ∘ toLex = (id : Text × Text → _) from rfl, List.map_id] at h

theorem sortPairs_eq {pairs others : List (Text × Text)} (h : pairs.Perm others) :
    sortPairs pairs = sortPairs others := by
  have hperm := (((pairs.map toLex).perm_insertionSort (· ≤ ·)).trans (h.map toLex)).trans
    ((others.map toLex).perm_insertionSort (· ≤ ·)).symm
  rw [sortPairs, hperm.eq_of_pairwise' (List.pairwise_insertionSort ..)
    (List.pairwise_insertionSort ..), sortPairs]

/-! ### The path and the query -/

def Target.pathSegments (t : Target) : List Bytes :=
  if t.segments = [[]] then [[], []] else t.segments

theorem notMem_of_mem_map_encode {sep : Char} (hsep : isEncoded sep = false)
    {segments : List Bytes} : ∀ text ∈ segments.map awsPercentEncode, sep ∉ text := by
  intro text htext
  obtain ⟨bytes, -, rfl⟩ := List.mem_map.mp htext
  exact notMem_awsPercentEncode hsep

theorem awsPercentEncode_eq_nil : awsPercentEncode bytes = [] ↔ bytes = [] :=
  ⟨fun h => awsPercentEncode_injective (h.trans rfl), fun h => by rw [h]; rfl⟩

theorem Target.canonicalUri_eq (h : t.segments ≠ []) :
    t.canonicalUri = ['/'].intercalate (t.pathSegments.map awsPercentEncode) := by
  obtain ⟨segments, query⟩ := t
  unfold canonicalUri pathSegments
  rcases segments with _ | ⟨first, _ | ⟨second, rest⟩⟩
  · exact absurd rfl h
  · by_cases hfirst : first = []
    · subst hfirst
      rfl
    · have hne : (awsPercentEncode first).isEmpty = false := by
        simpa [awsPercentEncode_eq_nil] using hfirst
      simp [hfirst, hne]
  · simp

theorem Target.canonicalUri_injective (ht : t.segments ≠ []) (hu : u.segments ≠ [])
    (h : t.canonicalUri = u.canonicalUri) : t.pathSegments = u.pathSegments := by
  have hne {v : Target} (hv : v.segments ≠ []) : v.pathSegments.map awsPercentEncode ≠ [] := by
    unfold pathSegments
    split_ifs
    · simp
    · simpa using hv
  rw [canonicalUri_eq ht, canonicalUri_eq hu] at h
  exact List.map_injective_iff.mpr awsPercentEncode_injective (intercalate_injective
    (notMem_of_mem_map_encode rfl) (notMem_of_mem_map_encode rfl) (hne ht) (hne hu) h)

theorem joinPair_encodePair_injective : Function.Injective (joinPair ∘ encodePair) := by
  intro p q h
  obtain ⟨hkey, hvalue⟩ := append_cons_injective (notMem_awsPercentEncode rfl)
    (notMem_awsPercentEncode rfl) h
  exact Prod.ext (awsPercentEncode_injective hkey) (awsPercentEncode_injective hvalue)

theorem Target.perm_canonicalQuery (t : Target) : ((sortPairs t.encodedPairs).map joinPair).Perm
    (t.query.map (joinPair ∘ encodePair)) := by
  have h := (perm_sortPairs t.encodedPairs).map joinPair
  rwa [encodedPairs, List.map_map] at h

theorem Target.mem_canonicalQuery {text : Text}
    (h : text ∈ (sortPairs t.encodedPairs).map joinPair) : text ≠ [] ∧ '&' ∉ text := by
  obtain ⟨pair, -, rfl⟩ := List.mem_map.mp (t.perm_canonicalQuery.mem_iff.mp h)
  refine ⟨by simp [joinPair], ?_⟩
  have hkey : '&' ∉ awsPercentEncode pair.1 := notMem_awsPercentEncode rfl
  have hvalue : '&' ∉ awsPercentEncode pair.2 := notMem_awsPercentEncode rfl
  simp [joinPair, encodePair, hkey, hvalue]

theorem Target.canonicalQuery_injective (h : t.canonicalQuery = u.canonicalQuery) :
    t.query.Perm u.query := by
  have hparts := intercalate_injective_of_ne_nil (fun _ => mem_canonicalQuery)
    (fun _ => mem_canonicalQuery) h
  have hperm := t.perm_canonicalQuery.symm.trans (hparts ▸ u.perm_canonicalQuery)
  exact (List.map_perm_map_iff joinPair_encodePair_injective).mp hperm

theorem Target.newline_notMem (t : Target) : '\n' ∉ t.canonicalUri ∧ '\n' ∉ t.canonicalQuery := by
  constructor
  · have huri : '\n' ∉ ['/'].intercalate (t.segments.map awsPercentEncode) :=
      notMem_intercalate (by decide) (notMem_of_mem_map_encode rfl)
    unfold canonicalUri
    dsimp only
    split_ifs
    · decide
    · exact huri
  · apply notMem_intercalate (by decide)
    intro text htext
    obtain ⟨pair, -, rfl⟩ := List.mem_map.mp (t.perm_canonicalQuery.mem_iff.mp htext)
    have hkey : '\n' ∉ awsPercentEncode pair.1 := notMem_awsPercentEncode rfl
    have hvalue : '\n' ∉ awsPercentEncode pair.2 := notMem_awsPercentEncode rfl
    simp [joinPair, encodePair, hkey, hvalue]

end Canonical

end PitBox.Gateway
