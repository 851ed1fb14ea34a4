import PitBox.Foundations.Checked
import PitBox.Gateway.CanonicalTarget

/-!
# The canonical target as a normal form

Canonical targets are compared instead of what the targets spell. Two targets
have one canonical form exactly when they spell the same path and the same
pairs in some order, and a canonical form is its own canonical form.
-/

namespace PitBox.Gateway

open PitBox.Runtime Chars

namespace Target

variable {path : Text} {t u : Target}

theorem SpelledBy.unique (ht : t.SpelledBy path) (hu : u.SpelledBy path) : t = u := by
  have hspells {s a b : Bytes} (ha : Percent.Spells s a) (hb : Percent.Spells s b) : a = b :=
    Option.some.inj ((Percent.decode_of_spells ha).symm.trans (Percent.decode_of_spells hb))
  have hpart : Relator.RightUnique fun (part : Text) bytes => Percent.Spells (utf8 part) bytes :=
    fun _ _ _ => hspells
  have hpair : Relator.RightUnique fun (part : Text) (pair : Bytes × Bytes) =>
      Percent.Spells (utf8 (splitPair part).1) pair.1 ∧
        Percent.Spells (utf8 (splitPair part).2) pair.2 :=
    fun _ _ _ ha hb => Prod.ext (hspells ha.1 hb.1) (hspells ha.2 hb.2)
  have hsegments := List.right_unique_forall₂' hpart ht.segments hu.segments
  have hquery := List.right_unique_forall₂' hpair ht.query hu.query
  cases t
  cases u
  exact congrArg₂ Target.mk hsegments hquery

theorem SpelledBy.segments_ne_nil (h : t.SpelledBy path) : t.segments ≠ [] := by
  intro hnil
  have hlength := h.segments.length_eq
  rw [hnil, List.length_nil, List.length_eq_zero_iff] at hlength
  exact List.splitOn_ne_nil _ _ hlength

/-! ### Equal canonical forms -/

theorem canonicalUri_congr (ht : t.segments ≠ []) (hu : u.segments ≠ [])
    (h : t.pathSegments = u.pathSegments) : t.canonicalUri = u.canonicalUri := by
  rw [canonicalUri_eq ht, canonicalUri_eq hu, h]

theorem canonicalQuery_congr (h : t.query.Perm u.query) : t.canonicalQuery = u.canonicalQuery := by
  have hpairs : t.encodedPairs.Perm u.encodedPairs := h.map encodePair
  rw [canonicalQuery, canonicalQuery, sortPairs_eq hpairs]

theorem canonical_eq_iff (ht : t.segments ≠ []) (hu : u.segments ≠ []) :
    (t.canonicalUri, t.canonicalQuery) = (u.canonicalUri, u.canonicalQuery) ↔
      t.pathSegments = u.pathSegments ∧ t.query.Perm u.query := by
  rw [Prod.mk.injEq]
  constructor
  · rintro ⟨huri, hquery⟩
    exact ⟨canonicalUri_injective ht hu huri, canonicalQuery_injective hquery⟩
  · rintro ⟨hsegments, hquery⟩
    exact ⟨canonicalUri_congr ht hu hsegments, canonicalQuery_congr hquery⟩

/-! ### The canonical form of a canonical form -/

theorem pathSegments_ne_nil (h : t.segments ≠ []) : t.pathSegments ≠ [] := by
  unfold pathSegments
  split_ifs
  · simp
  · exact h

theorem pathSegments_pathSegments (query : List (Bytes × Bytes)) :
    (Target.mk t.pathSegments query).pathSegments = t.pathSegments := by
  apply if_neg
  change t.pathSegments ≠ [[]]
  unfold pathSegments
  split_ifs with h
  · simp
  · exact h

theorem exists_sorted_query (t : Target) :
    ∃ query : List (Bytes × Bytes), query.Perm t.query ∧
      query.map encodePair = sortPairs t.encodedPairs := by
  have hpairs : List.Forall₂ (fun texts pair => encodePair pair = texts) t.encodedPairs
      t.query := by
    rw [encodedPairs, List.forall₂_map_left_iff, List.forall₂_same]
    exact fun _ _ => rfl
  obtain ⟨query, hquery, hperm⟩ := List.perm_comp_forall₂ (perm_sortPairs t.encodedPairs) hpairs
  refine ⟨query, hperm, ?_⟩
  rw [← List.forall₂_eq_eq_eq, List.forall₂_map_left_iff]
  exact hquery.flip

theorem splitTarget_canonical (h : t.segments ≠ []) :
    splitTarget (t.canonicalUri ++ '?' :: t.canonicalQuery) =
      (t.canonicalUri, t.canonicalQuery) := by
  have hmark : '?' ∉ t.canonicalUri := by
    rw [canonicalUri_eq h]
    exact notMem_intercalate (by decide) (notMem_of_mem_map_encode rfl)
  rw [splitTarget, splitOnce_of_notMem hmark, Option.getD_some]

theorem splitPair_joinPair (pair : Bytes × Bytes) :
    splitPair (joinPair (encodePair pair)) = encodePair pair := by
  have hmark : '=' ∉ (encodePair pair).1 := notMem_awsPercentEncode rfl
  rw [splitPair, joinPair, splitOnce_of_notMem hmark, Option.getD_some]

/-- A canonical form spells a target that has it. -/
theorem exists_spelledBy_canonical (h : t.segments ≠ []) :
    ∃ u : Target, u.SpelledBy (t.canonicalUri ++ '?' :: t.canonicalQuery) ∧
      u.canonicalUri = t.canonicalUri ∧ u.canonicalQuery = t.canonicalQuery := by
  obtain ⟨query, hperm, hquery⟩ := t.exists_sorted_query
  have hne := pathSegments_ne_nil h
  refine ⟨⟨t.pathSegments, query⟩, ⟨?_, ?_⟩,
    canonicalUri_congr hne h (pathSegments_pathSegments query), canonicalQuery_congr hperm⟩
  · rw [splitTarget_canonical h, canonicalUri_eq h, List.splitOn_intercalate '/'
      (notMem_of_mem_map_encode rfl) (by simpa using hne), List.forall₂_map_left_iff,
      List.forall₂_same]
    exact fun bytes _ => spells_awsPercentEncode bytes
  · rw [splitTarget_canonical h, canonicalQuery,
      filter_splitOn_intercalate fun _ => mem_canonicalQuery, ← hquery, List.map_map,
      List.forall₂_map_left_iff, List.forall₂_same]
    intro pair _
    rw [Function.comp_apply, splitPair_joinPair]
    exact ⟨spells_awsPercentEncode pair.1, spells_awsPercentEncode pair.2⟩

end Target

/-- What two targets spell decides whether they have one canonical form, and a
canonical form is its own. -/
theorem canonicalPathAndQuery_faithful {a b : Text} {p q : Text × Text}
    (ha : canonicalPathAndQuery a = .ok p) (hb : canonicalPathAndQuery b = .ok q) :
    (∃ t u : Target, (∀ t' : Target, t'.SpelledBy a ↔ t' = t) ∧
      (∀ u' : Target, u'.SpelledBy b ↔ u' = u) ∧
        (p = q ↔ t.pathSegments = u.pathSegments ∧ t.query.Perm u.query)) ∧
      canonicalPathAndQuery (p.1 ++ '?' :: p.2) = .ok p := by
  obtain ⟨t, ht, rfl⟩ := canonicalPathAndQuery_eq_ok.mp ha
  obtain ⟨u, hu, rfl⟩ := canonicalPathAndQuery_eq_ok.mp hb
  have hunique {path : Text} {v : Target} (hv : v.SpelledBy path) (v' : Target) :
      v'.SpelledBy path ↔ v' = v :=
    ⟨fun h => h.unique hv, fun h => h ▸ hv⟩
  refine ⟨⟨t, u, hunique ht, hunique hu,
    Target.canonical_eq_iff ht.segments_ne_nil hu.segments_ne_nil⟩, ?_⟩
  obtain ⟨v, hv, huri, hquery⟩ := Target.exists_spelledBy_canonical ht.segments_ne_nil
  exact canonicalPathAndQuery_eq_ok.mpr ⟨v, hv, by rw [huri, hquery]⟩

/-- A target with an escape that stays and one that goes, and its pairs out of order. -/
theorem canonicalPathAndQuery_faithful_escapes :
    canonicalPathAndQuery ("/a%2Fb".toList ++ '?' :: "x=1&y=".toList) =
      .ok ("/a%2Fb".toList, "x=1&y=".toList) :=
  (canonicalPathAndQuery_faithful (a := "/a%2fb?y&&x=%31".toList) (b := "?".toList)
    (p := ("/a%2Fb".toList, "x=1&y=".toList)) (q := (['/'], [])) (by decide +kernel)
      (by decide +kernel)).2

end PitBox.Gateway
