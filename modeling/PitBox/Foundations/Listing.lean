import Mathlib.Data.List.Basic
import Mathlib.Data.List.Nodup
import Mathlib.Tactic

/-!
# Directories in directories

A directory lists names with what they lead to, each name once, in the order a
scan meets them. A path that is not a directory has no listing. What lies below
a directory is described level by level: if paths are distinct below every
entry, they are distinct below the directory, and an operation that filters
below every entry filters below the directory.
-/

namespace PitBox

variable {ν α β γ π : Type*}

/-- The names of a directory and what they lead to. -/
structure Listing (ν α : Type*) where
  entries : List (ν × α)
  nodup : (entries.map Prod.fst).Nodup

namespace Listing

def find [DecidableEq ν] (l : Listing ν α) (name : ν) : Option α := l.entries.lookup name

theorem lookup_eq_some [DecidableEq ν] {entries : List (ν × α)}
    (hnodup : (entries.map Prod.fst).Nodup) {name : ν} {a : α} :
    entries.lookup name = some a ↔ (name, a) ∈ entries := by
  induction entries with
  | nil => simp
  | cons e entries ih =>
    obtain ⟨key, b⟩ := e
    obtain ⟨hkey, hrest⟩ := List.nodup_cons.mp hnodup
    rw [List.lookup_cons, List.mem_cons]
    by_cases hname : name = key
    · subst hname
      have hnot : (name, a) ∉ entries := fun h => hkey (List.mem_map.mpr ⟨_, h, rfl⟩)
      simp [hnot, eq_comm]
    · have hbeq : (name == key) = false := beq_eq_false_iff_ne.mpr hname
      have hne : (name, a) ≠ (key, b) := fun h => hname (Prod.mk.inj h).1
      simp only [hbeq, hne, false_or]
      exact ih hrest

theorem find_eq_some [DecidableEq ν] {l : Listing ν α} {name : ν} {a : α} :
    l.find name = some a ↔ (name, a) ∈ l.entries := lookup_eq_some l.nodup

def mapValues (f : ν → α → β) (l : Listing ν α) : Listing ν β where
  entries := l.entries.map fun e => (e.1, f e.1 e.2)
  nodup := by
    rw [List.map_map]
    exact l.nodup

def filter (keep : ν → Bool) (l : Listing ν α) : Listing ν α where
  entries := l.entries.filter (keep ·.1)
  nodup := l.nodup.sublist (List.filter_sublist.map Prod.fst)

theorem ext {l m : Listing ν α} (h : l.entries = m.entries) : l = m := by
  cases l
  cases m
  cases h
  rfl

variable (l : Listing ν α)

theorem mapValues_mapValues (f : ν → α → β) (g : ν → β → γ) :
    (l.mapValues f).mapValues g = l.mapValues fun name a => g name (f name a) :=
  ext List.map_map

theorem mapValues_id : (l.mapValues fun _ a => a) = l := ext (List.map_id _)

theorem filter_filter (p q : ν → Bool) :
    (l.filter p).filter q = l.filter fun name => p name && q name := by
  apply ext
  simp only [filter, List.filter_filter]
  exact List.filter_congr fun e _ => Bool.and_comm ..

theorem filter_true : (l.filter fun _ => true) = l := ext (List.filter_true _)

end Listing

def contents : Option (Listing ν α) → List (ν × α)
  | none => []
  | some l => l.entries

theorem nodup_contents (d : Option (Listing ν α)) : ((contents d).map Prod.fst).Nodup := by
  cases d with
  | none => exact List.nodup_nil
  | some l => exact l.nodup

theorem mem_contents [DecidableEq ν] {d : Option (Listing ν α)} {name : ν} {a : α} :
    (name, a) ∈ contents d ↔ d.bind (·.find name) = some a := by
  cases d with
  | none => simp [contents]
  | some l => exact Listing.find_eq_some.symm

theorem contents_filter (keep : ν → Bool) (d : Option (Listing ν α)) :
    contents (d.map (·.filter keep)) = (contents d).filter (keep ·.1) := by
  cases d <;> rfl

def below (sub : α → List (π × β)) (d : Option (Listing ν α)) : List ((ν × π) × β) :=
  (contents d).flatMap fun e => (sub e.2).map fun f => ((e.1, f.1), f.2)

section Below

variable {sub : α → List (π × β)} {d : Option (Listing ν α)}

theorem mem_below {name : ν} {path : π} {b : β} :
    ((name, path), b) ∈ below sub d ↔ ∃ a, (name, a) ∈ contents d ∧ (path, b) ∈ sub a := by
  simp [below]

theorem nodup_below (hsub : ∀ a, ((sub a).map Prod.fst).Nodup) :
    ((below sub d).map Prod.fst).Nodup := by
  rw [below, List.map_flatMap, List.nodup_flatMap]
  constructor
  · intro e _
    have hpaths : ((sub e.2).map fun f => ((e.1, f.1), f.2)).map Prod.fst =
        ((sub e.2).map Prod.fst).map (Prod.mk e.1) := by simp
    rw [hpaths]
    exact (hsub e.2).map (Prod.mk_right_injective e.1)
  · -- Paths below entries of different names differ in their first component.
    apply (List.pairwise_map.mp (nodup_contents d)).imp
    intro e f hne path he hf
    obtain ⟨p, hp, rfl⟩ := List.mem_map.mp he
    obtain ⟨q, hq, heq⟩ := List.mem_map.mp hf
    simp only [List.mem_map] at hp hq
    obtain ⟨_, _, rfl⟩ := hp
    obtain ⟨_, _, rfl⟩ := hq
    exact hne (Prod.mk.inj heq).1.symm

theorem below_filter (keep : ν → π → Bool) {f : ν → α → α}
    (hsub : ∀ name a, sub (f name a) = (sub a).filter (keep name ·.1)) :
    below sub (d.map (·.mapValues f)) = (below sub d).filter fun e => keep e.1.1 e.1.2 := by
  have hcontents : contents (d.map (·.mapValues f)) =
      (contents d).map fun e => (e.1, f e.1 e.2) := by
    cases d <;> rfl
  rw [below, hcontents, List.flatMap_map, below, List.filter_flatMap]
  congr 1
  funext e
  rw [hsub, List.filter_map]
  rfl

end Below

end PitBox
