import Mathlib.Data.List.Nodup
import Mathlib.Tactic

/-!
# Maps with several values for a name

A map keeps its names in the order of their first values, and the values of a
name in the order they were appended. Consuming a map yields the name of a
value only with the first value of each name.
-/

namespace PitBox

/-- A name with its first value and the further ones. -/
structure HeaderEntry (N V : Type) where
  name : N
  first : V
  more : List V
  deriving DecidableEq, Repr

def HeaderEntry.values {N V : Type} (e : HeaderEntry N V) : List V := e.first :: e.more

/-- No name has two entries. -/
structure HeaderMap (N V : Type) where
  entries : List (HeaderEntry N V)
  nodup : (entries.map HeaderEntry.name).Nodup

namespace HeaderMap

variable {N V : Type}

def empty : HeaderMap N V := ⟨[], List.nodup_nil⟩

def pairs (m : HeaderMap N V) : List (N × V) :=
  m.entries.flatMap fun e => e.values.map (e.name, ·)

def intoIter (m : HeaderMap N V) : List (Option N × V) :=
  m.entries.flatMap fun e => (some e.name, e.first) :: e.more.map (none, ·)

def named (m : HeaderMap N V) : List (N × V) :=
  m.intoIter.filterMap fun item => item.1.map (·, item.2)

theorem named_eq (m : HeaderMap N V) : m.named = m.entries.map fun e => (e.name, e.first) := by
  unfold named intoIter
  induction m.entries with
  | nil => rfl
  | cons e es ih => simp [ih, List.filterMap_append, List.filterMap_map]

variable [DecidableEq N]

/-- The entries after a value was appended. -/
def appendTo (name : N) (value : V) : List (HeaderEntry N V) → List (HeaderEntry N V)
  | [] => [⟨name, value, []⟩]
  | e :: es =>
    if e.name = name then { e with more := e.more ++ [value] } :: es
    else e :: appendTo name value es

theorem names_appendTo (name : N) (value : V) (es : List (HeaderEntry N V)) :
    (appendTo name value es).map HeaderEntry.name =
      if name ∈ es.map HeaderEntry.name then es.map HeaderEntry.name
      else es.map HeaderEntry.name ++ [name] := by
  induction es with
  | nil => simp [appendTo]
  | cons e es ih =>
    rw [appendTo]
    split_ifs with he hmem hmem
    · rfl
    · exact absurd (by simp [he]) hmem
    · have hrest : name ∈ es.map HeaderEntry.name := by
        rcases List.mem_cons.mp hmem with heq | hrest
        · exact absurd heq.symm he
        · exact hrest
      rw [List.map_cons, ih, if_pos hrest, List.map_cons]
    · have hrest : name ∉ es.map HeaderEntry.name := fun h => hmem (List.mem_cons_of_mem _ h)
      rw [List.map_cons, ih, if_neg hrest, List.map_cons, List.cons_append]

def append (m : HeaderMap N V) (name : N) (value : V) : HeaderMap N V where
  entries := appendTo name value m.entries
  nodup := by
    rw [names_appendTo]
    split_ifs with h
    · exact m.nodup
    · rw [← List.concat_eq_append]
      exact m.nodup.concat h

def values (m : HeaderMap N V) (name : N) : List V :=
  ((m.entries.find? (·.name = name)).map HeaderEntry.values).getD []

def extend (m : HeaderMap N V) (ps : List (N × V)) : HeaderMap N V :=
  ps.foldl (fun m p => m.append p.1 p.2) m

variable {m : HeaderMap N V} {name : N}

@[simp] theorem values_empty : (empty : HeaderMap N V).values name = [] := rfl

theorem values_append (value : V) (n : N) :
    (m.append n value).values name = m.values name ++ if n = name then [value] else [] := by
  obtain ⟨es, hes⟩ := m
  unfold values append
  dsimp only
  clear hes
  induction es with
  | nil => by_cases h : n = name <;> simp [appendTo, HeaderEntry.values, h]
  | cons e es ih =>
    by_cases he : e.name = n
    · subst he
      rw [appendTo, if_pos rfl]
      by_cases h : e.name = name <;> simp [HeaderEntry.values, h]
    · rw [appendTo, if_neg he]
      by_cases h : e.name = name
      · have hne : n ≠ name := fun heq => he (h.trans heq.symm)
        simp [h, hne]
      · simpa [h] using ih

theorem values_extend (ps : List (N × V)) :
    (m.extend ps).values name = m.values name ++ (ps.filter (·.1 = name)).map Prod.snd := by
  induction ps generalizing m with
  | nil => simp [extend]
  | cons p ps ih =>
    change ((m.append p.1 p.2).extend ps).values name = _
    rw [ih, values_append, List.append_assoc]
    by_cases h : p.1 = name <;> simp [h]

/-- Iterating over a map meets the values of a name in their order. -/
theorem filter_pairs (m : HeaderMap N V) (name : N) :
    (m.pairs.filter (·.1 = name)).map Prod.snd = m.values name := by
  obtain ⟨es, hes⟩ := m
  unfold pairs values
  dsimp only
  induction es with
  | nil => rfl
  | cons e es ih =>
    rw [List.map_cons, List.nodup_cons] at hes
    rw [List.flatMap_cons, List.filter_append, List.map_append, ih hes.2]
    by_cases h : e.name = name
    · have hnone : es.find? (·.name = name) = none := by
        apply List.find?_eq_none.mpr
        intro e' he' heq
        exact hes.1 (h ▸ List.mem_map.mpr ⟨e', he', by simpa using heq⟩)
      simp [h, hnone, List.filter_map, Function.comp_def]
    · simp [h, List.filter_map, Function.comp_def]

/-- With its name a map yields the first value of each name only. -/
theorem filter_named (m : HeaderMap N V) (name : N) :
    (m.named.filter (·.1 = name)).map Prod.snd = (m.values name).take 1 := by
  rw [named_eq]
  obtain ⟨es, hes⟩ := m
  unfold values
  dsimp only
  induction es with
  | nil => rfl
  | cons e es ih =>
    rw [List.map_cons, List.nodup_cons] at hes
    rw [List.map_cons, List.filter_cons]
    by_cases h : e.name = name
    · have hrest : (es.map fun e => (e.name, e.first)).filter (·.1 = name) = [] := by
        apply List.filter_eq_nil_iff.mpr
        intro p hp heq
        obtain ⟨e', he', rfl⟩ := List.mem_map.mp hp
        exact hes.1 (h ▸ List.mem_map.mpr ⟨e', he', by simpa using heq⟩)
      simp [h, hrest, HeaderEntry.values]
    · simpa [h] using ih hes.2

end HeaderMap

end PitBox
