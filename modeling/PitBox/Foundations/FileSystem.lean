import Mathlib.Data.List.AList
import Mathlib.Order.Basic

/-!
# Directories, names and inodes

A file system of one level of directories. A name of a directory is linked to
an inode, which holds the content, so that a file that was opened can still be
written after its name was removed or moved. Operations that can fail return
no file system then.
-/

namespace PitBox

/-- Directories `D` that hold names `N`, and the contents of the inodes below `next`. -/
structure FileSystem (D N B : Type*) where
  dirs : D → Option (AList fun _ : N => ℕ)
  content : ℕ → List B
  next : ℕ

namespace FileSystem

/-- A file system without directories. -/
def empty {D N B : Type*} : FileSystem D N B where
  dirs _ := none
  content _ := []
  next := 0

variable {D N B : Type*} [DecidableEq N] (fs : FileSystem D N B)

def link (d : D) (n : N) : Option ℕ := (fs.dirs d).bind (AList.lookup n)

def read? (d : D) (n : N) : Option (List B) := (fs.link d n).map fs.content

section Linked

variable {fs} {fs' : FileSystem D N B} {d : D} {n : N} {i : ℕ}

/-- Every linked inode is in use, and no inode has two names. -/
structure Linked (fs : FileSystem D N B) : Prop where
  lt_next : ∀ {d n i}, fs.link d n = some i → i < fs.next
  unique : ∀ {d n d' n' i}, fs.link d n = some i → fs.link d' n' = some i → d = d' ∧ n = n'

theorem linked_empty : Linked (empty : FileSystem D N B) where
  lt_next h := by cases h
  unique h := by cases h

theorem Linked.of_subset (h : fs.Linked) (hnext : fs.next ≤ fs'.next)
    (hlink : ∀ {d n i}, fs'.link d n = some i → fs.link d n = some i) : fs'.Linked where
  lt_next hi := lt_of_lt_of_le (h.lt_next (hlink hi)) hnext
  unique hi hj := h.unique (hlink hi) (hlink hj)

theorem Linked.of_link (h : fs.Linked) (hnext : fs.next ≤ fs'.next) (hi : i < fs'.next)
    (hlink : ∀ {d' n' j}, fs'.link d' n' = some j →
      (d' = d ∧ n' = n ∧ j = i) ∨ (j ≠ i ∧ fs.link d' n' = some j)) : fs'.Linked where
  lt_next hj := by
    rcases hlink hj with ⟨-, -, rfl⟩ | ⟨-, hj⟩
    · exact hi
    · exact lt_of_lt_of_le (h.lt_next hj) hnext
  unique hj hk := by
    rcases hlink hj with ⟨rfl, rfl, rfl⟩ | ⟨hne, hj⟩
    · rcases hlink hk with ⟨rfl, rfl, -⟩ | ⟨hne, -⟩
      · exact ⟨rfl, rfl⟩
      · exact absurd rfl hne
    · rcases hlink hk with ⟨-, -, rfl⟩ | ⟨-, hk⟩
      · exact absurd rfl hne
      · exact h.unique hj hk

end Linked

variable [DecidableEq D]

def makeDir (d : D) : FileSystem D N B :=
  { fs with dirs := Function.update fs.dirs d (some ((fs.dirs d).getD ∅)) }

/-- Opens a file for writing: the file is made or truncated. -/
def create? (d : D) (n : N) : Option (FileSystem D N B × ℕ) :=
  match fs.dirs d with
  | none => none
  | some entries =>
    match entries.lookup n with
    | some i => some ({ fs with content := Function.update fs.content i [] }, i)
    | none => some
        ({ dirs := Function.update fs.dirs d (some (entries.insert n fs.next))
           content := Function.update fs.content fs.next []
           next := fs.next + 1 }, fs.next)

def append (i : ℕ) (bytes : List B) : FileSystem D N B :=
  { fs with content := Function.update fs.content i (fs.content i ++ bytes) }

/-- Renames a file within its directory, over a file that has the new name. -/
def rename? (d : D) (old new : N) : Option (FileSystem D N B) :=
  match fs.dirs d with
  | none => none
  | some entries => (entries.lookup old).map fun i =>
      { fs with dirs := Function.update fs.dirs d (some ((entries.erase old).insert new i)) }

def unlink (d : D) (n : N) : FileSystem D N B :=
  { fs with dirs := Function.update fs.dirs d ((fs.dirs d).map (AList.erase n)) }

/-- Only an empty directory can be removed. -/
def removeDir? (d : D) : Option (FileSystem D N B) :=
  match fs.dirs d with
  | none => none
  | some entries =>
    if entries.keys = [] then some { fs with dirs := Function.update fs.dirs d none } else none

/-! ### What is linked after an operation -/

variable {fs} {fs' : FileSystem D N B} {d d' : D} {n n' m : N} {i j : ℕ}

theorem link_makeDir : (fs.makeDir d).link d' n = fs.link d' n := by
  unfold link makeDir
  by_cases hd : d' = d
  · subst hd
    cases fs.dirs d' <;> simp
  · simp [hd]

theorem link_unlink :
    (fs.unlink d n).link d' n' = if d' = d ∧ n' = n then none else fs.link d' n' := by
  unfold link unlink
  by_cases hd : d' = d
  · subst hd
    by_cases hn : n' = n
    · subst hn
      cases fs.dirs d' <;> simp
    · cases fs.dirs d' <;> simp [hn, AList.lookup_erase_ne]
  · simp [hd]

theorem removeDir_spec (h : fs.removeDir? d = some fs') :
    fs'.content = fs.content ∧ fs'.next = fs.next ∧ fs'.link = fs.link := by
  unfold removeDir? at h
  cases hd : fs.dirs d with
  | none => simp [hd] at h
  | some entries =>
    simp only [hd] at h
    split_ifs at h with hkeys
    cases h
    refine ⟨rfl, rfl, ?_⟩
    funext d' n
    unfold link
    by_cases he : d' = d
    · subst he
      have hn : entries.lookup n = none := by
        rw [AList.lookup_eq_none, AList.mem_keys, hkeys]
        exact List.not_mem_nil
      simp [hd, hn]
    · simp [he]

/-- A file of a new name gets a new inode. -/
theorem create_spec (hnew : fs.link d n = none) (h : fs.create? d n = some (fs', i)) :
    i = fs.next ∧ fs'.next = fs.next + 1 ∧ fs'.content = Function.update fs.content i [] ∧
      ∀ d' n', fs'.link d' n' = if d' = d ∧ n' = n then some i else fs.link d' n' := by
  unfold create? at h
  cases hd : fs.dirs d with
  | none => simp [hd] at h
  | some entries =>
    have hnone : entries.lookup n = none := by simpa [link, hd] using hnew
    simp only [hd, hnone, Option.some.injEq, Prod.mk.injEq] at h
    obtain ⟨rfl, rfl⟩ := h
    refine ⟨rfl, rfl, rfl, fun d' n' => ?_⟩
    unfold link
    by_cases he : d' = d
    · subst he
      by_cases hn : n' = n
      · subst hn
        simp
      · simp [hd, hn, AList.lookup_insert_ne]
    · simp [he]

theorem rename_spec (hne : m ≠ n) (h : fs.rename? d m n = some fs') :
    ∃ i, fs.link d m = some i ∧ fs'.content = fs.content ∧ fs'.next = fs.next ∧
      ∀ d' n', fs'.link d' n' =
        if d' = d ∧ n' = n then some i else if d' = d ∧ n' = m then none else fs.link d' n' := by
  unfold rename? at h
  cases hd : fs.dirs d with
  | none => simp [hd] at h
  | some entries =>
    simp only [hd] at h
    obtain ⟨i, hi, rfl⟩ := Option.map_eq_some_iff.mp h
    refine ⟨i, by simp [link, hd, hi], rfl, rfl, fun d' n' => ?_⟩
    unfold link
    by_cases he : d' = d
    · subst he
      by_cases hn : n' = n
      · subst hn
        simp
      · by_cases hm : n' = m
        · subst hm
          simp [hn, AList.lookup_insert_ne]
        · simp [hd, hn, hm, AList.lookup_insert_ne, AList.lookup_erase_ne]
    · simp [he]

end FileSystem

end PitBox
