import PitBox.Foundations.FileSystem

/-!
# Replacing files atomically

A writer fills a temporary file beside its target and renames it over the
target. The name of the temporary file carries the process of the writer and a
number that the process gives out once. Writers interleave with each other and
with the removal of files and directories, and stop at any point. What a reader
finds under a target is always the whole content of one writer: the renaming is
the only step that changes it.
-/

namespace PitBox.AtomicWrite

/-- The names in a directory. -/
inductive EntryName (T P : Type*) where
  | target (target : T)
  | temp (target : T) (process : P) (number : ℕ)
  deriving DecidableEq, Repr

/-- The call that a writer is about to make. -/
inductive Phase where
  | makeDir
  | number
  | create (number : ℕ)
  | write (number inode written : ℕ)
  | reopen (number : ℕ)
  | sync (number : ℕ)
  | rename (number : ℕ)
  deriving DecidableEq, Repr

namespace Phase

def number? : Phase → Option ℕ
  | makeDir | number => none
  | create n | write n _ _ | reopen n | sync n | rename n => some n

def inode? : Phase → Option ℕ
  | write _ i _ => some i
  | _ => none

end Phase

structure Writer (D T B : Type*) where
  dir : D
  target : T
  data : List B
  phase : Phase
  deriving DecidableEq, Repr

def start {D T B : Type*} (dir : D) (target : T) (data : List B) : Writer D T B :=
  ⟨dir, target, data, .makeDir⟩

/-- The files, and the number that each process gives out next. -/
structure Store (D T P B : Type*) where
  fs : FileSystem D (EntryName T P) B
  numbers : P → ℕ

variable {D T P B W : Type*}

section Register

variable [DecidableEq D] [DecidableEq T] {offered : D → T → List B → Prop}
  {v v' : D → T → Option (List B)}

/-- A file is replaced or removed as a whole. -/
inductive Replaces (offered : D → T → List B → Prop) :
    (D → T → Option (List B)) → (D → T → Option (List B)) → Prop
  | publish {v v' d t b} (h : offered d t b)
      (hv : ∀ d' t', v' d' t' = if d' = d ∧ t' = t then some b else v d' t') :
      Replaces offered v v'
  | withdraw {v v' d t} (hv : ∀ d' t', v' d' t' = if d' = d ∧ t' = t then none else v d' t') :
      Replaces offered v v'

/-- Every file is one that was offered for its place. -/
def AllOffered (offered : D → T → List B → Prop) (v : D → T → Option (List B)) : Prop :=
  ∀ d t b, v d t = some b → offered d t b

theorem Replaces.allOffered (h : Replaces offered v v') (hv : AllOffered offered v) :
    AllOffered offered v' := by
  intro d t b hb
  cases h with
  | publish hoffered hv' =>
    rw [hv'] at hb
    split_ifs at hb with hplace
    · obtain ⟨rfl, rfl⟩ := hplace
      obtain rfl := Option.some.inj hb
      exact hoffered
    · exact hv d t b hb
  | withdraw hv' =>
    rw [hv'] at hb
    split_ifs at hb
    exact hv d t b hb

end Register

variable [DecidableEq T] [DecidableEq P]

/-- The next call of a writer of process `p`, if it succeeds, and the writer
that remains. A write takes at most `count` of the bytes that are left. -/
def advance [DecidableEq D] (store : Store D T P B) (p : P) (count : ℕ) (w : Writer D T B) :
    Option (Store D T P B × Option (Writer D T B)) :=
  match w.phase with
  | .makeDir => some ({ store with fs := store.fs.makeDir w.dir }, some { w with phase := .number })
  | .number => some
      ({ store with numbers := Function.update store.numbers p (store.numbers p + 1) },
        some { w with phase := .create (store.numbers p) })
  | .create n => (store.fs.create? w.dir (.temp w.target p n)).map fun opened =>
      ({ store with fs := opened.1 }, some { w with phase := .write n opened.2 0 })
  | .write n i k =>
    if w.data.length ≤ k then some (store, some { w with phase := .reopen n })
    else some ({ store with fs := store.fs.append i ((w.data.drop k).take count) },
      some { w with phase := .write n i (k + count) })
  | .reopen n => (store.fs.link w.dir (.temp w.target p n)).map fun _ =>
      (store, some { w with phase := .sync n })
  | .sync n => some (store, some { w with phase := .rename n })
  | .rename n => (store.fs.rename? w.dir (.temp w.target p n) (.target w.target)).map fun fs =>
      ({ store with fs }, none)

def view (fs : FileSystem D (EntryName T P) B) (d : D) (t : T) : Option (List B) :=
  fs.read? d (.target t)

/-! ### What a writer relies on -/

/-- The temporary file of a writer of process `p`: it does not exist before it
is created, holds what was written so far while it is open, and all of the data
afterwards. Others may remove its name at any time. -/
def Owns (fs : FileSystem D (EntryName T P) B) (p : P) (w : Writer D T B) : Prop :=
  match w.phase with
  | .makeDir | .number => True
  | .create n => ∀ d t, fs.link d (.temp t p n) = none
  | .write n i k => i < fs.next ∧ fs.content i = w.data.take k ∧
      (∀ d m, fs.link d m = some i → d = w.dir ∧ m = .temp w.target p n) ∧
      ∀ j, fs.link w.dir (.temp w.target p n) = some j → j = i
  | .reopen n | .sync n | .rename n =>
      ∀ i, fs.link w.dir (.temp w.target p n) = some i → fs.content i = w.data

structure Sound (pid : W → P) (writers : W → Option (Writer D T B)) (store : Store D T P B) :
    Prop where
  linked : store.fs.Linked
  /-- Temporary files have numbers that were given out. -/
  given : ∀ {d t p n i}, store.fs.link d (.temp t p n) = some i → n < store.numbers p
  owns : ∀ {x w}, writers x = some w → Owns store.fs (pid x) w
  number_lt : ∀ {x w n}, writers x = some w → w.phase.number? = some n →
    n < store.numbers (pid x)
  number_unique : ∀ {x y v w n}, writers x = some v → writers y = some w →
    v.phase.number? = some n → w.phase.number? = some n → pid x = pid y → x = y
  inode_unique : ∀ {x y v w i}, writers x = some v → writers y = some w →
    v.phase.inode? = some i → w.phase.inode? = some i → x = y

theorem sound_initial {pid : W → P} :
    Sound pid (fun _ => none) (⟨.empty, fun _ => 0⟩ : Store D T P B) where
  linked := FileSystem.linked_empty
  given h := by cases h
  owns h := by cases h
  number_lt h := by cases h
  number_unique h := by cases h
  inode_unique h := by cases h

section Owns

variable {fs fs' : FileSystem D (EntryName T P) B} {p : P} {w : Writer D T B}

/-- A writer is not affected by changes to names and inodes that are not its own. -/
theorem Owns.frame (h : Owns fs p w) (hnext : fs.next ≤ fs'.next)
    (htemp : ∀ {n d t j}, w.phase.number? = some n → fs'.link d (.temp t p n) = some j →
      fs.link d (.temp t p n) = some j ∧ fs'.content j = fs.content j)
    (hinode : ∀ {i}, w.phase.inode? = some i → fs'.content i = fs.content i ∧
      ∀ {d m}, fs'.link d m = some i → fs.link d m = some i) : Owns fs' p w := by
  unfold Owns at *
  cases hphase : w.phase with
  | makeDir => trivial
  | number => trivial
  | create n =>
    simp only [hphase] at h ⊢
    intro d t
    rw [Option.eq_none_iff_forall_ne_some]
    intro j hj
    have hold := (htemp (by rw [hphase]; rfl) hj).1
    rw [h d t] at hold
    cases hold
  | write n i k =>
    simp only [hphase] at h ⊢
    obtain ⟨hi, hcontent, hlinks, hunique⟩ := h
    obtain ⟨hsame, hold⟩ := hinode (i := i) (by rw [hphase]; rfl)
    exact ⟨lt_of_lt_of_le hi hnext, hsame.trans hcontent, fun d m hm => hlinks d m (hold hm),
      fun j hj => hunique j (htemp (by rw [hphase]; rfl) hj).1⟩
  | reopen n | sync n | rename n =>
    simp only [hphase] at h ⊢
    intro j hj
    obtain ⟨hold, hsame⟩ := htemp (by rw [hphase]; rfl) hj
    exact hsame.trans (h j hold)

theorem Owns.of_subset (h : Owns fs p w) (hnext : fs'.next = fs.next)
    (hcontent : fs'.content = fs.content)
    (hlink : ∀ {d m i}, fs'.link d m = some i → fs.link d m = some i) : Owns fs' p w := by
  apply h.frame hnext.ge
  · intro n d t j _ hj
    exact ⟨hlink hj, by rw [hcontent]⟩
  · intro i _
    exact ⟨by rw [hcontent], hlink⟩

end Owns

section Sound

variable {pid : W → P} {writers : W → Option (Writer D T B)} {store store' : Store D T P B} {x : W}
  {w : Writer D T B}

theorem Sound.of_subset (h : Sound pid writers store)
    (fs : FileSystem D (EntryName T P) B) (hnext : fs.next = store.fs.next)
    (hcontent : fs.content = store.fs.content)
    (hlink : ∀ {d m i}, fs.link d m = some i → store.fs.link d m = some i) :
    Sound pid writers { store with fs } where
  linked := h.linked.of_subset hnext.ge hlink
  given hi := h.given (hlink hi)
  owns hw := (h.owns hw).of_subset hnext hcontent hlink
  number_lt := h.number_lt
  number_unique := h.number_unique
  inode_unique := h.inode_unique

theorem Sound.unlink [DecidableEq D] (h : Sound pid writers store) (d : D) (m : EntryName T P) :
    Sound pid writers { store with fs := store.fs.unlink d m } := by
  apply h.of_subset (store.fs.unlink d m) rfl rfl
  intro d' m' i hi
  rw [FileSystem.link_unlink] at hi
  split_ifs at hi
  exact hi

theorem Sound.removeDir [DecidableEq D] (h : Sound pid writers store) {d : D}
    {fs : FileSystem D (EntryName T P) B} (hfs : store.fs.removeDir? d = some fs) :
    Sound pid writers { store with fs } := by
  obtain ⟨hcontent, hnext, hlink⟩ := FileSystem.removeDir_spec hfs
  apply h.of_subset fs hnext hcontent
  intro d' m' i hi
  rwa [hlink] at hi

theorem Sound.temp_ne (h : Sound pid writers store) (hw : writers x = some w) {y : W}
    {v : Writer D T B} (hy : y ≠ x) (hv : writers y = some v) {m n : ℕ}
    (hm : v.phase.number? = some m) (hn : w.phase.number? = some n) (s t : T) :
    EntryName.temp s (pid y) m ≠ .temp t (pid x) n := by
  intro heq
  obtain ⟨-, hpid, rfl⟩ := EntryName.temp.inj heq
  exact hy (h.number_unique hv hw hm hn hpid)

theorem Sound.number_own (h : Sound pid writers store) (hw : writers x = some w) {n : ℕ}
    (hn : w.phase.number? = some n) : n < store.numbers (pid x) ∧
      ∀ y u, y ≠ x → writers y = some u → u.phase.number? = some n → pid y ≠ pid x :=
  ⟨h.number_lt hw hn, fun _ _ hy hu hun hpid => hy (h.number_unique hu hw hun hn hpid)⟩

theorem Sound.inode_lt (h : Sound pid writers store) (hw : writers x = some w) {i : ℕ}
    (hi : w.phase.inode? = some i) : i < store.fs.next := by
  have howns := h.owns hw
  cases hphase : w.phase <;> simp only [hphase, Phase.inode?, reduceCtorEq] at hi
  simp only [Owns, hphase] at howns
  obtain rfl := Option.some.inj hi
  exact howns.1

theorem Sound.inode_ne (h : Sound pid writers store) (hw : writers x = some w) {y : W}
    {v : Writer D T B} (hy : y ≠ x) (hv : writers y = some v) {n i j : ℕ} {d : D} {t : T}
    (hi : v.phase.inode? = some i) (hn : w.phase.number? = some n)
    (hj : store.fs.link d (.temp t (pid x) n) = some j) : i ≠ j := by
  have howns := h.owns hv
  cases hphase : v.phase <;> simp only [hphase, Phase.inode?, reduceCtorEq] at hi
  simp only [Owns, hphase] at howns
  obtain rfl := Option.some.inj hi
  rintro rfl
  have hname := (howns.2.2.1 _ _ hj).2
  exact h.temp_ne hw hy hv (by rw [hphase]; rfl) hn _ _ hname.symm

variable [DecidableEq W]

/-- A step of one writer: what it needs of its new phase, and that it disturbs no other. -/
theorem Sound.update (h : Sound pid writers store) {w' : Option (Writer D T B)}
    (hlinked : store'.fs.Linked) (hnumbers : ∀ p, store.numbers p ≤ store'.numbers p)
    (hgiven : ∀ {d t p n i}, store'.fs.link d (.temp t p n) = some i → n < store'.numbers p)
    (hothers : ∀ {y v}, y ≠ x → writers y = some v → Owns store'.fs (pid y) v)
    (howns : ∀ v ∈ w', Owns store'.fs (pid x) v)
    (hnumber : ∀ v ∈ w', ∀ n ∈ v.phase.number?, n < store'.numbers (pid x) ∧
      ∀ y u, y ≠ x → writers y = some u → u.phase.number? = some n → pid y ≠ pid x)
    (hinode : ∀ v ∈ w', ∀ i ∈ v.phase.inode?,
      ∀ y u, y ≠ x → writers y = some u → u.phase.inode? ≠ some i) :
    Sound pid (Function.update writers x w') store' where
  linked := hlinked
  given := hgiven
  owns := by
    intro y v hv
    by_cases hy : y = x
    · subst hy
      rw [Function.update_self] at hv
      exact howns v hv
    · rw [Function.update_of_ne hy] at hv
      exact hothers hy hv
  number_lt := by
    intro y v n hv hn
    by_cases hy : y = x
    · subst hy
      rw [Function.update_self] at hv
      exact (hnumber v hv n hn).1
    · rw [Function.update_of_ne hy] at hv
      exact lt_of_lt_of_le (h.number_lt hv hn) (hnumbers (pid y))
  number_unique := by
    intro y z u v n hu hv hun hvn hpid
    by_cases hy : y = x <;> by_cases hz : z = x
    · rw [hy, hz]
    · subst hy
      rw [Function.update_self] at hu
      rw [Function.update_of_ne hz] at hv
      exact absurd hpid.symm ((hnumber u hu n hun).2 z v hz hv hvn)
    · subst hz
      rw [Function.update_self] at hv
      rw [Function.update_of_ne hy] at hu
      exact absurd hpid ((hnumber v hv n hvn).2 y u hy hu hun)
    · rw [Function.update_of_ne hy] at hu
      rw [Function.update_of_ne hz] at hv
      exact h.number_unique hu hv hun hvn hpid
  inode_unique := by
    intro y z u v i hu hv hui hvi
    by_cases hy : y = x <;> by_cases hz : z = x
    · rw [hy, hz]
    · subst hy
      rw [Function.update_self] at hu
      rw [Function.update_of_ne hz] at hv
      exact absurd hvi (hinode u hu i hui z v hz hv)
    · subst hz
      rw [Function.update_self] at hv
      rw [Function.update_of_ne hy] at hu
      exact absurd hui (hinode v hv i hvi y u hy hu)
    · rw [Function.update_of_ne hy] at hu
      rw [Function.update_of_ne hz] at hv
      exact h.inode_unique hu hv hui hvi

theorem Sound.replace (h : Sound pid writers store) {w' : Option (Writer D T B)}
    (hw' : ∀ v ∈ w', v.phase = .makeDir) : Sound pid (Function.update writers x w') store := by
  apply h.update h.linked (fun _ => le_rfl) h.given (fun _ hv => h.owns hv)
  · intro v hv
    simp [Owns, hw' v hv]
  · intro v hv n hn
    simp [hw' v hv, Phase.number?] at hn
  · intro v hv i hi
    simp [hw' v hv, Phase.inode?] at hi

theorem Sound.enter (h : Sound pid writers store) (hw : writers x = some w) {phase : Phase}
    (howns : Owns store.fs (pid x) { w with phase }) (hnumber : phase.number? = w.phase.number?)
    (hinode : ∀ i ∈ phase.inode?, w.phase.inode? = some i) :
    Sound pid (Function.update writers x (some { w with phase })) store := by
  apply h.update h.linked (fun _ => le_rfl) h.given (fun _ hv => h.owns hv)
  · rintro v ⟨⟩
    exact howns
  · rintro v ⟨⟩ n hn
    have hold : w.phase.number? = some n := hnumber.symm.trans hn
    exact ⟨h.number_lt hw hold, fun y u hy hu hun hpid =>
      hy (h.number_unique hu hw hun hold hpid)⟩
  · rintro v ⟨⟩ i hi y u hy hu hui
    exact hy (h.inode_unique hu hw hui (hinode i hi))

/-- Giving out a number. -/
theorem Sound.number (h : Sound pid writers store) :
    Sound pid (Function.update writers x
        (some { w with phase := .create (store.numbers (pid x)) }))
      { store with numbers :=
          Function.update store.numbers (pid x) (store.numbers (pid x) + 1) } := by
  have hle : ∀ p, store.numbers p ≤
      Function.update store.numbers (pid x) (store.numbers (pid x) + 1) p := by
    intro p
    by_cases hp : p = pid x
    · subst hp
      simp
    · rw [Function.update_of_ne hp]
  apply h.update
  case hlinked => exact h.linked
  case hnumbers => exact hle
  case hgiven => exact fun hi => lt_of_lt_of_le (h.given hi) (hle _)
  case hothers => exact fun _ hv => h.owns hv
  case howns =>
    rintro v ⟨⟩ d t
    rw [Option.eq_none_iff_forall_ne_some]
    intro i hi
    exact absurd (h.given hi) (lt_irrefl _)
  case hnumber =>
    rintro v ⟨⟩ n ⟨⟩
    refine ⟨by simp, fun y u _ hu hun hpid => ?_⟩
    have hlt := h.number_lt hu hun
    rw [hpid] at hlt
    exact absurd hlt (lt_irrefl _)
  case hinode => rintro v ⟨⟩ i ⟨⟩

/-- Creating the temporary file, which has a new name. -/
theorem Sound.create [DecidableEq D] (h : Sound pid writers store) (hw : writers x = some w)
    {n i : ℕ} (hphase : w.phase = .create n) {fs : FileSystem D (EntryName T P) B}
    (hfs : store.fs.create? w.dir (.temp w.target (pid x) n) = some (fs, i)) :
    Sound pid (Function.update writers x (some { w with phase := .write n i 0 }))
      { store with fs } := by
  have howns := h.owns hw
  simp only [Owns, hphase] at howns
  have hnumber : w.phase.number? = some n := by rw [hphase]; rfl
  obtain ⟨rfl, hnext, hcontent, hlink⟩ := FileSystem.create_spec (howns _ _) hfs
  have hkeep : ∀ {d m j}, fs.link d m = some j → m ≠ .temp w.target (pid x) n →
      store.fs.link d m = some j ∧ fs.content j = store.fs.content j := by
    intro d m j hj hm
    rw [hlink, if_neg (fun hplace => hm hplace.2)] at hj
    exact ⟨hj, by rw [hcontent, Function.update_of_ne (h.linked.lt_next hj).ne]⟩
  apply h.update
  case hlinked =>
    apply h.linked.of_link (i := store.fs.next) (by rw [hnext]; omega) (by rw [hnext]; omega)
    intro d m j hj
    rw [hlink] at hj
    split_ifs at hj with hplace
    · exact .inl ⟨hplace.1, hplace.2, (Option.some.inj hj).symm⟩
    · exact .inr ⟨(h.linked.lt_next hj).ne, hj⟩
  case hnumbers => exact fun _ => le_rfl
  case hgiven =>
    intro d t p m j hj
    by_cases hm : EntryName.temp t p m = .temp w.target (pid x) n
    · obtain ⟨-, rfl, rfl⟩ := EntryName.temp.inj hm
      exact h.number_lt hw hnumber
    · exact h.given (hkeep hj hm).1
  case hothers =>
    intro y v hy hv
    apply (h.owns hv).frame (by simp only [hnext]; omega)
    · intro m d t j hm hj
      exact hkeep hj (h.temp_ne hw hy hv hm hnumber t w.target)
    · intro j hj
      have hlt := h.inode_lt hv hj
      refine ⟨by rw [hcontent, Function.update_of_ne hlt.ne], fun {d m} hm => ?_⟩
      rw [hlink] at hm
      split_ifs at hm
      · exact absurd (Option.some.inj hm).symm hlt.ne
      · exact hm
  case howns =>
    rintro v ⟨⟩
    refine ⟨by simp only [hnext]; omega, by simp [hcontent], fun d m hm => ?_, fun j hj => ?_⟩
    · by_contra hplace
      have hold := (hlink d m).symm.trans hm
      rw [if_neg hplace] at hold
      exact absurd (h.linked.lt_next hold) (lt_irrefl _)
    · have hnew := (hlink _ _).symm.trans hj
      rw [if_pos ⟨rfl, rfl⟩] at hnew
      exact (Option.some.inj hnew).symm
  case hnumber =>
    rintro v ⟨⟩ m ⟨⟩
    exact h.number_own hw hnumber
  case hinode =>
    rintro v ⟨⟩ j ⟨⟩ y u _ hu hj
    exact absurd (h.inode_lt hu hj) (lt_irrefl _)

/-- Writing to the open handle. -/
theorem Sound.append (h : Sound pid writers store) (hw : writers x = some w) {n i k : ℕ}
    (hphase : w.phase = .write n i k) (count : ℕ) :
    Sound pid (Function.update writers x (some { w with phase := .write n i (k + count) }))
      { store with fs := store.fs.append i ((w.data.drop k).take count) } := by
  have howns := h.owns hw
  simp only [Owns, hphase] at howns
  obtain ⟨hi, hcontent, hlinks, hunique⟩ := howns
  have hnumber : w.phase.number? = some n := by rw [hphase]; rfl
  have hinode : w.phase.inode? = some i := by rw [hphase]; rfl
  apply h.update
  case hlinked => exact ⟨h.linked.lt_next, h.linked.unique⟩
  case hnumbers => exact fun _ => le_rfl
  case hgiven => exact h.given
  case hothers =>
    intro y v hy hv
    apply Owns.frame (h.owns hv)
    · exact le_rfl
    · intro m d t j hm hj
      have hne : j ≠ i := by
        rintro rfl
        exact h.temp_ne hw hy hv hm hnumber t w.target (hlinks d _ hj).2
      exact ⟨hj, Function.update_of_ne hne _ _⟩
    · intro j hj
      have hne : j ≠ i := by
        rintro rfl
        exact hy (h.inode_unique hv hw hj hinode)
      exact ⟨Function.update_of_ne hne _ _, id⟩
  case howns =>
    rintro v ⟨⟩
    refine ⟨hi, ?_, hlinks, hunique⟩
    simp [FileSystem.append, hcontent, List.take_add]
  case hnumber =>
    rintro v ⟨⟩ m ⟨⟩
    exact h.number_own hw hnumber
  case hinode =>
    rintro v ⟨⟩ j ⟨⟩ y u hy hu hj
    exact hy (h.inode_unique hu hw hj hinode)

/-- Renaming the temporary file. -/
theorem Sound.rename [DecidableEq D] (h : Sound pid writers store) (hw : writers x = some w)
    {n : ℕ} (hphase : w.phase = .rename n) {fs : FileSystem D (EntryName T P) B}
    (hfs : store.fs.rename? w.dir (.temp w.target (pid x) n) (.target w.target) = some fs) :
    Sound pid (Function.update writers x none) { store with fs } := by
  have hnumber : w.phase.number? = some n := by rw [hphase]; rfl
  obtain ⟨i, hi, hcontent, hnext, hlink⟩ := FileSystem.rename_spec (by simp) hfs
  have hkeep : ∀ {d t p m j}, fs.link d (.temp t p m) = some j →
      store.fs.link d (.temp t p m) = some j := by
    intro d t p m j hj
    rw [hlink, if_neg (by simp)] at hj
    split_ifs at hj
    exact hj
  apply h.update
  case hlinked =>
    apply h.linked.of_link (i := i) hnext.ge (by rw [hnext]; exact h.linked.lt_next hi)
    intro d m j hj
    rw [hlink] at hj
    split_ifs at hj with hnew hold
    · exact .inl ⟨hnew.1, hnew.2, (Option.some.inj hj).symm⟩
    · refine .inr ⟨?_, hj⟩
      rintro rfl
      exact hold (h.linked.unique hj hi)
  case hnumbers => exact fun _ => le_rfl
  case hgiven => exact fun hj => h.given (hkeep hj)
  case hothers =>
    intro y v hy hv
    apply (h.owns hv).frame hnext.ge
    · intro m d t j _ hj
      exact ⟨hkeep hj, by rw [hcontent]⟩
    · intro j hj
      refine ⟨by rw [hcontent], fun {d m} hm => ?_⟩
      rw [hlink] at hm
      split_ifs at hm
      · obtain rfl := Option.some.inj hm
        exact absurd rfl (h.inode_ne hw hy hv hj hnumber hi)
      · exact hm
  case howns => rintro v ⟨⟩
  case hnumber => rintro v ⟨⟩
  case hinode => rintro v ⟨⟩

/-- Every step of a writer keeps the writers sound. -/
theorem Sound.advance [DecidableEq D] (h : Sound pid writers store) (hw : writers x = some w)
    {count : ℕ} {w' : Option (Writer D T B)}
    (hstep : advance store (pid x) count w = some (store', w')) :
    Sound pid (Function.update writers x w') store' := by
  have howns := h.owns hw
  unfold AtomicWrite.advance at hstep
  unfold Owns at howns
  cases hphase : w.phase with
  | makeDir =>
    simp only [hphase, Option.some.injEq, Prod.mk.injEq] at hstep
    obtain ⟨rfl, rfl⟩ := hstep
    have hmade : Sound pid writers { store with fs := store.fs.makeDir w.dir } := by
      apply h.of_subset (store.fs.makeDir w.dir) rfl rfl
      intro d m i hi
      rwa [FileSystem.link_makeDir] at hi
    apply hmade.enter hw
    · trivial
    · rw [hphase]
      rfl
    · rintro i ⟨⟩
  | number =>
    simp only [hphase, Option.some.injEq, Prod.mk.injEq] at hstep
    obtain ⟨rfl, rfl⟩ := hstep
    exact h.number
  | create n =>
    simp only [hphase, Option.map_eq_some_iff, Prod.mk.injEq] at hstep
    obtain ⟨opened, hopened, rfl, rfl⟩ := hstep
    exact h.create hw hphase hopened
  | write n i k =>
    simp only [hphase] at hstep howns
    split_ifs at hstep with hall
    · simp only [Option.some.injEq, Prod.mk.injEq] at hstep
      obtain ⟨rfl, rfl⟩ := hstep
      obtain ⟨-, hcontent, -, hunique⟩ := howns
      apply h.enter hw
      · intro j hj
        rw [hunique j hj, hcontent, List.take_of_length_le hall]
      · rw [hphase]
        rfl
      · rintro i ⟨⟩
    · simp only [Option.some.injEq, Prod.mk.injEq] at hstep
      obtain ⟨rfl, rfl⟩ := hstep
      exact h.append hw hphase count
  | reopen n =>
    simp only [hphase, Option.map_eq_some_iff, Prod.mk.injEq] at hstep howns
    obtain ⟨i, -, rfl, rfl⟩ := hstep
    apply h.enter hw
    · exact howns
    · rw [hphase]
      rfl
    · rintro i ⟨⟩
  | sync n =>
    simp only [hphase, Option.some.injEq, Prod.mk.injEq] at hstep howns
    obtain ⟨rfl, rfl⟩ := hstep
    apply h.enter hw
    · exact howns
    · rw [hphase]
      rfl
    · rintro i ⟨⟩
  | rename n =>
    simp only [hphase, Option.map_eq_some_iff, Prod.mk.injEq] at hstep
    obtain ⟨fs, hfs, rfl, rfl⟩ := hstep
    exact h.rename hw hphase hfs

end Sound

/-! ### What a step does to the files -/

/-- What a step of one participant of process `p` can do. It writes, or it is
not writing and removes names, or it does neither; it may leave off writing and
begin anew. -/
inductive Move [DecidableEq D] (p : P) :
    Store D T P B → Option (Writer D T B) → Store D T P B → Option (Writer D T B) → Prop
  | stay {store w w'} (hw' : ∀ v ∈ w', v.phase = .makeDir) : Move p store w store w'
  | unlink {store} (d : D) (m : EntryName T P) :
      Move p store none { store with fs := store.fs.unlink d m } none
  | removeDir {store d fs} (hfs : store.fs.removeDir? d = some fs) :
      Move p store none { store with fs } none
  | advance {store count w store' w'} (h : advance store p count w = some (store', some w')) :
      Move p store (some w) store' (some w')
  | finish {store count w store' w'} (h : AtomicWrite.advance store p count w = some (store', none))
      (hw' : ∀ v ∈ w', v.phase = .makeDir) : Move p store (some w) store' w'

section View

variable {fs fs' : FileSystem D (EntryName T P) B} {pid : W → P}
  {writers : W → Option (Writer D T B)} {store store' : Store D T P B} {x : W}
  {w : Writer D T B} {offered : D → T → List B → Prop}

theorem view_congr (hlink : ∀ d t, fs'.link d (.target t) = fs.link d (.target t))
    (hcontent : ∀ {d t i}, fs.link d (.target t) = some i → fs'.content i = fs.content i) :
    view fs' = view fs := by
  funext d t
  unfold view FileSystem.read?
  rw [hlink]
  cases hi : fs.link d (.target t) with
  | none => rfl
  | some i => simp [hcontent hi]

variable [DecidableEq D]

theorem view_removeDir {d : D} (h : fs.removeDir? d = some fs') : view fs' = view fs := by
  obtain ⟨hcontent, -, hlink⟩ := FileSystem.removeDir_spec h
  exact view_congr (fun d t => by rw [hlink]) fun _ => by rw [hcontent]

/-- Removing a name removes the file if the name is that of a target. -/
theorem view_unlink (fs : FileSystem D (EntryName T P) B) (d : D) (m : EntryName T P) :
    view (fs.unlink d m) = view fs ∨ Replaces offered (view fs) (view (fs.unlink d m)) := by
  cases m with
  | target t =>
    right
    apply Replaces.withdraw (d := d) (t := t)
    intro d' t'
    unfold view FileSystem.read?
    rw [FileSystem.link_unlink]
    simp only [EntryName.target.injEq]
    split_ifs <;> rfl
  | temp t p n =>
    left
    apply view_congr
    · intro d' t'
      rw [FileSystem.link_unlink, if_neg (by simp)]
    · exact fun _ => rfl

/-- A step of a writer leaves every file as it is, or it is the last one and
replaces the target by the whole of the data. -/
theorem view_advance (h : Sound pid writers store) (hw : writers x = some w) {count : ℕ}
    {w' : Option (Writer D T B)} (hstep : advance store (pid x) count w = some (store', w')) :
    view store'.fs = view store.fs ∨ w' = none ∧ ∀ d t, view store'.fs d t =
      if d = w.dir ∧ t = w.target then some w.data else view store.fs d t := by
  have howns := h.owns hw
  unfold advance at hstep
  unfold Owns at howns
  cases hphase : w.phase with
  | makeDir =>
    simp only [hphase, Option.some.injEq, Prod.mk.injEq] at hstep
    obtain ⟨rfl, rfl⟩ := hstep
    left
    exact view_congr (fun _ _ => FileSystem.link_makeDir) fun _ => rfl
  | number | sync n =>
    simp only [hphase, Option.some.injEq, Prod.mk.injEq] at hstep
    obtain ⟨rfl, rfl⟩ := hstep
    exact .inl rfl
  | create n =>
    simp only [hphase, Option.map_eq_some_iff, Prod.mk.injEq] at hstep howns
    obtain ⟨⟨fs, i⟩, hopened, rfl, rfl⟩ := hstep
    obtain ⟨rfl, -, hcontent, hlink⟩ := FileSystem.create_spec (howns _ _) hopened
    left
    apply view_congr
    · intro d t
      rw [hlink, if_neg (by simp)]
    · intro d t i hi
      rw [hcontent, Function.update_of_ne (h.linked.lt_next hi).ne]
  | write n i k =>
    simp only [hphase] at hstep howns
    left
    split_ifs at hstep
    · simp only [Option.some.injEq, Prod.mk.injEq] at hstep
      obtain ⟨rfl, rfl⟩ := hstep
      rfl
    · simp only [Option.some.injEq, Prod.mk.injEq] at hstep
      obtain ⟨rfl, rfl⟩ := hstep
      apply view_congr
      · exact fun _ _ => rfl
      · intro d t j hj
        have hne : j ≠ i := by
          rintro rfl
          exact absurd (howns.2.2.1 d _ hj).2 (by simp)
        exact Function.update_of_ne hne _ _
  | reopen n =>
    simp only [hphase, Option.map_eq_some_iff, Prod.mk.injEq] at hstep
    obtain ⟨i, -, rfl, rfl⟩ := hstep
    exact .inl rfl
  | rename n =>
    simp only [hphase, Option.map_eq_some_iff, Prod.mk.injEq] at hstep howns
    obtain ⟨fs, hfs, rfl, rfl⟩ := hstep
    obtain ⟨i, hi, hcontent, -, hlink⟩ := FileSystem.rename_spec (by simp) hfs
    refine .inr ⟨rfl, fun d t => ?_⟩
    unfold view FileSystem.read?
    rw [hlink]
    simp only [EntryName.target.injEq, reduceCtorEq, and_false, if_false]
    split_ifs
    · rw [Option.map_some, hcontent, howns i hi]
    · rw [hcontent]

/-- A writer keeps its directory, its target and its data. -/
theorem advance_job {p : P} {count : ℕ} {w' : Writer D T B}
    (hstep : advance store p count w = some (store', some w')) :
    w'.dir = w.dir ∧ w'.target = w.target ∧ w'.data = w.data := by
  unfold advance at hstep
  cases hphase : w.phase with
  | makeDir | number | sync n =>
    simp only [hphase, Option.some.injEq, Prod.mk.injEq] at hstep
    obtain ⟨-, rfl⟩ := hstep
    exact ⟨rfl, rfl, rfl⟩
  | create n | reopen n =>
    simp only [hphase, Option.map_eq_some_iff, Prod.mk.injEq, Option.some.injEq] at hstep
    obtain ⟨_, -, -, rfl⟩ := hstep
    exact ⟨rfl, rfl, rfl⟩
  | write n i k =>
    simp only [hphase] at hstep
    split_ifs at hstep <;> simp only [Option.some.injEq, Prod.mk.injEq] at hstep <;>
      obtain ⟨-, rfl⟩ := hstep <;> exact ⟨rfl, rfl, rfl⟩
  | rename n =>
    simp [hphase] at hstep

variable {u u' : Option (Writer D T B)}

/-- Every step keeps the writers sound. -/
theorem Sound.move [DecidableEq W] (h : Sound pid writers store) (hu : writers x = u)
    (hmove : Move (pid x) store u store' u') :
    Sound pid (Function.update writers x u') store' := by
  have hkeep : u' = u → Function.update writers x u' = writers := by
    intro heq
    rw [heq, ← hu, Function.update_eq_self]
  cases hmove with
  | stay hw' => exact h.replace hw'
  | unlink d m =>
    rw [hkeep rfl]
    exact h.unlink d m
  | removeDir hfs =>
    rw [hkeep rfl]
    exact h.removeDir hfs
  | advance hstep => exact h.advance hu hstep
  | finish hstep hw' =>
    have hdone := (h.advance hu hstep).replace (x := x) hw'
    rwa [Function.update_idem] at hdone

theorem view_move (h : Sound pid writers store) (hu : writers x = u)
    (hoffered : ∀ w ∈ u, offered w.dir w.target w.data) (hmove : Move (pid x) store u store' u') :
    view store'.fs = view store.fs ∨ Replaces offered (view store.fs) (view store'.fs) := by
  cases hmove with
  | stay hw' => exact .inl rfl
  | unlink d m => exact view_unlink store.fs d m
  | removeDir hfs => exact .inl (view_removeDir hfs)
  | advance hstep =>
    rcases view_advance h hu hstep with heq | ⟨hnone, -⟩
    · exact .inl heq
    · cases hnone
  | finish hstep hw' =>
    rcases view_advance h hu hstep with heq | ⟨-, hview⟩
    · exact .inl heq
    · exact .inr (.publish (hoffered _ rfl) hview)

end View

end PitBox.AtomicWrite
