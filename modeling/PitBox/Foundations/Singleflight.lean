import Mathlib.Logic.Function.Basic
import PitBox.Foundations.Ledger

/-!
# Single flights over a map of once-cells

Processes look a cell up under a key, wait for it or initialise it, and leave
it with a result. A failed result takes the key out of the map, so that a later
process starts over with a new cell. There is at most one initialiser for each
key as long as no removal takes out a cell that is neither ready nor unused:
then a cell that is still awaited is always the one in the map.
-/

namespace PitBox.Singleflight

open Table Ledger

/-- A cell that is initialised at most once at a time. -/
inductive OnceCell (ρ : Type*) where
  | empty
  | initializing
  | ready (result : ρ)

namespace OnceCell

variable {ρ : Type*}

def isInitializing : OnceCell ρ → Bool
  | initializing => true
  | _ => false

def isReady : OnceCell ρ → Bool
  | ready _ => true
  | _ => false

end OnceCell

/-- What a process has to do with the cells. -/
inductive Use where
  | outside
  | waiting (cell : ℕ)
  | initializing (cell : ℕ)
  deriving DecidableEq, Repr

namespace Use

def cell? : Use → Option ℕ
  | outside => none
  | waiting c | initializing c => some c

def initializes (cell : ℕ) : Use → Bool
  | initializing c => c == cell
  | _ => false

end Use

/-- The map from keys to cells, and the cells ever made. -/
structure Flights (κ ρ : Type*) where
  map : κ → Option ℕ
  cells : List (OnceCell ρ)

variable {κ ρ β : Type*}

namespace Flights

variable [DecidableEq κ] (f : Flights κ ρ)

/-- The cell of a key, made if the key has none. -/
def entry (k : κ) : Flights κ ρ × ℕ :=
  match f.map k with
  | some c => (f, c)
  | none =>
    (⟨Function.update f.map k (some f.cells.length), f.cells ++ [.empty]⟩, f.cells.length)

theorem entry_map (k : κ) : (f.entry k).1.map k = some (f.entry k).2 := by
  unfold entry
  cases h : f.map k with
  | some c => exact h
  | none => simp

def remove (k : κ) : Flights κ ρ := { f with map := Function.update f.map k none }

def setCell (f : Flights κ ρ) (c : ℕ) (cell : OnceCell ρ) : Flights κ ρ :=
  { f with cells := f.cells.set c cell }

end Flights

/-- What one step of a process with key `k` can do. -/
inductive Move [DecidableEq κ] (k : κ) : Flights κ ρ → Use → Flights κ ρ → Use → Prop
  | keep {f u} : Move k f u f u
  | leave {f c} : Move k f (.waiting c) f .outside
  | remove {m cells} : Move k ⟨m, cells⟩ .outside ⟨Function.update m k none, cells⟩ .outside
  | found {f c} : f.map k = some c → Move k f .outside f (.waiting c)
  | insert {m cells} : m k = none → Move k ⟨m, cells⟩ .outside
      ⟨Function.update m k (some cells.length), cells ++ [.empty]⟩ (.waiting cells.length)
  | acquire {m cells c} : cells[c]? = some .empty →
      Move k ⟨m, cells⟩ (.waiting c) ⟨m, cells.set c .initializing⟩ (.initializing c)
  | settle {m cells c cell} : cell.isInitializing = false →
      Move k ⟨m, cells⟩ (.initializing c) ⟨m, cells.set c cell⟩ .outside

namespace Move

variable [DecidableEq κ] {k : κ} {f f' : Flights κ ρ} {u u' : Use}

theorem entry : Move k f .outside (f.entry k).1 (.waiting (f.entry k).2) := by
  unfold Flights.entry
  cases h : f.map k with
  | some c => exact .found h
  | none => exact .insert h

theorem length_le (h : Move k f u f' u') : f.cells.length ≤ f'.cells.length := by
  cases h <;> simp

theorem map_or_removed (h : Move k f u f' u') {k' : κ} {c : ℕ} (hc : f.map k' = some c) :
    f'.map k' = some c ∨ k' = k ∧ f'.map k = none := by
  cases h with
  | remove =>
    by_cases hk : k' = k
    · exact Or.inr ⟨hk, by simp⟩
    · exact Or.inl (by simpa [hk] using hc)
  | insert hnone =>
    have hk : k' ≠ k := by
      rintro rfl
      exact absurd (hnone.symm.trans hc) (by simp)
    exact Or.inl (by simpa [hk] using hc)
  | _ => exact Or.inl hc

theorem map_new (h : Move k f u f' u') {k' : κ} {c : ℕ} (hc : f'.map k' = some c) :
    f.map k' = some c ∨ c < f'.cells.length := by
  cases h with
  | remove =>
    by_cases hk : k' = k
    · simp [hk] at hc
    · exact Or.inl (by simpa [hk] using hc)
  | insert hnone =>
    by_cases hk : k' = k
    · simp only [hk, Function.update_self, Option.some.injEq] at hc
      exact Or.inr (by simp [hc])
    · exact Or.inl (by simpa [hk] using hc)
  | _ => exact Or.inl hc

theorem use_new (h : Move k f u f' u') {c : ℕ} (hc : u'.cell? = some c) :
    u.cell? = some c ∨ f'.map k = some c := by
  cases h with
  | keep | acquire => exact Or.inl hc
  | leave | remove | settle => cases hc
  | found hmap =>
    obtain rfl := Option.some.inj hc
    exact Or.inr hmap
  | insert =>
    obtain rfl := Option.some.inj hc
    exact Or.inr (by simp)

/-- What becomes of one cell: its permit moves with the process, and it does not
lose a result, or it was just made. -/
theorem cell (h : Move k f u f' u')
    (hlocked : ∀ c cell, u = .initializing c → f.cells[c]? = some cell → cell.isReady = false)
    (c : ℕ) (cell' : OnceCell ρ) (hc : f'.cells[c]? = some cell') :
    (∃ cell, f.cells[c]? = some cell ∧
        LockMove (Use.initializes c) cell.isInitializing u cell'.isInitializing u' ∧
        (cell'.isReady = false → cell.isReady = false)) ∨
      c = f.cells.length ∧ cell' = .empty ∧ u.initializes c = false ∧
        u'.initializes c = false := by
  cases h with
  | keep | leave | remove | found => exact Or.inl ⟨cell', hc, .keep rfl, id⟩
  | @insert m cells hnone =>
    by_cases hlt : c < cells.length
    · rw [List.getElem?_append_left hlt] at hc
      exact Or.inl ⟨cell', hc, .keep rfl, id⟩
    · have hlast : c = cells.length := by
        have := (List.getElem?_eq_some_iff.mp hc).1
        simp only [List.length_append, List.length_singleton] at this
        omega
      subst hlast
      refine Or.inr ⟨rfl, ?_, rfl, rfl⟩
      simpa using hc.symm
  | @acquire m cells c₀ hempty =>
    by_cases hsame : c₀ = c
    · subst hsame
      rw [List.getElem?_set_self (List.getElem?_eq_some_iff.mp hempty).1] at hc
      obtain rfl := Option.some.inj hc
      exact Or.inl ⟨.empty, hempty, .acquire rfl (by simp [Use.initializes]), fun _ => rfl⟩
    · rw [List.getElem?_set_ne hsame] at hc
      exact Or.inl ⟨cell', hc, .keep (by simp [Use.initializes, hsame]), id⟩
  | @settle m cells c₀ cell₀ hsettled =>
    by_cases hsame : c₀ = c
    · subst hsame
      have hlt : c₀ < cells.length := by
        simpa using (List.getElem?_eq_some_iff.mp hc).1
      rw [List.getElem?_set_self hlt] at hc
      obtain rfl := Option.some.inj hc
      have hbefore := List.getElem?_eq_getElem hlt
      refine Or.inl ⟨_, hbefore, ?_, fun _ => hlocked c₀ _ rfl hbefore⟩
      rw [hsettled]
      exact .release (by simp [Use.initializes]) rfl
    · rw [List.getElem?_set_ne hsame] at hc
      exact Or.inl ⟨cell', hc, .keep (by simp [Use.initializes, hsame]), id⟩

end Move

/-- Every awaited cell exists, has one initialiser if it is being initialised,
and is the one in the map while it is not ready. -/
structure Tracked (key : β → κ) (use : β → Use) (f : Flights κ ρ) (xs : List β) : Prop where
  bounded : ∀ a ∈ xs, ∀ c, (use a).cell? = some c → c < f.cells.length
  mapped : ∀ k c, f.map k = some c → c < f.cells.length
  exclusive : ∀ c cell, f.cells[c]? = some cell →
    Exclusive cell.isInitializing (fun a => (use a).initializes c) xs
  current : ∀ a ∈ xs, ∀ c cell, (use a).cell? = some c → f.cells[c]? = some cell →
    cell.isReady = false → f.map (key a) = some c

namespace Tracked

variable {key : β → κ} {use : β → Use} {f f' : Flights κ ρ} {xs : List β}

theorem nil : Tracked key use (⟨fun _ => none, []⟩ : Flights κ ρ) ([] : List β) where
  bounded := by simp
  mapped := by simp
  exclusive := by simp
  current := by simp

theorem push (h : Tracked key use f xs) {b : β} (hb : use b = .outside) :
    Tracked key use f (xs ++ [b]) where
  bounded a ha c hc := by
    rcases List.mem_append.mp ha with ha | ha
    · exact h.bounded a ha c hc
    · obtain rfl := List.mem_singleton.mp ha
      simp [hb, Use.cell?] at hc
  mapped := h.mapped
  exclusive c cell hcell := (h.exclusive c cell hcell).push (by simp [hb, Use.initializes])
  current a ha c cell hc hcell hready := by
    rcases List.mem_append.mp ha with ha | ha
    · exact h.current a ha c cell hc hcell hready
    · obtain rfl := List.mem_singleton.mp ha
      simp [hb, Use.cell?] at hc

theorem isReady_of_initializes (h : Tracked key use f xs) {a : β} (ha : a ∈ xs) {c : ℕ}
    {cell : OnceCell ρ} (hc : use a = .initializing c) (hcell : f.cells[c]? = some cell) :
    cell.isReady = false := by
  have hheld := (h.exclusive c cell hcell).held_of_holder ha (by simp [hc, Use.initializes])
  cases cell with
  | ready result => cases hheld
  | _ => rfl

theorem map_of_initializes (h : Tracked key use f xs) {a : β} (ha : a ∈ xs) {c : ℕ}
    (hc : use a = .initializing c) : f.map (key a) = some c := by
  have huse : (use a).cell? = some c := by rw [hc, Use.cell?]
  have hcell := List.getElem?_eq_getElem (h.bounded a ha c huse)
  exact h.current a ha c _ huse hcell (h.isReady_of_initializes ha hc hcell)

/-- At most one process with a given key initialises a cell. -/
theorem tally_le_one (h : Tracked key use f xs) {k : κ} {p : β → Bool}
    (hp : ∀ a ∈ xs, p a = true → key a = k ∧ ∃ c, use a = .initializing c) :
    tally p xs ≤ 1 := by
  by_cases hsome : ∃ a ∈ xs, p a = true
  · obtain ⟨a, ha, hpa⟩ := hsome
    obtain ⟨hk, c, hc⟩ := hp a ha hpa
    have hmap := hk ▸ h.map_of_initializes ha hc
    have hcell := List.getElem?_eq_getElem (h.mapped k c hmap)
    have hle : tally p xs ≤ tally (fun a => (use a).initializes c) xs := by
      apply total_le_total
      intro b hb
      apply Bool.toNat_le_toNat
      intro hpb
      obtain ⟨hkb, c', hc'⟩ := hp b hb hpb
      have hsame := (hkb ▸ h.map_of_initializes hb hc').symm.trans hmap
      simp [hc', Use.initializes, Option.some.inj hsame]
    exact hle.trans ((h.exclusive c _ hcell).le.trans (Bool.toNat_le _))
  · have hzero : tally p xs = 0 := by
      apply tally_eq_zero.mpr
      intro a ha
      by_contra hpa
      exact hsome ⟨a, ha, by simpa using hpa⟩
    omega

/-- One step of a process. An entry that the step takes out of the map is ready
or of no use to anybody. -/
theorem move [DecidableEq κ] (h : Tracked key use f xs) {i : ℕ} {a b : β} (hi : xs[i]? = some a)
    (hkey : key b = key a) (hm : Move (key a) f (use a) f' (use b))
    (hremove : ∀ c, f.map (key a) = some c → f'.map (key a) = none →
      (∃ cell, f.cells[c]? = some cell ∧ cell.isReady = true) ∨
        ∀ x ∈ xs, (use x).cell? ≠ some c) :
    Tracked key use f' (xs.set i b) := by
  have ha := List.mem_of_getElem? hi
  have hmapped : ∀ k c, f'.map k = some c → c < f'.cells.length := by
    intro k c hc
    rcases hm.map_new hc with hold | hnew
    · exact (h.mapped k c hold).trans_le hm.length_le
    · exact hnew
  have hcells := hm.cell fun c cell hc hcell => h.isReady_of_initializes ha hc hcell
  -- an awaited cell that is not ready stays in the map
  have hcurrent : ∀ x ∈ xs, ∀ c cell', (use x).cell? = some c → f'.cells[c]? = some cell' →
      cell'.isReady = false → f'.map (key x) = some c := by
    intro x hx c cell' hc hcell hready
    rcases hcells c cell' hcell with ⟨cell, hbefore, -, hunready⟩ | ⟨rfl, -⟩
    · have hmap := h.current x hx c cell hc hbefore (hunready hready)
      rcases hm.map_or_removed hmap with hkept | ⟨hk, hgone⟩
      · exact hkept
      · rcases hremove c (hk ▸ hmap) hgone with ⟨cell₀, hcell₀, hready₀⟩ | hunused
        · obtain rfl := Option.some.inj (hbefore.symm.trans hcell₀)
          rw [hunready hready] at hready₀
          cases hready₀
        · exact absurd hc (hunused x hx)
    · exact absurd (h.bounded x hx _ hc) (lt_irrefl _)
  refine ⟨fun x hx c hc => ?_, hmapped, fun c cell' hcell => ?_,
    fun x hx c cell' hc hcell hready => ?_⟩
  · rcases List.mem_or_eq_of_mem_set hx with hx | rfl
    · exact (h.bounded x hx c hc).trans_le hm.length_le
    · rcases hm.use_new hc with hold | hnew
      · exact (h.bounded a ha c hold).trans_le hm.length_le
      · exact hmapped _ c hnew
  · rcases hcells c cell' hcell with ⟨cell, hbefore, hlock, -⟩ | ⟨rfl, rfl, hu, hu'⟩
    · exact (h.exclusive c cell hbefore).move hi hlock.comap
    · have hfree : Exclusive false (fun x => (use x).initializes f.cells.length) xs := by
        apply tally_eq_zero.mpr
        intro x hx
        cases hx' : use x with
        | initializing c =>
          have hlt := h.bounded x hx c (by rw [hx', Use.cell?])
          simp [Use.initializes, hlt.ne]
        | _ => rfl
      exact hfree.move hi (.keep (hu'.trans hu.symm))
  · rcases List.mem_or_eq_of_mem_set hx with hx | rfl
    · exact hcurrent x hx c cell' hc hcell hready
    · rw [hkey]
      rcases hm.use_new hc with hold | hnew
      · exact hcurrent a ha c cell' hold hcell hready
      · exact hnew

end Tracked

/-- Every awaited cell exists, and has one initialiser exactly while it is being
initialised, whatever is removed from the map. -/
structure Held (use : β → Use) (f : Flights κ ρ) (xs : List β) : Prop where
  bounded : ∀ a ∈ xs, ∀ c, (use a).cell? = some c → c < f.cells.length
  mapped : ∀ k c, f.map k = some c → c < f.cells.length
  exclusive : ∀ c cell, f.cells[c]? = some cell →
    Exclusive cell.isInitializing (fun a => (use a).initializes c) xs

namespace Held

variable {use : β → Use} {f f' : Flights κ ρ} {xs : List β}

theorem nil : Held use (⟨fun _ => none, []⟩ : Flights κ ρ) ([] : List β) where
  bounded := by simp
  mapped := by simp
  exclusive := by simp

theorem push (h : Held use f xs) {b : β} (hb : use b = .outside) : Held use f (xs ++ [b]) where
  bounded a ha c hc := by
    rcases List.mem_append.mp ha with ha | ha
    · exact h.bounded a ha c hc
    · obtain rfl := List.mem_singleton.mp ha
      simp [hb, Use.cell?] at hc
  mapped := h.mapped
  exclusive c cell hcell := (h.exclusive c cell hcell).push (by simp [hb, Use.initializes])

theorem isReady_of_initializes (h : Held use f xs) {a : β} (ha : a ∈ xs) {c : ℕ}
    {cell : OnceCell ρ} (hc : use a = .initializing c) (hcell : f.cells[c]? = some cell) :
    cell.isReady = false := by
  have hheld := (h.exclusive c cell hcell).held_of_holder ha (by simp [hc, Use.initializes])
  cases cell with
  | ready result => cases hheld
  | _ => rfl

theorem move [DecidableEq κ] (h : Held use f xs) {i : ℕ} {a b : β} {k : κ} (hi : xs[i]? = some a)
    (hm : Move k f (use a) f' (use b)) : Held use f' (xs.set i b) := by
  have ha := List.mem_of_getElem? hi
  have hmapped : ∀ k c, f'.map k = some c → c < f'.cells.length := by
    intro k c hc
    rcases hm.map_new hc with hold | hnew
    · exact (h.mapped k c hold).trans_le hm.length_le
    · exact hnew
  refine ⟨fun x hx c hc => ?_, hmapped, fun c cell' hcell => ?_⟩
  · rcases List.mem_or_eq_of_mem_set hx with hx | rfl
    · exact (h.bounded x hx c hc).trans_le hm.length_le
    · rcases hm.use_new hc with hold | hnew
      · exact (h.bounded a ha c hold).trans_le hm.length_le
      · exact hmapped _ c hnew
  · rcases hm.cell (fun c cell hc hcell => h.isReady_of_initializes ha hc hcell) c cell' hcell with
      ⟨cell, hbefore, hlock, -⟩ | ⟨rfl, rfl, hu, hu'⟩
    · exact (h.exclusive c cell hbefore).move hi hlock.comap
    · have hfree : Exclusive false (fun x => (use x).initializes f.cells.length) xs := by
        apply tally_eq_zero.mpr
        intro x hx
        cases hx' : use x with
        | initializing c =>
          have hlt := h.bounded x hx c (by rw [hx', Use.cell?])
          simp [Use.initializes, hlt.ne]
        | _ => rfl
      exact hfree.move hi (.keep (hu'.trans hu.symm))

theorem exists_initializer (h : Held use f xs) {c : ℕ}
    (hcell : f.cells[c]? = some .initializing) : ∃ a ∈ xs, use a = .initializing c := by
  have hone : tally (fun a => (use a).initializes c) xs = 1 := h.exclusive c _ hcell
  obtain ⟨a, ha, hinit⟩ := exists_of_tally_pos (hone ▸ Nat.one_pos)
  refine ⟨a, ha, ?_⟩
  revert hinit
  cases use a <;> simp [Use.initializes]

end Held

/-- Every cell belongs to one key: the map leads to it from no other key, only
processes with this key use it, and its result is right for it. -/
structure Keyed (P : κ → ρ → Prop) (key : β → κ) (use : β → Use) (f : Flights κ ρ)
    (keys : List κ) (xs : List β) : Prop where
  length : keys.length = f.cells.length
  mapped : ∀ k c, f.map k = some c → keys[c]? = some k
  used : ∀ a ∈ xs, ∀ c, (use a).cell? = some c → keys[c]? = some (key a)
  ready : ∀ (c : ℕ) k result, keys[c]? = some k →
    f.cells[c]? = some (OnceCell.ready result) → P k result

namespace Keyed

variable {P Q : κ → ρ → Prop} {key : β → κ} {use : β → Use} {f f' : Flights κ ρ}
  {keys : List κ} {xs : List β}

theorem nil : Keyed P key use (⟨fun _ => none, []⟩ : Flights κ ρ) [] ([] : List β) where
  length := rfl
  mapped := by simp
  used := by simp
  ready := by simp

theorem mono (h : Keyed P key use f keys xs) (hPQ : ∀ k result, P k result → Q k result) :
    Keyed Q key use f keys xs :=
  ⟨h.length, h.mapped, h.used, fun c k result hk hc => hPQ k result (h.ready c k result hk hc)⟩

theorem push (h : Keyed P key use f keys xs) {b : β} (hb : use b = .outside) :
    Keyed P key use f keys (xs ++ [b]) where
  length := h.length
  mapped := h.mapped
  used a ha c hc := by
    rcases List.mem_append.mp ha with ha | ha
    · exact h.used a ha c hc
    · obtain rfl := List.mem_singleton.mp ha
      simp [hb, Use.cell?] at hc
  ready := h.ready

theorem result (h : Keyed P key use f keys xs) {a : β} (ha : a ∈ xs) {c : ℕ} {result : ρ}
    (hc : (use a).cell? = some c) (hready : f.cells[c]? = some (.ready result)) :
    P (key a) result := h.ready c (key a) result (h.used a ha c hc) hready

/-- A process may take any step, as long as it settles a cell with a result that
is right for its own key. -/
theorem move [DecidableEq κ] (h : Keyed P key use f keys xs) {i : ℕ} {a b : β}
    (hi : xs[i]? = some a) (hkey : key b = key a) (hm : Move (key a) f (use a) f' (use b))
    (hsettle : ∀ c result, use a = .initializing c → f'.cells[c]? = some (.ready result) →
      P (key a) result) : ∃ keys', Keyed P key use f' keys' (xs.set i b) := by
  have ha := List.mem_of_getElem? hi
  -- a process keeps its key, and so does a cell
  have hused {keys' : List κ} (hold : ∀ (c : ℕ) k, keys[c]? = some k → keys'[c]? = some k)
      (hnew : ∀ c, (use b).cell? = some c → (use a).cell? = some c ∨ keys'[c]? = some (key a)) :
      ∀ x ∈ xs.set i b, ∀ c, (use x).cell? = some c → keys'[c]? = some (key x) := by
    intro x hx c hc
    rcases List.mem_or_eq_of_mem_set hx with hx | rfl
    · exact hold c _ (h.used x hx c hc)
    · rw [hkey]
      rcases hnew c hc with hc | hc
      · exact hold c _ (h.used a ha c hc)
      · exact hc
  have hself : ∀ c, (use a).cell? = some c → keys[c]? = some (key a) := h.used a ha
  generalize use a = u at hm hused hsettle hself
  generalize use b = u' at hm hused
  cases hm with
  | keep => exact ⟨keys, h.length, h.mapped, hused (fun _ _ hk => hk) fun _ => .inl, h.ready⟩
  | leave =>
    exact ⟨keys, h.length, h.mapped, hused (fun _ _ hk => hk) fun _ hc => (nomatch hc), h.ready⟩
  | @remove m cells =>
    refine ⟨keys, h.length, fun k c hc => ?_, hused (fun _ _ hk => hk) fun _ => .inl, h.ready⟩
    by_cases hk : k = key a
    · simp [hk] at hc
    · exact h.mapped k c (by simpa [hk] using hc)
  | @found f c hmap =>
    refine ⟨keys, h.length, h.mapped, hused (fun _ _ hk => hk) fun c' hc => .inr ?_, h.ready⟩
    obtain rfl := Option.some.inj hc
    exact h.mapped _ _ hmap
  | @insert m cells hnone =>
    have hlast : (keys ++ [key a])[cells.length]? = some (key a) := by
      rw [← h.length, List.getElem?_concat_length]
    have hold : ∀ (c : ℕ) k, keys[c]? = some k → (keys ++ [key a])[c]? = some k := fun c k hk => by
      rw [List.getElem?_append_left (List.getElem?_eq_some_iff.mp hk).1, hk]
    refine ⟨keys ++ [key a], by simp [h.length], fun k c hc => ?_,
      hused hold fun c hc => .inr ?_, fun c k result hk hc => ?_⟩
    · by_cases hk : k = key a
      · simp only [hk, Function.update_self, Option.some.injEq] at hc
        rw [hk, ← hc, hlast]
      · exact hold c k (h.mapped k c (by simpa [hk] using hc))
    · obtain rfl := Option.some.inj hc
      exact hlast
    · have hlt : c < cells.length := by
        by_contra hge
        have := (List.getElem?_eq_some_iff.mp hc).1
        simp only [List.length_append, List.length_singleton] at this
        obtain rfl : c = cells.length := by omega
        simp at hc
      rw [List.getElem?_append_left hlt] at hc
      rw [List.getElem?_append_left (by rw [h.length]; exact hlt)] at hk
      exact h.ready c k result hk hc
  | @acquire m cells c₀ hempty =>
    refine ⟨keys, by simp [h.length], h.mapped, hused (fun _ _ hk => hk) fun _ => .inl,
      fun c k result hk hc => ?_⟩
    by_cases hsame : c₀ = c
    · subst hsame
      simp [(List.getElem?_eq_some_iff.mp hempty).1] at hc
    · rw [List.getElem?_set_ne hsame] at hc
      exact h.ready c k result hk hc
  | @settle m cells c₀ cell hsettled =>
    refine ⟨keys, by simp [h.length], h.mapped,
      hused (fun _ _ hk => hk) fun _ hc => (nomatch hc), fun c k result hk hc => ?_⟩
    by_cases hsame : c₀ = c
    · subst hsame
      obtain rfl := Option.some.inj (hk.symm.trans (hself c₀ rfl))
      exact hsettle c₀ result rfl hc
    · rw [List.getElem?_set_ne hsame] at hc
      exact h.ready c k result hk hc

end Keyed

end PitBox.Singleflight
