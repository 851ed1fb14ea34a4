import Mathlib.Data.List.Forall2
import PitBox.Foundations.Transition

/-!
# Forward simulation

Every run of one system has a run of another that stays in a relation with it.
The relation may speak of something that the first system only comes to later,
as long as this never changes once it is settled: the rule then matches a step
knowing what the end of the run has settled. Systems that keep tables are
related entry by entry.
-/

namespace PitBox.Transition

variable {σ τ α β : Type*} {step : σ → α → Option σ} {step' : τ → β → Option τ}

theorem exec_foresight {F : σ → Prop} (back : ∀ s a t, step s a = some t → F t → F s) :
    ∀ {as : List α} {s t : σ}, exec step s as = some t → F t → F s := by
  intro as
  induction as with
  | nil =>
    intro s t h hF
    cases h
    exact hF
  | cons a as ih =>
    intro s t h hF
    obtain ⟨u, hu, ht⟩ := exec_cons.mp h
    exact back s a u hu (ih ht hF)

theorem exec_of_step {s t : σ} {a : α} (h : step s a = some t) : exec step s [a] = some t :=
  exec_cons.mpr ⟨t, h, rfl⟩

/-- If every step is matched by some steps of the other system that restore the
relation, every run is matched by a run. -/
theorem exec_matched {F : σ → Prop} {R : σ → τ → Prop} {C : α → Prop}
    (back : ∀ s a t, step s a = some t → F t → F s)
    (sim : ∀ s a t x, C a → F t → R s x → step s a = some t →
      ∃ bs y, exec step' x bs = some y ∧ R t y) :
    ∀ {as : List α} {s t : σ} {x : τ}, (∀ a ∈ as, C a) → exec step s as = some t → F t → R s x →
      ∃ bs y, exec step' x bs = some y ∧ R t y := by
  intro as
  induction as with
  | nil =>
    intro s t x _ h _ hR
    cases h
    exact ⟨[], x, exec_nil x, hR⟩
  | cons a as ih =>
    intro s t x hC h hF hR
    obtain ⟨u, hu, ht⟩ := exec_cons.mp h
    obtain ⟨bs, y, hy, hRu⟩ :=
      sim s a u x (hC a List.mem_cons_self) (exec_foresight back ht hF) hR hu
    obtain ⟨cs, z, hz, hRt⟩ := ih (fun b hb => hC b (List.mem_cons_of_mem a hb)) ht hF hRu
    refine ⟨bs ++ cs, z, ?_, hRt⟩
    rw [exec_append, hy, Option.bind_some, hz]

/-! ### Tables in step -/

section InStep

variable {R : α → β → Prop} {xs : List α} {ys : List β}

theorem exists_related (h : List.Forall₂ R xs ys) {i : ℕ} {x : α} (hx : xs[i]? = some x) :
    ∃ y, ys[i]? = some y ∧ R x y := by
  obtain ⟨hlt, rfl⟩ := List.getElem?_eq_some_iff.mp hx
  have hlt' : i < ys.length := h.length_eq ▸ hlt
  exact ⟨ys[i], List.getElem?_eq_getElem hlt', h.get hlt hlt'⟩

theorem exists_related' (h : List.Forall₂ R xs ys) {i : ℕ} {y : β} (hy : ys[i]? = some y) :
    ∃ x, xs[i]? = some x ∧ R x y := by
  obtain ⟨hlt, rfl⟩ := List.getElem?_eq_some_iff.mp hy
  have hlt' : i < xs.length := h.length_eq ▸ hlt
  exact ⟨xs[i], List.getElem?_eq_getElem hlt', h.get hlt' hlt⟩

theorem related_set (h : List.Forall₂ R xs ys) {x : α} {y : β} (hxy : R x y) (i : ℕ) :
    List.Forall₂ R (xs.set i x) (ys.set i y) := by
  induction h generalizing i with
  | nil => exact .nil
  | cons hab h ih =>
    cases i with
    | zero => exact .cons hxy h
    | succ i => exact .cons hab (ih i)

theorem related_set_left (h : List.Forall₂ R xs ys) {x : α} {y : β} {i : ℕ}
    (hy : ys[i]? = some y) (hxy : R x y) : List.Forall₂ R (xs.set i x) ys := by
  have hset := related_set h hxy i
  obtain ⟨hlt, rfl⟩ := List.getElem?_eq_some_iff.mp hy
  rwa [List.set_getElem_self] at hset

theorem related_set_right (h : List.Forall₂ R xs ys) {x : α} {y : β} {i : ℕ}
    (hx : xs[i]? = some x) (hxy : R x y) : List.Forall₂ R xs (ys.set i y) := by
  have hset := related_set h hxy i
  obtain ⟨hlt, rfl⟩ := List.getElem?_eq_some_iff.mp hx
  rwa [List.set_getElem_self] at hset

theorem related_concat (h : List.Forall₂ R xs ys) {x : α} {y : β} (hxy : R x y) :
    List.Forall₂ R (xs ++ [x]) (ys ++ [y]) := by
  induction h with
  | nil => exact .cons hxy .nil
  | cons hab h ih => exact .cons hab ih

theorem findIdx?_eq_of_map {p : α → Bool} {q : β → Bool} (h : xs.map p = ys.map q) :
    xs.findIdx? p = ys.findIdx? q := by
  have hxs : xs.findIdx? p = (xs.map p).findIdx? id := by
    rw [List.findIdx?_map]
    rfl
  have hys : ys.findIdx? q = (ys.map q).findIdx? id := by
    rw [List.findIdx?_map]
    rfl
  rw [hxs, hys, h]

end InStep

end PitBox.Transition
