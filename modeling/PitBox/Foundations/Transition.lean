import Mathlib.Algebra.GroupWithZero.Nat
import Mathlib.Logic.Basic
import Mathlib.Data.List.Induction
import Mathlib.Data.Set.Insert

/-!
# Labelled transition systems with resolved choices

A step function takes a state and a label that resolves every choice of the
environment, and returns no state when the label is not enabled. A run is a
list of labels. Conditions on a run are conditions on each of its labels and
on the state the label is taken in, so a run that avoids some kind of step is
a run along which the negation of that kind holds.
-/

namespace PitBox.Transition

variable {σ α τ : Type*} {step : σ → α → Option σ}

/-- The state after a list of labels, if every one of them is enabled. -/
def exec (step : σ → α → Option σ) : σ → List α → Option σ
  | s, [] => some s
  | s, a :: as => (step s a).bind fun t => exec step t as

@[simp] theorem exec_nil (s : σ) : exec step s [] = some s := rfl

theorem exec_cons {s t : σ} {a : α} {as : List α} :
    exec step s (a :: as) = some t ↔ ∃ u, step s a = some u ∧ exec step u as = some t := by
  simp [exec, Option.bind_eq_some_iff]

theorem exec_append {s : σ} {as bs : List α} :
    exec step s (as ++ bs) = (exec step s as).bind fun t => exec step t bs := by
  induction as generalizing s with
  | nil => rfl
  | cons a as ih =>
    cases h : step s a with
    | none => simp [exec, h]
    | some t => simpa [exec, h] using ih

/-- Every label of the run meets `C` in the state it is taken in. -/
def Along (step : σ → α → Option σ) (C : σ → α → Prop) : σ → List α → Prop
  | _, [] => True
  | s, a :: as => C s a ∧ ∀ t ∈ step s a, Along step C t as

instance Along.decidable {C : σ → α → Prop} [∀ s a, Decidable (C s a)] :
    ∀ (s : σ) (as : List α), Decidable (Along step C s as)
  | _, [] => isTrue trivial
  | s, a :: as =>
    have (t : σ) : Decidable (Along step C t as) := decidable t as
    inferInstanceAs (Decidable (C s a ∧ ∀ t ∈ step s a, Along step C t as))

theorem along_of_forall {C : σ → α → Prop} {as : List α} (h : ∀ s, ∀ a ∈ as, C s a) :
    ∀ s, Along step C s as := by
  induction as with
  | nil => intro s; trivial
  | cons a as ih =>
    intro s
    exact ⟨h s a (by simp), fun t _ => ih (fun s b hb => h s b (by simp [hb])) t⟩

theorem Along.mono {C D : σ → α → Prop} (h : ∀ s a, C s a → D s a) :
    ∀ {as : List α} {s : σ}, Along step C s as → Along step D s as := by
  intro as
  induction as with
  | nil => exact fun _ => trivial
  | cons a as ih => exact fun hC => ⟨h _ _ hC.1, fun t ht => ih (hC.2 t ht)⟩

theorem exec_invariant {C : σ → α → Prop} {I : σ → Prop}
    (keep : ∀ s a t, I s → C s a → step s a = some t → I t) :
    ∀ {as : List α} {s t : σ}, I s → Along step C s as → exec step s as = some t → I t := by
  intro as
  induction as with
  | nil =>
    intro s t hs _ h
    cases h
    exact hs
  | cons a as ih =>
    intro s t hs hC h
    obtain ⟨u, hu, ht⟩ := exec_cons.mp h
    exact ih (keep s a u hs hC.1 hu) (hC.2 u hu) ht

theorem exec_invariant_of_step {I : σ → Prop}
    (keep : ∀ s a t, I s → step s a = some t → I t)
    {as : List α} {s t : σ} (hs : I s) (h : exec step s as = some t) : I t :=
  exec_invariant (C := fun _ _ => True) (fun s a t hs _ => keep s a t hs) hs
    (along_of_forall (fun _ _ _ => trivial) s) h

/-- The states a run passes through, its first and last included. -/
def visited (step : σ → α → Option σ) (s : σ) (as : List α) : Set σ :=
  {u | ∃ bs, bs <+: as ∧ exec step s bs = some u}

theorem visited_nil (s : σ) : visited step s [] = {s} := by
  ext u
  simp [visited, exec, eq_comm]

theorem visited_cons {s t : σ} {a : α} (h : step s a = some t) (as : List α) :
    visited step s (a :: as) = insert s (visited step t as) := by
  ext v
  simp only [visited, Set.mem_ofPred_eq, Set.mem_insert_iff, List.prefix_cons_iff]
  constructor
  · rintro ⟨bs, rfl | ⟨cs, rfl, hcs⟩, hv⟩
    · exact .inl (Option.some.inj hv).symm
    · obtain ⟨u, hu, hv⟩ := exec_cons.mp hv
      obtain rfl := Option.some.inj (h.symm.trans hu)
      exact .inr ⟨cs, hcs, hv⟩
  · rintro (rfl | ⟨cs, hcs, hv⟩)
    · exact ⟨[], .inl rfl, rfl⟩
    · exact ⟨a :: cs, .inr ⟨cs, rfl, hcs⟩, exec_cons.mpr ⟨t, h, hv⟩⟩

theorem visited_concat {s t u : σ} {as : List α} {a : α} (h : exec step s as = some t)
    (hu : step t a = some u) : visited step s (as ++ [a]) = insert u (visited step s as) := by
  have hrun : exec step s (as ++ [a]) = some u := by
    rw [exec_append, h]
    exact exec_cons.mpr ⟨u, hu, rfl⟩
  ext v
  simp only [visited, Set.mem_ofPred_eq, Set.mem_insert_iff, List.prefix_concat_iff]
  constructor
  · rintro ⟨bs, rfl | hbs, hv⟩
    · exact .inl (Option.some.inj (hv.symm.trans hrun))
    · exact .inr ⟨bs, hbs, hv⟩
  · rintro (rfl | ⟨bs, hbs, hv⟩)
    · exact ⟨_, .inl rfl, hrun⟩
    · exact ⟨bs, .inr hbs, hv⟩

/-- The rule for invariants that speak of the states passed through so far. -/
theorem exec_history {I : Set σ → σ → Prop}
    (keep : ∀ V s a t, I V s → step s a = some t → I (insert t V) t) {s : σ} (hs : I {s} s) :
    ∀ {as : List α} {t : σ}, exec step s as = some t → I (visited step s as) t := by
  intro as
  induction as using List.reverseRecOn with
  | nil =>
    intro t h
    cases h
    rw [visited_nil]
    exact hs
  | append_singleton as a ih =>
    intro t h
    rw [exec_append] at h
    obtain ⟨u, hu, h⟩ := Option.bind_eq_some_iff.mp h
    obtain ⟨v, hv, hlast⟩ := exec_cons.mp h
    obtain rfl := Option.some.inj hlast
    rw [visited_concat hu hv]
    exact keep _ u a v (ih hu) hv

/-- If a property is lost in exactly the steps that do not meet `C`, a run keeps
it in exactly the case that all its steps meet `C`. -/
theorem forall_visited_iff {C : σ → α → Prop} {I P : σ → Prop}
    (keep : ∀ s a t, I s → step s a = some t → I t)
    (next : ∀ s a t, I s → P s → step s a = some t → (P t ↔ C s a)) :
    ∀ {as : List α} {s t : σ}, I s → P s → exec step s as = some t →
      ((∀ u ∈ visited step s as, P u) ↔ Along step C s as) := by
  intro as
  induction as with
  | nil =>
    intro s t _ hP _
    rw [visited_nil]
    exact iff_of_true (fun u hu => Set.mem_singleton_iff.mp hu ▸ hP) trivial
  | cons a as ih =>
    intro s t hI hP h
    obtain ⟨u, hu, ht⟩ := exec_cons.mp h
    have hstart : u ∈ visited step u as := ⟨[], List.nil_prefix, rfl⟩
    rw [visited_cons hu, Set.forall_mem_insert]
    constructor
    · rintro ⟨-, hall⟩
      have hPu := hall u hstart
      refine ⟨(next s a u hI hP hu).mp hPu, fun v hv => ?_⟩
      obtain rfl := Option.some.inj (hu.symm.trans hv)
      exact (ih (keep s a u hI hu) hPu ht).mp hall
    · rintro ⟨hC, hrest⟩
      have hPu := (next s a u hI hP hu).mpr hC
      exact ⟨hP, (ih (keep s a u hI hu) hPu ht).mpr (hrest u hu)⟩

/-- The states some run from `s₀` ends in. -/
def Reachable (step : σ → α → Option σ) (s₀ s : σ) : Prop :=
  ∃ as, exec step s₀ as = some s

theorem Reachable.trans {s₀ s t : σ} {as : List α} (h : Reachable step s₀ s)
    (hs : exec step s as = some t) : Reachable step s₀ t := by
  obtain ⟨bs, hbs⟩ := h
  refine ⟨bs ++ as, ?_⟩
  rw [exec_append, hbs]
  exact hs

theorem Reachable.after {s₀ s t : σ} {a : α} (h : Reachable step s₀ s) (hs : step s a = some t) :
    Reachable step s₀ t := by
  have hone : exec step s [a] = some t := exec_cons.mpr ⟨t, hs, rfl⟩
  exact h.trans hone

theorem Reachable.invariant {I : σ → Prop} {s₀ s : σ} (h : Reachable step s₀ s) (h₀ : I s₀)
    (keep : ∀ s a t, I s → step s a = some t → I t) : I s := by
  obtain ⟨as, has⟩ := h
  exact exec_invariant_of_step keep h₀ has

/-- A quantity that each step raises by the weight of its label has risen by
the weight of the whole run. -/
theorem exec_weight {f : σ → ℕ} {w : α → ℕ} (I : σ → Prop)
    (keep : ∀ s a t, I s → step s a = some t → I t)
    (rise : ∀ s a t, I s → step s a = some t → f t = f s + w a) :
    ∀ {as : List α} {s t : σ}, I s → exec step s as = some t → f t = f s + (as.map w).sum := by
  intro as
  induction as with
  | nil =>
    intro s t _ h
    cases h
    simp
  | cons a as ih =>
    intro s t hs h
    obtain ⟨u, hu, ht⟩ := exec_cons.mp h
    have h₁ := rise s a u hs hu
    have h₂ := ih (keep s a u hs hu) ht
    simp only [List.map_cons, List.sum_cons]
    omega

/-- A potential that pays for the weight of every step pays for the whole run. -/
theorem exec_potential {f : σ → ℕ} {w : α → ℕ} (I : σ → Prop)
    (keep : ∀ s a t, I s → step s a = some t → I t)
    (pay : ∀ s a t, I s → step s a = some t → f t + w a ≤ f s) :
    ∀ {as : List α} {s t : σ}, I s → exec step s as = some t → f t + (as.map w).sum ≤ f s := by
  intro as
  induction as with
  | nil =>
    intro s t _ h
    cases h
    simp
  | cons a as ih =>
    intro s t hs h
    obtain ⟨u, hu, ht⟩ := exec_cons.mp h
    have h₁ := pay s a u hs hu
    have h₂ := ih (keep s a u hs hu) ht
    simp only [List.map_cons, List.sum_cons]
    omega

/-- The same when a step may also pay from an income of its own. -/
theorem exec_budget {f : σ → ℕ} {w income : α → ℕ} (I : σ → Prop)
    (keep : ∀ s a t, I s → step s a = some t → I t)
    (pay : ∀ s a t, I s → step s a = some t → f t + w a ≤ f s + income a) :
    ∀ {as : List α} {s t : σ}, I s → exec step s as = some t →
      f t + (as.map w).sum ≤ f s + (as.map income).sum := by
  intro as
  induction as with
  | nil =>
    intro s t _ h
    cases h
    simp
  | cons a as ih =>
    intro s t hs h
    obtain ⟨u, hu, ht⟩ := exec_cons.mp h
    have h₁ := pay s a u hs hu
    have h₂ := ih (keep s a u hs hu) ht
    simp only [List.map_cons, List.sum_cons]
    omega

theorem exec_simulation {abs : σ → τ} {R : τ → τ → Prop} {I : σ → Prop} {J : τ → Prop}
    (keep : ∀ s a t, I s → step s a = some t → I t)
    (sim : ∀ s a t, I s → step s a = some t → abs t = abs s ∨ R (abs s) (abs t))
    (keepAbs : ∀ x y, J x → R x y → J y)
    {as : List α} {s t : σ} (hs : I s) (hJ : J (abs s)) (h : exec step s as = some t) :
    J (abs t) := by
  have hpair : I t ∧ J (abs t) := by
    refine exec_invariant_of_step (I := fun s => I s ∧ J (abs s)) ?_ ⟨hs, hJ⟩ h
    rintro s a t ⟨hs, hJ⟩ hstep
    refine ⟨keep s a t hs hstep, ?_⟩
    rcases sim s a t hs hstep with he | hR
    · rw [he]
      exact hJ
    · exact keepAbs _ _ hJ hR
  exact hpair.2

end PitBox.Transition
