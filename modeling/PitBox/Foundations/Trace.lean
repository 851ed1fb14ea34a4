import Mathlib.Data.List.Induction

/-!
# Traces whose events are justified by what came before

A trace is a list of events, the latest last. A justification relates an event
to the trace before it, and a trace is justified when each of its events is.
-/

namespace PitBox.Trace

variable {ε : Type*} {J : List ε → ε → Prop} {trace : List ε}

/-- Every event is justified by the events before it. -/
def Justified (J : List ε → ε → Prop) (trace : List ε) : Prop :=
  ∀ before event after, trace = before ++ event :: after → J before event

theorem justified_nil : Justified J [] := by
  intro before event after h
  simp at h

theorem Justified.concat {event : ε} (h : Justified J trace) (hevent : J trace event) :
    Justified J (trace ++ [event]) := by
  intro before x after heq
  induction after using List.reverseRecOn with
  | nil =>
    obtain ⟨rfl, hx⟩ := List.append_inj' heq rfl
    obtain rfl := List.singleton_inj.mp hx
    exact hevent
  | append_singleton after y _ =>
    rw [← List.cons_append, ← List.append_assoc] at heq
    exact h before x after (List.append_inj' heq rfl).1

end PitBox.Trace
