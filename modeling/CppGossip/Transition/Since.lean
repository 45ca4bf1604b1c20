import CppGossip.Transition.Run

/-!
# What has held since a step of a run

`Since step A Q s es` is the past operator of temporal logic: some step of the
run of `es` from `s` met `A`, and every state from the end of that step on has
the property `Q`. It is built up event by event at the end of the run, so that
an invariant on histories is proved by induction on the last event.
-/

namespace Transition

variable {σ ε : Type*} {step : σ → ε → σ}

/-- Some step of the run met `A`, and `Q` has held in every state since. -/
def Since (step : σ → ε → σ) (A : σ → ε → Prop) (Q : σ → Prop) (s : σ) (es : List ε) : Prop :=
  ∃ es₁ e es₂, es = es₁ ++ e :: es₂ ∧ A (run step s es₁) e ∧
    Throughout step Q (step (run step s es₁) e) es₂

theorem not_since_nil (A : σ → ε → Prop) (Q : σ → Prop) (s : σ) : ¬ Since step A Q s [] := by
  rintro ⟨es₁, e, es₂, hsplit, _⟩
  exact List.cons_ne_nil _ _ (List.append_eq_nil_iff.1 hsplit.symm).2

theorem since_cons (A : σ → ε → Prop) (Q : σ → Prop) (s : σ) (e : ε) (es : List ε) :
    Since step A Q s (e :: es) ↔
      A s e ∧ Throughout step Q (step s e) es ∨ Since step A Q (step s e) es := by
  constructor
  · rintro ⟨es₁, d, es₂, hsplit, hA, hQ⟩
    cases es₁ with
    | nil =>
        obtain ⟨rfl, rfl⟩ := List.cons.inj hsplit
        exact Or.inl ⟨hA, hQ⟩
    | cons c es₁ =>
        obtain ⟨rfl, rfl⟩ := List.cons.inj hsplit
        exact Or.inr ⟨es₁, d, es₂, rfl, hA, hQ⟩
  · rintro (⟨hA, hQ⟩ | ⟨es₁, d, es₂, rfl, hA, hQ⟩)
    · exact ⟨[], e, es, rfl, hA, hQ⟩
    · exact ⟨e :: es₁, d, es₂, rfl, hA, hQ⟩

instance Since.decidable {A : σ → ε → Prop} {Q : σ → Prop} [∀ s e, Decidable (A s e)]
    [∀ s, Decidable (Q s)] : ∀ (s : σ) (es : List ε), Decidable (Since step A Q s es)
  | s, [] => isFalse (not_since_nil A Q s)
  | s, e :: es =>
      have := Since.decidable (A := A) (Q := Q) (step s e) es
      decidable_of_iff _ (since_cons A Q s e es).symm

theorem throughout_append_singleton (P : σ → Prop) (s : σ) (es : List ε) (e : ε) :
    Throughout step P s (es ++ [e]) ↔
      Throughout step P s es ∧ P (step (run step s es) e) := by
  induction es generalizing s with
  | nil => simp
  | cons d es ih => rw [List.cons_append, throughout_cons, ih, throughout_cons, run_cons, and_assoc]

theorem Since.of_last {A : σ → ε → Prop} {Q : σ → Prop} {s : σ} {es : List ε} {e : ε}
    (hA : A (run step s es) e) (hQ : Q (step (run step s es) e)) :
    Since step A Q s (es ++ [e]) :=
  ⟨es, e, [], rfl, hA, hQ⟩

theorem Since.extend {A : σ → ε → Prop} {Q : σ → Prop} {s : σ} {es : List ε} {e : ε}
    (h : Since step A Q s es) (hQ : Q (step (run step s es) e)) :
    Since step A Q s (es ++ [e]) := by
  obtain ⟨es₁, d, es₂, rfl, hA, hsince⟩ := h
  refine ⟨es₁, d, es₂ ++ [e], by simp, hA, ?_⟩
  rw [throughout_append_singleton]
  rw [run_append, run_cons] at hQ
  exact ⟨hsince, hQ⟩

end Transition
