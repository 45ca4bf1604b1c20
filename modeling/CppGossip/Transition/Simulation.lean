import CppGossip.Transition.Run
import Mathlib.Data.List.Forall2

/-!
# Simulations

One system is explained by another when related states stay related: each step
of the first is matched by a run of the second, which may be empty. `Explains`
limits by which events a step may be matched, so that what an event of the
second system says of the past says it of the first as well. `attempt` makes a
system of a step that may fail: after a failure nothing is done.
-/

namespace Transition

variable {σ τ ε δ φ : Type*}

/-- Steps that meet `V`, from states related by `R`, are matched by runs whose
steps meet `W`, with events that `Explains` admits. -/
def Simulation (step : σ → ε → σ) (V : σ → ε → Prop) (step' : τ → δ → τ) (W : τ → δ → Prop)
    (Explains : ε → List δ → Prop) (R : σ → τ → Prop) : Prop :=
  ∀ s t e, R s t → V s e →
    ∃ ds, Explains e ds ∧ Along step' W t ds ∧ R (step s e) (run step' t ds)

variable {step : σ → ε → σ} {V : σ → ε → Prop} {step' : τ → δ → τ} {W : τ → δ → Prop}
  {Explains : ε → List δ → Prop} {R : σ → τ → Prop}

/-- A run is matched step by step. -/
theorem Simulation.run (h : Simulation step V step' W Explains R) {s : σ} {t : τ} {es : List ε}
    (hR : R s t) (hV : Along step V s es) :
    ∃ dss, List.Forall₂ Explains es dss ∧ Along step' W t dss.flatten ∧
      R (run step s es) (run step' t dss.flatten) := by
  induction es generalizing s t with
  | nil => exact ⟨[], .nil, trivial, hR⟩
  | cons e es ih =>
      obtain ⟨ds, hds, hW, hnext⟩ := h s t e hR hV.1
      obtain ⟨dss, hdss, hrest, hend⟩ := ih hnext hV.2
      refine ⟨ds :: dss, .cons hds hdss, ?_, ?_⟩
      · rw [List.flatten_cons, along_append]
        exact ⟨hW, hrest⟩
      · rw [List.flatten_cons, run_append]
        exact hend

/-- What holds at the end of every run of the second system holds of a state
related to the end of the first one's. -/
theorem Simulation.invariant (h : Simulation step V step' W Explains R) {t : τ} {I : τ → Prop}
    (hI : ∀ ds, Along step' W t ds → I (Transition.run step' t ds)) {s : σ} {es : List ε}
    (hR : R s t) (hV : Along step V s es) : ∃ t', R (Transition.run step s es) t' ∧ I t' := by
  obtain ⟨dss, _, hW, hend⟩ := h.run hR hV
  exact ⟨_, hend, hI _ hW⟩

/-- An event that a run has been matched by matches a step of it. -/
theorem exists_explained {es : List ε} {dss : List (List δ)} (h : List.Forall₂ Explains es dss)
    {d : δ} (hd : d ∈ dss.flatten) : ∃ e ∈ es, ∃ ds, Explains e ds ∧ d ∈ ds := by
  induction h with
  | nil => cases hd
  | @cons first ds _ _ hds _ ih =>
      rw [List.flatten_cons, List.mem_append] at hd
      rcases hd with hfirst | hrest
      · exact ⟨first, List.mem_cons_self, ds, hds, hfirst⟩
      · obtain ⟨e', he', ds', hds', hmem⟩ := ih hrest
        exact ⟨e', List.mem_cons_of_mem first he', ds', hds', hmem⟩

/-! ## Steps that may fail -/

/-- The step of a system that stops where `handle` fails. -/
def attempt (handle : σ → ε → Except φ σ) (s : Except φ σ) (e : ε) : Except φ σ :=
  s.bind fun s => handle s e

/-- What holds of a state as long as there is one. -/
def WhileUp (P : σ → Prop) (s : Except φ σ) : Prop := ∀ a, s = .ok a → P a

instance WhileUp.decidable {P : σ → Prop} [∀ s, Decidable (P s)] :
    ∀ x : Except φ σ, Decidable (WhileUp P x)
  | .error _ => isTrue fun _ ha => by cases ha
  | .ok s => decidable_of_iff (P s) ⟨fun h _ ha => Except.ok.inj ha ▸ h, fun h => h s rfl⟩

variable {handle : σ → ε → Except φ σ}

@[simp] theorem attempt_ok (s : σ) (e : ε) : attempt handle (.ok s) e = handle s e := rfl

@[simp] theorem attempt_error (f : φ) (e : ε) : attempt handle (.error f) e = .error f := rfl

theorem run_attempt_error (f : φ) (es : List ε) :
    run (attempt handle) (.error f) es = .error f := by
  induction es with
  | nil => rfl
  | cons e es ih => exact ih

@[simp] theorem whileUp_ok (P : σ → Prop) (s : σ) : WhileUp (φ := φ) P (.ok s) ↔ P s :=
  ⟨fun h => h s rfl, fun h _ ha => Except.ok.inj ha ▸ h⟩

theorem whileUp_error (P : σ → Prop) (f : φ) : WhileUp P (.error f) := fun _ ha => by cases ha

/-- A step that does not fail keeps an invariant, and a failure cannot break it. -/
theorem WhileUp.attempt {I : σ → Prop} {V : σ → ε → Prop}
    (hstep : ∀ s e s', I s → V s e → handle s e = .ok s' → I s') {x : Except φ σ} {e : ε}
    (h : WhileUp I x) (hV : WhileUp (V · e) x) : WhileUp I (attempt handle x e) := by
  cases x with
  | error f => exact whileUp_error I f
  | ok s => exact fun s' hs' => hstep s e s' (h s rfl) (hV s rfl) hs'

theorem along_attempt_error (C : σ → ε → Prop) (f : φ) (es : List ε) :
    Along (attempt handle) (fun x e => WhileUp (C · e) x) (.error f) es := by
  induction es with
  | nil => trivial
  | cons e es ih => exact ⟨whileUp_error _ f, ih⟩

/-- A run fails only in the ways `Good` when each of its steps does. -/
theorem along_good_iff (Good : φ → Prop) (s : σ) (es : List ε) :
    Along (attempt handle) (fun x e => WhileUp (fun s => ∀ f, handle s e = .error f → Good f) x)
        (.ok s) es ↔
      ∀ f, run (attempt handle) (.ok s) es = .error f → Good f := by
  induction es generalizing s with
  | nil => simp
  | cons e es ih =>
      rw [along_cons, whileUp_ok, run_cons, attempt_ok]
      cases hs' : handle s e with
      | error f =>
          rw [run_attempt_error]
          exact and_iff_left (along_attempt_error _ f es)
      | ok s' =>
          rw [ih s']
          exact and_iff_right fun f hf => by cases hf

/-- Under an invariant `I`, a run fails only in the ways `Good` when its steps meet
the condition `C` under which one step does. -/
theorem fails_only_iff {I : σ → Prop} {V C : σ → ε → Prop} {Good : φ → Prop}
    (hI : ∀ s e s', I s → V s e → handle s e = .ok s' → I s')
    (hC : ∀ s e, I s → V s e → ((∀ f, handle s e = .error f → Good f) ↔ C s e)) {s : σ}
    {es : List ε} (hs : I s)
    (hv : Along (attempt handle) (fun x e => WhileUp (V · e) x) (.ok s) es) :
    (∀ f, run (attempt handle) (.ok s) es = .error f → Good f) ↔
      Along (attempt handle) (fun x e => WhileUp (C · e) x) (.ok s) es := by
  rw [← along_good_iff]
  refine along_iff_along (fun x e h hV _ => h.attempt hI hV) (fun x e h hV => ?_)
    ((whileUp_ok I s).2 hs) hv
  exact forall₂_congr fun s hs => hC s e (h s hs) (hV s hs)

/-- To simulate a system whose steps may fail, it is enough to match those that
do not. -/
theorem simulation_attempt (hnil : ∀ e, Explains e [])
    (h : ∀ s t e s', R s t → V s e → handle s e = .ok s' →
      ∃ ds, Explains e ds ∧ Along step' W t ds ∧ R s' (Transition.run step' t ds)) :
    Simulation (attempt handle) (fun x e => WhileUp (V · e) x) step' W Explains
      (fun x t => WhileUp (R · t) x) := by
  intro x t e hR hV
  have hidle : (∀ s', attempt handle x e ≠ .ok s') →
      ∃ ds, Explains e ds ∧ Along step' W t ds ∧
        WhileUp (R · (Transition.run step' t ds)) (attempt handle x e) := fun hfail =>
    ⟨[], hnil e, trivial, fun s' hs' => absurd hs' (hfail s')⟩
  cases x with
  | error f => exact hidle fun s' hs' => by cases hs'
  | ok s =>
      cases hs' : handle s e with
      | error f => exact hidle fun s' hok => by simp [hs'] at hok
      | ok s' =>
          obtain ⟨ds, hds, hW, hnext⟩ := h s t e s' (hR s rfl) (hV s rfl) hs'
          refine ⟨ds, hds, hW, ?_⟩
          rw [attempt_ok, hs']
          exact (whileUp_ok _ s').2 hnext

end Transition
