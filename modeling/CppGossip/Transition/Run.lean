import Mathlib.Data.List.Basic
import Mathlib.Order.Basic

/-!
# Runs of a transition function

A system is a total function `step : σ → ε → σ`; a run is a finite list of
events, read from its first state on. `Along step C s es` says that every step
of the run meets the step condition `C`, and `Throughout step P s es` that
every state of the run, the first and the last included, has the property `P`.

The rules below are the ones a safety proof needs: an invariant is carried by
every step, a property of all states is the same as a condition on all steps
(`throughout_iff_along`), and a measure that no step lowers is constant on every
run that ends no higher than it began (`Along.constant`).
-/

namespace Transition

variable {σ ε : Type*} {step : σ → ε → σ}

/-- The state in which the run of `es` from `s` ends. -/
def run (step : σ → ε → σ) : σ → List ε → σ
  | s, [] => s
  | s, e :: es => run step (step s e) es

/-- Every step of the run of `es` from `s` meets `C`, a condition on the event
and on the state it is handled in. -/
def Along (step : σ → ε → σ) (C : σ → ε → Prop) : σ → List ε → Prop
  | _, [] => True
  | s, e :: es => C s e ∧ Along step C (step s e) es

/-- Every state of the run of `es` from `s` has the property `P`. -/
def Throughout (step : σ → ε → σ) (P : σ → Prop) : σ → List ε → Prop
  | s, [] => P s
  | s, e :: es => P s ∧ Throughout step P (step s e) es

instance Along.decidable {C : σ → ε → Prop} [∀ s e, Decidable (C s e)] :
    ∀ (s : σ) (es : List ε), Decidable (Along step C s es)
  | _, [] => inferInstanceAs (Decidable True)
  | s, e :: es =>
      have := Along.decidable (C := C) (step s e) es
      inferInstanceAs (Decidable (C s e ∧ Along step C (step s e) es))

instance Throughout.decidable {P : σ → Prop} [∀ s, Decidable (P s)] :
    ∀ (s : σ) (es : List ε), Decidable (Throughout step P s es)
  | s, [] => inferInstanceAs (Decidable (P s))
  | s, e :: es =>
      have := Throughout.decidable (P := P) (step s e) es
      inferInstanceAs (Decidable (P s ∧ Throughout step P (step s e) es))

@[simp] theorem run_nil (s : σ) : run step s [] = s := rfl

@[simp] theorem run_cons (s : σ) (e : ε) (es : List ε) :
    run step s (e :: es) = run step (step s e) es := rfl

theorem run_append (s : σ) (es fs : List ε) :
    run step s (es ++ fs) = run step (run step s es) fs := by
  induction es generalizing s with
  | nil => rfl
  | cons e es ih => rw [List.cons_append, run_cons, run_cons, ih]

theorem run_append_singleton (s : σ) (es : List ε) (e : ε) :
    run step s (es ++ [e]) = step (run step s es) e := by
  rw [run_append, run_cons, run_nil]

@[simp] theorem along_nil (C : σ → ε → Prop) (s : σ) : Along step C s [] := trivial

@[simp] theorem along_cons (C : σ → ε → Prop) (s : σ) (e : ε) (es : List ε) :
    Along step C s (e :: es) ↔ C s e ∧ Along step C (step s e) es := Iff.rfl

theorem along_append (C : σ → ε → Prop) (s : σ) (es fs : List ε) :
    Along step C s (es ++ fs) ↔
      Along step C s es ∧ Along step C (run step s es) fs := by
  induction es generalizing s with
  | nil => simp
  | cons e es ih =>
      rw [List.cons_append, along_cons, along_cons, ih, run_cons, and_assoc]

theorem along_append_singleton (C : σ → ε → Prop) (s : σ) (es : List ε) (e : ε) :
    Along step C s (es ++ [e]) ↔ Along step C s es ∧ C (run step s es) e := by
  rw [along_append, along_cons]
  exact and_congr_right fun _ => and_iff_left trivial

theorem along_and (C D : σ → ε → Prop) (s : σ) (es : List ε) :
    Along step (fun s e => C s e ∧ D s e) s es ↔
      Along step C s es ∧ Along step D s es := by
  induction es generalizing s with
  | nil => simp
  | cons e es ih =>
      simp only [along_cons, ih]
      tauto

theorem along_iff_forall_mem (C : ε → Prop) (s : σ) (es : List ε) :
    Along step (fun _ e => C e) s es ↔ ∀ e ∈ es, C e := by
  induction es generalizing s with
  | nil => simp
  | cons e es ih => rw [along_cons, ih, List.forall_mem_cons]

theorem Along.mono {C D : σ → ε → Prop} (h : ∀ s e, C s e → D s e)
    {s : σ} {es : List ε} (hC : Along step C s es) : Along step D s es := by
  induction es generalizing s with
  | nil => trivial
  | cons e es ih => exact ⟨h s e hC.1, ih hC.2⟩

@[simp] theorem throughout_nil (P : σ → Prop) (s : σ) :
    Throughout step P s [] ↔ P s := Iff.rfl

@[simp] theorem throughout_cons (P : σ → Prop) (s : σ) (e : ε) (es : List ε) :
    Throughout step P s (e :: es) ↔ P s ∧ Throughout step P (step s e) es := Iff.rfl

theorem Throughout.mono {P Q : σ → Prop} (h : ∀ s, P s → Q s) {s : σ} {es : List ε}
    (hP : Throughout step P s es) : Throughout step Q s es := by
  induction es generalizing s with
  | nil => exact h s hP
  | cons e es ih => exact ⟨h s hP.1, ih hP.2⟩

/-- The states of a run are the ends of its prefixes. -/
theorem throughout_iff_run (P : σ → Prop) (s : σ) (es : List ε) :
    Throughout step P s es ↔ ∀ fs, fs <+: es → P (run step s fs) := by
  induction es generalizing s with
  | nil => simp [List.prefix_nil]
  | cons e es ih =>
      rw [throughout_cons, ih]
      constructor
      · rintro ⟨hs, h⟩ fs hfs
        cases fs with
        | nil => exact hs
        | cons f fs =>
            obtain ⟨rfl, htail⟩ := List.cons_prefix_cons.mp hfs
            exact h fs htail
      · intro h
        refine ⟨h [] List.nil_prefix, fun fs hfs => ?_⟩
        exact h (e :: fs) (List.cons_prefix_cons.mpr ⟨rfl, hfs⟩)

/-- The invariant rule: what the steps of a run carry along holds in all of its
states. -/
theorem Along.throughout {I : σ → Prop} {C : σ → ε → Prop}
    (hstep : ∀ s e, I s → C s e → I (step s e)) {s : σ} {es : List ε}
    (hs : I s) (h : Along step C s es) : Throughout step I s es := by
  induction es generalizing s with
  | nil => exact hs
  | cons e es ih => exact ⟨hs, ih (hstep s e hs h.1) h.2⟩

theorem Along.invariant {I : σ → Prop} {C : σ → ε → Prop}
    (hstep : ∀ s e, I s → C s e → I (step s e)) {s : σ} {es : List ε}
    (hs : I s) (h : Along step C s es) : I (run step s es) :=
  (throughout_iff_run I s es).1 (h.throughout hstep hs) es (List.prefix_refl es)

/-- The step rule: where the invariant holds, a step that meets `C` meets `G`. -/
theorem Along.of_invariant {I : σ → Prop} {C G : σ → ε → Prop}
    (hI : ∀ s e, I s → C s e → I (step s e)) (hG : ∀ s e, I s → C s e → G s e)
    {s : σ} {es : List ε} (hs : I s) (h : Along step C s es) : Along step G s es := by
  induction es generalizing s with
  | nil => trivial
  | cons e es ih => exact ⟨hG s e hs h.1, ih (hI s e hs h.1) h.2⟩

/-- Two step conditions agree on a run when they agree wherever the invariant
`I` holds and meeting the first of them keeps `I`. -/
theorem along_iff_along {I : σ → Prop} {V G C : σ → ε → Prop}
    (hI : ∀ s e, I s → V s e → G s e → I (step s e))
    (hG : ∀ s e, I s → V s e → (G s e ↔ C s e)) {s : σ} {es : List ε}
    (hs : I s) (hv : Along step V s es) :
    Along step G s es ↔ Along step C s es := by
  induction es generalizing s with
  | nil => simp
  | cons e es ih =>
      have hiff := hG s e hs hv.1
      rw [along_cons, along_cons, hiff]
      refine and_congr_right fun hC => ?_
      exact ih (hI s e hs hv.1 (hiff.2 hC)) hv.2

theorem throughout_iff_along_step (P : σ → Prop) (s : σ) (es : List ε) :
    Throughout step P s es ↔ P s ∧ Along step (fun s e => P (step s e)) s es := by
  induction es generalizing s with
  | nil => simp
  | cons e es ih => rw [throughout_cons, along_cons, ih]

/-- The exactness rule: where a step keeps `P` exactly when it meets `C`, all
states of a run have `P` exactly when all of its steps meet `C`. -/
theorem throughout_iff_along {I P : σ → Prop} {V C : σ → ε → Prop}
    (hI : ∀ s e, I s → V s e → I (step s e))
    (hP : ∀ s e, I s → P s → V s e → (P (step s e) ↔ C s e)) {s : σ} {es : List ε}
    (hs : I s) (hp : P s) (hv : Along step V s es) :
    Throughout step P s es ↔ Along step C s es := by
  rw [throughout_iff_along_step]
  have h := along_iff_along (I := fun s => I s ∧ P s) (G := fun s e => P (step s e))
    (C := C) (V := V) (fun s e h hv hg => ⟨hI s e h.1 hv, hg⟩)
    (fun s e h hv => hP s e h.1 h.2 hv) ⟨hs, hp⟩ hv
  exact ⟨fun hr => h.1 hr.2, fun hc => ⟨hp, h.2 hc⟩⟩

/-- A measure that no step lowers is no lower at the end of a run. -/
theorem Along.monotone {α : Type*} [Preorder α] {m : σ → α} {I : σ → Prop}
    {V : σ → ε → Prop} (hI : ∀ s e, I s → V s e → I (step s e))
    (hm : ∀ s e, I s → V s e → m s ≤ m (step s e)) {s : σ} {es : List ε}
    (hs : I s) (hv : Along step V s es) : m s ≤ m (run step s es) := by
  induction es generalizing s with
  | nil => exact le_rfl
  | cons e es ih => exact (hm s e hs hv.1).trans (ih (hI s e hs hv.1) hv.2)

/-- If a measure that no step lowers ends no higher than it began, no step of
the run raised it. -/
theorem Along.constant {α : Type*} [PartialOrder α] {m : σ → α} {I : σ → Prop}
    {V : σ → ε → Prop} (hI : ∀ s e, I s → V s e → I (step s e))
    (hm : ∀ s e, I s → V s e → m s ≤ m (step s e)) {s : σ} {es : List ε}
    (hs : I s) (hv : Along step V s es) (hend : m (run step s es) ≤ m s) :
    Along step (fun s e => m (step s e) = m s) s es ∧ m (run step s es) = m s := by
  induction es generalizing s with
  | nil => exact ⟨trivial, rfl⟩
  | cons e es ih =>
      have hI' := hI s e hs hv.1
      have hrest : m (step s e) ≤ m (run step (step s e) es) := hv.2.monotone hI hm hI'
      have heq : m (step s e) = m s :=
        le_antisymm (hrest.trans hend) (hm s e hs hv.1)
      obtain ⟨hconst, hlast⟩ := ih hI' hv.2 (heq ▸ hend)
      exact ⟨⟨heq, hconst⟩, hlast.trans heq⟩

/-- A measure that the counted steps lower bounds how many of them a run has. -/
theorem Along.countP_le {m : σ → ℕ} {I : σ → Prop} {V : σ → ε → Prop} {p : ε → Bool}
    (hI : ∀ s e, I s → V s e → I (step s e))
    (hm : ∀ s e, I s → V s e → m (step s e) + (if p e then 1 else 0) ≤ m s) {s : σ} {es : List ε}
    (hs : I s) (hv : Along step V s es) : m (run step s es) + es.countP p ≤ m s := by
  induction es generalizing s with
  | nil => exact Nat.le_refl _
  | cons e es ih =>
      have hrest := ih (hI s e hs hv.1) hv.2
      have hfirst := hm s e hs hv.1
      rw [run_cons, List.countP_cons]
      omega

/-- The history rule: what is said of the events so far and the state they end in,
and each step carries on, holds at the end of the run. -/
theorem Along.history {C : σ → ε → Prop} {P : List ε → σ → Prop} {s : σ} (hs : P [] s)
    (hstep : ∀ es e, P es (run step s es) → C (run step s es) e →
      P (es ++ [e]) (step (run step s es) e)) {es : List ε} (h : Along step C s es) :
    P es (run step s es) := by
  have hgo (past : List ε) (hpast : P past (run step s past)) (rest : List ε)
      (hrest : Along step C (run step s past) rest) : P (past ++ rest) (run step s (past ++ rest)) := by
    induction rest generalizing past with
    | nil => rwa [List.append_nil]
    | cons e rest ih =>
        have hend : run step s (past ++ [e]) = step (run step s past) e :=
          run_append_singleton s past e
        have hlater := ih (past ++ [e]) (hend ▸ hstep past e hpast hrest.1) (hend ▸ hrest.2)
        rwa [List.append_assoc] at hlater
  exact hgo [] hs es h

/-! ## What is seen along a run -/

/-- What `f` sees in the steps of the run, in their order. -/
def collect {α : Type*} (step : σ → ε → σ) (f : σ → ε → List α) : σ → List ε → List α
  | _, [] => []
  | s, e :: es => f s e ++ collect step f (step s e) es

theorem collect_append {α : Type*} (f : σ → ε → List α) (s : σ) (es fs : List ε) :
    collect step f s (es ++ fs) = collect step f s es ++ collect step f (run step s es) fs := by
  induction es generalizing s with
  | nil => rfl
  | cons e es ih => rw [List.cons_append, collect, ih, collect, run_cons, List.append_assoc]

theorem collect_append_singleton {α : Type*} (f : σ → ε → List α) (s : σ) (es : List ε) (e : ε) :
    collect step f s (es ++ [e]) = collect step f s es ++ f (run step s es) e := by
  rw [collect_append, collect, collect, List.append_nil]

end Transition
