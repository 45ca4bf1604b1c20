import CppGossip.Own.State

/-!
# The growth of a node's dominant

The counter of a node is raised past itself when the node joins and past the
accusation as well when it objects, so that every ALIVE message it makes about
itself is new. Two things may lower the counter: an ALIVE message about the node
that is ahead of its record but behind the counter, and the end of the range.
-/

namespace CppGossip

open Transition

namespace Own

variable {o o' : Own} {env : Env} {nodeNum : UInt32} {e : Event}

/-- The messages, the latest first, are each of a greater dominant than all
before and than the accusation answered. -/
def Increasing (l : List Issue) : Prop :=
  l.Pairwise (fun later earlier => earlier.alive.dominant < later.alive.dominant) ∧
    ∀ i ∈ l, ∀ n ∈ i.accusation, n < i.alive.dominant

/-- No message made is ahead of the counter. -/
def Reached (o : Own) : Prop := ∀ i ∈ o.issued, i.alive.dominant ≤ o.dominant

/-- The counter does not fall and the messages made are increasing. -/
def Grows (o o' : Own) : Prop := o.dominant ≤ o'.dominant ∧ Increasing o'.issued

/-- The step from `o` to `o'` has left the counter and the messages. -/
def Idle (o o' : Own) : Prop := o'.dominant = o.dominant ∧ o'.issued = o.issued

/-- The step from `o` to `o'` has set the counter to `d` and made a message. -/
def Issues (env : Env) (d : UInt64) (accusation : Option UInt64) (o o' : Own) : Prop :=
  o'.dominant = d ∧ o'.issued = ⟨Gossiper.selfState env d, accusation⟩ :: o.issued

/-! ## What is answered -/

/-- The accusation to which `dead` objects. -/
def deadAnswer (d : NodeState) (o : Own) : Option UInt64 :=
  if o.peer.Heeds d ∧ ¬ o.peer.Down then some d.dominant else none

/-- The accusation to which `suspect` objects. -/
def suspectAnswer (s : NodeState) (o : Own) : Option UInt64 :=
  if o.peer.Heeds s then
    match o.peer.suspicion with
    | some sus =>
        if (sus.confirm s.from_).1 then o.deadAnswer sus.accusation.killed else none
    | none => if ∀ r ∈ o.peer.record, r.state = .alive then some s.dominant else none
  else none

/-- The dominant of the accusation to which the node objects. -/
def answer (env : Env) (o : Own) : Event → Option UInt64
  | .message m _ =>
      if m.name = env.conf.name then
        match m.state with
        | .suspect => o.suspectAnswer m
        | .dead => o.deadAnswer m
        | _ => none
      else none
  | .conviction s => if s.name = env.conf.name then o.deadAnswer s.killed else none
  | .deadAlert name state n => if name = env.conf.name ∧ state = .dead then some n else none
  | _ => none

/-- What the answer does to the counter and the messages. -/
def Answers (env : Env) (n : Option UInt64) (o o' : Own) : Prop :=
  match n with
  | none => Idle o o'
  | some n => Issues env (Gossiper.objection o.dominant n) (some n) o o'

theorem answers_dead (d : NodeState) : Answers env (o.deadAnswer d) o (o.dead env d) := by
  unfold deadAnswer Own.dead
  by_cases hheeds : o.peer.Heeds d
  · by_cases hdown : o.peer.Down
    · simp only [hheeds, hdown, if_true, not_true_eq_false, and_false, if_false]
      exact ⟨rfl, rfl⟩
    · simp only [hheeds, hdown, if_true, not_false_eq_true, and_self, if_false]
      exact ⟨rfl, rfl⟩
  · simp only [hheeds, false_and, if_false]
    exact ⟨rfl, rfl⟩

theorem answers_suspect (s : NodeState) :
    Answers env (o.suspectAnswer s) o (o.suspect env nodeNum s) := by
  unfold suspectAnswer Own.suspect
  by_cases hheeds : o.peer.Heeds s
  · rw [if_pos hheeds, if_pos hheeds]
    cases o.peer.suspicion with
    | some sus =>
        dsimp only
        split
        case isTrue => exact answers_dead (o := { o with peer := o.peer.count s sus }) _
        case isFalse => exact ⟨rfl, rfl⟩
    | none =>
        dsimp only
        split
        case isTrue => exact ⟨rfl, rfl⟩
        case isFalse => exact ⟨rfl, rfl⟩
  · rw [if_neg hheeds, if_neg hheeds]
    exact ⟨rfl, rfl⟩

theorem issues_join (env : Env) (o : Own) : Issues env (o.dominant + 1) none o (o.join env) := by
  refine ⟨?_, rfl⟩
  show (if _ then o.dominant + 1 else o.dominant + 1) = o.dominant + 1
  exact ite_self _

/-! ## When the counter grows -/

theorem grows_of_idle (hinc : Increasing o.issued) (h : Idle o o') : o.Grows o' :=
  ⟨h.1 ▸ UInt64.le_refl _, h.2 ▸ hinc⟩

theorem grows_issues_iff (hinc : Increasing o.issued) {d : UInt64} {accusation : Option UInt64}
    (h : Issues env d accusation o o') :
    o.Grows o' ↔ o.dominant ≤ d ∧ (∀ i ∈ o.issued, i.alive.dominant < d) ∧
      ∀ n ∈ accusation, n < d := by
  rw [Grows, h.1, h.2, Increasing, List.pairwise_cons, List.forall_mem_cons]
  constructor
  · rintro ⟨hle, ⟨hlt, _⟩, hanswer, _⟩
    exact ⟨hle, hlt, hanswer⟩
  · rintro ⟨hle, hlt, hanswer⟩
    exact ⟨hle, ⟨hlt, hinc.1⟩, hanswer, hinc.2⟩

/-- The node can object to an accusation of dominant `n`: there is a greater
dominant, and the counter has not used it. -/
def CanAnswer (o : Own) (n : UInt64) : Prop :=
  n ≠ Gossiper.lastDominant ∧
    (o.dominant = Gossiper.lastDominant →
      n = Gossiper.lastDominant - 1 ∧ ∀ i ∈ o.issued, i.alive.dominant ≠ Gossiper.lastDominant)

instance (o : Own) (n : UInt64) : Decidable (o.CanAnswer n) :=
  inferInstanceAs (Decidable (_ ∧ (_ → _)))

theorem Reached.lt (h : o.Reached) {d : UInt64} (hd : o.dominant < d) :
    ∀ i ∈ o.issued, i.alive.dominant < d :=
  fun i hi => UInt64.lt_of_le_of_lt (h i hi) hd

theorem grows_answer_iff (hreached : o.Reached) (hinc : Increasing o.issued) {n : UInt64}
    (h : Issues env (Gossiper.objection o.dominant n) (some n) o o') :
    o.Grows o' ↔ o.CanAnswer n := by
  rw [grows_issues_iff hinc h]
  constructor
  · rintro ⟨hle, hlt, hanswer⟩
    have hn := hanswer n rfl
    refine ⟨by grind, ?_⟩
    intro hlast
    have heq : Gossiper.objection o.dominant n = o.dominant := by
      rw [hlast] at hle ⊢
      grind
    have hne : o.dominant ≠ 0 := by
      rw [hlast]
      decide
    refine ⟨((Gossiper.objection_eq_iff hne).1 heq).2, ?_⟩
    intro i hi
    have hi' := hlt i hi
    rw [heq, hlast] at hi'
    grind
  · rintro ⟨hn, hlast⟩
    have hanswer : ∀ m ∈ some n, m < Gossiper.objection o.dominant n := by
      intro m hm
      rw [← Option.some.inj hm]
      exact Gossiper.lt_objection hn
    by_cases hcurrent : o.dominant = Gossiper.lastDominant
    · obtain ⟨hbefore, hunused⟩ := hlast hcurrent
      have hne : o.dominant ≠ 0 := by
        rw [hcurrent]
        decide
      have heq := (Gossiper.objection_eq_iff hne).2 ⟨hcurrent, hbefore⟩
      refine ⟨UInt64.le_of_eq heq.symm, ?_, hanswer⟩
      intro i hi
      have hne' := hunused i hi
      rw [heq, hcurrent]
      grind
    · have hlt := Gossiper.current_lt_objection hcurrent hn
      exact ⟨UInt64.le_of_lt hlt, hreached.lt hlt, hanswer⟩

theorem grows_answers_iff (hreached : o.Reached) (hinc : Increasing o.issued) {n : Option UInt64}
    (h : Answers env n o o') : o.Grows o' ↔ ∀ m ∈ n, o.CanAnswer m := by
  cases n with
  | none => simpa using grows_of_idle hinc h
  | some n => simpa using grows_answer_iff hreached hinc h

/-- ALIVE news of the node is accepted that is behind its counter. -/
def Overwrites (env : Env) (o : Own) : Event → Prop
  | .message a _ =>
      a.name = env.conf.name ∧ a.state = .alive ∧ o.peer.known < a.dominant ∧
        a.dominant < o.dominant
  | _ => False

instance Overwrites.decidable (env : Env) (o : Own) : ∀ e, Decidable (Overwrites env o e)
  | .message _ _ => inferInstanceAs (Decidable (_ ∧ _ ∧ _ ∧ _))
  | .registerNotifier _ _ | .join | .probe _ | .probeTimeout _ | .deadAlert _ _ _
  | .conviction _ | .batch _ _ => inferInstanceAs (Decidable False)

/-- The event does not take the node back behind what it has said: the counter is
not overwritten by less, and what is to be said has a dominant left. -/
structure KeepsAhead (env : Env) (o : Own) (e : Event) : Prop where
  join : e = .join → o.dominant ≠ Gossiper.lastDominant
  alive : ¬ Overwrites env o e
  answer : ∀ n ∈ o.answer env e, o.CanAnswer n

instance (env : Env) (o : Own) (e : Event) : Decidable (KeepsAhead env o e) :=
  -- not over all dominants, of which there are finitely many
  haveI : Decidable (∀ n ∈ o.answer env e, o.CanAnswer n) := Option.decidableForallMem _
  decidable_of_iff ((e = .join → o.dominant ≠ Gossiper.lastDominant) ∧ ¬ Overwrites env o e ∧
      ∀ n ∈ o.answer env e, o.CanAnswer n)
    ⟨fun h => ⟨h.1, h.2.1, h.2.2⟩, fun h => ⟨h.join, h.alive, h.answer⟩⟩

theorem keepsAhead_of_not_concerns (h : ¬ Concerns env e) : KeepsAhead env o e := by
  cases e with
  | join => exact absurd trivial h
  | message m needBc =>
      refine ⟨Event.noConfusion, fun hover => h ⟨hover.1, Or.inl hover.2.1⟩, ?_⟩
      intro n hn
      simp only [Own.answer] at hn
      split at hn
      case isTrue hname =>
        cases hm : m.state with
        | suspect => exact absurd ⟨hname, Or.inr (Or.inl hm)⟩ h
        | dead => exact absurd ⟨hname, Or.inr (Or.inr hm)⟩ h
        | alive => simp [hm] at hn
        | other raw hraw => simp [hm] at hn
      case isFalse => cases hn
  | conviction s =>
      refine ⟨Event.noConfusion, id, ?_⟩
      have hname : s.name ≠ env.conf.name := h
      simp [Own.answer, hname]
  | deadAlert name state n =>
      refine ⟨Event.noConfusion, id, ?_⟩
      have halert : ¬ (name = env.conf.name ∧ state = .dead) := h
      simp [Own.answer, if_neg halert]
  | registerNotifier join leave => exact ⟨Event.noConfusion, id, by simp [Own.answer]⟩
  | probe cursor => exact ⟨Event.noConfusion, id, by simp [Own.answer]⟩
  | probeTimeout node => exact ⟨Event.noConfusion, id, by simp [Own.answer]⟩
  | batch n applied => exact ⟨Event.noConfusion, id, by simp [Own.answer]⟩

theorem grows_join_iff (hreached : o.Reached) (hinc : Increasing o.issued) :
    o.Grows (o.join env) ↔ o.dominant ≠ Gossiper.lastDominant := by
  rw [grows_issues_iff hinc (issues_join env o)]
  constructor
  · rintro ⟨hle, _⟩ hlast
    rw [hlast] at hle
    exact absurd hle (by decide)
  · intro hlast
    have hlt : o.dominant < o.dominant + 1 := by grind
    exact ⟨UInt64.le_of_lt hlt, hreached.lt hlt, by simp⟩

theorem grows_alive_iff (hinc : Increasing o.issued) (a : NodeState) (needBc : Bool) :
    o.Grows (o.alive a needBc) ↔ ¬ (o.peer.known < a.dominant ∧ a.dominant < o.dominant) := by
  have hissued : Increasing (o.alive a needBc).issued := hinc
  rw [Grows, and_iff_left hissued]
  by_cases hlt : o.peer.known < a.dominant
  · simp only [Own.alive, hlt, if_true, true_and, UInt64.not_lt]
  · simp only [Own.alive, hlt, if_false, false_and, not_false_eq_true, iff_true]
    exact UInt64.le_refl _

theorem grows_turn_iff (hreached : o.Reached) (hinc : Increasing o.issued)
    (hturn : Turn env nodeNum o e o') : o.Grows o' ↔ KeepsAhead env o e := by
  cases hturn with
  | nothing e hnot =>
      exact iff_of_true (grows_of_idle hinc ⟨rfl, rfl⟩) (keepsAhead_of_not_concerns hnot)
  | sent e hnot =>
      exact iff_of_true (grows_of_idle hinc ⟨rfl, rfl⟩) (keepsAhead_of_not_concerns hnot)
  | joined =>
      rw [grows_join_iff hreached hinc]
      constructor
      · exact fun hlast => ⟨fun _ => hlast, id, by simp [Own.answer]⟩
      · exact fun hahead => hahead.join rfl
  | alive a needBc hname ha =>
      have hanswer : o.answer env (.message a needBc) = none := by
        simp [Own.answer, ha]
      rw [grows_alive_iff hinc]
      constructor
      · intro hnot
        refine ⟨Event.noConfusion, fun hover => hnot hover.2.2, ?_⟩
        simp [hanswer]
      · intro hahead hover
        exact hahead.alive ⟨hname, ha, hover⟩
  | suspect s needBc hname hs =>
      have hanswer : o.answer env (.message s needBc) = o.suspectAnswer s := by
        simp [Own.answer, hname, hs]
      rw [grows_answers_iff hreached hinc (answers_suspect s), ← hanswer]
      refine ⟨fun hcan => ⟨Event.noConfusion, ?_, hcan⟩, KeepsAhead.answer⟩
      intro hover
      exact absurd (hs.symm.trans hover.2.1) (by decide)
  | dead d needBc hname hd =>
      have hanswer : o.answer env (.message d needBc) = o.deadAnswer d := by
        simp [Own.answer, hname, hd]
      rw [grows_answers_iff hreached hinc (answers_dead d), ← hanswer]
      refine ⟨fun hcan => ⟨Event.noConfusion, ?_, hcan⟩, KeepsAhead.answer⟩
      intro hover
      exact absurd (hd.symm.trans hover.2.1) (by decide)
  | convicted s hname =>
      have hanswer : o.answer env (.conviction s) = o.deadAnswer s.killed := if_pos hname
      rw [grows_answers_iff hreached hinc (answers_dead s.killed), ← hanswer]
      exact ⟨fun hcan => ⟨Event.noConfusion, id, hcan⟩, KeepsAhead.answer⟩
  | alerted n =>
      have hanswer : o.answer env (.deadAlert env.conf.name .dead n) = some n := if_pos ⟨rfl, rfl⟩
      have hobject : Answers env (some n) o (o.object env n) := ⟨rfl, rfl⟩
      rw [grows_answers_iff hreached hinc hobject, ← hanswer]
      exact ⟨fun hcan => ⟨Event.noConfusion, id, hcan⟩, KeepsAhead.answer⟩

theorem issued_of_answers {n : Option UInt64} (h : Answers env n o o') :
    o'.issued = o.issued ∨
      ∃ accusation, o'.issued = ⟨Gossiper.selfState env o'.dominant, accusation⟩ :: o.issued := by
  cases n with
  | none => exact Or.inl h.2
  | some n => exact Or.inr ⟨some n, h.1 ▸ h.2⟩

/-- A message made is of the dominant the counter then has. -/
theorem issued_turn (hturn : Turn env nodeNum o e o') :
    o'.issued = o.issued ∨
      ∃ accusation, o'.issued = ⟨Gossiper.selfState env o'.dominant, accusation⟩ :: o.issued := by
  cases hturn with
  | nothing e _ => exact Or.inl rfl
  | sent e _ => exact Or.inl rfl
  | joined =>
      have hjoin := issues_join env o
      exact Or.inr ⟨none, hjoin.1 ▸ hjoin.2⟩
  | alive a needBc _ _ => exact Or.inl rfl
  | suspect s needBc _ _ => exact issued_of_answers (answers_suspect s)
  | dead d needBc _ _ => exact issued_of_answers (answers_dead d)
  | convicted s _ => exact issued_of_answers (answers_dead s.killed)
  | alerted n => exact Or.inr ⟨some n, rfl⟩

theorem reached_turn (hreached : o.Reached) (hturn : Turn env nodeNum o e o')
    (hgrows : o.Grows o') : o'.Reached := by
  have hold : ∀ i ∈ o.issued, i.alive.dominant ≤ o'.dominant :=
    fun i hi => UInt64.le_trans (hreached i hi) hgrows.1
  intro i hi
  rcases issued_turn hturn with hsame | ⟨accusation, hnew⟩
  · exact hold i (hsame ▸ hi)
  · rw [hnew] at hi
    rcases List.mem_cons.1 hi with rfl | hmem
    · exact UInt64.le_refl _
    · exact hold i hmem

end Own

namespace Gossiper

variable {env : Env} {g : Gossiper}

/-- The node's dominant does not fall in the step, and after it the ALIVE messages
the node has made are each of a greater dominant than all made before and than
the accusation answered. -/
def DominantGrows (env : Env) (g : Gossiper) (e : Event) : Prop :=
  g.dominant ≤ (g.step env e).dominant ∧ Own.Increasing (issues (g.step env e).trace)

/-- In a run of a gossiper its dominant and the messages it makes about itself
grow with every step exactly when every step keeps the node ahead of what it has
said. -/
theorem dominantGrows_along_iff (env : Env) (es : List Event) (hv : Valid env fresh es) :
    Along (Gossiper.step env) (DominantGrows env) fresh es ↔
      Along (Gossiper.step env) (fun g e => Own.KeepsAhead env (g.own env) e) fresh es := by
  refine along_iff_along
    (I := fun g => Tabled env g ∧ (g.own env).Reached ∧ Own.Increasing (g.own env).issued)
    ?_ ?_ ⟨tabled_fresh, ?_, ?_⟩ hv
  · intro g e h he hgrows
    exact ⟨h.1.step e he, Own.reached_turn h.2.1 (own_step h.1 he) hgrows, hgrows.2⟩
  · intro g e h he
    exact Own.grows_turn_iff h.2.1 h.2.2 (own_step h.1 he)
  · intro i hi
    cases hi
  · exact ⟨List.Pairwise.nil, fun i hi => by cases hi⟩

theorem dominantGrows_of_accusations :
    Along (Gossiper.step sampleEnv) (DominantGrows sampleEnv) fresh
      [.join, .message (news "a:1" 10 .dead "b:1") true, .deadAlert "a:1" .dead 30,
        .message (news "a:1" 40 .alive "c:1") true] :=
  (dominantGrows_along_iff sampleEnv _ (by decide)).2 (by decide)

/-- An objection takes the node's dominant to 11 and leaves its record at 1, and an
ALIVE message of dominant 2 takes it back. -/
theorem not_dominantGrows_of_alive :
    let es : List Event :=
      [.join, .message (news "a:1" 10 .dead "b:1") true, .message (news "a:1" 2 .alive "b:1") true]
    Valid sampleEnv fresh es ∧
      ¬ Along (Gossiper.step sampleEnv) (DominantGrows sampleEnv) fresh es := by
  refine ⟨by decide, ?_⟩
  intro hgrows
  exact absurd hgrows.2.2.1.1 (by decide)

end Gossiper

end CppGossip
