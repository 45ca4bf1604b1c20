import CppGossip.Own.State

/-!
# Answering accusations

An accusation is answered when an ALIVE message of a greater dominant about the
node is queued. The objection is one, and since `Push` keeps the greater message,
what is queued after an objection answers the accusation whatever was queued
before, as long as that was an ALIVE message too. This fails once the node
suspects itself: further SUSPECT messages are then passed on like those about
any other node, or ignored.
-/

namespace CppGossip

open Collection Transition BroadcastQueue

namespace Own

variable {o o' : Own} {env : Env} {nodeNum : UInt32} {e : Event} {n : UInt64}

/-- What is queued about the node says alive, and its record does not say dead. -/
structure Clean (o : Own) : Prop where
  queued : ∀ q, o.peer.queued = some q → q.state = .alive
  up : ∀ r, o.peer.record = some r → r.state ≠ .dead

/-- An ALIVE message about the node of a dominant greater than `n` is queued. -/
def Answered (n : UInt64) (o : Own) : Prop :=
  ∃ q ∈ o.peer.queued, q.state = .alive ∧ n < q.dominant

instance (n : UInt64) (o : Own) : Decidable (o.Answered n) :=
  inferInstanceAs (Decidable (∃ q ∈ o.peer.queued, _))

theorem Clean.not_down (h : o.Clean) {m : NodeState} (hheeds : o.peer.Heeds m) :
    ¬ o.peer.Down := by
  obtain ⟨r, hr, _⟩ := hheeds
  exact fun hdown => h.up r hr (hdown r hr)

/-- An ALIVE message pushed is queued, or a greater one stays queued. -/
theorem Clean.exists_queued (h : o.Clean) {a : NodeState} (ha : a.state = .alive) :
    ∃ q, (o.peer.push a).queued = some q ∧ q.state = .alive ∧ a.dominant ≤ q.dominant := by
  refine ⟨kept a o.peer.queued, rfl, ?_,
    NodeState.dominant_le_of_precedence_le (precedence_kept a o.peer.queued)⟩
  rcases kept_eq_or a o.peer.queued with heq | hold
  · rw [heq]
    exact ha
  · exact h.queued _ hold

theorem Clean.object (env : Env) (h : o.Clean) (n : UInt64) : (o.object env n).Clean where
  queued q hq := by
    obtain ⟨q', hq', halive, _⟩ :=
      h.exists_queued (a := Gossiper.selfState env (Gossiper.objection o.dominant n)) rfl
    rwa [Option.some.inj (hq.symm.trans hq')]
  up := h.up

theorem Clean.answered_object (env : Env) (h : o.Clean) (hn : n ≠ Gossiper.lastDominant) :
    (o.object env n).Answered n := by
  obtain ⟨q, hq, halive, hle⟩ :=
    h.exists_queued (a := Gossiper.selfState env (Gossiper.objection o.dominant n)) rfl
  exact ⟨q, hq, halive, UInt64.lt_of_lt_of_le (Gossiper.lt_objection hn) hle⟩

/-- An objection does not take an answer back. -/
theorem Answered.object (h : o.Answered n) (hclean : o.Clean) (m : UInt64) :
    (o.object env m).Answered n := by
  obtain ⟨q, hq, _, hlt⟩ := h
  have ha := hclean.object env m
  refine ⟨_, rfl, ha.queued _ rfl, UInt64.lt_of_lt_of_le hlt ?_⟩
  apply NodeState.dominant_le_of_precedence_le
  exact ((precedence_kept_le_iff _ o.peer.queued _).1 le_rfl).2 q hq

theorem Clean.clear (h : o.Clean) (sus : Option Suspicion) :
    Clean { o with peer := { o.peer with suspicion := sus } } := ⟨h.queued, h.up⟩

theorem Clean.dead (h : o.Clean) (d : NodeState) : (o.dead env d).Clean := by
  unfold Own.dead
  split
  case isTrue hheeds =>
    dsimp only
    rw [if_neg (h.not_down hheeds)]
    exact (h.clear none).object env _
  case isFalse => exact h

theorem Clean.answered_dead (h : o.Clean) {d : NodeState} (hheeds : o.peer.Heeds d)
    (hd : d.dominant ≠ Gossiper.lastDominant) : (o.dead env d).Answered d.dominant := by
  unfold Own.dead
  rw [if_pos hheeds]
  dsimp only
  rw [if_neg (h.not_down hheeds)]
  exact (h.clear none).answered_object env hd

theorem Answered.dead (h : o.Answered n) (hclean : o.Clean) (d : NodeState) :
    (o.dead env d).Answered n := by
  unfold Own.dead
  split
  case isTrue hheeds =>
    dsimp only
    rw [if_neg (hclean.not_down hheeds)]
    have hcleared : Answered n { o with peer := { o.peer with suspicion := none } } := h
    exact hcleared.object (hclean.clear none) _
  case isFalse => exact h

theorem Clean.alive (h : o.Clean) {a : NodeState} (ha : a.state = .alive) (needBc : Bool) :
    (o.alive a needBc).Clean := by
  unfold Own.alive Peer.alive
  by_cases hlt : o.peer.known < a.dominant
  · simp only [if_pos hlt]
    have hup : ∀ r, some { a with timestamp := 0 } = some r → r.state ≠ .dead := by
      intro r hr
      rw [← Option.some.inj hr]
      exact fun hdead => absurd (ha.symm.trans hdead) (by decide)
    cases needBc with
    | false => exact ⟨h.queued, hup⟩
    | true =>
        obtain ⟨q, hq, halive, _⟩ := h.exists_queued ha
        refine ⟨?_, hup⟩
        intro q' hq'
        rwa [Option.some.inj (hq'.symm.trans hq)]
  · simp only [if_neg hlt]
    exact h

/-- A SUSPECT message about the node finds it unsuspected and recorded alive, or
already answered. -/
def Ready (s : NodeState) (o : Own) : Prop :=
  (o.peer.suspicion = none ∧ ∀ r ∈ o.peer.record, r.state = .alive) ∨ o.Answered s.dominant

instance (s : NodeState) (o : Own) : Decidable (o.Ready s) :=
  inferInstanceAs (Decidable ((_ ∧ ∀ r ∈ o.peer.record, r.state = .alive) ∨ _))

theorem Clean.suspect (env : Env) (nodeNum : UInt32) (h : o.Clean) {s : NodeState}
    (hs : s.state = .suspect) (hready : o.peer.Heeds s → o.Ready s) :
    (o.suspect env nodeNum s).Clean ∧
      (o.peer.Heeds s → s.dominant ≠ Gossiper.lastDominant →
        (o.suspect env nodeNum s).Answered s.dominant) := by
  unfold Own.suspect
  by_cases hheeds : o.peer.Heeds s
  · have hready := hready hheeds
    rw [if_pos hheeds]
    cases hsus : o.peer.suspicion with
    | some sus =>
        have hanswered : o.Answered s.dominant := by
          refine hready.resolve_left fun hopen => ?_
          exact Option.some_ne_none _ (hsus.symm.trans hopen.1)
        have hcount : Clean { o with peer := o.peer.count s sus } := ⟨h.queued, h.up⟩
        have hanswered' : Answered s.dominant { o with peer := o.peer.count s sus } := hanswered
        dsimp only
        split
        case isTrue => exact ⟨hcount.dead _, fun _ _ => hanswered'.dead hcount _⟩
        case isFalse =>
          obtain ⟨q, hq, halive, hlt⟩ := hanswered
          have hkept : kept s o.peer.queued = q := by
            rw [Option.mem_def.1 hq]
            exact kept_eq_old ((NodeState.precedence_le_iff s q).2 (Or.inl hlt))
          refine ⟨⟨?_, h.up⟩, fun _ _ => ⟨q, congrArg some hkept, halive, hlt⟩⟩
          intro q' hq'
          rw [← Option.some.inj hq']
          exact hkept.symm ▸ halive
    | none =>
        dsimp only
        split
        case isTrue =>
          have hobject := h.object env s.dominant
          refine ⟨⟨hobject.queued, ?_⟩, fun _ hn => h.answered_object env hn⟩
          intro r hr
          rw [← Option.some.inj hr]
          exact fun hdead => absurd (hs.symm.trans hdead) (by decide)
        case isFalse halive =>
          have hanswered := hready.resolve_left fun hopen => halive hopen.2
          exact ⟨h, fun _ _ => hanswered⟩
  · rw [if_neg hheeds]
    exact ⟨h, fun hheeds' => absurd hheeds' hheeds⟩

/-- The accusation of the node that an event brings, if it is one the node has to
answer. -/
def accused (env : Env) (o : Own) : Event → Option UInt64
  | .message m _ =>
      if m.name = env.conf.name ∧ (m.state = .suspect ∨ m.state = .dead) ∧ o.peer.Heeds m ∧
          m.dominant ≠ Gossiper.lastDominant then some m.dominant
      else none
  | .deadAlert name state n => if name = env.conf.name ∧ state = .dead then some n else none
  | _ => none

/-- The node can answer what the event brings: a SUSPECT message finds it ready,
and an alert has a dominant above it. -/
def CanObject (env : Env) (o : Own) : Event → Prop
  | .message m _ =>
      m.name = env.conf.name ∧ m.state = .suspect ∧ o.peer.Heeds m → o.Ready m
  | .deadAlert name state n =>
      name = env.conf.name ∧ state = .dead → n ≠ Gossiper.lastDominant
  | _ => True

instance CanObject.decidable (env : Env) (o : Own) : ∀ e, Decidable (CanObject env o e)
  | .message _ _ | .deadAlert _ _ _ => inferInstanceAs (Decidable (_ → _))
  | .registerNotifier _ _ | .join | .probe _ | .probeTimeout _ | .conviction _ | .batch _ _ =>
      inferInstanceAs (Decidable True)

theorem accused_of_not_concerns (h : ¬ Concerns env e) : o.accused env e = none := by
  cases e with
  | message m needBc =>
      apply if_neg
      rintro ⟨hname, hstate, _⟩
      exact h ⟨hname, Or.inr hstate⟩
  | deadAlert name state n => exact if_neg h
  | _ => rfl

/-- An event that the node can answer leaves what is queued about it clean, and its
accusation answered. -/
theorem Clean.turn (h : o.Clean) (hcan : CanObject env o e) (hturn : Turn env nodeNum o e o') :
    o'.Clean ∧ ∀ n ∈ o.accused env e, o'.Answered n := by
  cases hturn with
  | nothing e hnot =>
      rw [accused_of_not_concerns hnot]
      exact ⟨h, by simp⟩
  | sent e hnot =>
      rw [accused_of_not_concerns hnot]
      refine ⟨⟨?_, h.up⟩, by simp⟩
      intro q hq
      cases hq
  | joined =>
      have hraised : Clean { o with
          dominant := o.dominant + 1
          issued := ⟨Gossiper.selfState env (o.dominant + 1), none⟩ :: o.issued } :=
        ⟨h.queued, h.up⟩
      exact ⟨hraised.alive rfl false, by simp [accused]⟩
  | alive a needBc _ ha => exact ⟨h.alive ha needBc, by simp [accused, ha]⟩
  | suspect s needBc hname hs =>
      obtain ⟨hclean, hanswered⟩ := h.suspect env nodeNum hs
        fun hheeds => hcan ⟨hname, hs, hheeds⟩
      refine ⟨hclean, ?_⟩
      intro n hn
      obtain ⟨⟨_, _, hheeds, hlast⟩, heq⟩ := Option.ite_none_right_eq_some.1 hn
      cases heq
      exact hanswered hheeds hlast
  | dead d needBc hname hd =>
      refine ⟨h.dead d, ?_⟩
      intro n hn
      obtain ⟨⟨_, _, hheeds, hlast⟩, heq⟩ := Option.ite_none_right_eq_some.1 hn
      cases heq
      exact h.answered_dead hheeds hlast
  | convicted s _ => exact ⟨h.dead s.killed, by simp [accused]⟩
  | alerted n =>
      refine ⟨h.object env n, ?_⟩
      intro m hm
      obtain ⟨_, heq⟩ := Option.ite_none_right_eq_some.1 hm
      cases heq
      exact h.answered_object env (hcan ⟨rfl, rfl⟩)

end Own

namespace Gossiper

variable {env : Env} {g : Gossiper}

/-- The dominant of the accusation the event brings against the node itself: that
of a SUSPECT or DEAD message no older than its record, or of an alert. -/
def accusation (env : Env) (g : Gossiper) : Event → Option UInt64
  | .message m _ =>
      if m.name = env.conf.name ∧ (m.state = .suspect ∨ m.state = .dead) ∧ g.Heeds m ∧
          m.dominant ≠ lastDominant then some m.dominant
      else none
  | .deadAlert name state n => if name = env.conf.name ∧ state = .dead then some n else none
  | _ => none

/-- After the step an accusation it has brought is answered by an ALIVE message of
a greater dominant that is queued about the node, and no SUSPECT or DEAD message
is. -/
def AnswersAccusation (env : Env) (g : Gossiper) (e : Event) : Prop :=
  (∀ n ∈ g.accusation env e, ∃ q ∈ (g.step env e).bcQueue.message env.conf.name,
    q.state = .alive ∧ n < q.dominant) ∧
  ∀ q ∈ (g.step env e).bcQueue.message env.conf.name, q.state ≠ .suspect ∧ q.state ≠ .dead

/-- The node can answer what the event brings. A SUSPECT message about the node
that is heeded finds its record alive and no suspicion of it open, or a greater
ALIVE message queued; an alert is not of the last dominant. -/
def CanObject (env : Env) (g : Gossiper) : Event → Prop
  | .message m _ =>
      m.name = env.conf.name ∧ m.state = .suspect ∧ g.Heeds m →
        (env.conf.name ∉ g.suspicions ∧ ∀ r ∈ g.getNodeState env.conf.name, r.state = .alive) ∨
          ∃ q ∈ g.bcQueue.message env.conf.name, q.state = .alive ∧ m.dominant < q.dominant
  | .deadAlert name state n => name = env.conf.name ∧ state = .dead → n ≠ lastDominant
  | _ => True

instance CanObject.decidable (env : Env) (g : Gossiper) : ∀ e, Decidable (g.CanObject env e)
  | .message m _ =>
      inferInstanceAs (Decidable (_ →
        (_ ∧ ∀ r ∈ g.getNodeState env.conf.name, r.state = .alive) ∨
          ∃ q ∈ g.bcQueue.message env.conf.name, q.state = .alive ∧ m.dominant < q.dominant))
  | .deadAlert _ _ _ => inferInstanceAs (Decidable (_ → _))
  | .registerNotifier _ _ | .join | .probe _ | .probeTimeout _ | .conviction _ | .batch _ _ =>
      inferInstanceAs (Decidable True)

theorem canObject_iff {e : Event} : g.CanObject env e ↔ Own.CanObject env (g.own env) e := by
  cases e with
  | message m needBc =>
      have hready : ((env.conf.name ∉ g.suspicions ∧
          ∀ r ∈ g.getNodeState env.conf.name, r.state = .alive) ∨
            ∃ q ∈ g.bcQueue.message env.conf.name, q.state = .alive ∧ m.dominant < q.dominant) ↔
          (g.own env).Ready m := by
        rw [← AList.lookup_eq_none]
        rfl
      refine imp_congr ?_ hready
      exact and_congr_right fun hname => and_congr_right fun _ => (heeds_peer_iff hname).symm
  | _ => exact Iff.rfl

theorem accusation_eq (e : Event) : g.accusation env e = (g.own env).accused env e := by
  cases e with
  | message m needBc =>
      refine if_congr (and_congr_right fun hname => and_congr_right fun _ => ?_) rfl rfl
      exact and_congr_left fun _ => (heeds_peer_iff hname).symm
  | _ => rfl

/-- In a run whose every accusation of the node finds it able to object, every
accusation is answered, and no other node is told that it is suspect or dead. -/
theorem answersAccusation_of_canObject (env : Env) (es : List Event) (hv : Valid env fresh es)
    (hcan : Along (Gossiper.step env) (CanObject env) fresh es) :
    Along (Gossiper.step env) (AnswersAccusation env) fresh es := by
  have hboth := (along_and _ _ _ _).2 ⟨hv, hcan⟩
  have hfresh : (fresh.own env).Clean :=
    ⟨by simp [own, peer, fresh], by simp [own, peer, fresh, getNodeState]⟩
  refine hboth.of_invariant (I := fun g => Tabled env g ∧ (g.own env).Clean) ?_ ?_
    ⟨tabled_fresh, hfresh⟩
  · rintro g e ⟨htable, hclean⟩ ⟨he, hobject⟩
    exact ⟨htable.step e he, (hclean.turn (canObject_iff.1 hobject) (own_step htable he)).1⟩
  · rintro g e ⟨htable, hclean⟩ ⟨he, hobject⟩
    obtain ⟨hclean', hanswered⟩ :=
      hclean.turn (canObject_iff.1 hobject) (own_step htable he)
    refine ⟨?_, ?_⟩
    · rw [accusation_eq]
      exact hanswered
    · intro q hq
      have halive := hclean'.queued q hq
      rw [halive]
      decide

theorem answersAccusation_of_objections :
    Along (Gossiper.step sampleEnv) (AnswersAccusation sampleEnv) fresh
      [.join, .message (news "a:1" 4 .dead "b:1") true, .deadAlert "a:1" .dead 9,
        .message (news "a:1" 1 .suspect "b:1") true, .message (news "a:1" 1 .suspect "c:1") true] :=
  answersAccusation_of_canObject sampleEnv _ (by decide) (by decide)

/-- A second SUSPECT message about the node is passed on by the node itself. -/
theorem not_answersAccusation_of_suspect_suspect :
    let es : List Event :=
      [.join, .message (news "b:1" 1 .alive "b:1") true,
        .message (news "c:1" 1 .alive "c:1") true, .message (news "a:1" 1 .suspect "b:1") true,
        .message (news "a:1" 5 .suspect "c:1") true]
    let g := run (Gossiper.step sampleEnv) fresh es
    Valid sampleEnv fresh es ∧ g.isLeaving = false ∧
      (g.bcQueue.message "a:1").map NodeState.precedence = some (toLex (5, .suspect)) ∧
      ¬ Along (Gossiper.step sampleEnv) (AnswersAccusation sampleEnv) fresh es := by
  refine ⟨by decide, by decide, by decide, ?_⟩
  intro hanswers
  obtain ⟨_, hclean⟩ := hanswers.2.2.2.2.1
  exact (hclean _ rfl).1 rfl

end Gossiper

end CppGossip
