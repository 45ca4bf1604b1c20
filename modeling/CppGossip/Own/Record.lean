import CppGossip.Own.State

/-!
# The record a node keeps of itself

Joining leaves a node recorded alive, at the dominant of its counter, and not
suspected. News that it is alive keeps the record and the counter together. An
objection does not: it moves the counter alone, and when it answers a SUSPECT
message the record is overwritten with the accusation besides.
-/

namespace CppGossip

open Collection Transition

namespace Own

variable {o o' : Own} {env : Env} {nodeNum : UInt32} {e : Event}

/-- The node is recorded alive, at its own dominant, and not suspected. -/
def Truthful (o : Own) : Prop :=
  (∃ r, o.peer.record = some r ∧ r.state = .alive ∧ r.dominant = o.dominant) ∧
    o.peer.suspicion = none

/-- The node has a dominant and has never suspected itself. -/
structure Unaccused (o : Own) : Prop where
  accusations : o.peer.accusations = []
  dominant : o.dominant ≠ 0

/-- The event brings what the record of the node cannot bear: an accusation that
is heeded, an alert, or the use of the dominant after the last. -/
def Belies (env : Env) (o : Own) : Event → Prop
  | .join => o.dominant = Gossiper.lastDominant
  | .message m _ =>
      m.name = env.conf.name ∧ (m.state = .suspect ∨ m.state = .dead) ∧ o.peer.Heeds m
  | .deadAlert name state n =>
      name = env.conf.name ∧ state = .dead ∧
        ¬ (o.dominant = Gossiper.lastDominant ∧ n = Gossiper.lastDominant - 1)
  | _ => False

theorem Truthful.known_eq (h : o.Truthful) : o.peer.known = o.dominant := by
  obtain ⟨⟨r, hr, _, hdominant⟩, _⟩ := h
  rw [Peer.known, hr]
  exact hdominant

theorem Truthful.not_down (h : o.Truthful) : ¬ o.peer.Down := by
  obtain ⟨⟨r, hr, halive, _⟩, _⟩ := h
  intro hdown
  exact absurd (halive.symm.trans (hdown r hr)) (by decide)

theorem truthful_alive (h : o.Truthful) {a : NodeState} (ha : a.state = .alive) (needBc : Bool) :
    (o.alive a needBc).Truthful := by
  unfold Own.alive Peer.alive
  by_cases hlt : o.peer.known < a.dominant
  · simp only [if_pos hlt]
    cases needBc with
    | false => exact ⟨⟨_, rfl, ha, rfl⟩, rfl⟩
    | true => exact ⟨⟨_, rfl, ha, rfl⟩, rfl⟩
  · simp only [if_neg hlt]
    exact h

theorem Unaccused.alive (h : o.Unaccused) (a : NodeState) (needBc : Bool) :
    (o.alive a needBc).Unaccused := by
  unfold Own.alive Peer.alive
  by_cases hlt : o.peer.known < a.dominant
  · simp only [if_pos hlt]
    have hne : a.dominant ≠ 0 := by grind
    cases needBc with
    | false => exact ⟨h.accusations, hne⟩
    | true => exact ⟨h.accusations, hne⟩
  · simp only [if_neg hlt]
    exact h

theorem truthful_object_iff (h : o.Truthful) (hun : o.Unaccused) (n : UInt64) :
    (o.object env n).Truthful ↔
      o.dominant = Gossiper.lastDominant ∧ n = Gossiper.lastDominant - 1 := by
  obtain ⟨⟨r, hr, halive, hdominant⟩, hnone⟩ := h
  rw [← Gossiper.objection_eq_iff hun.dominant]
  constructor
  · rintro ⟨⟨r', hr', _, hd⟩, _⟩
    have heq : r = r' := Option.some.inj (hr.symm.trans hr')
    rw [← heq, hdominant] at hd
    exact hd.symm
  · intro heq
    exact ⟨⟨r, hr, halive, hdominant.trans heq.symm⟩, hnone⟩

theorem truthful_dead_iff (h : o.Truthful) (hun : o.Unaccused) (d : NodeState) :
    (o.dead env d).Truthful ↔ ¬ o.peer.Heeds d := by
  unfold Own.dead
  by_cases hheeds : o.peer.Heeds d
  · rw [if_pos hheeds]
    dsimp only
    have hcleared : Truthful { o with peer := { o.peer with suspicion := none } } := ⟨h.1, rfl⟩
    have hun' : Unaccused { o with peer := { o.peer with suspicion := none } } :=
      ⟨hun.accusations, hun.dominant⟩
    rw [if_neg h.not_down, truthful_object_iff hcleared hun']
    refine iff_of_false ?_ (not_not_intro hheeds)
    -- an accusation behind the record is not heeded
    rintro ⟨hlast, hbefore⟩
    have hle := hheeds.known_le
    rw [h.known_eq, hlast, hbefore] at hle
    exact absurd hle (by decide)
  · rw [if_neg hheeds]
    exact iff_of_true h hheeds

theorem truthful_suspect_iff (h : o.Truthful) (s : NodeState) :
    (o.suspect env nodeNum s).Truthful ↔ ¬ o.peer.Heeds s := by
  unfold Own.suspect
  by_cases hheeds : o.peer.Heeds s
  · obtain ⟨⟨r, hr, halive, _⟩, hnone⟩ := h
    have hall : ∀ r' ∈ o.peer.record, r'.state = .alive := by
      intro r' hr'
      rwa [Option.some.inj (hr'.symm.trans hr)]
    rw [if_pos hheeds]
    simp only [hnone, if_pos hall]
    refine iff_of_false ?_ (not_not_intro hheeds)
    intro htruth
    exact Option.some_ne_none _ htruth.2
  · rw [if_neg hheeds]
    exact iff_of_true h hheeds

theorem truthful_join_iff (h : o.Truthful) :
    (o.join env).Truthful ↔ o.dominant ≠ Gossiper.lastDominant := by
  have hknown := h.known_eq
  unfold Own.join Own.alive Peer.alive
  by_cases hlast : o.dominant = Gossiper.lastDominant
  · have hnot : ¬ o.peer.known < (Gossiper.selfState env (o.dominant + 1)).dominant := by
      rw [hknown, hlast]
      show ¬ Gossiper.lastDominant < Gossiper.lastDominant + 1
      decide
    simp only [if_neg hnot]
    refine iff_of_false ?_ (not_not_intro hlast)
    obtain ⟨⟨r, hr, _, hdominant⟩, _⟩ := h
    rintro ⟨⟨r', hr', _, hd⟩, _⟩
    have heq : r = r' := Option.some.inj (hr.symm.trans hr')
    rw [← heq, hdominant, hlast] at hd
    exact absurd hd (by simp [Gossiper.selfState])
  · have hlt : o.peer.known < (Gossiper.selfState env (o.dominant + 1)).dominant := by
      rw [hknown]
      show o.dominant < o.dominant + 1
      grind
    simp only [if_pos hlt]
    exact iff_of_true ⟨⟨_, rfl, rfl, rfl⟩, rfl⟩ hlast

theorem not_belies_of_not_concerns (h : ¬ Concerns env e) : ¬ Belies env o e := by
  intro hbelies
  cases e with
  | message m needBc => exact h ⟨hbelies.1, Or.inr hbelies.2.1⟩
  | join => exact h trivial
  | deadAlert name state n => exact h ⟨hbelies.1, hbelies.2.1⟩
  | _ => exact hbelies

theorem truthful_turn_iff (h : o.Truthful) (hun : o.Unaccused)
    (he : ∀ s, e = .conviction s → s.name = env.conf.name → s ∈ o.peer.accusations)
    (hturn : Turn env nodeNum o e o') : o'.Truthful ↔ ¬ Belies env o e := by
  cases hturn with
  | nothing e hnot => exact iff_of_true h (not_belies_of_not_concerns hnot)
  | sent e hnot => exact iff_of_true h (not_belies_of_not_concerns hnot)
  | joined => exact truthful_join_iff h
  | alive a needBc _ ha =>
      apply iff_of_true (truthful_alive h ha needBc)
      rintro ⟨_, hs | hd, _⟩
      · exact absurd (ha.symm.trans hs) (by decide)
      · exact absurd (ha.symm.trans hd) (by decide)
  | suspect s needBc hname hs =>
      rw [truthful_suspect_iff h]
      exact not_congr ⟨fun hheeds => ⟨hname, Or.inl hs, hheeds⟩, fun hbelies => hbelies.2.2⟩
  | dead d needBc hname hd =>
      rw [truthful_dead_iff h hun]
      exact not_congr ⟨fun hheeds => ⟨hname, Or.inr hd, hheeds⟩, fun hbelies => hbelies.2.2⟩
  | convicted s hname =>
      have hmem := he s rfl hname
      rw [hun.accusations] at hmem
      cases hmem
  | alerted n =>
      rw [truthful_object_iff h hun]
      constructor
      · intro hlast hbelies
        exact hbelies.2.2 hlast
      · intro hnot
        by_contra hne
        exact hnot ⟨rfl, rfl, hne⟩

/-- A step that keeps the record true leaves the node unaccused. -/
theorem unaccused_turn (h : o.Truthful) (hun : o.Unaccused)
    (he : ∀ s, e = .conviction s → s.name = env.conf.name → s ∈ o.peer.accusations)
    (hturn : Turn env nodeNum o e o') (h' : o'.Truthful) : o'.Unaccused := by
  cases hturn with
  | nothing e _ => exact hun
  | sent e _ => exact ⟨hun.accusations, hun.dominant⟩
  | joined =>
      have hlast := (truthful_join_iff h).1 h'
      have hnext : o.dominant + 1 ≠ 0 := by grind
      have hraised : Unaccused { o with
          dominant := o.dominant + 1
          issued := ⟨Gossiper.selfState env (o.dominant + 1), none⟩ :: o.issued } :=
        ⟨hun.accusations, hnext⟩
      exact hraised.alive _ false
  | alive a needBc _ _ => exact hun.alive a needBc
  | suspect s needBc _ _ =>
      have hnot := (truthful_suspect_iff h s).1 h'
      rw [Own.suspect, if_neg hnot]
      exact hun
  | dead d needBc _ _ =>
      have hnot := (truthful_dead_iff h hun d).1 h'
      rw [Own.dead, if_neg hnot]
      exact hun
  | convicted s hname =>
      have hmem := he s rfl hname
      rw [hun.accusations] at hmem
      cases hmem
  | alerted n =>
      have hlast := (truthful_object_iff h hun n).1 h'
      refine ⟨hun.accusations, ?_⟩
      show Gossiper.objection o.dominant n ≠ 0
      rw [(Gossiper.objection_eq_iff hun.dominant).2 hlast]
      exact hun.dominant

end Own

namespace Gossiper

variable {env : Env} {g : Gossiper}

/-- The node's own record says alive, at the node's dominant, and there is no
suspicion of it. -/
def SelfRecorded (env : Env) (g : Gossiper) : Prop :=
  (∃ r, g.getNodeState env.conf.name = some r ∧ r.state = .alive ∧ r.dominant = g.dominant) ∧
    env.conf.name ∉ g.suspicions

/-- The event brings the node an accusation that is heeded, an alert, or the use
of the dominant after the last. -/
def SelfBelied (env : Env) (g : Gossiper) : Event → Prop
  | .join => g.dominant = lastDominant
  | .message m _ => m.name = env.conf.name ∧ (m.state = .suspect ∨ m.state = .dead) ∧ g.Heeds m
  | .deadAlert name state n =>
      name = env.conf.name ∧ state = .dead ∧
        ¬ (g.dominant = lastDominant ∧ n = lastDominant - 1)
  | _ => False

instance SelfBelied.decidable (env : Env) (g : Gossiper) : ∀ e, Decidable (g.SelfBelied env e)
  | .join => inferInstanceAs (Decidable (_ = _))
  | .message _ _ | .deadAlert _ _ _ => inferInstanceAs (Decidable (_ ∧ _ ∧ _))
  | .registerNotifier _ _ | .probe _ | .probeTimeout _ | .conviction _ | .batch _ _ =>
      inferInstanceAs (Decidable False)

/-- The state a node is in when it has joined: until then nothing but the
notifiers has been set. -/
def joined (env : Env) (onJoin onLeave : Bool) : Gossiper :=
  (fresh.registerNotifier onJoin onLeave).join env

theorem tabled_joined (env : Env) (onJoin onLeave : Bool) : Tabled env (joined env onJoin onLeave) :=
  (tabled_fresh.step (.registerNotifier onJoin onLeave) trivial).step .join trivial

theorem selfRecorded_iff : g.SelfRecorded env ↔ (g.own env).Truthful := by
  rw [SelfRecorded, ← AList.lookup_eq_none]
  rfl

theorem selfBelied_iff {e : Event} : g.SelfBelied env e ↔ Own.Belies env (g.own env) e := by
  cases e with
  | message m needBc =>
      refine and_congr_right fun hname => and_congr_right fun _ => ?_
      exact (heeds_peer_iff hname).symm
  | _ => exact Iff.rfl

theorem own_joined_eq (env : Env) (onJoin onLeave : Bool) :
    (joined env onJoin onLeave).own env =
      { peer := ⟨some { selfState env 1 with timestamp := 0 }, none, [], none⟩
        dominant := 1
        issued := [⟨selfState env 1, none⟩] } := by
  have hown : (joined env onJoin onLeave).own env = (fresh.own env).join env :=
    (own_aliveNode (g := (fresh.registerNotifier onJoin onLeave).announced env) _ false
      fun hleave => Bool.false_ne_true hleave.1).trans (if_pos rfl)
  rw [hown]
  rfl

theorem own_joined (env : Env) (onJoin onLeave : Bool) :
    ((joined env onJoin onLeave).own env).Truthful ∧
      ((joined env onJoin onLeave).own env).Unaccused := by
  have hone : (1 : UInt64) ≠ 0 := by decide
  rw [own_joined_eq]
  exact ⟨⟨⟨_, rfl, rfl, rfl⟩, rfl⟩, ⟨rfl, hone⟩⟩

theorem up_joined (env : Env) (onJoin onLeave : Bool) :
    ¬ (joined env onJoin onLeave).Down env.conf.name := by
  obtain ⟨⟨⟨r, hr, halive, _⟩, _⟩, _⟩ := own_joined env onJoin onLeave
  rw [down_of_some hr, halive]
  decide

/-- Once the node has joined, its record of itself is right in every state exactly
when no step belies it. -/
theorem selfRecorded_throughout_iff (env : Env) (onJoin onLeave : Bool) (es : List Event)
    (hv : Valid env (joined env onJoin onLeave) es) :
    Throughout (Gossiper.step env) (SelfRecorded env) (joined env onJoin onLeave) es ↔
      Along (Gossiper.step env) (fun g e => ¬ g.SelfBelied env e) (joined env onJoin onLeave) es := by
  obtain ⟨htruth, hun⟩ := own_joined env onJoin onLeave
  have hpending : ∀ (g : Gossiper) (e : Event), g.Enabled e → ∀ s, e = .conviction s →
      s.name = env.conf.name → s ∈ (g.own env).peer.accusations := by
    rintro g e he s rfl hname
    exact List.mem_filter.2 ⟨he, by simp [hname]⟩
  rw [throughout_iff_along_step, and_iff_right (selfRecorded_iff.2 htruth)]
  refine along_iff_along
    (I := fun g => Tabled env g ∧ (g.own env).Truthful ∧ (g.own env).Unaccused)
    ?_ ?_ ⟨tabled_joined env onJoin onLeave, htruth, hun⟩ hv
  · intro g e h he hrecorded
    have htruth' := selfRecorded_iff.1 hrecorded
    exact ⟨h.1.step e he, htruth',
      Own.unaccused_turn h.2.1 h.2.2 (hpending g e he) (own_step h.1 he) htruth'⟩
  · intro g e h he
    rw [selfRecorded_iff, selfBelied_iff]
    exact Own.truthful_turn_iff h.2.1 h.2.2 (hpending g e he) (own_step h.1 he)

theorem selfRecorded_of_alive :
    Throughout (Gossiper.step sampleEnv) (SelfRecorded sampleEnv) (joined sampleEnv true false)
      [.message (news "a:1" 7 .alive "b:1") true, .message (news "a:1" 3 .suspect "b:1") true,
        .join] :=
  (selfRecorded_throughout_iff sampleEnv true false _ (by decide)).2 (by decide)

/-- The node objects to a SUSPECT message and suspects itself. -/
theorem not_selfRecorded_of_suspect :
    let es : List Event := [.message (news "a:1" 1 .suspect "b:1") true]
    let g := run (Gossiper.step sampleEnv) (joined sampleEnv false false) es
    Valid sampleEnv (joined sampleEnv false false) es ∧ g.isLeaving = false ∧
      ¬ SelfRecorded sampleEnv g ∧ g.dominant = 2 ∧
      (g.getNodeState "a:1").map NodeState.precedence = some (toLex (1, .suspect)) ∧
      "a:1" ∈ g.suspicions := by
  refine ⟨by decide, by decide, ?_, by decide, by decide, by decide⟩
  intro hrecorded
  exact hrecorded.2 (by decide)

end Gossiper

end CppGossip
