import CppGossip.Peer.Invariant

/-!
# A node as it sees itself

News about the node itself goes the way of news about any other, with two
differences. An accusation is answered by an objection, an ALIVE message of a
dominant taken from the node's own counter, and ALIVE news that is accepted sets
that counter. `Own` is what a gossiper holds about itself: what it would hold
about a peer, the counter, and the ALIVE messages it has made about itself.
-/

namespace CppGossip

open Collection

/-- An ALIVE message that a node has made about itself, with the dominant of the
accusation it answers, if any. -/
structure Issue where
  alive : NodeState
  accusation : Option UInt64

/-- What a gossiper holds about itself. -/
structure Own where
  peer : Peer
  dominant : UInt64
  issued : List Issue

namespace Own

/-- The node objects to an accusation of dominant `n`. -/
def object (env : Env) (n : UInt64) (o : Own) : Own :=
  let a := Gossiper.selfState env (Gossiper.objection o.dominant n)
  { peer := o.peer.push a
    dominant := a.dominant
    issued := ⟨a, some n⟩ :: o.issued }

/-- The node is told that it is alive. -/
def alive (a : NodeState) (needBc : Bool) (o : Own) : Own :=
  { o with
    peer := o.peer.alive a needBc
    dominant := if o.peer.known < a.dominant then a.dominant else o.dominant }

/-- The node joins. -/
def join (env : Env) (o : Own) : Own :=
  let a := Gossiper.selfState env (o.dominant + 1)
  { o with dominant := a.dominant, issued := ⟨a, none⟩ :: o.issued }.alive a false

/-- The node is told that it is dead. -/
def dead (env : Env) (d : NodeState) (o : Own) : Own :=
  if o.peer.Heeds d then
    let cleared := { o with peer := { o.peer with suspicion := none } }
    if o.peer.Down then cleared else cleared.object env d.dominant
  else o

/-- The node is told that it is suspect. It objects, and goes on to suspect
itself. -/
def suspect (env : Env) (nodeNum : UInt32) (s : NodeState) (o : Own) : Own :=
  if o.peer.Heeds s then
    match o.peer.suspicion with
    | some sus =>
        let counted := { o with peer := o.peer.count s sus }
        if (sus.confirm s.from_).1 then counted.dead env sus.accusation.killed
        else { counted with peer := counted.peer.push s }
    | none =>
        if ∀ r ∈ o.peer.record, r.state = .alive then
          let objected := o.object env s.dominant
          { objected with
            peer := { objected.peer.store s with
              suspicion := some (Suspicion.new env nodeNum s)
              accusations := s :: o.peer.accusations } }
        else o
  else o

/-- The event brings the node news of itself. A node does not ping itself. -/
def Concerns (env : Env) : Event → Prop
  | .join => True
  | .message m _ => m.name = env.conf.name ∧ m.state.Named
  | .conviction s => s.name = env.conf.name
  | .deadAlert name state _ => name = env.conf.name ∧ state = .dead
  | _ => False

/-- What an event makes of the node itself. -/
inductive Turn (env : Env) (nodeNum : UInt32) (o : Own) : Event → Own → Prop
  | nothing (e : Event) (h : ¬ Concerns env e) : Turn env nodeNum o e o
  /-- the message queued about the node is sent for the last time -/
  | sent (e : Event) (h : ¬ Concerns env e) :
      Turn env nodeNum o e { o with peer := { o.peer with queued := none } }
  | joined : Turn env nodeNum o .join (o.join env)
  | alive (a : NodeState) (needBc : Bool) (hname : a.name = env.conf.name) (ha : a.state = .alive) :
      Turn env nodeNum o (.message a needBc) (o.alive a needBc)
  | suspect (s : NodeState) (needBc : Bool) (hname : s.name = env.conf.name)
      (hs : s.state = .suspect) :
      Turn env nodeNum o (.message s needBc) (o.suspect env nodeNum s)
  | dead (d : NodeState) (needBc : Bool) (hname : d.name = env.conf.name) (hd : d.state = .dead) :
      Turn env nodeNum o (.message d needBc) (o.dead env d)
  | convicted (s : NodeState) (hname : s.name = env.conf.name) :
      Turn env nodeNum o (.conviction s) (o.dead env s.killed)
  | alerted (n : UInt64) :
      Turn env nodeNum o (.deadAlert env.conf.name .dead n) (o.object env n)

theorem not_concerns_of_silent {env : Env} {e : Event} (he : Gossiper.Silent env e) :
    ¬ Concerns env e := by
  intro h
  cases e with
  | message m needBc =>
      rcases h.2 with hm | hm | hm
      · exact he.1 hm
      · exact he.2.1 hm
      · exact he.2.2 hm
  | join => exact he
  | conviction s => exact he
  | deadAlert name state n => exact he h
  | _ => exact h

end Own

namespace Gossiper

/-- The ALIVE messages made in the calls of a trace. -/
def issues (trace : List Effect) : List Issue :=
  trace.filterMap fun
    | .issue alive accusation => some ⟨alive, accusation⟩
    | _ => none

/-- What `g` holds about the node it runs on. -/
def own (env : Env) (g : Gossiper) : Own where
  peer := g.peer env.conf.name
  dominant := g.dominant
  issued := issues g.trace

variable {env : Env} {g : Gossiper}

theorem own_fuckyou (env : Env) (g : Gossiper) (n : UInt64) :
    (g.fuckyou env n).own env = (g.own env).object env n := by
  have hpeer : (g.fuckyou env n).peer env.conf.name =
      (g.peer env.conf.name).push (selfState env (objection g.dominant n)) := by
    rw [fuckyou_eq, peer_push]
    exact if_pos rfl
  have htrace : issues (g.fuckyou env n).trace =
      ⟨selfState env (objection g.dominant n), some n⟩ :: issues g.trace := by
    rw [fuckyou_eq]
    rfl
  rw [own, hpeer, htrace, fuckyou_dominant]
  rfl

theorem issues_aliveNode (a : NodeState) (needBc : Bool) :
    issues (g.aliveNode env a needBc).trace = issues g.trace := by
  by_cases hacc : g.AliveAccepted env a
  · rw [aliveNode_of_accepted hacc]
    simp only [issues, List.filterMap_append]
    split <;> split <;> simp
  · rw [aliveNode_of_not_accepted hacc]

theorem dominant_aliveNode (a : NodeState) (needBc : Bool)
    (hstay : ¬ (g.isLeaving ∧ a.name = env.conf.name)) :
    (g.aliveNode env a needBc).dominant =
      if a.name = env.conf.name ∧ g.knownDominant a.name < a.dominant then a.dominant
      else g.dominant := by
  by_cases hacc : g.AliveAccepted env a
  · rw [aliveNode_of_accepted hacc]
    simp [hacc.2]
  · have hnot : ¬ g.knownDominant a.name < a.dominant := fun hlt => hacc ⟨hstay, hlt⟩
    rw [aliveNode_of_not_accepted hacc, if_neg fun hand => hnot hand.2]

theorem own_aliveNode (a : NodeState) (needBc : Bool)
    (hstay : ¬ (g.isLeaving ∧ a.name = env.conf.name)) :
    (g.aliveNode env a needBc).own env =
      if a.name = env.conf.name then (g.own env).alive a needBc else g.own env := by
  rw [own, peer_aliveNode needBc hstay, issues_aliveNode, dominant_aliveNode a needBc hstay]
  by_cases hself : a.name = env.conf.name
  · simp only [hself, true_and]
    rfl
  · simp only [hself, false_and, if_false]
    rfl

theorem own_congr {g' : Gossiper} (hpeer : g'.peer env.conf.name = g.peer env.conf.name)
    (hdominant : g'.dominant = g.dominant) (hissues : issues g'.trace = issues g.trace) :
    g'.own env = g.own env := by
  rw [own, hpeer, hdominant, hissues]
  rfl

theorem own_deadNode (h : g.isLeaving = false) (d : NodeState) :
    (g.deadNode env d).own env =
      if d.name = env.conf.name then (g.own env).dead env d else g.own env := by
  by_cases hself : d.name = env.conf.name
  · rw [if_pos hself, Own.dead]
    by_cases hheeds : g.Heeds d
    · have hp : (g.own env).peer.Heeds d := (heeds_peer_iff hself).2 hheeds
      rw [if_pos hp]
      by_cases hdown : g.Down d.name
      · have hd : (g.own env).peer.Down := (down_peer_iff hself).2 hdown
        rw [deadNode_of_down hheeds hdown, if_pos hd]
        simp [own, peer, getNodeState, hself]
      · have hd : ¬ (g.own env).peer.Down := mt (down_peer_iff hself).1 hdown
        rw [deadNode_of_self hheeds hdown hself h, own_fuckyou, if_neg hd]
        simp [own, peer, getNodeState, hself]
    · have hp : ¬ (g.own env).peer.Heeds d := mt (heeds_peer_iff hself).1 hheeds
      rw [deadNode_of_not_heeds hheeds, if_neg hp]
  · rw [if_neg hself]
    by_cases hheeds : g.Heeds d
    · by_cases hdown : g.Down d.name
      · rw [deadNode_of_down hheeds hdown]
        refine own_congr ?_ rfl rfl
        simp [peer, getNodeState, Ne.symm hself]
      · rw [deadNode_of_buried hheeds hdown fun hand => hself hand.1]
        refine own_congr ?_ rfl ?_
        · simp [peer, getNodeState, Gossiper.message_push, hself, Ne.symm hself]
        · simp only [issues, List.filterMap_append]
          split <;> simp
    · rw [deadNode_of_not_heeds hheeds]

theorem own_suspectNode_of_ne (h : Tabled env g) {s : NodeState}
    (hother : s.name ≠ env.conf.name) : (g.suspectNode env s).own env = g.own env := by
  have hcases := suspected env g s
  generalize g.suspectNode env s = g' at hcases
  cases hcases with
  | stale _ => rfl
  | convicted _ sus hsus _ =>
      have haccused : sus.accusation.killed.name ≠ env.conf.name := fun heq =>
        hother ((h.accused s.name sus hsus).symm.trans heq)
      rw [own_deadNode (h.counted hsus).staying, if_neg haccused]
      refine own_congr ?_ rfl rfl
      rw [peer_counted, if_neg hother]
  | confirmed _ sus _ _ =>
      refine own_congr ?_ rfl rfl
      rw [peer_push, if_neg hother, peer_counted, if_neg hother]
  | ignored _ _ _ => rfl
  | openedSelf _ _ _ hself => exact absurd hself hother
  | opened _ _ _ _ =>
      refine own_congr ?_ rfl rfl
      simp [peer, updateNodeState, Gossiper.push, getNodeState, Gossiper.message_push,
        hother, Ne.symm hother]

theorem own_suspectNode_self (h : Tabled env g) {s : NodeState} (hself : s.name = env.conf.name) :
    (g.suspectNode env s).own env = (g.own env).suspect env g.nodeNum s := by
  have hheeds : (g.own env).peer.Heeds s ↔ g.Heeds s := heeds_peer_iff hself
  have hopen : (g.own env).peer.suspicion = g.suspicions.lookup s.name := by
    rw [hself]
    rfl
  have hrecord : (g.own env).peer.record = g.getNodeState s.name := by
    rw [hself]
    rfl
  have hcases := suspected env g s
  generalize g.suspectNode env s = g' at hcases
  unfold Own.suspect
  rw [hopen, hrecord]
  cases hcases with
  | stale hnot => rw [if_neg (mt hheeds.1 hnot)]
  | convicted hheeded sus hsus hquorum =>
      have haccused : sus.accusation.killed.name = env.conf.name :=
        (h.accused s.name sus hsus).trans hself
      have hcounted : (g.counted s sus).own env =
          { g.own env with peer := (g.own env).peer.count s sus } := by
        rw [own, peer_counted, if_pos hself]
        rfl
      rw [if_pos (hheeds.2 hheeded), own_deadNode (h.counted hsus).staying, if_pos haccused, hcounted]
      simp only [hsus, hquorum, if_true]
  | confirmed hheeded sus hsus hquorum =>
      rw [if_pos (hheeds.2 hheeded), own, peer_push, if_pos hself, peer_counted, if_pos hself]
      simp only [hsus, hquorum, Bool.false_eq_true, if_false]
      rfl
  | ignored hheeded hsus hstate =>
      have hdead : ¬ ∀ r ∈ g.getNodeState s.name, r.state = .alive := by
        obtain ⟨r, hr, _⟩ := hheeded
        exact fun hall => hstate r hr (hall r hr)
      rw [if_pos (hheeds.2 hheeded)]
      simp only [hsus, if_neg hdead]
  | openedSelf hheeded hsus hstate _ =>
      rw [if_pos (hheeds.2 hheeded)]
      simp only [hsus, if_pos hstate, ← own_fuckyou env g s.dominant]
      simp [own, peer, Peer.store, updateNodeState, getNodeState, hself]
  | opened _ _ _ hother => exact absurd hself hother

theorem own_suspectNode (h : Tabled env g) (s : NodeState) :
    (g.suspectNode env s).own env =
      if s.name = env.conf.name then (g.own env).suspect env g.nodeNum s else g.own env := by
  by_cases hself : s.name = env.conf.name
  · rw [if_pos hself, own_suspectNode_self h hself]
  · rw [if_neg hself, own_suspectNode_of_ne h hself]

/-- A step does to what is held about the node itself what `Own.Turn` allows. -/
theorem own_step (h : Tabled env g) {e : Event} (he : g.Enabled e) :
    Own.Turn env g.nodeNum (g.own env) e ((g.step env e).own env) := by
  have hcases := handled h e he
  generalize g.step env e = g' at hcases
  cases hcases with
  | quiet hsilent hquiet =>
      have hconcerns := Own.not_concerns_of_silent hsilent
      cases hq : g'.bcQueue.message env.conf.name with
      | none =>
          have heq : g'.own env =
              { g.own env with peer := { (g.own env).peer with queued := none } } := by
            simp only [own, peer, getNodeState, hquiet.nodeMap, hquiet.suspicions, hquiet.timers,
              hquiet.dominant, hquiet.trace, hq]
          exact heq ▸ .sent _ hconcerns
      | some m =>
          have heq : g'.own env = g.own env :=
            own_congr (peer_congr hquiet.nodeMap hquiet.suspicions hquiet.timers
              (hq.trans (hquiet.message _ m hq).symm)) hquiet.dominant
              (congrArg issues hquiet.trace)
          exact heq ▸ .nothing _ hconcerns
  | joined =>
      have heq : ((g.announced env).aliveNode env (selfState env (g.dominant + 1)) false).own env =
          (g.own env).join env :=
        (own_aliveNode (g := g.announced env) _ false (h.not_leaving _)).trans (if_pos rfl)
      exact heq ▸ .joined
  | alive a needBc ha =>
      rw [own_aliveNode a needBc (h.not_leaving a)]
      split
      case isTrue hname => exact .alive a needBc hname ha
      case isFalse hname => exact .nothing _ fun hself => hname hself.1
  | suspect s needBc hs =>
      rw [own_suspectNode h]
      split
      case isTrue hname => exact .suspect s needBc hname hs
      case isFalse hname => exact .nothing _ fun hself => hname hself.1
  | timeout s _ hother =>
      rw [own_suspectNode h, if_neg hother]
      exact .nothing _ id
  | dead d needBc hd =>
      rw [own_deadNode h.staying]
      split
      case isTrue hname => exact .dead d needBc hname hd
      case isFalse hname => exact .nothing _ fun hself => hname hself.1
  | convicted s _ =>
      rw [own_deadNode h.staying]
      split
      case isTrue hname => exact .convicted s hname
      case isFalse hname => exact .nothing _ hname
  | alerted n =>
      rw [own_fuckyou]
      exact .alerted n

end Gossiper

end CppGossip
