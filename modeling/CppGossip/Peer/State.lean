import CppGossip.Broadcast.Message
import CppGossip.Gossiper.News

/-!
# One peer as a node sees it

A handler that is given news about one name touches what the gossiper holds
about that name and nothing it holds about another, apart from the count and
the order of the members. `Peer` is what is held about one name, and `alive`,
`suspect` and `dead` say what becomes of it when a node other than the holder
is reported alive, suspect or dead.
-/

namespace CppGossip

open Collection

/-- What a gossiper holds about one name: the record, the open suspicion, the
accusations that have opened one, and the message queued. -/
structure Peer where
  record : Option NodeState
  suspicion : Option Suspicion
  accusations : List NodeState
  queued : Option NodeState

namespace Peer

/-- The recorded dominant, zero when there is no record. -/
def known (p : Peer) : UInt64 := p.record.elim 0 NodeState.dominant

/-- There is no record, or it says dead. -/
def Down (p : Peer) : Prop := ∀ r ∈ p.record, r.state = .dead

instance (p : Peer) : Decidable p.Down :=
  inferInstanceAs (Decidable (∀ r ∈ p.record, r.state = .dead))

/-- There is a record, of a dominant no greater than that of `m`. -/
def Heeds (p : Peer) (m : NodeState) : Prop := ∃ r ∈ p.record, r.dominant ≤ m.dominant

instance (p : Peer) (m : NodeState) : Decidable (p.Heeds m) :=
  inferInstanceAs (Decidable (∃ r ∈ p.record, r.dominant ≤ m.dominant))

/-- A message about the peer is pushed. -/
def push (m : NodeState) (p : Peer) : Peer :=
  { p with queued := some (BroadcastQueue.kept m p.queued) }

/-- The record is overwritten. -/
def store (m : NodeState) (p : Peer) : Peer :=
  { p with record := some { m with timestamp := 0 } }

/-- The peer is reported alive. -/
def alive (a : NodeState) (needBc : Bool) (p : Peer) : Peer :=
  if p.known < a.dominant then
    let cleared := { p.store a with suspicion := none }
    if needBc then cleared.push a else cleared
  else p

/-- The peer is reported dead. -/
def dead (d : NodeState) (p : Peer) : Peer :=
  if p.Heeds d then
    let cleared := { p with suspicion := none }
    if p.Down then cleared else (cleared.store d).push d
  else p

/-- `p` with its open suspicion, `sus`, having counted the accuser of `s`. -/
def count (s : NodeState) (sus : Suspicion) (p : Peer) : Peer :=
  { p with suspicion := some (sus.confirm s.from_).2 }

/-- A suspicion of the peer is opened in a cluster of `nodeNum` members. -/
def accuse (env : Env) (nodeNum : UInt32) (s : NodeState) (p : Peer) : Peer :=
  { (p.store s).push s with
    suspicion := some (Suspicion.new env nodeNum s)
    accusations := s :: p.accusations }

/-- The peer is reported suspect. -/
def suspect (env : Env) (nodeNum : UInt32) (s : NodeState) (p : Peer) : Peer :=
  if p.Heeds s then
    match p.suspicion with
    | some sus =>
        if (sus.confirm s.from_).1 then (p.count s sus).dead sus.accusation.killed
        else (p.count s sus).push s
    | none => if ∀ r ∈ p.record, r.state = .alive then p.accuse env nodeNum s else p
  else p

/-- What an event makes of the peer called `x`. -/
def step (env : Env) (x : String) (nodeNum : UInt32) (p : Peer) : Event → Peer
  | .message m needBc =>
      if m.name = x then
        match m.state with
        | .alive => p.alive m needBc
        | .suspect => p.suspect env nodeNum m
        | .dead => p.dead m
        | .other _ _ => p
      else p
  | .probeTimeout s => if s.name = x then p.suspect env nodeNum s else p
  | .conviction s => if s.name = x then p.dead s.killed else p
  | _ => p

/-- The name an event brings news of to one of the handlers. -/
def about : Event → Option String
  | .message m _ =>
      match m.state with
      | .alive | .suspect | .dead => some m.name
      | .other _ _ => none
  | .probeTimeout s => some s.name
  | .conviction s => some s.name
  | _ => none

section Cases

variable (env : Env) (x : String) (nodeNum : UInt32) (p : Peer)

/-- The ways in which an event concerns the peer called `x`. -/
inductive Brought : Event → Peer → Prop
  | nothing (e : Event) (h : about e ≠ some x) : Brought e p
  | alive (a : NodeState) (needBc : Bool) (hname : a.name = x) (ha : a.state = .alive) :
      Brought (.message a needBc) (p.alive a needBc)
  | suspect (s : NodeState) (needBc : Bool) (hname : s.name = x) (hs : s.state = .suspect) :
      Brought (.message s needBc) (p.suspect env nodeNum s)
  | timeout (s : NodeState) (hname : s.name = x) :
      Brought (.probeTimeout s) (p.suspect env nodeNum s)
  | dead (d : NodeState) (needBc : Bool) (hname : d.name = x) (hd : d.state = .dead) :
      Brought (.message d needBc) (p.dead d)
  | convicted (s : NodeState) (hname : s.name = x) : Brought (.conviction s) (p.dead s.killed)

theorem step_of_about_ne {e : Event} (h : about e ≠ some x) : p.step env x nodeNum e = p := by
  cases e with
  | message m needBc =>
      by_cases hname : m.name = x
      · cases hm : m.state with
        | other raw hraw => simp [step, hm]
        | _ => simp [about, hm, hname] at h
      · simp [step, hname]
  | probeTimeout s => exact if_neg fun hname => h (congrArg some hname)
  | conviction s => exact if_neg fun hname => h (congrArg some hname)
  | _ => rfl

theorem brought (e : Event) : Brought env x nodeNum p e (p.step env x nodeNum e) := by
  by_cases h : about e = some x
  · cases e with
    | message m needBc =>
        cases hm : m.state with
        | alive =>
            have hname : m.name = x := by simpa [about, hm] using h
            simpa only [step, hm, if_pos hname] using Brought.alive m needBc hname hm
        | suspect =>
            have hname : m.name = x := by simpa [about, hm] using h
            simpa only [step, hm, if_pos hname] using Brought.suspect m needBc hname hm
        | dead =>
            have hname : m.name = x := by simpa [about, hm] using h
            simpa only [step, hm, if_pos hname] using Brought.dead m needBc hname hm
        | other raw hraw => simp [about, hm] at h
    | probeTimeout s =>
        have hname : s.name = x := Option.some.inj h
        simpa only [step, if_pos hname] using Brought.timeout s hname
    | conviction s =>
        have hname : s.name = x := Option.some.inj h
        simpa only [step, if_pos hname] using Brought.convicted s hname
    | registerNotifier join leave => cases h
    | join => cases h
    | probe cursor => cases h
    | deadAlert name state dominant => cases h
    | batch n applied => cases h
  · rw [step_of_about_ne env x nodeNum p h]
    exact .nothing e h

/-- What may become of the peer called `x`: the event is handled, or it brings
no news and the message queued is sent for the last time. -/
inductive Next (e : Event) : Peer → Prop
  | handled : Next e (p.step env x nodeNum e)
  | sent (he : about e = none) : Next e { p with queued := none }

end Cases

theorem Next.of_eq {env : Env} {x : String} {nodeNum : UInt32} {p p' : Peer} {e : Event}
    (h : p' = p.step env x nodeNum e) : Next env x nodeNum p e p' := h ▸ .handled

theorem about_of_silent {env : Env} {e : Event} (he : Gossiper.Silent env e) : about e = none := by
  cases e with
  | message m needBc =>
      obtain ⟨halive, hsuspect, hdead⟩ := he
      cases hm : m.state with
      | alive => exact absurd hm halive
      | suspect => exact absurd hm hsuspect
      | dead => exact absurd hm hdead
      | other raw hraw => simp [about, hm]
  | probeTimeout s => exact he.elim
  | conviction s => exact he.elim
  | _ => rfl

end Peer

namespace Gossiper

/-- What `g` holds about `x`. -/
def peer (g : Gossiper) (x : String) : Peer where
  record := g.getNodeState x
  suspicion := g.suspicions.lookup x
  accusations := g.timers.filter fun s => s.name = x
  queued := g.bcQueue.message x

variable {env : Env} {g : Gossiper} {x : String}

theorem peer_congr {g' : Gossiper} (hmap : g'.nodeMap = g.nodeMap)
    (hsuspicions : g'.suspicions = g.suspicions) (htimers : g'.timers = g.timers)
    (hqueue : g'.bcQueue.message x = g.bcQueue.message x) : g'.peer x = g.peer x := by
  simp only [peer, getNodeState, hmap, hsuspicions, htimers, hqueue]

theorem heeds_peer_iff {m : NodeState} (hx : m.name = x) : (g.peer x).Heeds m ↔ g.Heeds m := by
  subst hx
  rfl

theorem down_peer_iff {name : String} (hx : name = x) : (g.peer x).Down ↔ g.Down name := by
  subst hx
  rfl

theorem peer_push (m : NodeState) :
    (g.push env m).peer x = if m.name = x then (g.peer x).push m else g.peer x := by
  by_cases hx : m.name = x
  · simp [peer, Gossiper.push, Peer.push, Gossiper.message_push, getNodeState, hx]
  · simp [peer, Gossiper.push, Gossiper.message_push, getNodeState, hx]

/-- An objection is no news of any other node. -/
theorem peer_fuckyou (hx : x ≠ env.conf.name) (n : UInt64) :
    (g.fuckyou env n).peer x = g.peer x := by
  rw [fuckyou_eq, peer_push]
  exact if_neg (Ne.symm hx)

theorem peer_counted (s : NodeState) (sus : Suspicion) :
    (g.counted s sus).peer x = if s.name = x then (g.peer x).count s sus else g.peer x := by
  by_cases hx : s.name = x
  · simp [peer, counted, Peer.count, getNodeState, hx]
  · simp [peer, counted, getNodeState, hx, Ne.symm hx]

theorem peer_aliveNode {a : NodeState} (needBc : Bool)
    (hstay : ¬ (g.isLeaving ∧ a.name = env.conf.name)) :
    (g.aliveNode env a needBc).peer x =
      if a.name = x then (g.peer x).alive a needBc else g.peer x := by
  by_cases hacc : g.AliveAccepted env a
  · rw [aliveNode_of_accepted hacc]
    by_cases hx : a.name = x
    · have hlt : (g.peer x).known < a.dominant := hx ▸ hacc.2
      rw [if_pos hx, Peer.alive, if_pos hlt]
      cases needBc with
      | false => simp [peer, Peer.store, getNodeState, hx]
      | true =>
          simp [peer, Peer.store, Peer.push, getNodeState, Gossiper.message_push, hx]
    · cases needBc with
      | false => simp [peer, getNodeState, hx, Ne.symm hx]
      | true => simp [peer, getNodeState, Gossiper.message_push, hx, Ne.symm hx]
  · rw [aliveNode_of_not_accepted hacc]
    by_cases hx : a.name = x
    · have hle : ¬ (g.peer x).known < a.dominant := fun hlt => hacc ⟨hstay, hx.symm ▸ hlt⟩
      rw [if_pos hx, Peer.alive, if_neg hle]
    · rw [if_neg hx]

theorem peer_deadNode (hx : x ≠ env.conf.name) (d : NodeState) :
    (g.deadNode env d).peer x = if d.name = x then (g.peer x).dead d else g.peer x := by
  by_cases hheeds : g.Heeds d
  · by_cases hdown : g.Down d.name
    · rw [deadNode_of_down hheeds hdown]
      by_cases hname : d.name = x
      · have hp : (g.peer x).Heeds d := hname ▸ hheeds
        have hd : (g.peer x).Down := hname ▸ hdown
        rw [if_pos hname, Peer.dead, if_pos hp, if_pos hd]
        simp [peer, getNodeState, hname]
      · simp [peer, getNodeState, hname, Ne.symm hname]
    · by_cases hself : d.name = env.conf.name ∧ g.isLeaving = false
      · have hname : d.name ≠ x := fun hname => hx (hname ▸ hself.1)
        rw [deadNode_of_self hheeds hdown hself.1 hself.2, peer_fuckyou hx, if_neg hname]
        simp [peer, getNodeState, Ne.symm hname]
      · rw [deadNode_of_buried hheeds hdown hself]
        by_cases hname : d.name = x
        · have hp : (g.peer x).Heeds d := hname ▸ hheeds
          have hd : ¬ (g.peer x).Down := hname ▸ hdown
          rw [if_pos hname, Peer.dead, if_pos hp, if_neg hd]
          simp [peer, Peer.store, Peer.push, getNodeState, Gossiper.message_push, hname]
        · simp [peer, getNodeState, Gossiper.message_push, hname, Ne.symm hname]
  · rw [deadNode_of_not_heeds hheeds]
    by_cases hname : d.name = x
    · have hp : ¬ (g.peer x).Heeds d := hname ▸ hheeds
      rw [if_pos hname, Peer.dead, if_neg hp]
    · rw [if_neg hname]

theorem peer_suspectNode (h : Tabled env g) (hx : x ≠ env.conf.name) (s : NodeState) :
    (g.suspectNode env s).peer x =
      if s.name = x then (g.peer x).suspect env g.nodeNum s else g.peer x := by
  have hcases := suspected env g s
  generalize g.suspectNode env s = g' at hcases
  by_cases hname : s.name = x
  · subst hname
    rw [if_pos rfl, Peer.suspect]
    cases hcases with
    | stale hheeds => exact (if_neg hheeds).symm
    | convicted hheeds sus hsus hquorum =>
        have hp : (g.peer s.name).Heeds s := hheeds
        have haccused : sus.accusation.killed.name = s.name := h.accused s.name sus hsus
        rw [if_pos hp, peer_deadNode hx, if_pos haccused, peer_counted, if_pos rfl]
        simp only [peer, hsus, hquorum, if_true]
    | confirmed hheeds sus hsus hquorum =>
        have hp : (g.peer s.name).Heeds s := hheeds
        rw [if_pos hp, peer_push, if_pos rfl, peer_counted, if_pos rfl]
        simp [peer, hsus, hquorum]
    | ignored hheeds hsus hstate =>
        have hp : (g.peer s.name).Heeds s := hheeds
        obtain ⟨r, hr, -⟩ := hheeds.exists_record
        rw [if_pos hp]
        have hnot : r.state ≠ .alive := hstate r hr
        simp [peer, hsus, hr, hnot]
    | openedSelf _ _ _ hself => exact absurd hself hx
    | opened hheeds hsus hstate hother =>
        have hp : (g.peer s.name).Heeds s := hheeds
        have halive : ∀ r ∈ (g.peer s.name).record, r.state = .alive := hstate
        rw [if_pos hp]
        simp only [show (g.peer s.name).suspicion = none from hsus, if_pos halive]
        simp [peer, Peer.accuse, Peer.store, Peer.push, updateNodeState, Gossiper.push,
          getNodeState, Gossiper.message_push]
  · rw [if_neg hname]
    cases hcases with
    | stale _ => rfl
    | convicted _ sus hsus _ =>
        have haccused : sus.accusation.killed.name ≠ x := fun heq =>
          hname ((h.accused s.name sus hsus).symm.trans heq)
        rw [peer_deadNode hx, if_neg haccused, peer_counted, if_neg hname]
    | confirmed _ sus _ _ => rw [peer_push, if_neg hname, peer_counted, if_neg hname]
    | ignored _ _ _ => rfl
    | openedSelf _ _ _ _ =>
        have hfuck := peer_fuckyou (g := g) hx s.dominant
        have hqueue : (g.fuckyou env s.dominant).bcQueue.message x = g.bcQueue.message x :=
          congrArg Peer.queued hfuck
        simp [peer, updateNodeState, getNodeState, hname, Ne.symm hname, hqueue]
    | opened _ _ _ _ =>
        simp [peer, updateNodeState, Gossiper.push, getNodeState, Gossiper.message_push,
          hname, Ne.symm hname]

/-- A step does to what is held about another node what the event does to that
node, however the order of members and the rest of the queue come out. -/
theorem peer_step (h : Tabled env g) (hx : x ≠ env.conf.name) {e : Event} (he : g.Enabled e) :
    Peer.Next env x g.nodeNum (g.peer x) e ((g.step env e).peer x) := by
  have hcases := handled h e he
  generalize g.step env e = g' at hcases
  cases hcases with
  | quiet hsilent hquiet =>
      have habout := Peer.about_of_silent hsilent
      cases hq : g'.bcQueue.message x with
      | none =>
          have heq : g'.peer x = { g.peer x with queued := none } := by
            simp only [peer, getNodeState, hquiet.nodeMap, hquiet.suspicions, hquiet.timers, hq]
          rw [heq]
          exact .sent habout
      | some m =>
          have heq : g'.peer x = g.peer x :=
            peer_congr hquiet.nodeMap hquiet.suspicions hquiet.timers
              (hq.trans (hquiet.message x m hq).symm)
          have hstep := Peer.step_of_about_ne env x g.nodeNum (g.peer x) (e := e) (by simp [habout])
          exact .of_eq (heq.trans hstep.symm)
  | joined =>
      have hjoin : ((g.announced env).aliveNode env (selfState env (g.dominant + 1)) false).peer x =
          (g.announced env).peer x :=
        (peer_aliveNode (g := g.announced env) false (h.not_leaving _)).trans (if_neg (Ne.symm hx))
      exact .of_eq hjoin
  | alive a needBc ha =>
      apply Peer.Next.of_eq
      simp only [peer_aliveNode needBc (h.not_leaving a), Peer.step, ha]
  | suspect s needBc hs =>
      apply Peer.Next.of_eq
      simp only [peer_suspectNode h hx, Peer.step, hs]
  | timeout s _ _ => exact .of_eq (peer_suspectNode h hx s)
  | dead d needBc hd =>
      apply Peer.Next.of_eq
      simp only [peer_deadNode hx, Peer.step, hd]
  | convicted s _ => exact .of_eq (peer_deadNode hx s.killed)
  | alerted n => exact .of_eq (peer_fuckyou hx n)

end Gossiper

end CppGossip
