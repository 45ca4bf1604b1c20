import CppGossip.Gossiper.Queue
import CppGossip.Process.State

/-!
# What a process does

Each handler of a process merges records that were read, makes a probe or calls
a handler of the gossiper. `Probed`, `Received` and `Served` list what a call that
returns has done, for the three that also send something.
-/

namespace CppGossip

open Bytes Collection Message Transition

namespace Gossiper

variable {fb : FlatBuffers} {env : Env} {d : Remains} {g g' : Gossiper} {needBc : Bool}

/-- `g'` is `g` after a list of records that were read has been merged. -/
def Merged (env : Env) (needBc : Bool) (g g' : Gossiper) : Prop :=
  ∃ states, (∀ m ∈ states, ∃ ns, convert ns = some m) ∧ g' = g.merge env needBc states

theorem merged_nil : Merged env needBc g g := ⟨[], List.forall_mem_nil _, rfl⟩

/-- What is merged is read. -/
theorem merged_of_mergeSection {states : NodeStates}
    (h : mergeSection d.toDestroyed env needBc states g = .ok g') : Merged env needBc g g' := by
  refine ⟨states.readable, fun m hm => ?_, merge_of_mergeSection h⟩
  obtain ⟨ns, _, hns⟩ := List.mem_filterMap.1 hm
  exact ⟨ns, hns⟩

theorem merged_of_mergeRead {states : Option NodeStates}
    (h : mergeRead env d.toDestroyed states g = .ok g') : Merged env true g g' := by
  cases states with
  | none =>
      cases h
      exact merged_nil
  | some states => exact merged_of_mergeSection h

/-- An answer stays inside the buffer, and the number returned within its size. -/
theorem answerPing_inside {seqNo : UInt64} {ns : Option NodeState} {respBuff resp : List UInt8}
    {respSize : ℕ} {n : Int} (hsize : respSize ≤ respBuff.length)
    (hok : answerPing fb seqNo ns respBuff respSize = .ok (n, resp)) :
    n ≤ respSize ∧ resp.length = respBuff.length := by
  simp only [answerPing, Result.bind_eq_ok_iff, orFault_eq_ok_iff] at hok
  obtain ⟨pong, hpong, hrest⟩ := hok
  rw [toNat_headerSize_add (fb.pong.finish_lt hpong)] at hrest
  split at hrest
  case isTrue =>
    cases hrest
    exact ⟨by omega, rfl⟩
  case isFalse hroom =>
    have hlength : (write 8 pong (write 0 (encodeHeader
        { type := typePong, bodyLength := UInt32.ofNat pong.length }) respBuff)).length =
          respBuff.length := by
      rw [length_write, length_write (Nat.zero_le _), length_encodeHeader]
      · omega
      · rw [length_write (Nat.zero_le _), length_encodeHeader]
        omega
    cases ns with
    | none =>
        cases hrest
        exact ⟨by omega, hlength⟩
    | some node =>
        by_cases hdead : node.state = .dead
        · simp only [hdead, if_true, Result.bind_eq_ok_iff] at hrest
          obtain ⟨alert, halert, heq⟩ := hrest
          cases heq
          have hfits : ((pong.length + 8 + alert.length : ℕ) : Int) ≤ respSize := by
            rcases appendDeadAlert_of_ok halert with rfl | ⟨hle, -⟩
            · rw [List.length_nil]
              omega
            · omega
          refine ⟨by omega, ?_⟩
          rw [length_write (by omega), hlength]
          omega
        · simp only [hdead, if_false] at hrest
          cases hrest
          exact ⟨by omega, hlength⟩

/-- A call of `handlePacket` merges what it reads, and answers pings only. -/
theorem handlePacket_of_ok {buff respBuff resp : List UInt8} {size respSize : ℕ} {n : Int}
    (hok : handlePacket fb env d.toDestroyed buff size respBuff respSize g = .ok (n, resp, g')) :
    Merged env true g g' ∧
      (n = 0 ∧ resp = respBuff ∨
        ∃ seqNo ns, answerPing fb seqNo ns respBuff respSize = .ok (n, resp)) := by
  by_cases htype : (decodeHeader buff).type = typePing
  · rw [handlePacket_of_ping htype] at hok
    simp only [Result.bind_eq_ok_iff] at hok
    obtain ⟨_, _, merged, hmerged, ⟨rst, answered⟩, hanswer, heq⟩ := hok
    cases heq
    exact ⟨merged_of_mergeRead hmerged, Or.inr ⟨_, _, hanswer⟩⟩
  · rw [handlePacket, if_neg htype] at hok
    cases hok
    exact ⟨merged_nil, Or.inl ⟨rfl, rfl⟩⟩

theorem merged_of_answerBody {order : List NodeState → List NodeState} {locals a : Locals}
    {type : UInt32} {buff : List UInt8}
    (hok : answerBody fb env order d.toDestroyed locals type buff g = .ok (a, g')) :
    Merged env true g g' := by
  by_cases hsync : type = typeSyncState
  · subst hsync
    rw [answerBody_of_syncState] at hok
    simp only [Result.bind_eq_ok_iff] at hok
    obtain ⟨merged, hmerged, _, _, heq⟩ := hok
    cases heq
    exact merged_of_mergeSection hmerged
  · rw [(answerBody_of_ne_syncState hsync).2 a g' hok]
    exact merged_nil

theorem merged_of_serve {order : List NodeState → List NodeState} {locals : Locals}
    {sent inBuff outBuff written : List UInt8}
    (hok : Session.serve fb env order d.toDestroyed locals sent inBuff outBuff g =
      .ok (written, g')) : Merged env true g g' := by
  rw [Session.serve] at hok
  split at hok
  case h_1 =>
    cases hok
    exact merged_nil
  case h_2 header buff _ =>
    obtain ⟨⟨n, resp, merged⟩, hbody, heq⟩ := Result.bind_eq_ok_iff.1 hok
    cases heq
    obtain ⟨a, ha⟩ := answerBody_of_handleBody hbody
    exact merged_of_answerBody ha

theorem length_le_of_serve {order : List NodeState → List NodeState} {locals : Locals}
    {sent inBuff outBuff written : List UInt8}
    (hok : Session.serve fb env order d.toDestroyed locals sent inBuff outBuff g =
      .ok (written, g')) :
    written.length ≤ Session.buffSize := by
  rw [Session.serve] at hok
  split at hok
  case h_1 =>
    cases hok
    exact Nat.zero_le _
  case h_2 =>
    obtain ⟨⟨n, resp, merged⟩, _, heq⟩ := Result.bind_eq_ok_iff.1 hok
    cases heq
    rw [Session.written, List.length_take]
    exact (Nat.min_le_left _ _).trans (Nat.min_le_left _ _)

/-- A pong is at most a dead alert. -/
theorem handlePong_of_ok {resp : List UInt8} {size : ℕ}
    (hok : handlePong fb env resp size g = .ok g') :
    g' = g ∨ ∃ name state dominant, g' = g.deadAlert env name state dominant := by
  rw [handlePong, Result.bind_eq_ok_iff] at hok
  obtain ⟨pong, _, hrest⟩ := hok
  split at hrest
  case h_1 =>
    cases hrest
    exact Or.inl rfl
  case h_2 alert _ =>
    cases hrest
    exact Or.inr ⟨_, _, _, rfl⟩

/-! ## Pings -/

/-- A call of `generatePing` fails and leaves the queue alone, or it makes a ping. -/
theorem generatePing_of_ok {seqNo : UInt64} {sendBuff sent : List UInt8} {sendBuffSize : ℕ}
    {o o' : Outbox} {r : Int}
    (hok : generatePing fb env seqNo sendBuff sendBuffSize o = .ok (r, sent, o')) :
    r = -1 ∧ o' = o ∨ 0 < r := by
  simp only [generatePing, Result.bind_eq_ok_iff] at hok
  obtain ⟨body, _, hrest⟩ := hok
  split at hrest
  case isTrue =>
    cases hrest
    exact Or.inl ⟨rfl, rfl⟩
  case isFalse =>
    obtain ⟨⟨gossip, o₁⟩, _, heq⟩ := Result.bind_eq_ok_iff.1 hrest
    cases heq
    right
    omega

/-- A probe that pings `node` numbers the ping and waits for it. -/
theorem probe_eq {cursor : ℕ} {name : String} {node : NodeState}
    (hname : (g.roundrobinNode 1 cursor).1.head? = some name)
    (hnode : g.getNodeState name = some node)
    (hprobed : node.state = .alive ∧ node.name ≠ env.conf.name) :
    g.probe env cursor = { g.nextSeqNum.2 with pings := node :: g.pings } := by
  obtain ⟨rest, hcandi⟩ : ∃ rest, (g.roundrobinNode 1 cursor).1 = name :: rest := by
    cases hlist : (g.roundrobinNode 1 cursor).1 with
    | nil =>
        rw [hlist] at hname
        cases hname
    | cons first rest =>
        rw [hlist] at hname
        cases hname
        exact ⟨rest, rfl⟩
  simp only [Gossiper.probe, hcandi, hnode, if_pos hprobed]

end Gossiper

namespace Process

open Gossiper

variable {fb : FlatBuffers} {env : Env} {order : List NodeState → List NodeState} {p p' : Process}
  {out : List Output}

/-- The queue and the number of messages that `appendGossipMsg` works with. -/
def outbox (p : Process) : Outbox where
  bcQueue := p.gossiper.bcQueue
  maxAppendedMsg := p.maxAppendedMsg

/-- `p` after a ping of `node` has been numbered. -/
def pinging (node : NodeState) (p : Process) : Process :=
  { p with
    gossiper := { p.gossiper.nextSeqNum.2 with pings := node :: p.gossiper.pings }
    cursor := (p.gossiper.roundrobinNode 1 p.cursor).2 }

/-- What a call of `probe` that returns has done. -/
inductive Probed (fb : FlatBuffers) (env : Env) (p : Process) : Process → List Output → Prop
  /-- it is the turn of the node itself, or of one that is not recorded alive -/
  | idle (name : String) (node : NodeState)
      (hname : (p.gossiper.roundrobinNode 1 p.cursor).1.head? = some name)
      (hnode : p.gossiper.getNodeState name = some node)
      (hnot : ¬ (node.state = .alive ∧ node.name ≠ env.conf.name)) :
      Probed fb env p { p with cursor := (p.gossiper.roundrobinNode 1 p.cursor).2 } []
  /-- the name of the node is too long for a ping -/
  | failed (name : String) (node : NodeState)
      (hname : (p.gossiper.roundrobinNode 1 p.cursor).1.head? = some name)
      (hnode : p.gossiper.getNodeState name = some node)
      (hprobed : node.state = .alive ∧ node.name ≠ env.conf.name) :
      Probed fb env p (p.pinging node) []
  | sent (name : String) (node : NodeState)
      (hname : (p.gossiper.roundrobinNode 1 p.cursor).1.head? = some name)
      (hnode : p.gossiper.getNodeState name = some node)
      (hprobed : node.state = .alive ∧ node.name ≠ env.conf.name)
      (port : Int16) (body gossip : List UInt8) (o : Outbox)
      (hbody : fb.ping.finish
        { seqNo := p.gossiper.nextSeqNum.1, from_ := some env.conf.name } = some body)
      (happends : Outbox.Appends fb (mtu - body.length - 8) p.outbox gossip o)
      (hfits : 8 + body.length + gossip.length ≤ mtu) :
      Probed fb env p
        { p.pinging node with
          gossiper := { (p.pinging node).gossiper with bcQueue := o.bcQueue }
          maxAppendedMsg := o.maxAppendedMsg }
        [.ping node.ip port (packet typePing body gossip)]

theorem probed (hq : p.gossiper.bcQueue.Settled) {sendBuff : List UInt8}
    (hok : p.probe fb env sendBuff = .ok (p', out)) : Probed fb env p p' out := by
  simp only [probe, Result.bind_eq_ok_iff, orFault_eq_ok_iff] at hok
  obtain ⟨name, hname, node, hnode, hrest⟩ := hok
  by_cases hprobed : node.state = .alive ∧ node.name ≠ env.conf.name
  · simp only [if_pos hprobed, Result.bind_eq_ok_iff] at hrest
    obtain ⟨⟨⟨host, port⟩, r, sent, o⟩, hping, heq⟩ := hrest
    simp only [probeNode, Result.bind_eq_ok_iff, orFault_eq_ok_iff] at hping
    obtain ⟨number, _, ⟨r', sent', o'⟩, hgenerate, hsame⟩ := hping
    cases hsame
    rcases generatePing_of_ok hgenerate with ⟨rfl, rfl⟩ | hpos
    · cases heq
      exact .failed name node hname hnode hprobed
    · obtain ⟨body, gossip, hbody, hroom, hgossip, rfl, htake⟩ := generatePing_of_pos hgenerate hpos
      rw [if_pos hpos, Int.toNat_natCast, htake] at heq
      cases heq
      have hfits : 8 + body.length + gossip.length ≤ mtu := by
        rcases Outbox.packet_of_ok hgossip with rfl | ⟨hle, -⟩
        · simpa using hroom
        · omega
      exact .sent name node hname hnode hprobed _ body gossip o hbody
        (Outbox.appends_of_ok hq hgossip) hfits
  · simp only [if_neg hprobed] at hrest
    cases hrest
    exact .idle name node hname hnode hprobed

end Process

end CppGossip
