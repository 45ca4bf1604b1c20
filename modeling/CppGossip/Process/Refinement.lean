import CppGossip.Cluster.State
import CppGossip.Process.Outcome
import CppGossip.Wire.Progress

/-!
# A process runs a gossiper

Whatever bytes a process is given, the gossiper in it handles events that may
come, one at a time, and the messages among them have been read off the wire.
`run_refines` is that for every run. What holds of a gossiper in every run of
such events therefore holds of the one in a process, and with it the buffers
keep their sizes (`bounded_run`).
-/

namespace CppGossip

open Bytes Collection Message Transition

/-- The events that an input may bring to the gossiper. -/
def Brings : Input → Event → Prop
  | .registerNotifier join leave, e => e = .registerNotifier join leave
  | .join _ _, e => e = .join
  | .reply _ _ _, .message m needBc => needBc = false ∧ ∃ ns, convert ns = some m
  | .datagram _ _, .message m needBc | .connection _ _ _ _ _, .message m needBc =>
      needBc = true ∧ ∃ ns, convert ns = some m
  | .probe _, .probe _ => True
  | .probe _, .batch _ applied => applied = true
  | .probeTimeout node, e => e = .probeTimeout node
  | .pong _ _, .deadAlert _ _ _ => True
  | .conviction accusation, e => e = .conviction accusation
  | _, _ => False

/-- The bytes fit into what they are put into. -/
def Output.Fits : Output → Prop
  | .ping _ _ bytes | .pong bytes => bytes.length ≤ mtu
  | .reply bytes => bytes.length ≤ Session.buffSize
  | .request _ => True

namespace Process

open Gossiper

variable {fb : FlatBuffers} {env : Env} {order : List NodeState → List NodeState} {p p' : Process}
  {out : List Output} {i : Input}

/-- The gossiper of `p'` is that of `p` after events that `i` brings. -/
def Refined (env : Env) (i : Input) (p p' : Process) : Prop :=
  ∃ es, (∀ e ∈ es, Brings i e) ∧ Gossiper.Valid env p.gossiper es ∧
    p'.gossiper = run (Gossiper.step env) p.gossiper es

theorem Refined.of_eq (h : p'.gossiper = p.gossiper) : Refined env i p p' :=
  ⟨[], List.forall_mem_nil _, trivial, h⟩

theorem Refined.of_event {e : Event} (hbrings : Brings i e) (he : p.gossiper.Enabled e)
    (h : p'.gossiper = p.gossiper.step env e) : Refined env i p p' :=
  ⟨[e], fun _ he' => List.mem_singleton.1 he' ▸ hbrings, ⟨he, trivial⟩, h⟩

theorem Refined.of_merged {needBc : Bool}
    (hbrings : ∀ m, (∃ ns, convert ns = some m) → Brings i (.message m needBc))
    (h : Merged env needBc p.gossiper p'.gossiper) : Refined env i p p' := by
  obtain ⟨states, hread, heq⟩ := h
  refine ⟨states.map fun state => .message state needBc, fun e he => ?_,
    valid_map_message needBc states, heq⟩
  obtain ⟨m, hm, rfl⟩ := List.mem_map.1 he
  exact hbrings m (hread m hm)

theorem refined_probe {sendBuff : List UInt8} (h : Probed fb env p p' out) :
    Refined env (.probe sendBuff) p p' := by
  have hprobe {name : String} {node : NodeState}
      (hname : (p.gossiper.roundrobinNode 1 p.cursor).1.head? = some name)
      (hnode : p.gossiper.getNodeState name = some node)
      (hprobed : node.state = .alive ∧ node.name ≠ env.conf.name) :
      (p.pinging node).gossiper = p.gossiper.step env (.probe p.cursor) :=
    (probe_eq hname hnode hprobed).symm
  cases h with
  | idle _ _ _ _ _ => exact .of_eq rfl
  | failed name node hname hnode hprobed =>
      exact .of_event (e := .probe p.cursor) trivial trivial (hprobe hname hnode hprobed)
  | sent name node hname hnode hprobed port body gossip o _ happends _ =>
      have hsame := hprobe hname hnode hprobed
      cases happends with
      | empty _ =>
          refine .of_event (e := .probe p.cursor) trivial trivial ?_
          rw [← hsame]
          rfl
      | large _ _ _ _ _ =>
          refine .of_event (e := .probe p.cursor) trivial trivial ?_
          rw [← hsame]
          rfl
      | fits _ _ _ _ _ =>
          refine ⟨[.probe p.cursor, .batch p.maxAppendedMsg true], ?_, ⟨trivial, trivial, trivial⟩, ?_⟩
          · rintro e (_ | ⟨_, _ | ⟨_, he⟩⟩)
            · trivial
            · rfl
            · cases he
          · rw [run_cons, run_cons, run_nil, ← hsame]
            rfl

/-- A call that returns has had the gossiper handle what the input brings. -/
theorem refined (hq : p.gossiper.bcQueue.Settled) (hi : p.Enabled i)
    (hok : p.handle fb env order i = .ok (p', out)) : Refined env i p p' := by
  cases i with
  | registerNotifier join leave =>
      cases hok
      exact .of_event rfl trivial rfl
  | join fuel peer =>
      cases hok
      unfold join
      split
      · dsimp only
        split
        · exact .of_event rfl trivial rfl
        · exact .of_event rfl trivial rfl
      · exact .of_eq rfl
  | connected =>
      obtain ⟨body, _, heq⟩ := Result.bind_eq_ok_iff.1 hok
      cases heq
      exact .of_eq rfl
  | reply sent behind d =>
      simp only [handle, syncReply] at hok
      split at hok
      case h_1 =>
        cases hok
        exact .of_eq rfl
      case h_2 resp _ =>
        obtain ⟨g, hmerge, heq⟩ := Result.bind_eq_ok_iff.1 hok
        cases heq
        exact .of_merged (fun m hm => ⟨rfl, hm⟩) (merged_of_mergeSection hmerge)
  | syncFailed =>
      cases hok
      exact .of_eq rfl
  | probe sendBuff => exact refined_probe (probed hq hok)
  | probeTimeout node =>
      cases hok
      exact .of_event rfl hi.2 rfl
  | pong bytes data =>
      obtain ⟨g, hpong, heq⟩ := Result.bind_eq_ok_iff.1 hok
      cases heq
      rcases handlePong_of_ok hpong with rfl | ⟨name, state, dominant, rfl⟩
      · exact .of_eq rfl
      · exact .of_event (e := .deadAlert name state dominant) trivial trivial rfl
  | conviction accusation =>
      cases hok
      exact .of_event rfl hi.2 rfl
  | datagram bytes d =>
      simp only [handle, receive] at hok
      split at hok
      case isTrue =>
        cases hok
        exact .of_eq rfl
      case isFalse =>
        obtain ⟨⟨n, data, g⟩, hpacket, heq⟩ := Result.bind_eq_ok_iff.1 hok
        cases heq
        exact .of_merged (fun m hm => ⟨rfl, hm⟩) (handlePacket_of_ok hpacket).1
  | connection sent inBuff outBuff locals d =>
      obtain ⟨⟨written, g⟩, hserve, heq⟩ := Result.bind_eq_ok_iff.1 hok
      cases heq
      exact .of_merged (fun m hm => ⟨rfl, hm⟩) (merged_of_serve hserve)

/-- A process whose queue is settled is simulated by its gossiper. -/
theorem simulation_gossiper (fb : FlatBuffers) (env : Env)
    (order : List NodeState → List NodeState) :
    Simulation (attempt (step fb env order)) (fun x i => WhileUp (Enabled · i) x)
      (Gossiper.step env) Gossiper.Enabled (fun i es => ∀ e ∈ es, Brings i e)
      (fun x g => WhileUp (fun p => p.gossiper = g ∧ g.bcQueue.Settled) x) := by
  refine simulation_attempt (fun _ => List.forall_mem_nil _) ?_
  rintro p g i p' ⟨rfl, hq⟩ hi hok
  obtain ⟨out, hhandle⟩ := step_eq_ok_iff.1 hok
  obtain ⟨es, hbrings, hvalid, heq⟩ := refined hq hi hhandle
  exact ⟨es, hbrings, hvalid, heq, settled_run hq es⟩

/-- A message that an input brings has been read. -/
theorem read_of_brings {m : NodeState} {needBc : Bool} (h : Brings i (.message m needBc)) :
    ∃ ns, convert ns = some m := by
  cases i with
  | reply | datagram | connection => exact h.2
  | registerNotifier | join | probeTimeout | conviction => cases h
  | connected | syncFailed | probe | pong => exact h.elim

theorem received_of_brings {is : List Input} {ess : List (List Event)}
    (h : List.Forall₂ (fun i es => ∀ e ∈ es, Brings i e) is ess) :
    Gossiper.Received ess.flatten := by
  intro m needBc hm
  obtain ⟨i, _, es, hbrings, hmem⟩ := exists_explained h hm
  exact read_of_brings (hbrings _ hmem)

/-- A ping of `b:1` that carries what it says of itself. -/
def sampleGossip : List UInt8 :=
  packet typePing ((reference.ping.finish { seqNo := 7, from_ := some "b:1" }).getD [])
    ((reference.nodeStates.finish { nodes := some [Cluster.hello "b:1" "b"] }).getD [])

/-- The first node of a cluster hears of another. -/
def sampleInputs : List Input :=
  [.registerNotifier true true, .join 3 "a:1", .datagram sampleGossip .intact]

/-- The buffer of the server is as long as it was made, and some number of messages
may be appended. -/
structure Bounded (p : Process) : Prop where
  settled : p.gossiper.bcQueue.Settled
  data : p.data.length = mtu
  one_le : 1 ≤ p.maxAppendedMsg
  le_ten : p.maxAppendedMsg ≤ 10

theorem bounded_start {data : List UInt8} (hdata : data.length = mtu) : Bounded (start data) :=
  ⟨BroadcastQueue.settled_empty, hdata, (by decide : 1 ≤ 10), le_rfl⟩

theorem le_of_appends {room : Int} {o o' : Outbox} {body : List UInt8}
    (h : Outbox.Appends fb room o body o') (hone : 1 ≤ o.maxAppendedMsg) :
    1 ≤ o'.maxAppendedMsg ∧ o'.maxAppendedMsg ≤ o.maxAppendedMsg := by
  cases h with
  | empty _ => exact ⟨hone, le_rfl⟩
  | large _ _ _ _ _ =>
      refine ⟨Outbox.one_le_shrinkMaxAppendedMsg hone, ?_⟩
      show Outbox.shrinkMaxAppendedMsg o.maxAppendedMsg ≤ o.maxAppendedMsg
      unfold Outbox.shrinkMaxAppendedMsg
      split
      · exact le_rfl
      · exact Nat.div_le_self _ _
  | fits _ _ _ _ _ => exact ⟨hone, le_rfl⟩

theorem bounded_probe (h : Bounded p) (hprobe : Probed fb env p p' out)
    (hq : p'.gossiper.bcQueue.Settled) :
    Bounded p' ∧ p'.maxAppendedMsg ≤ p.maxAppendedMsg ∧ ∀ o ∈ out, o.Fits := by
  cases hprobe with
  | idle _ _ _ _ _ | failed _ _ _ _ _ =>
      exact ⟨⟨hq, h.data, h.one_le, h.le_ten⟩, le_rfl, List.forall_mem_nil _⟩
  | sent _ node _ _ _ _ body gossip o _ happends hfits =>
      obtain ⟨hone, hle⟩ := le_of_appends happends h.one_le
      refine ⟨⟨hq, h.data, hone, hle.trans h.le_ten⟩, hle, ?_⟩
      intro sent hsent
      cases List.mem_singleton.1 hsent
      show (packet typePing body gossip).length ≤ mtu
      rw [packet, List.length_append, List.length_append, length_encodeHeader, ← Nat.add_assoc]
      exact hfits

theorem bounded_receive (h : Bounded p) {bytes : List UInt8} {d : Remains}
    (hok : p.receive fb env bytes d = .ok (p', out)) (hq : p'.gossiper.bcQueue.Settled) :
    Bounded p' ∧ p'.maxAppendedMsg ≤ p.maxAppendedMsg ∧ ∀ o ∈ out, o.Fits := by
  have hdata : (write 0 (bytes.take mtu) p.data).length = mtu := by
    rw [length_write (Nat.zero_le _), h.data, List.length_take]
    omega
  simp only [receive] at hok
  split at hok
  case isTrue =>
    cases hok
    exact ⟨⟨hq, hdata, h.one_le, h.le_ten⟩, le_rfl, List.forall_mem_nil _⟩
  case isFalse =>
    obtain ⟨⟨n, answered, g⟩, hpacket, heq⟩ := Result.bind_eq_ok_iff.1 hok
    cases heq
    have hinside : n ≤ mtu ∧ answered.length = mtu := by
      rcases (handlePacket_of_ok hpacket).2 with ⟨rfl, rfl⟩ | ⟨seqNo, ns, hanswer⟩
      · exact ⟨by decide, hdata⟩
      · have hanswered := answerPing_inside (le_of_eq hdata.symm) hanswer
        exact ⟨hanswered.1, hanswered.2.trans hdata⟩
    refine ⟨⟨hq, hinside.2, h.one_le, h.le_ten⟩, le_rfl, ?_⟩
    intro o ho
    split at ho
    case isTrue hpos =>
      cases List.mem_singleton.1 ho
      show (answered.take n.toNat).length ≤ mtu
      rw [List.length_take]
      omega
    case isFalse => cases ho

/-- A step keeps the sizes, and sends nothing that is larger. -/
theorem Bounded.handle (h : Bounded p) (hi : p.Enabled i)
    (hok : p.handle fb env order i = .ok (p', out)) :
    Bounded p' ∧ p'.maxAppendedMsg ≤ p.maxAppendedMsg ∧ ∀ o ∈ out, o.Fits := by
  have hq : p'.gossiper.bcQueue.Settled := by
    obtain ⟨es, _, _, heq⟩ := refined h.settled hi hok
    exact heq ▸ settled_run h.settled es
  have hsame (hdata : p'.data = p.data) (hmax : p'.maxAppendedMsg = p.maxAppendedMsg)
      (hout : ∀ o ∈ out, o.Fits) :
      Bounded p' ∧ p'.maxAppendedMsg ≤ p.maxAppendedMsg ∧ ∀ o ∈ out, o.Fits :=
    ⟨⟨hq, hdata ▸ h.data, hmax ▸ h.one_le, hmax ▸ h.le_ten⟩, le_of_eq hmax, hout⟩
  cases i with
  | registerNotifier | syncFailed | probeTimeout | conviction =>
      cases hok
      exact hsame rfl rfl (List.forall_mem_nil _)
  | join fuel peer =>
      cases hok
      have hjoin : (p.join env fuel peer).data = p.data ∧
          (p.join env fuel peer).maxAppendedMsg = p.maxAppendedMsg := by
        unfold join
        split
        · dsimp only
          split
          · exact ⟨rfl, rfl⟩
          · exact ⟨rfl, rfl⟩
        · exact ⟨rfl, rfl⟩
      exact hsame hjoin.1 hjoin.2 (List.forall_mem_nil _)
  | connected =>
      obtain ⟨body, _, heq⟩ := Result.bind_eq_ok_iff.1 hok
      cases heq
      exact hsame rfl rfl fun o ho => List.mem_singleton.1 ho ▸ trivial
  | reply sent behind d =>
      simp only [Process.handle, syncReply] at hok
      split at hok
      case h_1 =>
        cases hok
        exact hsame rfl rfl (List.forall_mem_nil _)
      case h_2 =>
        obtain ⟨g, _, heq⟩ := Result.bind_eq_ok_iff.1 hok
        cases heq
        exact hsame rfl rfl (List.forall_mem_nil _)
  | probe sendBuff => exact bounded_probe h (probed h.settled hok) hq
  | pong bytes data =>
      obtain ⟨g, _, heq⟩ := Result.bind_eq_ok_iff.1 hok
      cases heq
      exact hsame rfl rfl (List.forall_mem_nil _)
  | datagram bytes d => exact bounded_receive h hok hq
  | connection sent inBuff outBuff locals d =>
      obtain ⟨⟨written, g⟩, hserve, heq⟩ := Result.bind_eq_ok_iff.1 hok
      cases heq
      refine hsame rfl rfl fun o ho => ?_
      split at ho
      case isTrue => cases ho
      case isFalse =>
        cases List.mem_singleton.1 ho
        exact length_le_of_serve hserve

end Process

end CppGossip
