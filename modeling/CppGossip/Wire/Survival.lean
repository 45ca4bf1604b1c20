import CppGossip.Wire.Framing
import CppGossip.Wire.Presence

/-!
# Records that survive the wire

On its way a port is a text, a number and a text again, and a string is read up
to its first NUL. The `Portable` records are those that this leaves alone: the
ones that are received as they were sent, and also the ones that `convert` makes.
A gossiper whose own name and address have no NUL holds no others, so that
everything it holds can be sent. It is read as it is held when the record that
`convert` returns a reference to is found as it was left.
-/

namespace CppGossip

open Bytes Collection Message Transition

/-- The port is the text of a 16-bit number, and no text has a NUL. -/
structure NodeState.Portable (node : NodeState) : Prop where
  port : node.DecimalPort
  name : NulFree node.name
  ip : NulFree node.ip
  from_ : NulFree node.from_

/-- The record can be sent and is received as it was, wherever it stands in the list
that it is copied with. -/
def NodeState.Survives (d : Destroyed) (node : NodeState) : Prop :=
  ∃ ns, encode node = some ns ∧ ∀ k, d.copied k ns = .ok node

variable {d : Destroyed} {node : NodeState} {nodes : List NodeState}

theorem portable_of_convert {ns : Message.NodeState} (h : convert ns = some node) :
    node.Portable := by
  have hport := Gossiper.decimalPort_of_convert h
  simp only [convert, Option.bind_eq_bind, Option.bind_eq_some_iff, Option.pure_def,
    Option.some.injEq] at h
  obtain ⟨_, _, name, _, ip, _, sender, _, rfl⟩ := h
  exact ⟨hport, nulFree_str name, nulFree_str ip, nulFree_str sender⟩

namespace NodeState.Portable

/-- A record is received as it was. -/
theorem received_eq (h : node.Portable) : Gossiper.received node = some node := by
  obtain ⟨⟨port, hport⟩, hname, hip, hfrom⟩ := h
  rw [Gossiper.received, hport, stoi_toString, Option.map_some, Int16.ofInt_toInt, ← hport,
    str_eq_self_iff.2 hname, str_eq_self_iff.2 hip, str_eq_self_iff.2 hfrom]

/-- A record survives when it is found as it was left. -/
theorem survives_iff (h : node.Portable) :
    node.Survives d ↔ ∀ k, d.tmp k node = some node := by
  have hconvert {ns : Message.NodeState} (hns : encode node = some ns) : convert ns = some node := by
    rw [Gossiper.convert_of_encode_eq_received hns, h.received_eq]
  constructor
  · rintro ⟨ns, hns, hcopied⟩ k
    obtain ⟨held, hheld, htmp⟩ := Destroyed.copied_eq_ok_iff.1 (hcopied k)
    cases (hconvert hns).symm.trans hheld
    exact htmp
  · intro hkeeps
    obtain ⟨ns, hns⟩ := exists_encode_of_decimalPort h.port
    exact ⟨ns, hns, fun k => Destroyed.copied_eq_ok_iff.2 ⟨node, hconvert hns, hkeeps k⟩⟩

end NodeState.Portable

/-- A list is read as it was written. -/
theorem mapM_convert_of_portable (h : ∀ m ∈ nodes, m.Portable) {nss : List Message.NodeState}
    (hnss : nodes.mapM encode = some nss) : nss.mapM convert = some nodes := by
  obtain ⟨states, hread, hsent⟩ := Gossiper.exists_received hnss
  have hsame : nodes.mapM Gossiper.received = some nodes :=
    mapM_eq_some_iff_forall₂.2 (List.forall₂_same.2 fun m hm => (h m hm).received_eq)
  rw [hread, ← hsent, hsame]

namespace Gossiper

/-- `probeNode`, up to `AsyncSendTo`: the host and the port that the ping goes to,
and what `generatePing` leaves. -/
def probeNode (fb : FlatBuffers) (env : Env) (node : NodeState) (sendBuff : List UInt8)
    (maxAppendedMsg : ℕ) (g : Gossiper) :
    Result ((String × Int16) × Int × List UInt8 × Outbox) := do
  let port ← orFault .invalidPort (stoi node.port)
  let (seqNum, g) := g.nextSeqNum
  let sent ← generatePing fb env seqNum sendBuff mtu
    { bcQueue := g.bcQueue, maxAppendedMsg := maxAppendedMsg }
  .ok ((node.ip, Int16.ofInt port), sent)

variable {fb : FlatBuffers} {env : Env} {order : List NodeState → List NodeState} {g : Gossiper}
  {d : Destroyed} {o o' : Outbox} {room : Int} {body : List UInt8}

/-! ## What is held -/

theorem portable_passed (hname : NulFree env.conf.name) (haddr : NulFree env.conf.addr) :
    NodeState.Passed env NodeState.Portable where
  own _ := ⟨⟨env.conf.port, rfl⟩, hname, haddr, List.not_mem_nil⟩
  stamped _ h := ⟨h.port, h.name, h.ip, h.from_⟩
  killed _ h := ⟨h.port, h.name, h.ip, h.from_⟩

theorem portable_run (hname : NulFree env.conf.name) (haddr : NulFree env.conf.addr)
    {es : List Event} (hv : Valid env fresh es) (hes : Received es) :
    Every NodeState.Portable (run (step env) fresh es) := by
  refine (every_fresh _).run (portable_passed hname haddr) hv fun m needBc hm => ?_
  obtain ⟨ns, hns⟩ := hes m needBc hm
  exact portable_of_convert hns

/-! ## What is sent -/

/-- The section is read as these records, whatever stands behind it. -/
def ReadAs (fb : FlatBuffers) (d : Destroyed) (body : List UInt8) (states : List NodeState) :
    Prop :=
  ∀ rest, copiesSection d (fb.nodeStates.getRoot (body ++ rest)) = .ok states

theorem readAs_of_finish (h : ∀ m ∈ nodes, m.Portable) {nss : List Message.NodeState}
    (hnss : nodes.mapM encode = some nss)
    (hbody : fb.nodeStates.finish { nodes := some nss } = some body) (hkeeps : d.Keeps 0 nodes) :
    ReadAs fb d body nodes := by
  intro rest
  rw [fb.nodeStates.getRoot_finish hbody]
  exact (Destroyed.copies_eq_ok_iff_keeps (mapM_convert_of_portable h hnss)).2 hkeeps

/-- A gossiper whose records are portable completes whatever it sends, and what
it sends is read as it holds it. -/
structure Sends (fb : FlatBuffers) (env : Env) (order : List NodeState → List NodeState)
    (d : Destroyed) (g : Gossiper) : Prop where
  table : Completes (encodeLocalState fb order g) ∧
    ∀ body, encodeLocalState fb order g = .ok body → ReadAs fb d body (order g.localState)
  gossip : ∀ (maxAppendedMsg : ℕ) (room : Int),
    let o : Outbox := { bcQueue := g.bcQueue, maxAppendedMsg := maxAppendedMsg }
    Completes (o.appendGossipMsg fb room) ∧
      ∀ body o', o.appendGossipMsg fb room = .ok (body, o') →
        body = [] ∨ ReadAs fb d body o.gossipMsgs
  alert : ∀ x r, g.nodeMap.lookup x = some r → ∀ room,
    Completes (appendDeadAlert fb r room) ∧
      ∀ body, appendDeadAlert fb r room = .ok body →
        body = [] ∨ ∀ rest, convert (fb.nodeState.getRoot (body ++ rest)) = some r
  probe : ∀ x r, g.nodeMap.lookup x = some r → ∀ sendBuff maxAppendedMsg,
    Completes (probeNode fb env r sendBuff maxAppendedMsg g) ∧
      ∀ host port sent, probeNode fb env r sendBuff maxAppendedMsg g = .ok ((host, port), sent) →
        host = r.ip ∧ toString port = r.port

theorem completes_appendGossipMsg (h : ∀ m ∈ o.gossipMsgs, m.DecimalPort) (room : Int) :
    Completes (o.appendGossipMsg fb room) := by
  obtain ⟨nss, hnss⟩ := Outbox.exists_mapM_encode h
  rw [Outbox.gossipMsgs] at hnss
  rw [Outbox.appendGossipMsg]
  dsimp only
  split
  case isTrue => exact completes_ok _
  case isFalse =>
    rw [hnss, orFault_some, Result.ok_bind, completes_bind_iff]
    refine ⟨completes_orFault_bufferTooLarge _, fun body _ => ?_⟩
    split
    · exact completes_ok _
    · exact completes_ok _

theorem completes_generatePing (h : ∀ m ∈ o.gossipMsgs, m.DecimalPort) (seqNo : UInt64)
    (sendBuff : List UInt8) (sendBuffSize : ℕ) :
    Completes (generatePing fb env seqNo sendBuff sendBuffSize o) := by
  rw [generatePing, completes_bind_iff]
  refine ⟨completes_orFault_bufferTooLarge _, fun body _ => ?_⟩
  dsimp only
  split
  case isTrue => exact completes_ok _
  case isFalse =>
    rw [completes_bind_iff]
    exact ⟨completes_appendGossipMsg h _, fun _ _ => completes_ok _⟩

/-- The ping goes to where the record says. -/
theorem completes_probeNode (hnode : node.DecimalPort)
    (h : ∀ x m, g.bcQueue.message x = some m → m.DecimalPort) (sendBuff : List UInt8)
    (maxAppendedMsg : ℕ) :
    Completes (probeNode fb env node sendBuff maxAppendedMsg g) ∧
      ∀ host port sent, probeNode fb env node sendBuff maxAppendedMsg g = .ok ((host, port), sent) →
        host = node.ip ∧ toString port = node.port := by
  obtain ⟨port, hport⟩ := hnode
  rw [probeNode, hport, stoi_toString, orFault_some, Result.ok_bind]
  constructor
  · rw [completes_bind_iff]
    exact ⟨completes_generatePing (Outbox.forall_gossipMsgs h) _ _ _, fun _ _ => completes_ok _⟩
  · intro host port' sent hok
    obtain ⟨sent', _, heq⟩ := Result.bind_eq_ok_iff.1 hok
    cases heq
    exact ⟨rfl, by rw [Int16.ofInt_toInt]⟩

theorem Every.sendable (h : Every NodeState.Portable g) : Sendable g where
  recorded x r hr := (h.recorded x r hr).port
  queued x m hm := (h.queued x m hm).port
  accused x sus hsus := (h.accused x sus hsus).port
  timed s hs := (h.timed s hs).port
  pinged s hs := (h.pinged s hs).port

theorem Every.readAs_table (h : Every NodeState.Portable g) (horder : ∀ l, (order l).Perm l)
    (hkeeps : ∀ x r, g.nodeMap.lookup x = some r → ∀ k, d.tmp k r = some r)
    (hok : encodeLocalState fb order g = .ok body) : ReadAs fb d body (order g.localState) := by
  rw [encodeLocalState, Result.bind_eq_ok_iff] at hok
  obtain ⟨nss, hnss, hbody⟩ := hok
  have hheld : ∀ m ∈ order g.localState, ∃ x, g.nodeMap.lookup x = some m := fun m hm =>
    exists_lookup_of_mem_localState ((horder _).mem_iff.1 hm)
  refine readAs_of_finish (fun m hm => ?_) (orFault_eq_ok_iff.1 hnss) (orFault_eq_ok_iff.1 hbody)
    (Destroyed.keeps_of_forall (fun m hm => ?_) 0)
  · obtain ⟨x, hx⟩ := hheld m hm
    exact h.recorded x m hx
  · obtain ⟨x, hx⟩ := hheld m hm
    exact hkeeps x m hx

theorem readAs_gossip (h : ∀ m ∈ o.gossipMsgs, m.Portable ∧ ∀ k, d.tmp k m = some m)
    (hok : o.appendGossipMsg fb room = .ok (body, o')) :
    body = [] ∨ ReadAs fb d body o.gossipMsgs := by
  rcases Outbox.packet_of_ok hok with hempty | ⟨-, nss, hpacket⟩
  · exact Or.inl hempty
  · exact Or.inr (readAs_of_finish (fun m hm => (h m hm).1) hpacket.encoded hpacket.built
      (Destroyed.keeps_of_forall (fun m hm => (h m hm).2) 0))

theorem convert_alert (h : node.Portable) (hok : appendDeadAlert fb node room = .ok body) :
    body = [] ∨ ∀ rest, convert (fb.nodeState.getRoot (body ++ rest)) = some node := by
  rcases appendDeadAlert_of_ok hok with hempty | ⟨-, -, ns, hns, hbody⟩
  · exact Or.inl hempty
  · refine Or.inr fun rest => ?_
    rw [fb.nodeState.getRoot_finish hbody, convert_of_encode_eq_received hns, h.received_eq]

/-- What is held is found as it was left, wherever it stands in a list. -/
def Retained (d : Destroyed) (g : Gossiper) : Prop :=
  ∀ x r, g.nodeMap.lookup x = some r ∨ g.bcQueue.message x = some r → ∀ k, d.tmp k r = some r

theorem Every.sends (h : Every NodeState.Portable g) (hretained : Retained d g)
    (horder : ∀ l, (order l).Perm l) : Sends fb env order d g where
  table := ⟨completes_encodeLocalState h.sendable horder,
    fun _ hok => h.readAs_table horder (fun x r hr => hretained x r (Or.inl hr)) hok⟩
  gossip maxAppendedMsg room := by
    intro o
    have hgossip : ∀ m ∈ o.gossipMsgs, m.Portable ∧ ∀ k, d.tmp k m = some m :=
      Outbox.forall_gossipMsgs fun x m hm => ⟨h.queued x m hm, hretained x m (Or.inr hm)⟩
    exact ⟨completes_appendGossipMsg (fun m hm => (hgossip m hm).1.port) room,
      fun _ _ hok => readAs_gossip hgossip hok⟩
  alert x r hr room :=
    ⟨completes_appendDeadAlert (h.recorded x r hr).port room,
      fun _ hok => convert_alert (h.recorded x r hr) hok⟩
  probe x r hr sendBuff maxAppendedMsg :=
    completes_probeNode (h.recorded x r hr).port (fun y m hm => (h.queued y m hm).port) _ _

/-- The records that a gossiper holds and the messages that it spreads are portable and
survive, and whatever it sends is sent and read as it is held. -/
structure RecordsSurvive (fb : FlatBuffers) (env : Env) (order : List NodeState → List NodeState)
    (d : Destroyed) (g : Gossiper) : Prop where
  recorded : ∀ x r, g.nodeMap.lookup x = some r → r.Portable ∧ r.Survives d
  queued : ∀ x m, g.bcQueue.message x = some m → m.Portable ∧ m.Survives d
  sends : Sends fb env order d g

/-- In every reachable state the records survive when what is found of each of them in
the place of `convert`'s local is what that held. -/
theorem recordsSurvive_iff (fb : FlatBuffers) (env : Env) (order : List NodeState → List NodeState)
    (hname : NulFree env.conf.name) (haddr : NulFree env.conf.addr)
    (horder : ∀ l, (order l).Perm l) (es : List Event) (hv : Valid env fresh es)
    (hes : Received es) (d : Destroyed) :
    RecordsSurvive fb env order d (run (step env) fresh es) ↔
      Retained d (run (step env) fresh es) := by
  have h : Every NodeState.Portable (run (step env) fresh es) := portable_run hname haddr hv hes
  constructor
  · intro hsurvive x r hr
    rcases hr with hr | hr
    · exact (h.recorded x r hr).survives_iff.1 (hsurvive.recorded x r hr).2
    · exact (h.queued x r hr).survives_iff.1 (hsurvive.queued x r hr).2
  · intro hretained
    refine ⟨fun x r hr => ?_, fun x m hm => ?_, h.sends hretained horder⟩
    · have hr' := h.recorded x r hr
      exact ⟨hr', hr'.survives_iff.2 (hretained x r (Or.inl hr))⟩
    · have hm' := h.queued x m hm
      exact ⟨hm', hm'.survives_iff.2 (hretained x m (Or.inr hm))⟩

/-- The record of a node at port 40000, as it is received. -/
def largePort : NodeState where
  name := "b:40000"
  ip := "b"
  port := "-25536"
  dominant := 1
  state := .alive
  from_ := "b:40000"
  timestamp := 0

theorem received_largePort : Received [.message largePort true] := by
  intro m needBc hm
  cases List.mem_singleton.1 hm
  exact ⟨⟨some ⟨some "b:40000", some "b", -25536⟩, 0, 1, some "b:40000", 0⟩, by decide⟩

theorem recordsSurvive_of_largePort :
    RecordsSurvive reference sampleEnv id .intact
      (run (step sampleEnv) fresh [.message largePort true]) :=
  (recordsSurvive_iff reference sampleEnv id (by decide) (by decide) (fun l => List.Perm.refl l)
    [.message largePort true] (by decide) received_largePort .intact).2 fun _ _ _ _ => rfl

/-- Where nothing can be read of what `convert` returns the record does not survive. -/
theorem not_recordsSurvive_of_lost :
    ¬ RecordsSurvive reference sampleEnv id .lost
      (run (step sampleEnv) fresh [.message largePort true]) := by
  intro h
  obtain ⟨ns, _, hcopied⟩ := (h.recorded "b:40000" largePort (by decide)).2
  obtain ⟨held, _, htmp⟩ := Destroyed.copied_eq_ok_iff.1 (hcopied 0)
  cases htmp

end Gossiper

end CppGossip
