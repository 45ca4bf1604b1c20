import CppGossip.Membership.Record
import CppGossip.Wire.Packet

/-!
# What is sent is what is read

The sections of a packet are told apart by the length in its header alone, and
sender and receiver work out for themselves where the second one starts. They
agree: whatever the old bytes are that stand behind a packet in the receiver's
buffer, the receiver of a ping reads the number, the name and the gossip that
were put in, and the receiver of a pong the number and the dead alert.

A name is read up to its first NUL, so a node whose own name has one is taken
for another. And what is read is not yet what is merged: each record is copied from
a local of `convert` that is gone by then, so a ping arrives when the copies are the
messages peeked (`datagrams_arrive_iff`).
-/

namespace CppGossip

open Bytes Message Transition

variable {fb : FlatBuffers} {env : Env} {d : Destroyed} {n : ℕ}

theorem toNat_headerSize_add (hn : n < maxBufferSize) :
    (headerSize + UInt32.ofNat n).toNat = 8 + n := by
  have hlt : n < 2147483647 := hn
  have height : headerSize.toNat = 8 := rfl
  rw [UInt32.toNat_add, height, UInt32.toNat_ofNat']
  omega

/-- A packet and what stands behind it in the buffer. -/
theorem appendedAt_of_header (type : UInt32) (hn : n < maxBufferSize) (rest : List UInt8) :
    appendedAt { type := type, bodyLength := UInt32.ofNat n } (8 + n + rest.length) =
      if rest = [] then none else some (8 + n) := by
  have hlt : n < 2147483647 := hn
  have hadd : (UInt32.ofNat n + headerSize).toNat = 8 + n := by
    rw [UInt32.add_comm, toNat_headerSize_add hn]
  have hback : (UInt32.ofNat n).toNat = n := by
    rw [UInt32.toNat_ofNat']
    omega
  rw [appendedAt]
  simp only [hadd, hback]
  cases rest with
  | nil => simp
  | cons b rest => simp

theorem str_str (x : String) : str (str x) = str x := by
  rw [str, str, String.toList_ofList, List.takeWhile_takeWhile]
  simp

namespace Message

/-- The text has no NUL. -/
def NulFree (s : String) : Prop := Char.ofNat 0 ∉ s.toList

instance (s : String) : Decidable (NulFree s) := inferInstanceAs (Decidable (_ ∉ _))

theorem str_eq_self_iff {s : String} : str s = s ↔ NulFree s := by
  rw [str, ← String.toList_inj, String.toList_ofList, List.takeWhile_eq_self_iff]
  constructor
  · intro h hmem
    exact absurd (h _ hmem) (by decide)
  · intro h c hc
    rw [decide_eq_true_iff]
    rintro rfl
    exact h hc

theorem nulFree_str (s : String) : NulFree (str s) := str_eq_self_iff.1 (str_str s)

end Message

/-- A packet made of a header, a body and what is appended to it. -/
def packet (type : UInt32) (body appended : List UInt8) : List UInt8 :=
  encodeHeader { type := type, bodyLength := UInt32.ofNat body.length } ++ (body ++ appended)

/-- Written piece by piece over a buffer. -/
theorem take_write_packet (type : UInt32) (body appended mem : List UInt8) :
    (write (8 + body.length) appended (write 8 body (write 0
        (encodeHeader { type := type, bodyLength := UInt32.ofNat body.length }) mem))).take
      (8 + body.length + appended.length) = packet type body appended := by
  have hwrite := write_write_write
    (encodeHeader { type := type, bodyLength := UInt32.ofNat body.length }) body appended mem
  rw [length_encodeHeader] at hwrite
  rw [hwrite, ← List.append_assoc, ← List.append_assoc, List.take_left', packet, List.append_assoc]
  simp [Nat.add_assoc]

namespace Gossiper

/-! ## Pings -/

/-- The bytes of a ping: its header, its body and the gossip appended. -/
theorem generatePing_of_pos {seqNo : UInt64} {sendBuff sent : List UInt8} {sendBuffSize : ℕ}
    {o o' : Outbox} {r : Int}
    (hok : generatePing fb env seqNo sendBuff sendBuffSize o = .ok (r, sent, o')) (hpos : 0 < r) :
    ∃ body gossip, fb.ping.finish { seqNo := seqNo, from_ := some env.conf.name } = some body ∧
      8 + body.length ≤ sendBuffSize ∧
      o.appendGossipMsg fb (sendBuffSize - body.length - 8) = .ok (gossip, o') ∧
      r = (8 + body.length + gossip.length : ℕ) ∧
      sent.take (8 + body.length + gossip.length) = packet typePing body gossip := by
  simp only [generatePing, Result.bind_eq_ok_iff, orFault_eq_ok_iff] at hok
  obtain ⟨body, hbody, hrest⟩ := hok
  rw [toNat_headerSize_add (fb.ping.finish_lt hbody)] at hrest
  split at hrest
  case isTrue =>
    cases hrest
    exact absurd hpos (by decide)
  case isFalse hroom =>
    rw [Result.bind_eq_ok_iff] at hrest
    obtain ⟨⟨gossip, o₁⟩, hgossip, heq⟩ := hrest
    cases heq
    exact ⟨body, gossip, hbody, Nat.not_lt.1 hroom, hgossip, by push_cast; rfl,
      take_write_packet typePing body gossip sendBuff⟩

theorem drop_packet (type : UInt32) (body appended stale : List UInt8) :
    (packet type body appended ++ stale).drop 8 = body ++ (appended ++ stale) := by
  rw [packet, List.append_assoc, List.append_assoc, List.drop_left' (length_encodeHeader _)]

theorem drop_packet_body (type : UInt32) (body appended stale : List UInt8) :
    (packet type body appended ++ stale).drop (8 + body.length) = appended ++ stale := by
  rw [← List.drop_drop, drop_packet, List.drop_left]

theorem decodeHeader_packet (type : UInt32) (body appended stale : List UInt8) :
    decodeHeader (packet type body appended ++ stale) =
      { type := type, bodyLength := UInt32.ofNat body.length } := by
  rw [packet, List.append_assoc, decodeHeader_encodeHeader_append]

/-- The gossip is found behind the body. -/
theorem gossipRead_packet {ping : Message.Ping} {body : List UInt8}
    (hbody : fb.ping.finish ping = some body) (gossip stale : List UInt8) :
    gossipRead fb (packet typePing body gossip ++ stale) (8 + body.length + gossip.length) =
      if gossip = [] then none else some (fb.nodeStates.getRoot (gossip ++ stale)) := by
  rw [gossipRead, decodeHeader_packet, appendedAt_of_header typePing (fb.ping.finish_lt hbody)]
  by_cases hnil : gossip = []
  · rw [if_pos hnil, if_pos hnil, Option.map_none]
  · rw [if_neg hnil, if_neg hnil, Option.map_some, drop_packet_body]

/-- What a receiver does with a ping, whatever stands behind it. -/
theorem handlePacket_packet (env : Env) (d : Destroyed) {ping : Message.Ping} {sender : String}
    {body : List UInt8} (hbody : fb.ping.finish ping = some body)
    (hsender : ping.from_ = some sender) (gossip stale respBuff : List UInt8) (respSize : ℕ)
    (g : Gossiper) :
    handlePacket fb env d (packet typePing body gossip ++ stale) (8 + body.length + gossip.length)
        respBuff respSize g =
      (do
        let g' ← mergeRead env d (if gossip = [] then none
          else some (fb.nodeStates.getRoot (gossip ++ stale))) g
        let (rst, resp) ← answerPing fb ping.seqNo (g.getNodeState (str sender)) respBuff respSize
        .ok (rst, resp, g')) := by
  have htype : (decodeHeader (packet typePing body gossip ++ stale)).type = typePing := by
    rw [decodeHeader_packet]
  rw [handlePacket_of_ping htype, gossipRead_packet hbody, drop_packet,
    fb.ping.getRoot_finish hbody, hsender, orFault_some, Result.ok_bind]

/-- A message as it is received: the texts up to their first NUL, and the port
as it is read back. -/
def received (node : NodeState) : Option NodeState :=
  (stoi node.port).map fun port =>
    { node with
      name := str node.name
      ip := str node.ip
      port := toString (Int16.ofInt port)
      from_ := str node.from_ }

theorem convert_of_encode_eq_received {node : NodeState} {ns : Message.NodeState}
    (h : encode node = some ns) : convert ns = received node := by
  obtain ⟨port, hport, rfl⟩ := Option.map_eq_some_iff.1 h
  have hstate : State.ofRaw node.state.toRaw = node.state := State.ofRaw_toRaw node.state
  simp [convert, received, hport, hstate]

/-- The tables of messages are read as the messages received. -/
theorem exists_received {nodes : List NodeState} {nss : List Message.NodeState}
    (h : nodes.mapM encode = some nss) :
    ∃ states, nss.mapM convert = some states ∧ nodes.mapM received = some states := by
  have hencoded := Collection.mapM_eq_some_iff_forall₂.1 h
  induction hencoded with
  | nil => exact ⟨[], rfl, rfl⟩
  | cons hns hrest ih =>
    rename_i node ns nodes nss
    obtain ⟨states, hread, hsent⟩ := ih (Collection.mapM_eq_some_iff_forall₂.2 hrest)
    obtain ⟨state, hconvert⟩ : ∃ state, convert ns = some state :=
      (convert_of_encode hns).elim fun _ hport => ⟨_, hport⟩
    have hreceived : received node = some state := convert_of_encode_eq_received hns ▸ hconvert
    refine ⟨state :: states, ?_, ?_⟩
    · rw [List.mapM_cons, hconvert, hread]
      rfl
    · rw [List.mapM_cons, hreceived, hsent]
      rfl

/-- The messages are copied as they were sent, once they have been read: from turn
`k` on what is found of each is the message itself. -/
def Restores (d : Destroyed) (k : ℕ) (msgs : List NodeState) : Prop :=
  ∀ e ∈ msgs.zipIdx k, ∃ held ∈ received e.1, d.tmp e.2 held = some e.1

instance (d : Destroyed) (k : ℕ) (msgs : List NodeState) : Decidable (Restores d k msgs) :=
  inferInstanceAs (Decidable (∀ e ∈ _, ∃ held ∈ _, _))

theorem restores_cons_iff {k : ℕ} {m : NodeState} {msgs : List NodeState} :
    Restores d k (m :: msgs) ↔
      (∃ held ∈ received m, d.tmp k held = some m) ∧ Restores d (k + 1) msgs := by
  rw [Restores, List.zipIdx_cons, List.forall_mem_cons, Restores]

/-- The tables of messages are copied as the messages when these are restored. -/
theorem copies_eq_ok_iff_restores {k : ℕ} {msgs : List NodeState} {nss : List Message.NodeState}
    (h : msgs.mapM encode = some nss) : d.copies k nss = .ok msgs ↔ Restores d k msgs := by
  have hencoded := Collection.mapM_eq_some_iff_forall₂.1 h
  induction hencoded generalizing k with
  | nil => exact iff_of_true rfl fun e he => by cases he
  | @cons m ns msgs nss hns hrest ih =>
    have hlater : d.copies (k + 1) nss = .ok msgs ↔ Restores d (k + 1) msgs :=
      ih (Collection.mapM_eq_some_iff_forall₂.2 hrest)
    rw [Destroyed.copies_cons_eq_ok_iff, restores_cons_iff, ← hlater,
      convert_of_encode_eq_received hns]
    constructor
    · rintro ⟨held, copy, rest, hheld, htmp, hcopies, heq⟩
      cases heq
      exact ⟨⟨held, hheld, htmp⟩, hcopies⟩
    · rintro ⟨⟨held, hheld, htmp⟩, hcopies⟩
      exact ⟨held, m, msgs, hheld, htmp, hcopies, rfl⟩

/-- The messages that a call of `appendGossipMsg` appends: none, or those that it
peeked, in order. -/
inductive Carries (fb : FlatBuffers) (room : Int) (o : Outbox) : List NodeState → Outbox → Prop
  | nothing (o' : Outbox) (happends : o.appendGossipMsg fb room = .ok ([], o')) :
      Carries fb room o [] o'
  | peeked (appended : List UInt8) (o' : Outbox)
      (happends : o.appendGossipMsg fb room = .ok (appended, o')) (hne : appended ≠ []) :
      Carries fb room o o.gossipMsgs o'

theorem exists_carries {room : Int} {o o' : Outbox} {gossip : List UInt8}
    (h : o.appendGossipMsg fb room = .ok (gossip, o')) : ∃ msgs, Carries fb room o msgs o' := by
  by_cases hnil : gossip = []
  · exact ⟨[], .nothing o' (hnil ▸ h)⟩
  · exact ⟨o.gossipMsgs, .peeked gossip o' h hnil⟩

/-- The messages that the next call peeks make a section that has room. -/
def HasRoom (fb : FlatBuffers) (room : Int) (o : Outbox) : Prop :=
  ∃ nss gossip, Outbox.Packet fb o nss gossip ∧ (gossip.length : Int) ≤ room

/-- A call that appends nothing has peeked nothing, or has no room. -/
theorem not_hasRoom_of_nothing {room : Int} {o o' : Outbox}
    (hok : o.appendGossipMsg fb room = .ok ([], o')) :
    o.gossipMsgs = [] ∨ ¬ HasRoom fb room o := by
  rw [Outbox.appendGossipMsg] at hok
  dsimp only at hok
  split at hok
  case isTrue hnil => exact Or.inl hnil
  case isFalse =>
    simp only [Result.bind_eq_ok_iff, orFault_eq_ok_iff] at hok
    obtain ⟨nss, hnss, built, hbuilt, hrest⟩ := hok
    have hpacket : Outbox.Packet fb o nss built := ⟨hnss, hbuilt⟩
    split at hrest
    case isTrue hlarge =>
      refine Or.inr ?_
      rintro ⟨nss', built', hpacket', hroom⟩
      cases hpacket.encoded.symm.trans hpacket'.encoded
      cases hpacket.built.symm.trans hpacket'.built
      omega
    case isFalse =>
      cases hrest
      exact absurd (fb.nodeStates.finish_pos hbuilt) (Nat.lt_irrefl 0)

/-- The messages appended are restored when those peeked are, if these have room. -/
theorem Carries.restores_iff {room : Int} {o o' : Outbox} {msgs : List NodeState}
    (h : Carries fb room o msgs o') :
    Restores d 0 msgs ↔ (HasRoom fb room o → Restores d 0 o.gossipMsgs) := by
  cases h with
  | nothing _ happends =>
    refine iff_of_true (fun e he => by cases he) fun hroom => ?_
    rcases not_hasRoom_of_nothing happends with hnil | hnone
    · rw [hnil]
      exact fun e he => by cases he
    · exact absurd hroom hnone
  | peeked appended _ happends hne =>
    obtain ⟨hroom, nss, hpacket⟩ := (Outbox.packet_of_ok happends).resolve_left hne
    exact ⟨fun hrestores _ => hrestores, fun hrestores => hrestores ⟨nss, appended, hpacket, hroom⟩⟩

/-- A ping of `r` bytes, `sent`, of the node called `name` is read as it was made,
whatever bytes stand behind it, and the messages appended are merged. -/
structure PingArrives (fb : FlatBuffers) (d : Destroyed) (name : String) (seqNo : UInt64)
    (sendBuffSize : ℕ) (o : Outbox) (r : Int) (sent : List UInt8) (o' : Outbox) : Prop where
  le : r ≤ sendBuffSize
  type_eq : ∀ stale, (decodeHeader (sent.take r.toNat ++ stale)).type = typePing
  seqNo_eq : ∀ stale, (fb.ping.getRoot ((sent.take r.toNat ++ stale).drop 8)).seqNo = seqNo
  sender_eq : ∀ stale,
    (fb.ping.getRoot ((sent.take r.toNat ++ stale).drop 8)).from_.map str = some name
  gossip : ∃ body msgs, fb.ping.finish { seqNo := seqNo, from_ := some name } = some body ∧
    Carries fb (sendBuffSize - body.length - 8) o msgs o' ∧
    ∀ stale, copiesRead d (gossipRead fb (sent.take r.toNat ++ stale) r.toNat) = .ok msgs ∧
      ∀ receiver respBuff respSize g,
        handlePacket fb receiver d (sent.take r.toNat ++ stale) r.toNat respBuff respSize g =
          (do
            let (rst, resp) ← answerPing fb seqNo (g.getNodeState name) respBuff respSize
            .ok (rst, resp, g.merge receiver true msgs))

/-- The messages appended are merged when they are restored. -/
theorem copiesRead_packet_iff {ping : Message.Ping} {body gossip : List UInt8} {room : Int}
    {o o' : Outbox} {msgs : List NodeState} (hbody : fb.ping.finish ping = some body)
    (hgossip : o.appendGossipMsg fb room = .ok (gossip, o')) (h : Carries fb room o msgs o')
    (stale : List UInt8) :
    copiesRead d (gossipRead fb (packet typePing body gossip ++ stale)
      (8 + body.length + gossip.length)) = .ok msgs ↔ Restores d 0 msgs := by
  rw [gossipRead_packet hbody]
  cases h with
  | nothing _ happends =>
    cases happends.symm.trans hgossip
    exact iff_of_true rfl fun e he => by cases he
  | peeked appended _ happends hne =>
    cases happends.symm.trans hgossip
    obtain ⟨-, nss, hpacket⟩ := (Outbox.packet_of_ok hgossip).resolve_left hne
    rw [if_neg hne, fb.nodeStates.getRoot_finish hpacket.built]
    exact copies_eq_ok_iff_restores hpacket.encoded

/-- A ping arrives when the sender's name has no NUL and the messages peeked, if they
have room behind the body, are restored. -/
theorem pingArrives_iff {seqNo : UInt64} {sendBuff sent : List UInt8} {sendBuffSize : ℕ}
    {o o' : Outbox} {r : Int}
    (hok : generatePing fb env seqNo sendBuff sendBuffSize o = .ok (r, sent, o')) (hpos : 0 < r) :
    PingArrives fb d env.conf.name seqNo sendBuffSize o r sent o' ↔
      NulFree env.conf.name ∧
        ∀ body, fb.ping.finish { seqNo := seqNo, from_ := some env.conf.name } = some body →
          HasRoom fb (sendBuffSize - body.length - 8) o → Restores d 0 o.gossipMsgs := by
  obtain ⟨body, gossip, hbody, hroom, hgossip, rfl, htake⟩ := generatePing_of_pos hok hpos
  have hroot : ∀ stale, fb.ping.getRoot ((packet typePing body gossip ++ stale).drop 8) =
      { seqNo := seqNo, from_ := some env.conf.name } := fun stale => by
    rw [drop_packet, fb.ping.getRoot_finish hbody]
  constructor
  · intro h
    have hname := h.sender_eq []
    rw [Int.toNat_natCast, htake, hroot, Option.map_some, Option.some.injEq] at hname
    refine ⟨str_eq_self_iff.1 hname, fun body' hbody' => ?_⟩
    obtain ⟨body'', msgs, hbody'', hcarries, hread⟩ := h.gossip
    cases hbody.symm.trans hbody'
    cases hbody.symm.trans hbody''
    have hcopies := (hread []).1
    rw [Int.toNat_natCast, htake] at hcopies
    exact hcarries.restores_iff.1 ((copiesRead_packet_iff hbody hgossip hcarries []).1 hcopies)
  · rintro ⟨hname, hrestores⟩
    obtain ⟨msgs, hcarries⟩ := exists_carries hgossip
    have hcopies := fun stale => (copiesRead_packet_iff hbody hgossip hcarries stale).2
      (hcarries.restores_iff.2 (hrestores body hbody))
    have hle : (gossip.length : Int) ≤ sendBuffSize - body.length - 8 := by
      rcases Outbox.packet_of_ok hgossip with rfl | ⟨hfits, -⟩
      · rw [List.length_nil]
        omega
      · exact hfits
    refine ⟨by omega, fun stale => ?_, fun stale => ?_, fun stale => ?_,
      body, msgs, hbody, hcarries, fun stale => ⟨?_, fun receiver respBuff respSize g => ?_⟩⟩
    · rw [Int.toNat_natCast, htake, decodeHeader_packet]
    · rw [Int.toNat_natCast, htake, hroot]
    · rw [Int.toNat_natCast, htake, hroot, Option.map_some, str_eq_self_iff.2 hname]
    · rw [Int.toNat_natCast, htake, hcopies]
    · rw [Int.toNat_natCast, htake, handlePacket_packet receiver d hbody rfl,
        ← gossipRead_packet hbody, mergeRead_eq, hcopies, str_eq_self_iff.2 hname]
      rfl

/-! ## Pongs -/

/-- What is appended to a pong with that much room, and what it says of the
sender of the ping: nothing, or that it is recorded dead. -/
inductive Alerts (fb : FlatBuffers) (ns : Option NodeState) (room : Int) :
    List UInt8 → Option DeadAlert → Prop
  | none (hnone : ∀ node ∈ ns, node.state = .dead → appendDeadAlert fb node room = .ok []) :
      Alerts fb ns room [] none
  | dead (node : NodeState) (body : List UInt8) (hns : ns = some node) (hdead : node.state = .dead)
      (hbody : appendDeadAlert fb node room = .ok body) (hne : body ≠ []) :
      Alerts fb ns room body (some ⟨node.name, node.state, node.dominant⟩)

/-- A pong of `r` bytes, `resp`, is read as it was made. -/
structure PongArrives (fb : FlatBuffers) (seqNo : UInt64) (ns : Option NodeState) (respSize : ℕ)
    (r : Int) (resp : List UInt8) : Prop where
  le : r ≤ respSize
  contents : ∃ pong appended alert, fb.pong.finish { seqNo := seqNo } = some pong ∧
    r = 8 + pong.length + appended.length ∧
    Alerts fb ns (respSize - (pong.length + 8)) appended alert ∧
    ∀ stale, readPong fb (resp.take r.toNat ++ stale) r.toNat =
      .ok (some { seqNo := seqNo, alert := alert })

theorem appendDeadAlert_of_ok {node : NodeState} {room : Int} {appended : List UInt8}
    (hok : appendDeadAlert fb node room = .ok appended) :
    appended = [] ∨ (appended.length : Int) ≤ room ∧ appended ≠ [] ∧
      ∃ ns, encode node = some ns ∧ fb.nodeState.finish ns = some appended := by
  simp only [appendDeadAlert, Result.bind_eq_ok_iff, orFault_eq_ok_iff] at hok
  obtain ⟨ns, hns, body, hbody, hrest⟩ := hok
  split at hrest
  case isTrue =>
    cases hrest
    exact Or.inl rfl
  case isFalse hroom =>
    cases hrest
    exact Or.inr ⟨Int.not_lt.1 hroom,
      List.ne_nil_of_length_pos (fb.nodeState.finish_pos hbody), ns, hns, hbody⟩

/-- `r` bytes of `resp` are a pong for the sender recorded as `ns`, with its dead alert. -/
structure PongBytes (fb : FlatBuffers) (seqNo : UInt64) (ns : Option NodeState) (respSize : ℕ)
    (r : Int) (resp pong appended : List UInt8) (alert : Option DeadAlert) : Prop where
  built : fb.pong.finish { seqNo := seqNo } = some pong
  alerts : Alerts fb ns (respSize - (pong.length + 8)) appended alert
  fits : 8 + pong.length ≤ respSize
  length_eq : r = (8 + pong.length + appended.length : ℕ)
  bytes : resp.take (8 + pong.length + appended.length) = packet typePong pong appended

/-- Nothing is appended to the pong for a sender that is not to be alerted. -/
theorem PongBytes.of_nothing {seqNo : UInt64} {ns : Option NodeState} {respSize : ℕ}
    {pong : List UInt8} (respBuff : List UInt8)
    (hpong : fb.pong.finish { seqNo := seqNo } = some pong) (hfits : 8 + pong.length ≤ respSize)
    (hnone : ∀ node ∈ ns, node.state = .dead →
      appendDeadAlert fb node (respSize - (pong.length + 8)) = .ok []) :
    PongBytes fb seqNo ns respSize (pong.length + 8) (write 8 pong (write 0
      (encodeHeader { type := typePong, bodyLength := UInt32.ofNat pong.length }) respBuff))
      pong [] none where
  built := hpong
  alerts := .none hnone
  fits := hfits
  length_eq := by
    rw [List.length_nil]
    omega
  bytes := by
    have htake := take_write_packet typePong pong [] respBuff
    rw [write_nil] at htake
    exact htake

/-- A call that answers gives a pong: its header, its body and the dead alert appended. -/
theorem answerPing_of_pos {seqNo : UInt64} {ns : Option NodeState} {respBuff resp : List UInt8}
    {respSize : ℕ} {r : Int} (hok : answerPing fb seqNo ns respBuff respSize = .ok (r, resp))
    (hpos : 0 < r) :
    ∃ pong appended alert, PongBytes fb seqNo ns respSize r resp pong appended alert := by
  simp only [answerPing, Result.bind_eq_ok_iff, orFault_eq_ok_iff] at hok
  obtain ⟨pong, hpong, hrest⟩ := hok
  rw [toNat_headerSize_add (fb.pong.finish_lt hpong)] at hrest
  split at hrest
  case isTrue =>
    cases hrest
    exact absurd hpos (by decide)
  case isFalse hroom =>
    have hfits : 8 + pong.length ≤ respSize := Nat.not_lt.1 hroom
    cases ns with
    | none =>
      cases hrest
      exact ⟨pong, [], none, .of_nothing respBuff hpong hfits fun node hnode => by cases hnode⟩
    | some node =>
      by_cases hdead : node.state = .dead
      · simp only [hdead, if_true, Result.bind_eq_ok_iff] at hrest
        obtain ⟨body, hbody, heq⟩ := hrest
        by_cases hne : body = []
        · subst hne
          rw [write_nil, List.length_nil, Int.natCast_zero, Int.add_zero] at heq
          cases heq
          refine ⟨pong, [], none, .of_nothing respBuff hpong hfits fun node' hnode _ => ?_⟩
          cases hnode
          exact hbody
        · cases heq
          refine ⟨pong, body, _, hpong, .dead node body rfl hdead hbody hne, hfits,
            by push_cast; omega, ?_⟩
          rw [Nat.add_comm pong.length 8]
          exact take_write_packet typePong pong body respBuff
      · simp only [hdead, if_false] at hrest
        cases hrest
        refine ⟨pong, [], none, .of_nothing respBuff hpong hfits fun node' hnode hdead' => ?_⟩
        cases hnode
        exact absurd hdead' hdead

/-- A pong is read as it was made. -/
theorem pongArrives {seqNo : UInt64} {ns : Option NodeState} {respBuff resp : List UInt8}
    {respSize : ℕ} {r : Int} (hname : ∀ node ∈ ns, str node.name = node.name)
    (hok : answerPing fb seqNo ns respBuff respSize = .ok (r, resp)) (hpos : 0 < r) :
    PongArrives fb seqNo ns respSize r resp := by
  obtain ⟨pong, appended, alert, hpong, halerts, hroom, rfl, htake⟩ := answerPing_of_pos hok hpos
  have hlt := fb.pong.finish_lt hpong
  have hread : ∀ stale, readPong fb (packet typePong pong appended ++ stale)
      (8 + pong.length + appended.length) = .ok (some { seqNo := seqNo, alert := alert }) := by
    intro stale
    rw [readPong]
    simp only [decodeHeader_packet, drop_packet, fb.pong.getRoot_finish hpong,
      appendedAt_of_header typePong hlt, ne_eq, not_true_eq_false, if_false]
    cases halerts with
    | none hnone => simp
    | dead node _ hns hdead hbody hne =>
      rcases appendDeadAlert_of_ok hbody with hnil | ⟨hfits, -, table, htable, hbuilt⟩
      · exact absurd hnil hne
      · obtain ⟨port, _, rfl⟩ := Option.map_eq_some_iff.1 htable
        simp only [if_neg hne, drop_packet_body, fb.nodeState.getRoot_finish hbuilt, orFault_some,
          Result.ok_bind, hname node hns, State.ofRaw_toRaw]
  have hle : ((8 + pong.length + appended.length : ℕ) : Int) ≤ respSize := by
    cases halerts with
    | none hnone =>
      rw [List.length_nil]
      omega
    | dead node _ hns hdead hbody hne =>
      rcases appendDeadAlert_of_ok hbody with hnil | ⟨hfits, -⟩
      · exact absurd hnil hne
      · omega
  refine ⟨hle, pong, appended, alert, hpong, by push_cast; rfl, halerts, fun stale => ?_⟩
  rw [Int.toNat_natCast, htake, hread]

/-! ## The round trip -/

/-- A call that answers has found a name in a ping. -/
theorem answerPing_of_handlePacket {buff respBuff resp : List UInt8} {size respSize : ℕ} {r : Int}
    {g g' : Gossiper}
    (hok : handlePacket fb env d buff size respBuff respSize g = .ok (r, resp, g'))
    (hpos : 0 < r) :
    ∃ sender, (fb.ping.getRoot (buff.drop 8)).from_ = some sender ∧
      answerPing fb (fb.ping.getRoot (buff.drop 8)).seqNo (g.getNodeState (str sender)) respBuff
        respSize = .ok (r, resp) := by
  by_cases htype : (decodeHeader buff).type = typePing
  · rw [handlePacket_of_ping htype, Result.bind_eq_ok_iff] at hok
    obtain ⟨sender, hsender, hrest⟩ := hok
    simp only [Result.bind_eq_ok_iff] at hrest
    obtain ⟨merged, _, answer, hanswer, heq⟩ := hrest
    cases heq
    exact ⟨sender, orFault_eq_ok_iff.1 hsender, hanswer⟩
  · rw [handlePacket, if_neg htype] at hok
    cases hok
    exact absurd hpos (Int.lt_irrefl 0)

/-- A ping arrives when its sender's name has no NUL and the messages peeked, if they
have room, are restored; in every reachable state pongs are read as they were made. -/
theorem datagrams_arrive_iff (fb : FlatBuffers) (env : Env) (d : Destroyed) :
    (∀ seqNo sendBuff sendBuffSize o r sent o',
      generatePing fb env seqNo sendBuff sendBuffSize o = .ok (r, sent, o') → 0 < r →
      (PingArrives fb d env.conf.name seqNo sendBuffSize o r sent o' ↔
        NulFree env.conf.name ∧
          ∀ body, fb.ping.finish { seqNo := seqNo, from_ := some env.conf.name } = some body →
            HasRoom fb (sendBuffSize - body.length - 8) o → Restores d 0 o.gossipMsgs)) ∧
    (∀ es, Valid env fresh es → ∀ buff size respBuff respSize r resp g',
      handlePacket fb env d buff size respBuff respSize (run (step env) fresh es) =
        .ok (r, resp, g') → 0 < r →
      ∃ sender, (fb.ping.getRoot (buff.drop 8)).from_ = some sender ∧
        PongArrives fb (fb.ping.getRoot (buff.drop 8)).seqNo
          ((run (step env) fresh es).getNodeState (str sender)) respSize r resp) := by
  constructor
  · intro seqNo sendBuff sendBuffSize o r sent o' hok hpos
    exact pingArrives_iff hok hpos
  · intro es hv buff size respBuff respSize r resp g' hok hpos
    obtain ⟨sender, hsender, hanswer⟩ := answerPing_of_handlePacket hok hpos
    refine ⟨sender, hsender, pongArrives (fun node hnode => ?_) hanswer hpos⟩
    rw [(tabled_run hv).keyed _ node hnode, str_str]

/-- A ping of the node `b:1` with number 7. -/
def samplePing : List UInt8 :=
  packet typePing ((reference.ping.finish { seqNo := 7, from_ := some "b:1" }).getD []) []

/-- `b:1` has joined and died. -/
def sampleDeath : List Event :=
  [.message (news "b:1" 1 .alive "") true, .message (news "b:1" 2 .dead "") true]

/-- A queue with one message. -/
def sampleOutbox : Outbox := Outbox.sample [Outbox.sampleState "b:1"] 0 4

/-- A ping with a message appended arrives, and a pong with a dead alert. -/
theorem datagrams_arrive_of_gossip :
    (∃ r sent o', PingArrives reference .intact "a:1" 7 1460 sampleOutbox r sent o') ∧
    ∃ r resp, 40 < r ∧ PongArrives reference (reference.ping.getRoot (samplePing.drop 8)).seqNo
      ((run (step sampleEnv) fresh sampleDeath).getNodeState "b:1") 1460 r resp := by
  obtain ⟨hping, hpong⟩ := datagrams_arrive_iff reference sampleEnv .intact
  constructor
  · obtain ⟨⟨r, sent, o'⟩, hok, hpos⟩ := Result.exists_of_any (p := fun a => decide (0 < a.1))
      (x := generatePing reference sampleEnv 7 [] 1460 sampleOutbox) (by decide)
    have harrives := (hping 7 [] 1460 _ r sent o' hok (of_decide_eq_true hpos)).2
    exact ⟨r, sent, o', harrives ⟨by decide, fun _ _ _ => by decide⟩⟩
  · obtain ⟨⟨r, resp, g'⟩, hok, hlong⟩ := Result.exists_of_any (p := fun a => decide (40 < a.1))
      (x := handlePacket reference sampleEnv .intact samplePing samplePing.length [] 1460
        (run (step sampleEnv) fresh sampleDeath)) (by decide)
    have hlong : 40 < r := of_decide_eq_true hlong
    obtain ⟨sender, hsender, harrives⟩ := hpong sampleDeath (by decide) samplePing _ [] 1460 r resp
      g' hok (by omega)
    have hname : str sender = "b:1" := by
      have hread : (reference.ping.getRoot (samplePing.drop 8)).from_ = some "b:1" := by decide
      rw [← Option.some.inj (hread.symm.trans hsender)]
      decide
    exact ⟨r, resp, hlong, hname ▸ harrives⟩

/-- A node with a NUL in its name. -/
def cutEnv : Env := { sampleEnv with conf := { sampleEnv.conf with name := "a\x00b:1" } }

/-- The ping with a message appended does not arrive where nothing can be read of
the records, and the name that is read of a ping of the node above is another. -/
theorem not_datagrams_arrive :
    ¬ (∀ r sent o', generatePing reference sampleEnv 7 [] 1460 sampleOutbox = .ok (r, sent, o') →
        0 < r → PingArrives reference .lost "a:1" 7 1460 sampleOutbox r sent o') ∧
      ¬ ∀ r sent o', generatePing reference cutEnv 7 [] 1460 (Outbox.sample [] 0 4) =
          .ok (r, sent, o') → 0 < r →
        PingArrives reference .intact cutEnv.conf.name 7 1460 (Outbox.sample [] 0 4) r sent o' := by
  constructor
  · intro harrives
    obtain ⟨⟨r, sent, o'⟩, hok, hlong⟩ := Result.exists_of_any (p := fun a => decide (33 < a.1))
      (x := generatePing reference sampleEnv 7 [] 1460 sampleOutbox) (by decide)
    have hlong : 33 < r := of_decide_eq_true hlong
    obtain ⟨body, gossip, hbody, _, hgossip, rfl, _⟩ := generatePing_of_pos hok (by omega)
    have hrestores := ((pingArrives_iff hok (by omega)).1 (harrives _ sent o' hok (by omega))).2
    have hlength : ∀ b ∈ reference.ping.finish { seqNo := 7, from_ := some "a:1" },
        b.length = 25 := by
      decide
    have hne : gossip ≠ [] := by
      rintro rfl
      rw [hlength body hbody] at hlong
      exact absurd hlong (by decide)
    obtain ⟨hroom, nss, hpacket⟩ := (Outbox.packet_of_ok hgossip).resolve_left hne
    exact absurd (hrestores body hbody ⟨nss, gossip, hpacket, hroom⟩) (by decide)
  · intro harrives
    obtain ⟨⟨r, sent, o'⟩, hok, hpos⟩ := Result.exists_of_any (p := fun a => decide (0 < a.1))
      (x := generatePing reference cutEnv 7 [] 1460 (Outbox.sample [] 0 4)) (by decide)
    have hpos : 0 < r := of_decide_eq_true hpos
    exact absurd ((pingArrives_iff hok hpos).1 (harrives r sent o' hok hpos)).1 (by decide)

end Gossiper

end CppGossip
