import CppGossip.Network.State
import CppGossip.Wire.Reply

/-!
# What is on the wire

What a process sends has one of four forms (`Output.Made`), and in each the records
stand in a section of their own. Whatever is behind it in the memory it is put
into, and however much of it a connection carries, a receiver reads those records or
nothing.
-/

namespace CppGossip

open Bytes Collection Message Transition

/-- The bytes are a section of records from `known`. -/
def Tells (fb : FlatBuffers) (known : List Message.NodeState) (body : List UInt8) : Prop :=
  ∃ nss, (∀ ns ∈ nss, ns ∈ known) ∧ fb.nodeStates.finish { nodes := some nss } = some body

/-- A frame that carries a table. -/
def frame (body : List UInt8) : List UInt8 :=
  encodeHeader { type := typeSyncState, bodyLength := UInt32.ofNat body.length } ++ body

/-- The forms of what processes send, with records from `known`. -/
inductive Output.Made (fb : FlatBuffers) (known : List Message.NodeState) : Output → Prop
  | ping (host : String) (port : Int16) (seqNo : UInt64) (name : String) (body gossip : List UInt8)
      (hbody : fb.ping.finish { seqNo := seqNo, from_ := some name } = some body)
      (hgossip : gossip = [] ∨ Tells fb known gossip)
      (hfits : 8 + body.length + gossip.length ≤ mtu) :
      Made fb known (.ping host port (packet typePing body gossip))
  | pong (seqNo : UInt64) (body alert : List UInt8)
      (hbody : fb.pong.finish { seqNo := seqNo } = some body)
      (halert : alert = [] ∨ ∃ ns : Message.NodeState, ns.Present ∧
        fb.nodeState.finish ns = some alert)
      (hfits : 8 + body.length + alert.length ≤ mtu) :
      Made fb known (.pong (packet typePong body alert))
  | request (body : List UInt8) (hbody : Tells fb known body) :
      Made fb known (.request (frame body))
  | reply (body : List UInt8) (hbody : Tells fb known body) :
      Made fb known (.reply ((frame body).take Session.buffSize))
  /-- an answer too long is turned into a length of seven -/
  | stub (bytes : List UInt8) (hshort : bytes.length < 8) : Made fb known (.reply bytes)

variable {fb : FlatBuffers} {d : Remains} {known known' : List Message.NodeState}
  {body gossip : List UInt8}

theorem Tells.mono (h : Tells fb known body) (hsub : ∀ ns ∈ known, ns ∈ known') :
    Tells fb known' body := by
  obtain ⟨nss, hnss, hbuilt⟩ := h
  exact ⟨nss, fun ns hns => hsub ns (hnss ns hns), hbuilt⟩

theorem Output.Made.mono {o : Output} (h : o.Made fb known) (hsub : ∀ ns ∈ known, ns ∈ known') :
    o.Made fb known' := by
  cases h with
  | ping host port seqNo name body gossip hbody hgossip hfits =>
      exact .ping host port seqNo name body gossip hbody (hgossip.imp id (Tells.mono · hsub)) hfits
  | pong seqNo body alert hbody halert hfits => exact .pong seqNo body alert hbody halert hfits
  | request body hbody => exact .request body (hbody.mono hsub)
  | reply body hbody => exact .reply body (hbody.mono hsub)
  | stub bytes hshort => exact .stub bytes hshort

@[simp] theorem length_packet (type : UInt32) (body appended : List UInt8) :
    (packet type body appended).length = 8 + body.length + appended.length := by
  rw [packet, List.length_append, List.length_append, length_encodeHeader, Nat.add_assoc]

/-- A datagram that fits is received whole. -/
theorem take_packet {type : UInt32} {body appended : List UInt8}
    (h : 8 + body.length + appended.length ≤ mtu) :
    (packet type body appended).take mtu = packet type body appended := by
  rw [List.take_of_length_le]
  rwa [length_packet]

@[simp] theorem length_frame (body : List UInt8) : (frame body).length = 8 + body.length := by
  rw [frame, List.length_append, length_encodeHeader]

/-! ## Frames -/

theorem toNat_length_body (h : body.length < maxBufferSize) :
    (UInt32.ofNat body.length).toNat = body.length := by
  have hlt : body.length < 2147483647 := h
  rw [UInt32.toNat_ofNat']
  omega

theorem take_frame (body : List UInt8) : (frame body).take 8 =
    encodeHeader { type := typeSyncState, bodyLength := UInt32.ofNat body.length } := by
  rw [frame, List.take_left' (length_encodeHeader _)]

theorem drop_frame (body : List UInt8) : (frame body).drop 8 = body := by
  rw [frame, List.drop_left' (length_encodeHeader _)]

theorem length_le_of_roomy (h : (Output.request (frame body)).Roomy) :
    body.length ≤ Session.buffSize := by
  have hle : (frame body).length ≤ 8 + Session.buffSize := h
  rw [length_frame] at hle
  omega

/-- The front of a frame is too short for it, or all of it. -/
theorem front_of_frame {sent : List UInt8} (h : sent <+: frame body) (hlong : 8 ≤ sent.length) :
    sent.take 8 = (frame body).take 8 ∧
      (body.length ≤ sent.length - 8 → sent = frame body) := by
  obtain ⟨rest, hrest⟩ := h
  refine ⟨?_, fun hall => ?_⟩
  · rw [← hrest, List.take_append_of_le_length hlong]
  · have hlength := congrArg List.length hrest
    rw [List.length_append, length_frame] at hlength
    have hnil : rest = [] := List.length_eq_zero_iff.1 (by omega)
    rw [← hrest, hnil, List.append_nil]

theorem Tells.length_lt (h : Tells fb known body) : body.length < maxBufferSize := by
  obtain ⟨nss, _, hbuilt⟩ := h
  exact fb.nodeStates.finish_lt hbuilt

theorem ne_frame_of_lt {sent : List UInt8} (h : sent.length < 8 + body.length) :
    sent ≠ frame body := by
  rintro rfl
  rw [length_frame] at h
  omega

/-- All of a reply is read as its body, and less not at all. -/
theorem readReply_of_front {sent : List UInt8} (hlt : body.length < maxBufferSize)
    (h : sent <+: frame body) :
    sent ≠ frame body ∧ Process.readReply sent = none ∨
      sent = frame body ∧ Process.readReply sent = some body := by
  unfold Process.readReply
  by_cases hshort : sent.length < 8
  · exact Or.inl ⟨ne_frame_of_lt (by omega), if_pos hshort⟩
  · obtain ⟨hfront, hall⟩ := front_of_frame h (Nat.not_lt.1 hshort)
    have hwanted : (decodeHeader (sent.take 8)).bodyLength.toNat = body.length := by
      have hdecode := decodeHeader_encodeHeader_append
        { type := typeSyncState, bodyLength := UInt32.ofNat body.length } []
      rw [List.append_nil] at hdecode
      rw [hfront, take_frame, hdecode, toNat_length_body hlt]
    rw [if_neg hshort]
    simp only [hwanted]
    by_cases hpart : sent.length - 8 < body.length
    · exact Or.inl ⟨ne_frame_of_lt (by omega), if_pos hpart⟩
    · have hwhole : sent = frame body := hall (Nat.not_lt.1 hpart)
      rw [if_neg hpart, hwhole, drop_frame, List.take_length]
      exact Or.inr ⟨rfl, rfl⟩

/-- A session that gets all of a request reads its body, and of less nothing. -/
theorem read_of_front (inBuff : List UInt8) {sent : List UInt8}
    (hroom : body.length ≤ Session.buffSize) (h : sent <+: frame body) :
    sent ≠ frame body ∧ Session.read d.toDestroyed sent inBuff = none ∨
      sent = frame body ∧ ∃ stale, Session.read d.toDestroyed sent inBuff = some
        ({ type := typeSyncState, bodyLength := UInt32.ofNat body.length }, body ++ stale) := by
  have hlt : body.length < maxBufferSize := Nat.lt_of_le_of_lt hroom (by decide)
  unfold Session.read
  by_cases hshort : sent.length < 8
  · exact Or.inl ⟨ne_frame_of_lt (by omega), if_pos hshort⟩
  · obtain ⟨hfront, hall⟩ := front_of_frame h (Nat.not_lt.1 hshort)
    have hdecode : decodeHeader (write 0 (sent.take 8) inBuff) =
        { type := typeSyncState, bodyLength := UInt32.ofNat body.length } := by
      rw [hfront, take_frame, write_zero, decodeHeader_encodeHeader_append]
    have hwanted : min Session.buffSize (UInt32.ofNat body.length).toNat = body.length := by
      rw [toNat_length_body hlt, Nat.min_eq_right hroom]
    rw [if_neg hshort]
    simp only [hdecode, hwanted]
    by_cases hpart : sent.length - 8 < body.length
    · exact Or.inl ⟨ne_frame_of_lt (by omega), if_pos hpart⟩
    · have hwhole : sent = frame body := hall (Nat.not_lt.1 hpart)
      rw [if_neg hpart, hwhole, drop_frame, List.take_length, write_zero, d.header_eq]
      exact Or.inr ⟨rfl, _, rfl⟩

/-! ## Sections -/

theorem Tells.read (h : Tells fb known body) :
    ∃ nss, (∀ ns ∈ nss, ns ∈ known) ∧
      ∀ stale, fb.nodeStates.getRoot (body ++ stale) = { nodes := some nss } := by
  obtain ⟨nss, hnss, hbuilt⟩ := h
  exact ⟨nss, hnss, fun stale => fb.nodeStates.getRoot_finish hbuilt stale⟩

theorem Tells.present (h : Tells fb known body) (hknown : ∀ ns ∈ known, ns.Present)
    (stale : List UInt8) : (fb.nodeStates.getRoot (body ++ stale)).Present := by
  obtain ⟨nss, hnss, hread⟩ := h.read
  rw [hread stale]
  exact ⟨nss, rfl, fun ns hns => hknown ns (hnss ns hns)⟩

theorem Tells.ne_nil (h : Tells fb known body) : body ≠ [] := by
  obtain ⟨nss, _, hbuilt⟩ := h
  exact List.ne_nil_of_length_pos (fb.nodeStates.finish_pos hbuilt)

theorem present_of_encode {m : CppGossip.NodeState} {ns : Message.NodeState}
    (h : encode m = some ns) : ns.Present := by
  obtain ⟨port, hport⟩ := convert_of_encode h
  rw [← isSome_convert_iff, hport]
  rfl

theorem present_of_mapM {l : List CppGossip.NodeState} {nss : List Message.NodeState}
    (h : l.mapM encode = some nss) : ∀ ns ∈ nss, ns.Present := by
  intro ns hns
  obtain ⟨m, _, hencode⟩ := Cluster.exists_of_mem_mapM h hns
  exact present_of_encode hencode

/-- What is encoded with others is one of the tables. -/
theorem exists_encode_of_mapM {l : List CppGossip.NodeState} {nss : List Message.NodeState}
    (h : l.mapM encode = some nss) {m : CppGossip.NodeState} (hm : m ∈ l) :
    ∃ ns ∈ nss, encode m = some ns := by
  obtain ⟨ns, hns⟩ := Option.isSome_iff_exists.1
    (isSome_mapM_iff.1 (Option.isSome_iff_exists.2 ⟨nss, h⟩) m hm)
  exact ⟨ns, filterMap_eq_of_mapM h ▸ List.mem_filterMap.2 ⟨m, hm, hns⟩, hns⟩

/-- A list that is sent in another order has the same tables. -/
theorem exists_mapM_of_perm {l l' : List CppGossip.NodeState} {nss : List Message.NodeState}
    (hperm : l'.Perm l) (h : l'.mapM encode = some nss) :
    ∃ nss', l.mapM encode = some nss' ∧ ∀ ns ∈ nss, ns ∈ nss' := by
  have hsome : (l.mapM encode).isSome := by
    rw [isSome_mapM_iff]
    intro m hm
    exact isSome_mapM_iff.1 (Option.isSome_iff_exists.2 ⟨nss, h⟩) m
      (hperm.mem_iff.2 hm)
  obtain ⟨nss', hnss'⟩ := Option.isSome_iff_exists.1 hsome
  refine ⟨nss', hnss', fun ns hns => ?_⟩
  obtain ⟨m, hm, hencode⟩ := Cluster.exists_of_mem_mapM h hns
  obtain ⟨ns', hns', hencode'⟩ := exists_encode_of_mapM hnss' (hperm.mem_iff.1 hm)
  cases hencode.symm.trans hencode'
  exact hns'

/-! ## What a process does with them -/

/-- `g'` is `g` after records from `known` have been merged. -/
def MergedFrom (env : Env) (known : List Message.NodeState) (needBc : Bool) (g g' : Gossiper) :
    Prop :=
  ∃ nss : List Message.NodeState,
    (∀ ns ∈ nss, ns ∈ known) ∧ g' = g.merge env needBc (nss.filterMap convert)

namespace Process

open Gossiper

variable {env : Env} {order : List CppGossip.NodeState → List CppGossip.NodeState}
  {p p' : Process} {out : List Output}

theorem mergedFrom_of_eq {needBc : Bool} {g g' : Gossiper} (h : g' = g) :
    MergedFrom env known needBc g g' :=
  ⟨[], List.forall_mem_nil _, h⟩

theorem mergedFrom_of_mergeSection {needBc : Bool} {g g' : Gossiper}
    {nss : List Message.NodeState} (hnss : ∀ ns ∈ nss, ns ∈ known)
    (hok : mergeSection d.toDestroyed env needBc { nodes := some nss } g = .ok g') :
    MergedFrom env known needBc g g' :=
  ⟨nss, hnss, merge_of_mergeSection hok⟩

/-- A pong is made as pongs are. -/
theorem made_of_answerPing {seqNo : UInt64} {ns : Option CppGossip.NodeState}
    {respBuff resp : List UInt8} {n : Int}
    (hok : answerPing fb seqNo ns respBuff mtu = .ok (n, resp)) (hpos : 0 < n) :
    (Output.pong (resp.take n.toNat)).Made fb known := by
  obtain ⟨pong, appended, alert, hbytes⟩ := answerPing_of_pos hok hpos
  rw [hbytes.length_eq, Int.toNat_natCast, hbytes.bytes]
  have hfits := hbytes.fits
  cases hbytes.alerts with
  | none _ => exact .pong seqNo pong [] hbytes.built (Or.inl rfl) (by simpa using hfits)
  | dead node _ _ _ hbody hne =>
      rcases appendDeadAlert_of_ok hbody with hnil | ⟨hroom, _, table, htable, hbuilt⟩
      · exact absurd hnil hne
      · exact .pong seqNo pong appended hbytes.built
          (Or.inr ⟨table, present_of_encode htable, hbuilt⟩) (by omega)

/-- What a process does with a ping: it merges the gossip, if there is any, and
answers the sender as it was recorded before. -/
theorem answerPing_of_receive {seqNo : UInt64} {name : String}
    (hbody : fb.ping.finish { seqNo := seqNo, from_ := some name } = some body)
    (hfits : 8 + body.length + gossip.length ≤ mtu)
    (hok : p.receive fb env (packet typePing body gossip) d = .ok (p', out)) :
    (gossip = [] ∧ p'.gossiper = p.gossiper ∨ gossip ≠ [] ∧ ∃ stale,
      mergeSection d.toDestroyed env true (fb.nodeStates.getRoot (gossip ++ stale)) p.gossiper =
        .ok p'.gossiper) ∧
    ∃ n resp respBuff,
      answerPing fb seqNo (p.gossiper.getNodeState (str name)) respBuff mtu = .ok (n, resp) ∧
      out = if 0 < n then [.pong (resp.take n.toNat)] else [] := by
  have hne : packet typePing body gossip ≠ [] := by
    rw [ne_eq, ← List.length_eq_zero_iff, length_packet]
    omega
  simp only [receive, take_packet hfits, if_neg hne, length_packet, write_zero] at hok
  obtain ⟨⟨n, resp, g'⟩, hpacket, heq⟩ := Result.bind_eq_ok_iff.1 hok
  cases heq
  rw [handlePacket_packet env d.toDestroyed hbody rfl, Result.bind_eq_ok_iff] at hpacket
  obtain ⟨merged, hmerge, hrest⟩ := hpacket
  obtain ⟨_, hanswer, heq⟩ := Result.bind_eq_ok_iff.1 hrest
  cases heq
  by_cases hnil : gossip = []
  · rw [if_pos hnil] at hmerge
    cases hmerge
    exact ⟨Or.inl ⟨hnil, rfl⟩, _, _, _, hanswer, rfl⟩
  · rw [if_neg hnil] at hmerge
    exact ⟨Or.inr ⟨hnil, _, hmerge⟩, _, _, _, hanswer, rfl⟩

/-- A ping is merged and answered. -/
theorem receive_of_made {seqNo : UInt64} {name : String}
    (hbody : fb.ping.finish { seqNo := seqNo, from_ := some name } = some body)
    (hgossip : gossip = [] ∨ Tells fb known gossip)
    (hfits : 8 + body.length + gossip.length ≤ mtu)
    (hok : p.receive fb env (packet typePing body gossip) d = .ok (p', out)) :
    MergedFrom env known true p.gossiper p'.gossiper ∧ ∀ o ∈ out, o.Made fb known := by
  obtain ⟨hmerged, n, resp, respBuff, hanswer, rfl⟩ := answerPing_of_receive hbody hfits hok
  constructor
  · rcases hmerged with ⟨_, heq⟩ | ⟨hne, stale, hmerge⟩
    · exact mergedFrom_of_eq heq
    · obtain ⟨nss, hnss, hread⟩ := (hgossip.resolve_left hne).read
      rw [hread stale] at hmerge
      exact mergedFrom_of_mergeSection hnss hmerge
  · intro o ho
    split at ho
    case isTrue hpos =>
      cases List.mem_singleton.1 ho
      exact made_of_answerPing hanswer hpos
    case isFalse => cases ho

/-- The records of a gossiper as they are sent. -/
theorem tells_of_encodeLocalState {g : Gossiper} (horder : ∀ l, (order l).Perm l)
    (hok : encodeLocalState fb order g = .ok body) :
    ∃ nss, g.localState.mapM encode = some nss ∧ Tells fb nss body := by
  simp only [encodeLocalState, Result.bind_eq_ok_iff, orFault_eq_ok_iff] at hok
  obtain ⟨sent, hsent, hbuilt⟩ := hok
  obtain ⟨nss, hnss, hsub⟩ := exists_mapM_of_perm (horder g.localState) hsent
  exact ⟨nss, hnss, sent, hsub, hbuilt⟩

/-- A request is the table. -/
theorem syncRequest_of_ok (horder : ∀ l, (order l).Perm l)
    (hok : p.syncRequest fb order = .ok (p', out)) :
    p'.gossiper = p.gossiper ∧ ∃ nss, p.gossiper.localState.mapM encode = some nss ∧
      ∀ o ∈ out, o.Made fb nss := by
  obtain ⟨body, hbody, heq⟩ := Result.bind_eq_ok_iff.1 hok
  cases heq
  obtain ⟨nss, hnss, htells⟩ := tells_of_encodeLocalState horder hbody
  refine ⟨rfl, nss, hnss, fun o ho => ?_⟩
  cases List.mem_singleton.1 ho
  exact .request body htells

/-- The front of a reply is merged, or nothing is. -/
theorem syncReply_of_front {sent behind bytes : List UInt8}
    (hmade : (Output.reply bytes).Made fb known) (h : sent <+: bytes)
    (hok : p.syncReply fb env sent behind d = .ok (p', out)) :
    MergedFrom env known false p.gossiper p'.gossiper ∧ out = [] := by
  have hnothing (hread : readReply sent = none) :
      MergedFrom env known false p.gossiper p'.gossiper ∧ out = [] := by
    rw [syncReply, hread] at hok
    cases hok
    exact ⟨mergedFrom_of_eq rfl, rfl⟩
  cases hmade with
  | stub _ hshort =>
      refine hnothing (if_pos ?_)
      have hle := h.length_le
      omega
  | reply body htells =>
      have hfront : sent <+: frame body := h.trans (List.take_prefix _ _)
      rcases readReply_of_front htells.length_lt hfront with ⟨_, hread⟩ | ⟨_, hread⟩
      · exact hnothing hread
      · obtain ⟨nss, hnss, hroot⟩ := htells.read
        rw [syncReply, hread] at hok
        obtain ⟨g, hmerge, heq⟩ := Result.bind_eq_ok_iff.1 hok
        cases heq
        rw [hroot] at hmerge
        exact ⟨mergedFrom_of_mergeSection hnss hmerge, rfl⟩

/-- What a session writes of an answer: its frame as far as the buffer goes, or for an
answer larger than the buffer less than a header. -/
def Replies (answer written : List UInt8) : Prop :=
  if Session.buffSize < answer.length then written.length < 8
  else written = (frame answer).take Session.buffSize

theorem made_of_replies {answer written : List UInt8} (htells : Tells fb known answer)
    (h : Replies answer written) : (Output.reply written).Made fb known := by
  unfold Replies at h
  split at h
  case isTrue => exact .stub written h
  case isFalse =>
    rw [h]
    exact .reply answer htells

theorem length_lt_of_encodeLocalState {g : Gossiper}
    (hok : encodeLocalState fb order g = .ok body) : body.length < maxBufferSize := by
  simp only [encodeLocalState, Result.bind_eq_ok_iff, orFault_eq_ok_iff] at hok
  obtain ⟨nss, _, hbuilt⟩ := hok
  exact fb.nodeStates.finish_lt hbuilt

/-- What a session writes when it answers with a table. -/
theorem replies_of_handleBody {buff respBuff resp : List UInt8} {locals : Locals} {g g' : Gossiper}
    {n : UInt64}
    (hok : handleBody fb env order d.toDestroyed locals typeSyncState buff respBuff
      (UInt64.ofNat Session.buffSize) g = .ok (n, resp, g')) :
    ∃ answer, encodeLocalState fb order g' = .ok answer ∧
      Replies answer (Session.written resp n.toUInt32) := by
  obtain ⟨a, ha, hcases⟩ := answer_of_handleBody hok
  rw [answerBody_of_syncState] at ha
  simp only [Result.bind_eq_ok_iff] at ha
  obtain ⟨merged, _, answer, hanswer, heq⟩ := ha
  cases heq
  refine ⟨answer, hanswer, ?_⟩
  have hlt : answer.length < 2147483647 := length_lt_of_encodeLocalState hanswer
  have hresult : (UInt64.ofNat answer.length).toNat = answer.length := by
    rw [UInt64.toNat_ofNat']
    omega
  simp only [Locals.ofBuffer, hresult] at hcases
  unfold Replies
  rcases hcases with ⟨hlarge, rfl, rfl⟩ | ⟨hsmall, rfl, mem, hmem, rfl⟩
  · rw [if_pos hlarge, Session.written, List.length_take]
    exact Nat.lt_of_le_of_lt ((Nat.min_le_left _ _).trans (Nat.min_le_right _ _)) (by decide)
  · have hn : (UInt64.ofNat answer.length + 8).toUInt32.toNat = (frame answer).length := by
      have height : (8 : UInt64).toNat = 8 := rfl
      rw [UInt64.toNat_toUInt32, UInt64.toNat_add, hresult, height, length_frame]
      omega
    have hlength : (UInt64.ofNat answer.length).toUInt32 = UInt32.ofNat answer.length := by
      apply UInt32.toNat_inj.1
      rw [UInt64.toNat_toUInt32, hresult, UInt32.toNat_ofNat']
    have hwrite := write_write_write (encodeHeader
      { type := typeSyncState, bodyLength := UInt32.ofNat answer.length }) answer [] respBuff
    rw [length_encodeHeader, write_nil, List.nil_append, ← List.append_assoc, ← frame] at hwrite
    rw [if_neg (Nat.not_lt.2 hsmall), Session.written, hn, hlength, d.builder_eq hmem, hwrite,
      ← List.take_take, List.take_left]

/-- A session that has read a request merges it and answers with its table. -/
theorem serve_of_read {sent inBuff outBuff stale : List UInt8} {locals : Locals} {length : UInt32}
    {nss : List Message.NodeState}
    (hread : Session.read d.toDestroyed sent inBuff =
      some ({ type := typeSyncState, bodyLength := length }, body ++ stale))
    (hbuilt : fb.nodeStates.finish { nodes := some nss } = some body)
    (hok : p.serve fb env order sent inBuff outBuff locals d = .ok (p', out)) :
    p'.gossiper = p.gossiper.merge env true (nss.filterMap convert) ∧
      ∃ answer written, encodeLocalState fb order p'.gossiper = .ok answer ∧
        Replies answer written ∧ (outBuff.length = Session.buffSize → written ≠ []) ∧
        out = if written = [] then [] else [.reply written] := by
  obtain ⟨⟨written, g'⟩, hserve, heq⟩ := Result.bind_eq_ok_iff.1 hok
  cases heq
  rw [Session.serve, hread] at hserve
  obtain ⟨⟨n, resp, merged⟩, hbody, heq⟩ := Result.bind_eq_ok_iff.1 hserve
  cases heq
  obtain ⟨answer, hanswer, hreplies⟩ := replies_of_handleBody hbody
  obtain ⟨a, ha⟩ := answerBody_of_handleBody hbody
  rw [answerBody_of_syncState, fb.nodeStates.getRoot_finish hbuilt, Result.bind_eq_ok_iff] at ha
  obtain ⟨merged, hmerge, hrest⟩ := ha
  obtain ⟨_, _, heq⟩ := Result.bind_eq_ok_iff.1 hrest
  cases heq
  exact ⟨merge_of_mergeSection hmerge, answer, _, hanswer, hreplies,
    fun hbuff => written_ne_nil hbuff hbody, rfl⟩

/-- A session merges the front of a request and answers with its table, or it does
neither. -/
theorem serve_of_front {sent inBuff outBuff bytes : List UInt8} {locals : Locals}
    (horder : ∀ l, (order l).Perm l) (hmade : (Output.request bytes).Made fb known)
    (hroomy : (Output.request bytes).Roomy) (h : sent <+: bytes)
    (hok : p.serve fb env order sent inBuff outBuff locals d = .ok (p', out)) :
    p'.gossiper = p.gossiper ∧ out = [] ∨
      MergedFrom env known true p.gossiper p'.gossiper ∧
        ∃ nss, p'.gossiper.localState.mapM encode = some nss ∧ ∀ o ∈ out, o.Made fb nss := by
  cases hmade with
  | request body htells =>
      rcases read_of_front inBuff (length_le_of_roomy hroomy) h with
        ⟨_, hread⟩ | ⟨_, stale, hread⟩
      · rw [serve, Session.serve, hread] at hok
        cases hok
        exact Or.inl ⟨rfl, rfl⟩
      · obtain ⟨told, htold, hbuilt⟩ := htells
        obtain ⟨hmerged, answer, written, hanswer, hreplies, _, rfl⟩ :=
          serve_of_read hread hbuilt hok
        obtain ⟨nss, hnss, hsent⟩ := tells_of_encodeLocalState horder hanswer
        refine Or.inr ⟨⟨told, htold, hmerged⟩, nss, hnss, fun o ho => ?_⟩
        split at ho
        · cases ho
        · cases List.mem_singleton.1 ho
          exact made_of_replies hsent hreplies

/-! ## Fields -/

/-- What processes send has the fields that are read of it. -/
theorem readable_of_made {o : Output} {i : Input} (hmade : o.Made fb known)
    (hknown : ∀ ns ∈ known, ns.Present) (hroomy : o.Roomy) (hreach : o.Reaches i) :
    p.Readable fb i := by
  cases hmade with
  | ping host port seqNo name body gossip hbody hgossip hfits =>
      cases i with
      | datagram bytes d =>
          cases hreach
          intro _ _
          rw [take_packet hfits, write_zero, drop_packet, fb.ping.getRoot_finish hbody, gossipRead,
            decodeHeader_packet, length_packet, appendedAt_of_header typePing
            (fb.ping.finish_lt hbody)]
          refine ⟨rfl, fun states hstates => ?_⟩
          rcases hgossip with rfl | htells
          · rw [if_pos rfl] at hstates
            cases hstates
          · rw [if_neg htells.ne_nil, Option.map_some, drop_packet_body] at hstates
            cases hstates
            exact htells.present hknown _
      | _ => exact hreach.elim
  | pong seqNo body alert hbody halert hfits =>
      cases i with
      | pong bytes data =>
          cases hreach
          intro _ ns hns
          rw [take_packet hfits, write_zero, alertRead, decodeHeader_packet, length_packet,
            appendedAt_of_header typePong (fb.pong.finish_lt hbody)] at hns
          rcases halert with rfl | ⟨sent, hpresent, hbuilt⟩
          · rw [if_pos rfl] at hns
            cases hns
          · have hne : alert ≠ [] := List.ne_nil_of_length_pos (fb.nodeState.finish_pos hbuilt)
            rw [if_neg hne, Option.map_some, drop_packet_body,
              fb.nodeState.getRoot_finish hbuilt] at hns
            cases hns
            obtain ⟨node, hnode, hname, _⟩ := hpresent.1
            exact ⟨node, hnode, hname⟩
      | _ => exact hreach.elim
  | request body htells =>
      cases i with
      | connection sent inBuff outBuff locals d =>
          intro r hr _
          have hread : Session.read d.toDestroyed sent inBuff = some r := hr
          rcases read_of_front inBuff (length_le_of_roomy hroomy) hreach with
            ⟨_, hnone⟩ | ⟨_, stale, hsome⟩
          · rw [hnone] at hread
            cases hread
          · cases hsome.symm.trans hread
            exact htells.present hknown stale
      | _ => exact hreach.elim
  | reply body htells =>
      cases i with
      | reply sent behind d =>
          intro resp hresp
          have hread : readReply sent = some resp := hresp
          have hfront : sent <+: frame body := hreach.trans (List.take_prefix _ _)
          rcases readReply_of_front htells.length_lt hfront with ⟨_, hnone⟩ | ⟨_, hsome⟩
          · rw [hnone] at hread
            cases hread
          · cases hsome.symm.trans hread
            exact htells.present hknown behind
      | _ => exact hreach.elim
  | stub bytes hshort =>
      cases i with
      | reply sent behind d =>
          intro resp hresp
          have hread : readReply sent = some resp := hresp
          have hle := hreach.length_le
          rw [readReply, if_pos (by omega)] at hread
          cases hread
      | _ => exact hreach.elim

end Process

end CppGossip
