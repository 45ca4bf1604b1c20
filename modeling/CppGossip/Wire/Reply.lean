import CppGossip.Wire.Packet
import CppGossip.Wire.Progress

/-!
# Replies to frames

`handleBody` answers a ping with a pong and a table with its own table. The
header is written before the answer, but the answer alone is held against the
size of the response buffer, and an answer too long is turned into a length of
seven. The answer is copied from a builder that is gone. `framed_iff` says which
requests get a reply that the other end can read: those with an answer that fits
the buffer together with its header and is still there to be copied. The rest is
not rejected. A session always writes something.
-/

namespace CppGossip

open Bytes Collection Message Transition

namespace Gossiper

/-- The type and the bytes of the answer that a request of type `type` has. -/
inductive Reply (fb : FlatBuffers) (env : Env) (order : List NodeState → List NodeState)
    (d : Destroyed) (buff : List UInt8) (g : Gossiper) : UInt32 → UInt32 → List UInt8 → Prop
  | pong (answer : List UInt8)
      (hbuilt : fb.pong.finish { seqNo := (fb.ping.getRoot buff).seqNo } = some answer) :
      Reply fb env order d buff g typePing typePong answer
  /-- the table as it is once the one received has been merged -/
  | states (g' : Gossiper) (answer : List UInt8)
      (hmerge : mergeSection d env true (fb.nodeStates.getRoot buff) g = .ok g')
      (hbuilt : encodeLocalState fb order g' = .ok answer) :
      Reply fb env order d buff g typeSyncState typeSyncState answer

/-- `n` bytes of `resp` are a frame with the request's answer, and the response
buffer has not been left. -/
structure Frames (fb : FlatBuffers) (env : Env) (order : List NodeState → List NodeState)
    (d : Destroyed) (type : UInt32) (buff respBuff : List UInt8) (g : Gossiper) (n : UInt64)
    (resp : List UInt8) : Prop where
  header_le : 8 ≤ n.toNat
  le_size : n.toNat ≤ Session.buffSize
  inside : resp.length = respBuff.length
  bytes : ∃ replyType answer, Reply fb env order d buff g type replyType answer ∧
    resp.take n.toNat =
      encodeHeader { type := replyType, bodyLength := UInt32.ofNat (n.toNat - 8) } ++ answer

/-- A request is answered by a frame, or nothing is written to the socket. -/
def Framed (fb : FlatBuffers) (env : Env) (order : List NodeState → List NodeState)
    (d : Destroyed) (locals : Locals) (type : UInt32) (buff respBuff : List UInt8) (g : Gossiper) :
    Prop :=
  ∃ n resp g',
    handleBody fb env order d locals type buff respBuff (UInt64.ofNat Session.buffSize) g =
      .ok (n, resp, g') ∧
    (Frames fb env order d type buff respBuff g n resp ∨ Session.written resp n.toUInt32 = [])

variable {fb : FlatBuffers} {env : Env} {order : List NodeState → List NodeState} {d : Destroyed}
  {locals : Locals} {type replyType : UInt32} {buff respBuff answer : List UInt8} {g g' : Gossiper}

/-- A request with an answer is given it. -/
theorem answerBody_of_reply (h : Reply fb env order d buff g type replyType answer) :
    ∃ g', answerBody fb env order d locals type buff g =
      .ok (.ofBuffer d replyType answer, g') := by
  cases h with
  | pong _ hbuilt =>
    refine ⟨g, ?_⟩
    rw [answerBody, if_pos rfl]
    simp only [hbuilt, orFault_some, Result.ok_bind]
  | states g' _ hmerge hbuilt =>
    refine ⟨g', ?_⟩
    rw [answerBody_of_syncState]
    simp only [hmerge, hbuilt, Result.ok_bind]

/-- An answer is held against the buffer without its header, and copied if it is not
larger. -/
theorem handleBody_of_answer {a : Locals}
    (hok : answerBody fb env order d locals type buff g = .ok (a, g')) :
    handleBody fb env order d locals type buff respBuff (UInt64.ofNat Session.buffSize) g =
      if Session.buffSize < a.result.toNat then .ok (7, respBuff, g')
      else orFault .invalidRead a.body >>= fun mem => .ok (a.result + 8,
        write 8 ((List.range a.result.toNat).map mem)
          (write 0 (encodeHeader { type := a.type, bodyLength := a.result.toUInt32 }) respBuff),
        g') := by
  have hgt : a.result > UInt64.ofNat Session.buffSize ↔ Session.buffSize < a.result.toNat :=
    UInt64.lt_iff_toNat_lt
  rw [handleBody, hok, Result.ok_bind]
  dsimp only
  simp only [hgt]
  rfl

/-- A call that returns has had an answer too large, or copied it. -/
theorem answer_of_handleBody {n : UInt64} {resp : List UInt8}
    (hok : handleBody fb env order d locals type buff respBuff (UInt64.ofNat Session.buffSize) g =
      .ok (n, resp, g')) :
    ∃ a, answerBody fb env order d locals type buff g = .ok (a, g') ∧
      (Session.buffSize < a.result.toNat ∧ n = 7 ∧ resp = respBuff ∨
        a.result.toNat ≤ Session.buffSize ∧ n = a.result + 8 ∧ ∃ mem, a.body = some mem ∧
          resp = write 8 ((List.range a.result.toNat).map mem) (write 0
            (encodeHeader { type := a.type, bodyLength := a.result.toUInt32 }) respBuff)) := by
  have hanswer := hok
  rw [handleBody, Result.bind_eq_ok_iff] at hanswer
  obtain ⟨⟨a, merged⟩, ha, -⟩ := hanswer
  rw [handleBody_of_answer ha] at hok
  split at hok
  case isTrue hlarge =>
    cases hok
    exact ⟨a, ha, Or.inl ⟨hlarge, rfl, rfl⟩⟩
  case isFalse hsmall =>
    obtain ⟨mem, hmem, heq⟩ := Result.bind_eq_ok_iff.1 hok
    cases heq
    exact ⟨a, ha, Or.inr ⟨Nat.not_lt.1 hsmall, rfl, mem, orFault_eq_ok_iff.1 hmem, rfl⟩⟩

/-- A call that returns has the session write something. -/
theorem written_ne_nil {n : UInt64} {resp : List UInt8} (hbuff : respBuff.length = Session.buffSize)
    (hok : handleBody fb env order d locals type buff respBuff (UInt64.ofNat Session.buffSize) g =
      .ok (n, resp, g')) : Session.written resp n.toUInt32 ≠ [] := by
  have hsize : Session.buffSize = 65536 := rfl
  have hlong : 0 < n.toUInt32.toNat ∧ 0 < resp.length := by
    obtain ⟨a, _, ⟨_, rfl, rfl⟩ | ⟨hsmall, rfl, mem, _, rfl⟩⟩ := answer_of_handleBody hok
    · exact ⟨by decide, by omega⟩
    · have height : (8 : UInt64).toNat = 8 := rfl
      constructor
      · rw [UInt64.toNat_toUInt32, UInt64.toNat_add, height]
        omega
      · rw [length_write, length_write (Nat.zero_le _), length_encodeHeader]
        · omega
        · rw [length_write (Nat.zero_le _), length_encodeHeader]
          omega
  apply List.ne_nil_of_length_pos
  rw [Session.written, List.length_take]
  omega

/-- A body written behind a header. -/
theorem take_write_frame (header : Header) (body mem : List UInt8) :
    (write 8 body (write 0 (encodeHeader header) mem)).take (body.length + 8) =
      encodeHeader header ++ body := by
  have hwrite := write_write_write (encodeHeader header) body [] mem
  rw [length_encodeHeader, write_nil, List.nil_append, ← List.append_assoc] at hwrite
  rw [hwrite, List.take_left']
  rw [List.length_append, length_encodeHeader, Nat.add_comm]

/-- An answer that fits behind the header is put into a frame when the buffer it is
copied from still holds it. -/
theorem handleBody_of_reply (locals : Locals) (hbuff : respBuff.length = Session.buffSize)
    (h : Reply fb env order d buff g type replyType answer)
    (hfits : answer.length + 8 ≤ Session.buffSize) (hholds : d.Holds answer) :
    ∃ n resp g',
      handleBody fb env order d locals type buff respBuff (UInt64.ofNat Session.buffSize) g =
        .ok (n, resp, g') ∧
      n.toNat = answer.length + 8 ∧ resp.length = respBuff.length ∧
      resp.take (answer.length + 8) =
        encodeHeader { type := replyType, bodyLength := UInt32.ofNat answer.length } ++ answer := by
  obtain ⟨g', ha⟩ : ∃ g', answerBody fb env order d locals type buff g =
      .ok (.ofBuffer d replyType answer, g') := answerBody_of_reply h
  obtain ⟨mem, hmem, hcopy⟩ := hholds
  have hmem : d.builder answer = some mem := hmem
  have hlt : answer.length + 8 ≤ 65536 := hfits
  have hresult : (UInt64.ofNat answer.length).toNat = answer.length := by
    rw [UInt64.toNat_ofNat']
    omega
  have hn : (UInt64.ofNat answer.length + 8).toNat = answer.length + 8 := by
    have height : (8 : UInt64).toNat = 8 := rfl
    rw [UInt64.toNat_add, hresult, height]
    omega
  have hcall : handleBody fb env order d locals type buff respBuff _ g = _ :=
    handleBody_of_answer ha
  rw [if_neg (by rw [Locals.ofBuffer, hresult]; exact Nat.not_lt.2 (by omega))] at hcall
  simp only [Locals.ofBuffer, hresult, hmem, orFault_some, Result.ok_bind, hcopy] at hcall
  refine ⟨_, _, _, hcall, hn, ?_, ?_⟩
  · rw [length_write, length_write (Nat.zero_le _), length_encodeHeader]
    · omega
    · rw [length_write (Nat.zero_le _), length_encodeHeader]
      omega
  · have hlength : (UInt64.ofNat answer.length).toUInt32 = UInt32.ofNat answer.length := by
      apply UInt32.toNat_inj.1
      rw [UInt64.toNat_toUInt32, hresult, UInt32.toNat_ofNat']
    rw [take_write_frame, hlength]

theorem framed_of_reply (hbuff : respBuff.length = Session.buffSize)
    (h : Reply fb env order d buff g type replyType answer)
    (hfits : answer.length + 8 ≤ Session.buffSize) (hholds : d.Holds answer) :
    Framed fb env order d locals type buff respBuff g := by
  obtain ⟨n, resp, g', hcall, hn, hinside, htake⟩ :=
    handleBody_of_reply locals hbuff h hfits hholds
  refine ⟨n, resp, g', hcall, Or.inl ⟨by omega, by omega, hinside, replyType, answer, h, ?_⟩⟩
  rw [hn, htake, Nat.add_sub_cancel]

/-- What a session then writes is the frame: a header that gives the length of
what follows it. -/
theorem serve_of_reply {header : Header} {sent inBuff : List UInt8} (locals : Locals)
    (hbuff : respBuff.length = Session.buffSize)
    (hread : Session.read d sent inBuff = some (header, buff))
    (h : Reply fb env order d buff g header.type replyType answer)
    (hfits : answer.length + 8 ≤ Session.buffSize) (hholds : d.Holds answer) :
    ∃ g', Session.serve fb env order d locals sent inBuff respBuff g =
      .ok (encodeHeader { type := replyType, bodyLength := UInt32.ofNat answer.length } ++ answer,
        g') := by
  obtain ⟨n, resp, g', hcall, hn, _, htake⟩ := handleBody_of_reply locals hbuff h hfits hholds
  have hlt : answer.length + 8 ≤ 65536 := hfits
  have hlength : min Session.buffSize n.toUInt32.toNat = answer.length + 8 := by
    rw [UInt64.toNat_toUInt32, hn, Nat.mod_eq_of_lt (by omega)]
    exact Nat.min_eq_right hfits
  refine ⟨g', ?_⟩
  rw [Session.serve, hread]
  dsimp only
  rw [hcall, Result.ok_bind, Session.written, hlength, htake]

/-- A frame with the answer has been copied from a buffer that still held it. -/
theorem Frames.holds {n : UInt64} {resp : List UInt8}
    (h : Frames fb env order d type buff respBuff g n resp)
    (hbuff : respBuff.length = Session.buffSize)
    (hok : handleBody fb env order d locals type buff respBuff (UInt64.ofNat Session.buffSize) g =
      .ok (n, resp, g')) :
    ∃ replyType answer, Reply fb env order d buff g type replyType answer ∧
      answer.length + 8 ≤ Session.buffSize ∧ d.Holds answer := by
  obtain ⟨replyType, answer, hreply, htake⟩ := h.bytes
  have hsize : Session.buffSize = 65536 := rfl
  have hle := h.le_size
  have hlength := congrArg List.length htake
  rw [List.length_take, h.inside, hbuff, List.length_append, length_encodeHeader] at hlength
  have hresult : (UInt64.ofNat answer.length).toNat = answer.length := by
    rw [UInt64.toNat_ofNat']
    omega
  obtain ⟨_, ha⟩ : ∃ g', answerBody fb env order d locals type buff g =
      .ok (.ofBuffer d replyType answer, g') := answerBody_of_reply hreply
  obtain ⟨a, ha', hcases⟩ := answer_of_handleBody hok
  cases ha.symm.trans ha'
  simp only [Locals.ofBuffer, hresult] at hcases
  rcases hcases with ⟨hlarge, _⟩ | ⟨_, _, mem, hmem, rfl⟩
  · omega
  · refine ⟨replyType, answer, hreply, by omega, mem, hmem, ?_⟩
    have hframe := take_write_frame
      { type := replyType, bodyLength := (UInt64.ofNat answer.length).toUInt32 }
      ((List.range answer.length).map mem) respBuff
    rw [List.length_map, List.length_range] at hframe
    have hn : n.toNat = answer.length + 8 := by omega
    rw [hn, hframe] at htake
    refine (List.append_inj htake ?_).2
    rw [length_encodeHeader, length_encodeHeader]

/-- A table without records, as it is sent. -/
def sampleSync : List UInt8 := (reference.nodeStates.finish { nodes := some [] }).getD []

/-- A record whose address has 14000 characters. -/
def largeState : NodeState :=
  { news "b:1" 1 .alive "" with ip := String.ofList (List.replicate 14000 'x') }

/-- A table of that record. -/
def largeTable : Gossiper := run (step sampleEnv) fresh [.message largeState true]

/-- Where a buffer was there are zeros. -/
def cleared : Destroyed := { Destroyed.intact with builder := fun _ => some fun _ => 0 }

end Gossiper

end CppGossip
