import CppGossip.Broadcast.Quota
import CppGossip.Collection.Reading
import CppGossip.Message.Port
import CppGossip.Wire.Reference

/-!
# The gossip appended to a ping

`appendGossipMsg` peeks up to `MAX_APPENDED_MSG_` messages, writes them as one
section and pops them if the section has room. Otherwise it puts the cursor
back and halves the number. An `Outbox` is the queue with that number.
-/

namespace CppGossip

open Collection

/-- The fields that `appendGossipMsg` reads and writes. -/
structure Outbox where
  bcQueue : BroadcastQueue
  maxAppendedMsg : ℕ

namespace Outbox

/-- The messages that the loop of `appendGossipMsg` peeks, up to `n` of them,
and the queue it leaves. -/
def peekMsgs : ℕ → BroadcastQueue → List NodeState × BroadcastQueue
  | 0, q => ([], q)
  | n + 1, q =>
      match q.peek with
      | (none, q) => ([], q)
      | (some node, q) => (node :: (peekMsgs n q).1, (peekMsgs n q).2)

/-- `shrinkMaxAppendedMsg`. -/
def shrinkMaxAppendedMsg (maxAppendedMsg : ℕ) : ℕ :=
  if maxAppendedMsg = 1 then maxAppendedMsg else maxAppendedMsg / 2

/-- `appendGossipMsg`, with room for `buffSize` bytes: the bytes it copies to its
buffer, as many as it returns. -/
def appendGossipMsg (fb : FlatBuffers) (buffSize : Int) (o : Outbox) :
    Result (List UInt8 × Outbox) :=
  let (nodes, peeked) := peekMsgs o.maxAppendedMsg o.bcQueue
  if nodes = [] then .ok ([], { o with bcQueue := peeked })
  else do
    let nss ← orFault .invalidPort (nodes.mapM Message.encode)
    let body ← orFault .bufferTooLarge (fb.nodeStates.finish { nodes := some nss })
    if (body.length : Int) > buffSize then
      .ok ([],
        { bcQueue := peeked.resetPeek, maxAppendedMsg := shrinkMaxAppendedMsg o.maxAppendedMsg })
    else .ok (body, { o with bcQueue := peeked.applyPeek })

/-- The messages that the next call peeks. -/
def gossipMsgs (o : Outbox) : List NodeState := (peekMsgs o.maxAppendedMsg o.bcQueue).1

/-! ## The messages peeked -/

open BroadcastQueue

variable {q : BroadcastQueue} {o o' : Outbox} {fb : FlatBuffers} {buffSize : Int}
  {body : List UInt8}

/-- Once nothing is peeked, nothing will be. -/
theorem peek_again (h : q.peek.1 = none) (hwithin : Within q.peekIter q.m) :
    q.peek.2.peek = (none, q.peek.2) := by
  have hnot : ¬ (stand q.peekIter q.m ≠ none ∧ q.peeked < q.m.keys.length) := by
    rintro ⟨hne, hroom⟩
    obtain ⟨k, hk⟩ := Option.ne_none_iff_exists'.1 hne
    obtain ⟨e, he⟩ := exists_lookup (mem_of_stand hwithin hk)
    rw [peek_of_stand hk hroom, message_of_lookup he] at h
    cases h
  have hagain : ¬ (stand (stand q.peekIter q.m) q.m ≠ none ∧ q.peeked < q.m.keys.length) := by
    rwa [stand_stand]
  rw [peek_of_not hnot]
  refine (peek_of_not (q := { q with peekIter := stand q.peekIter q.m }) hagain).trans ?_
  rw [stand_stand]

theorem peekN_of_stuck (h : q.peek = (none, q)) (n : ℕ) :
    peekN n q = q ∧ peeks n q = [] := by
  induction n with
  | zero => exact ⟨rfl, rfl⟩
  | succ n ih =>
      rw [peekN, peeks, h]
      exact ⟨ih.1, ih.2⟩

theorem within_peekIter_peek (h : Within q.peekIter q.m) :
    Within q.peek.2.peekIter q.peek.2.m := by
  by_cases hreturn : stand q.peekIter q.m ≠ none ∧ q.peeked < q.m.keys.length
  · obtain ⟨k, hk⟩ := Option.ne_none_iff_exists'.1 hreturn.1
    rw [peek_of_stand hk hreturn.2]
    exact within_next h hk
  · rw [peek_of_not hreturn]
    exact within_stand h

/-- The loop peeks as many calls of `Peek` would. -/
theorem peekMsgs_eq (h : Within q.peekIter q.m) (n : ℕ) :
    peekMsgs n q = (peeks n q, peekN n q) := by
  induction n generalizing q with
  | zero => rfl
  | succ n ih =>
      have hrest := ih (within_peekIter_peek h)
      cases hpeek : q.peek with
      | mk found rest =>
          rw [hpeek] at hrest
          cases found with
          | none =>
              have hstuck : rest.peek = (none, rest) := by
                simpa only [hpeek] using peek_again (q := q) (by rw [hpeek]) h
              obtain ⟨hqueue, hnone⟩ := peekN_of_stuck hstuck n
              simp [peekMsgs, peekN, peeks, hpeek, hqueue, hnone]
          | some node => simp [peekMsgs, peekN, peeks, hpeek, hrest]

/-- As many messages are peeked as there are, up to `n`. -/
theorem peeked_peekN (h : Within q.peekIter q.m) (hle : q.peeked ≤ q.m.keys.length) (n : ℕ) :
    (peekN n q).peeked = min (q.peeked + n) q.m.keys.length := by
  induction n generalizing q with
  | zero => exact (Nat.min_eq_left hle).symm
  | succ n ih =>
      have hnext := ih (within_peekIter_peek h)
      rw [m_peek] at hnext
      by_cases hreturn : stand q.peekIter q.m ≠ none ∧ q.peeked < q.m.keys.length
      · obtain ⟨k, hk⟩ := Option.ne_none_iff_exists'.1 hreturn.1
        rw [peek_of_stand hk hreturn.2] at hnext
        rw [peekN, peek_of_stand hk hreturn.2, hnext hreturn.2]
        show min (q.peeked + 1 + n) _ = _
        rw [Nat.add_right_comm, Nat.add_assoc]
      · have hfull : q.peeked = q.m.keys.length := by
          by_contra hne
          have hlt : q.peeked < q.m.keys.length := Nat.lt_of_le_of_ne hle hne
          refine hreturn ⟨fun hnone => ?_, hlt⟩
          rw [(stand_eq_none_iff.1 hnone).2] at hlt
          exact absurd hlt (Nat.not_lt_zero _)
        rw [peek_of_not hreturn] at hnext
        rw [peekN, peek_of_not hreturn, hnext hle]
        show min (q.peeked + n) _ = _
        omega

/-- The messages queued under `l` are those that it names. -/
theorem map_name_filterMap (h : q.Keyed) {l : List String} (hl : ∀ k ∈ l, k ∈ q.m) :
    (l.filterMap q.message).map NodeState.name = l := by
  induction l with
  | nil => rfl
  | cons k l ih =>
      rw [List.forall_mem_cons] at hl
      obtain ⟨e, he⟩ := exists_lookup hl.1
      rw [List.filterMap_cons_some (message_of_lookup he), List.map_cons, ih hl.2,
        h k e.1 (message_of_lookup he)]

/-- Between batches the messages peeked are the next ones of the circle. -/
theorem names_peeks (h : Settled q) (n : ℕ) :
    (peeks n q).map NodeState.name = (cycle q.cur q.m).take (min n q.m.keys.length) := by
  have hopen := h.open_peekN n
  have hpeeked : (peekN n q).peeked = min n q.m.keys.length := by
    rw [peeked_peekN h.open_nil.peekIter (h.peeked ▸ Nat.zero_le _), h.peeked, Nat.zero_add]
  rw [hopen.returned, map_name_filterMap hopen.keyed, cur_peekN, m_peekN, hpeeked]
  intro k hk
  exact mem_cycle_iff.1 (List.mem_of_mem_take hk)

/-- A batch that finds no message leaves the queue as it was. -/
theorem peekN_of_peeks_eq_nil (h : Settled q) {n : ℕ} (hnil : peeks n q = []) : peekN n q = q := by
  have hnames := names_peeks h n
  rw [hnil, List.map_nil, eq_comm, List.take_eq_nil_iff] at hnames
  have hlength := length_cycle q.cur q.m
  rcases Nat.eq_zero_or_pos n with rfl | hn
  · rfl
  · have hkeys : q.m.keys = [] := by
      rcases hnames with hmin | hcycle
      · rw [← List.length_eq_zero_iff]
        omega
      · rwa [hcycle, List.length_nil, eq_comm, List.length_eq_zero_iff] at hlength
    have hend : q.peekIter = none := by
      rw [Option.eq_none_iff_forall_not_mem]
      intro k hk
      have hmem : k ∈ q.m.keys := h.open_nil.peekIter k hk
      rw [hkeys] at hmem
      cases hmem
    have hstand : stand q.peekIter q.m = none := stand_eq_none_iff.2 ⟨hend, hkeys⟩
    apply (peekN_of_stuck _ n).1
    rw [peek_of_not fun hreturn => hreturn.1 hstand, hstand, ← hend]

/-- The messages peeked are queued. -/
theorem exists_message_of_mem_peekMsgs {n : ℕ} {m : NodeState} (h : m ∈ (peekMsgs n q).1) :
    ∃ x, q.message x = some m := by
  induction n generalizing q with
  | zero => cases h
  | succ n ih =>
      rw [peekMsgs] at h
      split at h
      case h_1 => cases h
      case h_2 first rest hpeek =>
        rcases List.mem_cons.1 h with rfl | hm
        · exact exists_message_of_peek (by rw [hpeek])
        · obtain ⟨x, hx⟩ := ih hm
          refine ⟨x, ?_⟩
          rw [← message_peek, hpeek]
          exact hx

/-- What holds of the queued messages holds of the next call's. -/
theorem forall_gossipMsgs {P : NodeState → Prop}
    (h : ∀ x m, o.bcQueue.message x = some m → P m) : ∀ m ∈ o.gossipMsgs, P m := by
  intro m hm
  obtain ⟨x, hx⟩ := exists_message_of_mem_peekMsgs hm
  exact h x m hx

theorem gossipMsgs_eq (h : Settled o.bcQueue) :
    o.gossipMsgs = peeks o.maxAppendedMsg o.bcQueue :=
  congrArg Prod.fst (peekMsgs_eq h.open_nil.peekIter _)

/-! ## The outcomes -/

/-- The messages of the next call and the section that they make. -/
structure Packet (fb : FlatBuffers) (o : Outbox) (nss : List Message.NodeState)
    (body : List UInt8) : Prop where
  encoded : o.gossipMsgs.mapM Message.encode = some nss
  built : fb.nodeStates.finish { nodes := some nss } = some body

variable {nss : List Message.NodeState}

theorem appendGossipMsg_of_nil (h : Settled o.bcQueue) (hnil : o.gossipMsgs = []) :
    o.appendGossipMsg fb buffSize = .ok ([], o) := by
  have hpeeks := gossipMsgs_eq h
  rw [hnil] at hpeeks
  rw [appendGossipMsg, peekMsgs_eq h.open_nil.peekIter]
  simp only [← hpeeks, if_true, peekN_of_peeks_eq_nil h hpeeks.symm]

theorem appendGossipMsg_of_large (h : Settled o.bcQueue) (hne : o.gossipMsgs ≠ [])
    (hpacket : Packet fb o nss body) (hlarge : buffSize < body.length) :
    o.appendGossipMsg fb buffSize =
      .ok ([], { o with maxAppendedMsg := shrinkMaxAppendedMsg o.maxAppendedMsg }) := by
  have hreset : (peekN o.maxAppendedMsg o.bcQueue).resetPeek = o.bcQueue :=
    h.call_reset o.maxAppendedMsg
  have hencoded := hpacket.encoded
  rw [gossipMsgs_eq h] at hne hencoded
  rw [appendGossipMsg, peekMsgs_eq h.open_nil.peekIter]
  simp only [if_neg hne, hencoded, orFault_some, Result.ok_bind, hpacket.built]
  show (if (body.length : Int) > buffSize then _ else _) = _
  rw [if_pos hlarge, hreset]

theorem appendGossipMsg_of_fits (h : Settled o.bcQueue) (hne : o.gossipMsgs ≠ [])
    (hpacket : Packet fb o nss body) (hfits : (body.length : Int) ≤ buffSize) :
    o.appendGossipMsg fb buffSize =
      .ok (body, { o with bcQueue := o.bcQueue.call (.batch o.maxAppendedMsg true) }) := by
  have hencoded := hpacket.encoded
  rw [gossipMsgs_eq h] at hne hencoded
  rw [appendGossipMsg, peekMsgs_eq h.open_nil.peekIter]
  simp only [if_neg hne, hencoded, orFault_some, Result.ok_bind, hpacket.built]
  show (if (body.length : Int) > buffSize then _ else _) = _
  rw [if_neg (Int.not_lt.2 hfits)]
  rfl

/-- What a call that returns has done. -/
inductive Appends (fb : FlatBuffers) (buffSize : Int) (o : Outbox) : List UInt8 → Outbox → Prop
  | empty (hnil : o.gossipMsgs = []) : Appends fb buffSize o [] o
  | large (nss : List Message.NodeState) (body : List UInt8) (hne : o.gossipMsgs ≠ [])
      (hpacket : Packet fb o nss body) (hlarge : buffSize < body.length) :
      Appends fb buffSize o []
        { o with maxAppendedMsg := shrinkMaxAppendedMsg o.maxAppendedMsg }
  | fits (nss : List Message.NodeState) (body : List UInt8) (hne : o.gossipMsgs ≠ [])
      (hpacket : Packet fb o nss body) (hfits : (body.length : Int) ≤ buffSize) :
      Appends fb buffSize o body
        { o with bcQueue := o.bcQueue.call (.batch o.maxAppendedMsg true) }

/-- A call that returns has found nothing, given up or appended its messages. -/
theorem appends_of_ok (h : Settled o.bcQueue)
    (hok : o.appendGossipMsg fb buffSize = .ok (body, o')) : Appends fb buffSize o body o' := by
  by_cases hne : o.gossipMsgs = []
  · rw [appendGossipMsg_of_nil h hne] at hok
    cases hok
    exact .empty hne
  · have hsteps := hok
    have hpeeks := gossipMsgs_eq h
    rw [hpeeks] at hne
    rw [appendGossipMsg, peekMsgs_eq h.open_nil.peekIter] at hsteps
    simp only [if_neg hne, Result.bind_eq_ok_iff, orFault_eq_ok_iff] at hsteps
    obtain ⟨nss, hnss, built, hbuilt, _⟩ := hsteps
    rw [← hpeeks] at hne hnss
    have hpacket : Packet fb o nss built := ⟨hnss, hbuilt⟩
    rcases Int.lt_or_le buffSize built.length with hlarge | hfits
    · rw [appendGossipMsg_of_large h hne hpacket hlarge] at hok
      cases hok
      exact .large nss built hne hpacket hlarge
    · rw [appendGossipMsg_of_fits h hne hpacket hfits] at hok
      cases hok
      exact .fits nss _ hne hpacket hfits

/-- What is written is the section of the messages peeked, whatever the queue. -/
theorem packet_of_ok (hok : o.appendGossipMsg fb buffSize = .ok (body, o')) :
    body = [] ∨ (body.length : Int) ≤ buffSize ∧ ∃ nss, Packet fb o nss body := by
  rw [appendGossipMsg] at hok
  dsimp only at hok
  split at hok
  case isTrue =>
    cases hok
    exact Or.inl rfl
  case isFalse =>
    simp only [Result.bind_eq_ok_iff, orFault_eq_ok_iff] at hok
    obtain ⟨nss, hnss, built, hbuilt, hrest⟩ := hok
    split at hrest
    case isTrue =>
      cases hrest
      exact Or.inl rfl
    case isFalse hfits =>
      cases hrest
      exact Or.inr ⟨Int.not_lt.1 hfits, nss, hnss, hbuilt⟩

/-- Records that can be sent one by one can be sent together. -/
theorem exists_mapM_encode {nodes : List NodeState} (h : ∀ m ∈ nodes, m.DecimalPort) :
    ∃ nss, nodes.mapM Message.encode = some nss := by
  rw [← Option.isSome_iff_exists, isSome_mapM_iff]
  intro m hm
  rw [Option.isSome_iff_exists]
  exact exists_encode_of_decimalPort (h m hm)

/-- The library can build a section of the messages of the next call. -/
def Buildable (fb : FlatBuffers) (o : Outbox) : Prop :=
  ∀ nss ∈ o.gossipMsgs.mapM Message.encode, (fb.nodeStates.finish { nodes := some nss }).isSome

instance (fb : FlatBuffers) (o : Outbox) : Decidable (Buildable fb o) :=
  inferInstanceAs (Decidable (∀ nss ∈ o.gossipMsgs.mapM Message.encode, _))

theorem exists_packet (hports : ∀ x m, o.bcQueue.message x = some m → m.DecimalPort)
    (hbuild : Buildable fb o) : ∃ nss body, Packet fb o nss body := by
  obtain ⟨nss, hnss⟩ := exists_mapM_encode (forall_gossipMsgs hports)
  obtain ⟨body, hbody⟩ := Option.isSome_iff_exists.1 (hbuild nss hnss)
  exact ⟨nss, body, hnss, hbody⟩

/-! ## All or nothing -/

/-- The bytes encode `n` messages, the next of the circle, within the room, and
the counters of these are counted down, each once, and no others. -/
structure Appended (fb : FlatBuffers) (buffSize : Int) (o : Outbox) (n : ℕ) (body : List UInt8)
    (o' : Outbox) : Prop where
  pos : 0 < body.length
  le : (body.length : Int) ≤ buffSize
  messages : ∃ msgs nss,
    msgs.map NodeState.name = (cycle o.bcQueue.cur o.bcQueue.m).take n ∧ msgs.length = n ∧
      msgs.mapM Message.encode = some nss ∧
      fb.nodeStates.finish { nodes := some nss } = some body ∧
      Charges msgs o.bcQueue o'.bcQueue

/-- A call appends as many of the next messages as it may, or it writes nothing
and leaves the queue as it was. -/
theorem appendGossipMsg_allOrNothing (fb : FlatBuffers) (buffSize : Int) (o : Outbox)
    (h : Settled o.bcQueue) (hports : ∀ x m, o.bcQueue.message x = some m → m.DecimalPort)
    (hbuild : Buildable fb o) :
    ∃ body o', o.appendGossipMsg fb buffSize = .ok (body, o') ∧
      (body = [] ∧ o'.bcQueue = o.bcQueue ∨
        Appended fb buffSize o (min o.maxAppendedMsg o.bcQueue.m.keys.length) body o') := by
  by_cases hne : o.gossipMsgs = []
  · exact ⟨[], o, appendGossipMsg_of_nil h hne, Or.inl ⟨rfl, rfl⟩⟩
  · obtain ⟨nss, body, hpacket⟩ := exists_packet hports hbuild
    rcases Int.lt_or_le buffSize body.length with hlarge | hfits
    · exact ⟨[], _, appendGossipMsg_of_large h hne hpacket hlarge, Or.inl ⟨rfl, rfl⟩⟩
    · refine ⟨body, _, appendGossipMsg_of_fits h hne hpacket hfits, Or.inr ?_⟩
      have hnames := names_peeks h o.maxAppendedMsg
      have hcharges := (h.open_peekN o.maxAppendedMsg).charges
      refine ⟨fb.nodeStates.finish_pos hpacket.built, hfits, o.gossipMsgs, nss, ?_, ?_,
        hpacket.encoded, hpacket.built, ?_⟩
      · rw [gossipMsgs_eq h, hnames]
      · rw [gossipMsgs_eq h, ← List.length_map, hnames, List.length_take, length_cycle]
        omega
      · rw [gossipMsgs_eq h]
        refine ⟨hcharges.1, fun m hm => ?_, fun x => ?_⟩
        · simpa using hcharges.2.1 m hm
        · have hlookup := hcharges.2.2 x
          rwa [m_peekN] at hlookup

/-! ## An outbox to run examples on -/

/-- A record of `name` with port 1. -/
def sampleState (name : String) : NodeState where
  name := name
  ip := "b"
  port := "1"
  dominant := 1
  state := .alive
  from_ := ""
  timestamp := 0

/-- `msgs` have been pushed, and a batch of `sent` messages has been applied
since. -/
def sample (msgs : List NodeState) (sent maxAppendedMsg : ℕ) : Outbox where
  bcQueue := Transition.run BroadcastQueue.call .empty
    ((msgs.map fun msg => .push 0 msg 2) ++ [.batch sent true])
  maxAppendedMsg := maxAppendedMsg

theorem settled_sample (msgs : List NodeState) (sent n : ℕ) :
    Settled (sample msgs sent n).bcQueue := settled_run _

theorem decimalPort_of_entries (h : ∀ e ∈ q.m.entries, e.2.1.port = "1") :
    ∀ x m, q.message x = some m → m.DecimalPort := by
  intro x m hm
  obtain ⟨e, he, rfl⟩ := Option.map_eq_some_iff.1 hm
  exact ⟨1, h ⟨x, e⟩ (AList.mem_lookup_iff.1 he)⟩

/-- Three messages are queued, one has been sent, and the next two are appended. -/
theorem appendGossipMsg_allOrNothing_of_three :
    let o := sample [sampleState "b:1", sampleState "c:1", sampleState "d:1"] 1 2
    ∃ body o', o.appendGossipMsg reference 500 = .ok (body, o') ∧
      (body = [] ∧ o'.bcQueue = o.bcQueue ∨
        Appended reference 500 o (min o.maxAppendedMsg o.bcQueue.m.keys.length) body o') :=
  appendGossipMsg_allOrNothing reference 500 _ (settled_sample _ _ _)
    (decimalPort_of_entries (by decide)) (by decide)

end Outbox

end CppGossip
