import CppGossip.Wire.Append

/-!
# Whether a queue gets sent

A call that has no room for its messages puts the cursor back where it was and
asks for half as many next time, down to one. So it comes to nothing but the
message at which the cursor stands: if that one has room by itself, some call
sends it, with or without others, and if it has not, no call ever sends
anything.
-/

namespace CppGossip

open Collection BroadcastQueue

/-- A section of a list of records is no shorter than that of its first. -/
def FlatBuffers.Grows (fb : FlatBuffers) : Prop :=
  ∀ ns nss body, fb.nodeStates.finish { nodes := some (ns :: nss) } = some body →
    ∃ first, fb.nodeStates.finish { nodes := some [ns] } = some first ∧
      first.length ≤ body.length

namespace Outbox

/-- What is left after `n` calls with the same room. -/
def rounds (fb : FlatBuffers) (buffSize : Int) : ℕ → Outbox → Result Outbox
  | 0, o => .ok o
  | n + 1, o => do
      let r ← o.appendGossipMsg fb buffSize
      rounds fb buffSize n r.2

/-- The section that a message makes by itself. -/
def alone (fb : FlatBuffers) (m : NodeState) : Option (List UInt8) :=
  (Message.encode m).bind fun ns => fb.nodeStates.finish { nodes := some [ns] }

/-- The message has room by itself. -/
def FitsAlone (fb : FlatBuffers) (buffSize : Int) (m : NodeState) : Prop :=
  ∃ body ∈ alone fb m, (body.length : Int) ≤ buffSize

instance (fb : FlatBuffers) (buffSize : Int) (m : NodeState) : Decidable (FitsAlone fb buffSize m) :=
  inferInstanceAs (Decidable (∃ body ∈ alone fb m, _))

/-- The next call sends a packet that carries `m`. -/
def Emits (fb : FlatBuffers) (buffSize : Int) (o : Outbox) (m : NodeState) : Prop :=
  ∃ body o', o.appendGossipMsg fb buffSize = .ok (body, o') ∧ body ≠ [] ∧ m ∈ o.gossipMsgs

/-- Some number of calls is followed by one that sends a message which has room
by itself. -/
def GetsSent (fb : FlatBuffers) (buffSize : Int) (o : Outbox) : Prop :=
  ∃ n o', rounds fb buffSize n o = .ok o' ∧
    ∃ m, FitsAlone fb buffSize m ∧ Emits fb buffSize o' m

/-- The message at which the cursor stands. -/
def next (o : Outbox) : Option NodeState :=
  (stand o.bcQueue.cur o.bcQueue.m).bind o.bcQueue.message

variable {fb : FlatBuffers} {buffSize : Int} {o o' : Outbox} {m : NodeState}

/-- The messages of a call begin with the one at which the cursor stands. -/
theorem head?_gossipMsgs (h : Settled o.bcQueue) (hmax : 1 ≤ o.maxAppendedMsg) :
    o.gossipMsgs.head? = o.next := by
  have hopen := h.open_peekN o.maxAppendedMsg
  have hpeeked : (peekN o.maxAppendedMsg o.bcQueue).peeked =
      min o.maxAppendedMsg o.bcQueue.m.keys.length := by
    rw [peeked_peekN h.open_nil.peekIter (h.peeked ▸ Nat.zero_le _), h.peeked, Nat.zero_add]
  have hstand := head?_cycle h.open_nil.cur
  have hlength := length_cycle o.bcQueue.cur o.bcQueue.m
  rw [gossipMsgs_eq h, hopen.returned, cur_peekN, m_peekN, hpeeked, next, ← hstand]
  cases hcycle : cycle o.bcQueue.cur o.bcQueue.m with
  | nil => simp
  | cons k rest =>
      rw [hcycle, List.length_cons] at hlength
      obtain ⟨n, hn⟩ : ∃ n, min o.maxAppendedMsg o.bcQueue.m.keys.length = n + 1 :=
        ⟨min o.maxAppendedMsg o.bcQueue.m.keys.length - 1, by omega⟩
      have hk : k ∈ o.bcQueue.m := mem_cycle_iff.1 (hcycle ▸ List.mem_cons_self)
      obtain ⟨e, he⟩ := exists_lookup hk
      rw [hn, List.take_succ_cons, List.filterMap_cons_some (b := e.1)]
      · simp [message_of_lookup he]
      · rw [message_peekN, message_of_lookup he]

theorem length_gossipMsgs_le (h : Settled o.bcQueue) : o.gossipMsgs.length ≤ o.maxAppendedMsg := by
  rw [gossipMsgs_eq h, ← List.length_map (f := NodeState.name), names_peeks h, List.length_take]
  omega

theorem one_le_shrinkMaxAppendedMsg {n : ℕ} (hn : 1 ≤ n) : 1 ≤ shrinkMaxAppendedMsg n := by
  unfold shrinkMaxAppendedMsg
  split
  · exact hn
  · omega

/-! ## A message that has room -/

/-- The section of the messages of a call has, by itself, what begins it. -/
theorem alone_of_packet {nss : List Message.NodeState} {body : List UInt8} (hgrow : fb.Grows)
    (hpacket : Packet fb o nss body) (hhead : o.gossipMsgs.head? = some m) :
    ∃ first ∈ alone fb m, first.length ≤ body.length := by
  obtain ⟨rest, hmsgs⟩ := List.head?_eq_some_iff.1 hhead
  have hencoded := mapM_eq_some_iff_forall₂.1 hpacket.encoded
  rw [hmsgs] at hencoded
  cases hencoded with
  | cons hm hrest =>
      obtain ⟨first, hfirst, hle⟩ := hgrow _ _ _ hpacket.built
      refine ⟨first, ?_, hle⟩
      rw [alone, hm]
      exact hfirst

/-- The section of a call that may append one message is that of the message by itself. -/
theorem alone_of_packet_one {nss : List Message.NodeState} {body : List UInt8}
    (h : Settled o.bcQueue) (hone : o.maxAppendedMsg = 1) (hpacket : Packet fb o nss body)
    (hhead : o.gossipMsgs.head? = some m) : alone fb m = some body := by
  obtain ⟨rest, hmsgs⟩ := List.head?_eq_some_iff.1 hhead
  have hlength := length_gossipMsgs_le h
  rw [hmsgs, hone, List.length_cons] at hlength
  obtain rfl : rest = [] := List.length_eq_zero_iff.1 (by omega)
  have hencoded := mapM_eq_some_iff_forall₂.1 hpacket.encoded
  rw [hmsgs] at hencoded
  obtain ⟨ns, nrest, hns, hnil, rfl⟩ := List.forall₂_cons_left_iff.1 hencoded
  cases hnil
  rw [alone, hns]
  exact hpacket.built

/-- A message that has room by itself is sent when it is the next. -/
theorem getsSent_of_next (h : Settled o.bcQueue) (hmax : 1 ≤ o.maxAppendedMsg)
    (hports : ∀ x m, o.bcQueue.message x = some m → m.DecimalPort)
    (hbuild : ∀ n ≤ o.maxAppendedMsg, Buildable fb { o with maxAppendedMsg := n }) (hnext : o.next = some m)
    (hfits : FitsAlone fb buffSize m) : GetsSent fb buffSize o := by
  -- by induction on how many messages a call may append
  induction hn : o.maxAppendedMsg using Nat.strongRecOn generalizing o with
  | ind n ih =>
      have hhead : o.gossipMsgs.head? = some m := (head?_gossipMsgs h hmax).trans hnext
      have hne : o.gossipMsgs ≠ [] := fun hnil => by simp [hnil] at hhead
      obtain ⟨nss, body, hpacket⟩ := exists_packet hports (hbuild _ (Nat.le_refl _))
      rcases Int.lt_or_le buffSize body.length with hlarge | hroom
      · have hcall := appendGossipMsg_of_large h hne hpacket hlarge
        have hmany : o.maxAppendedMsg ≠ 1 := by
          intro hone
          obtain ⟨first, hfirst, hle⟩ := hfits
          rw [alone_of_packet_one h hone hpacket hhead] at hfirst
          cases hfirst
          exact absurd hle (Int.not_le.2 hlarge)
        have hshrink : shrinkMaxAppendedMsg o.maxAppendedMsg = o.maxAppendedMsg / 2 := if_neg hmany
        have hbuild' : ∀ k ≤ shrinkMaxAppendedMsg o.maxAppendedMsg,
            Buildable fb { o with maxAppendedMsg := k } := fun k hk => hbuild k (by omega)
        obtain ⟨k, o', hrounds, hsent⟩ := ih (o.maxAppendedMsg / 2) (by omega)
          (o := { o with maxAppendedMsg := shrinkMaxAppendedMsg o.maxAppendedMsg }) h
          (one_le_shrinkMaxAppendedMsg hmax) hports hbuild' hnext hshrink
        refine ⟨k + 1, o', ?_, hsent⟩
        rw [rounds, hcall]
        exact hrounds
      · refine ⟨0, o, rfl, m, hfits, body, _, appendGossipMsg_of_fits h hne hpacket hroom, ?_, ?_⟩
        · exact List.ne_nil_of_length_pos (fb.nodeStates.finish_pos hpacket.built)
        · exact List.mem_of_mem_head? hhead

/-! ## A message that has none -/

/-- While the next message has no room, a call changes nothing but the number of
messages asked for, and sends nothing. -/
theorem append_of_next_large (hgrow : fb.Grows) (h : Settled o.bcQueue)
    (hmax : 1 ≤ o.maxAppendedMsg) (hlarge : ∀ m ∈ o.next, ¬ FitsAlone fb buffSize m)
    {body : List UInt8} (hok : o.appendGossipMsg fb buffSize = .ok (body, o')) :
    body = [] ∧ o'.bcQueue = o.bcQueue ∧ 1 ≤ o'.maxAppendedMsg := by
  cases appends_of_ok h hok with
  | empty hnil => exact ⟨rfl, rfl, hmax⟩
  | large nss body hne hpacket hlarge => exact ⟨rfl, rfl, one_le_shrinkMaxAppendedMsg hmax⟩
  | fits nss body hne hpacket hfits =>
      exfalso
      obtain ⟨m, hm⟩ := Option.isSome_iff_exists.1 (List.isSome_head?.2 hne)
      obtain ⟨first, hfirst, hle⟩ := alone_of_packet hgrow hpacket hm
      refine hlarge m ((head?_gossipMsgs h hmax).symm.trans hm) ⟨first, hfirst, ?_⟩
      omega

theorem rounds_of_next_large (hgrow : fb.Grows) (h : Settled o.bcQueue)
    (hmax : 1 ≤ o.maxAppendedMsg) (hlarge : ∀ m ∈ o.next, ¬ FitsAlone fb buffSize m) {n : ℕ}
    (hok : rounds fb buffSize n o = .ok o') :
    o'.bcQueue = o.bcQueue ∧ 1 ≤ o'.maxAppendedMsg := by
  induction n generalizing o with
  | zero =>
      cases hok
      exact ⟨rfl, hmax⟩
  | succ n ih =>
      rw [rounds, Result.bind_eq_ok_iff] at hok
      obtain ⟨⟨body, o₁⟩, hfirst, hrest⟩ := hok
      obtain ⟨_, hqueue, hone⟩ := append_of_next_large hgrow h hmax hlarge hfirst
      have hnext : o₁.next = o.next := by rw [next, next, hqueue]
      have hlast := ih (hqueue ▸ h) hone (hnext ▸ hlarge) hrest
      exact ⟨hlast.1.trans hqueue, hlast.2⟩

/-- Nothing is ever sent while the next message has no room. -/
theorem not_getsSent_of_next_large (hgrow : fb.Grows) (h : Settled o.bcQueue)
    (hmax : 1 ≤ o.maxAppendedMsg) (hlarge : ∀ m ∈ o.next, ¬ FitsAlone fb buffSize m) :
    ¬ GetsSent fb buffSize o := by
  rintro ⟨n, o', hrounds, m, _, body, o₂, hok, hbody, _⟩
  obtain ⟨hqueue, hone⟩ := rounds_of_next_large hgrow h hmax hlarge hrounds
  have hnext : o'.next = o.next := by rw [next, next, hqueue]
  exact hbody (append_of_next_large hgrow (hqueue ▸ h) hone (hnext ▸ hlarge) hok).1

/-- Successive calls come to send a message that has room exactly when the one at
which the cursor stands has. -/
theorem getsSent_iff (fb : FlatBuffers) (hgrow : fb.Grows) (buffSize : Int) (o : Outbox)
    (h : Settled o.bcQueue) (hmax : 1 ≤ o.maxAppendedMsg)
    (hports : ∀ x m, o.bcQueue.message x = some m → m.DecimalPort)
    (hbuild : ∀ n ≤ o.maxAppendedMsg, Buildable fb { o with maxAppendedMsg := n }) :
    GetsSent fb buffSize o ↔ ∃ m ∈ o.next, FitsAlone fb buffSize m := by
  constructor
  · intro hsent
    by_contra hnone
    refine not_getsSent_of_next_large hgrow h hmax (fun m hm hfits => ?_) hsent
    exact hnone ⟨m, hm, hfits⟩
  · rintro ⟨m, hm, hfits⟩
    exact getsSent_of_next h hmax hports hbuild hm hfits

/-- `reference` writes a list as long as its members make it. -/
theorem reference_grows : reference.Grows := by
  intro ns nss body hbody
  obtain ⟨hlt, rfl⟩ := finish_nodeStates_iff.1 hbody
  have hle : (Reference.nodeStates.put { nodes := some [ns] }).length ≤
      (Reference.nodeStates.put { nodes := some (ns :: nss) }).length := by
    simp [Reference.nodeStates, Bytes.Codec.map, Bytes.Codec.option, Bytes.Codec.list]
  exact ⟨_, finish_nodeStates_iff.2 ⟨Nat.lt_of_le_of_lt hle hlt, rfl⟩, hle⟩

theorem length_string (x : String) : (Bytes.Codec.string.put x).length = 5 * x.length + 1 := by
  have hchars : ∀ l : List Char,
      (l.flatMap fun c => 1 :: Bytes.Codec.char.put c).length = 5 * l.length := by
    intro l
    induction l with
    | nil => rfl
    | cons c l ih =>
        have hone : (1 :: Bytes.Codec.char.put c).length = 5 := rfl
        rw [List.flatMap_cons, List.length_append, ih, hone, List.length_cons]
        omega
  show ((x.toList.flatMap fun c => 1 :: Bytes.Codec.char.put c) ++ [0]).length = _
  rw [List.length_append, hchars, String.length_toList]
  rfl

/-- A section is longer than an address in it. -/
theorem length_ip_lt_of_alone {body : List UInt8} (hbody : alone reference m = some body) :
    5 * m.ip.length < body.length := by
  obtain ⟨ns, hns, hfinish⟩ := Option.bind_eq_some_iff.1 hbody
  obtain ⟨port, _, rfl⟩ := Option.map_eq_some_iff.1 hns
  obtain ⟨_, rfl⟩ := finish_nodeStates_iff.1 hfinish
  simp only [Reference.nodeStates, Reference.nodeState, Reference.node, Bytes.Codec.map,
    Bytes.Codec.option, Bytes.Codec.list, Bytes.Codec.pair, Option.elim_some, List.flatMap_cons,
    List.length_cons, List.length_append, length_string]
  omega

/-- Two messages make too long a section, so the first is sent by itself. -/
theorem getsSent_of_two :
    let o := sample [sampleState "b:1", sampleState "c:1"] 0 2
    GetsSent reference 150 o :=
  (getsSent_iff reference reference_grows 150 _ (settled_sample _ _ _) (by decide)
    (decimalPort_of_entries (by decide)) (by decide)).2 (by decide)

/-- A message with an address of 2000 characters. -/
def longState : NodeState :=
  { sampleState "c:1" with ip := String.ofList (List.replicate 2000 'x') }

/-- The cursor stands at `longState`, which has no room, and the message about
`b:1`, which has, is never sent. -/
theorem not_getsSent_of_longState :
    let o := sample [sampleState "b:1", longState] 0 10
    Settled o.bcQueue ∧ (∃ m ∈ o.bcQueue.message "b:1", FitsAlone reference 1400 m) ∧
      ¬ GetsSent reference 1400 o := by
  refine ⟨settled_sample _ _ _, by decide, ?_⟩
  apply not_getsSent_of_next_large reference_grows (settled_sample _ _ _) (by decide)
  rintro m hm ⟨body, hbody, hle⟩
  have hnext : (sample [sampleState "b:1", longState] 0 10).next = some longState := rfl
  have hlong : m.ip.length = 2000 := by
    rw [← Option.some.inj (hnext.symm.trans hm)]
    show (String.ofList (List.replicate 2000 'x')).length = 2000
    rw [String.length_ofList, List.length_replicate]
  have hlt := length_ip_lt_of_alone hbody
  omega

end Outbox

end CppGossip
