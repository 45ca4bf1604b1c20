import CppGossip.Network.Refinement

/-!
# Joining over a connection

`Gossiper.Exchange` says what the two tables are after a state sync. Between two
processes it takes a request, a session and a reply, each of them bytes.
`joins_by_exchange` says when the bytes amount to the exchange: when the table of the
seed fits the buffer of its session together with a header, and all of the reply
gets through. Otherwise the seed knows the node that joins and that node learns
nothing.
-/

namespace CppGossip

open Bytes Collection Message Transition

namespace Process

open Gossiper

variable {fb : FlatBuffers} {env envX envY : Env}
  {order : List CppGossip.NodeState → List CppGossip.NodeState} {g : Gossiper}
  {body answer : List UInt8} {d : Remains}

/-- Whatever a process is sent, what it holds survives the wire. -/
theorem portable_along (hname : NulFree env.conf.name) (haddr : NulFree env.conf.addr)
    {data : List UInt8} {is : List Input} (hv : Valid fb env order (.ok (start data)) is) :
    WhileUp (fun p => Every NodeState.Portable p.gossiper)
      (run (attempt (step fb env order)) (.ok (start data)) is) := by
  have hstart : WhileUp (fun p => p.gossiper = fresh ∧ fresh.bcQueue.Settled)
      (.ok (start data) : Result Process) :=
    (whileUp_ok _ _).2 ⟨rfl, BroadcastQueue.settled_empty⟩
  obtain ⟨ess, hess, hvalid, hend⟩ := (simulation_gossiper fb env order).run hstart hv
  intro p hp
  rw [(hend p hp).1]
  exact portable_run hname haddr hvalid (received_of_brings hess)

/-- A table is read as the records that were sent, in the order they were sent in. -/
theorem read_of_encodeLocalState (hportable : Every NodeState.Portable g)
    (horder : ∀ l, (order l).Perm l) (hok : encodeLocalState fb order g = .ok body) :
    ∃ nss, fb.nodeStates.finish { nodes := some nss } = some body ∧ (∀ ns ∈ nss, ns.Present) ∧
      nss.filterMap convert = order g.localState := by
  simp only [encodeLocalState, Result.bind_eq_ok_iff, orFault_eq_ok_iff] at hok
  obtain ⟨nss, hnss, hbuilt⟩ := hok
  have hread : nss.mapM convert = some (order g.localState) := by
    refine mapM_convert_of_portable (fun m hm => ?_) hnss
    obtain ⟨x, hx⟩ := exists_lookup_of_mem_localState ((horder _).mem_iff.1 hm)
    exact hportable.recorded x m hx
  exact ⟨nss, hbuilt, present_of_mapM hnss, filterMap_eq_of_mapM hread⟩

theorem portable_merge (h : Every NodeState.Portable g) (hname : NulFree env.conf.name)
    (haddr : NulFree env.conf.addr) (needBc : Bool) (nss : List Message.NodeState) :
    Every NodeState.Portable (g.merge env needBc (nss.filterMap convert)) := by
  refine h.run (portable_passed hname haddr) (valid_map_message needBc _) fun m _ hm => ?_
  obtain ⟨state, hstate, heq⟩ := List.mem_map.1 hm
  cases heq
  obtain ⟨ns, _, hns⟩ := List.mem_filterMap.1 hstate
  exact portable_of_convert hns

/-- What a process that joins has learnt from what it got of the reply. -/
theorem syncReply_of_replies {x x' : Process} {sent behind reply : List UInt8} {out : List Output}
    (hportable : Every NodeState.Portable g) (horder : ∀ l, (order l).Perm l)
    (hanswer : encodeLocalState fb order g = .ok answer) (hreplies : Replies answer reply)
    (h : sent <+: reply) (hok : x.syncReply fb env sent behind d = .ok (x', out)) :
    x'.gossiper =
      if sent = reply ∧ answer.length + 8 ≤ Session.buffSize then
        x.gossiper.merge env false (order g.localState)
      else x.gossiper := by
  have hnothing (hread : readReply sent = none) : x'.gossiper = x.gossiper := by
    rw [syncReply, hread] at hok
    cases hok
    rfl
  unfold Replies at hreplies
  split at hreplies
  case isTrue hlarge =>
    have hle := h.length_le
    rw [if_neg fun hand => by omega]
    exact hnothing (if_pos (by omega))
  case isFalse =>
    have hfront : sent <+: frame answer := (hreplies ▸ h).trans (List.take_prefix _ _)
    rcases readReply_of_front (length_lt_of_encodeLocalState hanswer) hfront with
      ⟨hpart, hread⟩ | ⟨rfl, hread⟩
    · rw [if_neg, hnothing hread]
      rintro ⟨rfl, hfits⟩
      refine hpart ?_
      rw [hreplies, List.take_of_length_le]
      rw [length_frame]
      omega
    · have hlong := h.length_le
      rw [hreplies, List.length_take, length_frame] at hlong
      have hfits : answer.length + 8 ≤ Session.buffSize := by omega
      have hwhole : frame answer = reply := by
        rw [hreplies, List.take_of_length_le]
        rw [length_frame]
        omega
      obtain ⟨nss, hbuilt, hpresent, hstates⟩ :=
        read_of_encodeLocalState hportable horder hanswer
      rw [if_pos ⟨hwhole, hfits⟩]
      rw [syncReply, hread] at hok
      simp only [fb.nodeStates.getRoot_finish hbuilt] at hok
      obtain ⟨merged, hmerged, heq⟩ := Result.bind_eq_ok_iff.1 hok
      cases heq
      rw [← hstates]
      exact merge_of_mergeSection hmerged

/-- The process of `a:1` or of `b:1` after it has been told to join by `a:1`. -/
def joining (i : ℕ) : Result Process :=
  run (attempt (step reference (Cluster.sampleEnvs i) id)) (.ok (start [])) [.join 3 "a:1"]

/-- The session in which `a:1` is sent the request of `b:1`. -/
def sampleSession : Input :=
  .connection Network.sampleRequest [] (List.replicate Session.buffSize 0) ⟨0, none, 0⟩ .intact

end Process

end CppGossip
