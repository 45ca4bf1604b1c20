import CppGossip.Own.Access
import CppGossip.Process.Refinement

/-!
# What takes a process down

A process on arbitrary bytes never has `std::stoi` throw, and `probe` always
finds a name and its record: whatever is recorded came off the wire, where a port
is a number, and a node that has joined lists itself. What is left are the fields
that a message may lack, and the objects that are gone when they are read.
`fault_iff` says that a process goes down by one of them exactly when some input
that it handles lacks a field that is read, or reads an object that cannot be.
-/

namespace CppGossip

open Bytes Message Transition

/-- The faults of a reader that misses something: one of the `fields` that it reads, when
they are not all there, or an object that is gone. -/
inductive Fault.Missing (fields : Prop) : Fault → Prop
  | field (habsent : ¬ fields) : Missing fields .absentField
  | object : Missing fields .invalidRead

theorem Fault.Missing.mono {fields fields' : Prop} {f : Fault} (h : f.Missing fields)
    (himp : fields' → fields) : f.Missing fields' := by
  cases h with
  | field habsent => exact .field fun hall => habsent (himp hall)
  | object => exact .object

namespace Gossiper

variable {fb : FlatBuffers} {env : Env} {order : List NodeState → List NodeState} {d : Remains}
  {g : Gossiper}

/-- A list is not copied where a field is absent or a record cannot be read. -/
theorem missing_of_copies {d : Destroyed} {k : ℕ} {nss : List Message.NodeState} {f : Fault}
    (h : d.copies k nss = .error f) : f.Missing (∀ ns ∈ nss, ns.Present) := by
  induction nss generalizing k with
  | nil => cases h
  | cons ns nss ih =>
      rw [List.forall_mem_cons]
      rw [Destroyed.copies, Destroyed.copied] at h
      cases hread : convert ns with
      | none =>
          rw [hread] at h
          cases h
          refine .field fun hpresent => ?_
          rw [← isSome_convert_iff, hread] at hpresent
          cases hpresent.1
      | some held =>
          rw [hread, orFault_some, Result.ok_bind] at h
          cases htmp : d.tmp k held with
          | none =>
              rw [htmp] at h
              cases h
              exact .object
          | some state =>
              rw [htmp, orFault_some, Result.ok_bind] at h
              cases hrest : d.copies (k + 1) nss with
              | ok states =>
                  rw [hrest] at h
                  cases h
              | error f' =>
                  rw [hrest] at h
                  cases h
                  exact (ih hrest).mono And.right

/-- A table is merged, or a field is absent or a record cannot be read. -/
theorem mergeSection_fails {states : NodeStates} {needBc : Bool}
    (h : ¬ (states.Present ∧ d.Keeps 0 states.readable)) :
    ∃ f, f.Missing states.Present ∧
      mergeSection d.toDestroyed env needBc states g = .error f := by
  rw [mergeSection_eq]
  cases hcopies : copiesSection d.toDestroyed states with
  | ok copied =>
      have hreadable : states.readable = copied := readable_of_copiesSection d hcopies
      exact absurd (copiesSection_eq_readable_iff.1 (hreadable ▸ hcopies)) h
  | error f =>
      refine ⟨f, ?_, rfl⟩
      rw [copiesSection] at hcopies
      cases hnodes : states.nodes with
      | none =>
          rw [hnodes] at hcopies
          cases hcopies
          refine .field ?_
          rintro ⟨nodes, hsome, _⟩
          rw [hnodes] at hsome
          cases hsome
      | some nodes =>
          rw [hnodes, orFault_some, Result.ok_bind] at hcopies
          refine (missing_of_copies hcopies).mono ?_
          rintro ⟨nodes', hsome, hall⟩
          cases hnodes.symm.trans hsome
          exact hall

theorem mergeRead_fails {states : Option NodeStates}
    (h : ¬ ∀ t ∈ states, t.Present ∧ d.Keeps 0 t.readable) :
    ∃ f, f.Missing (∀ t ∈ states, t.Present) ∧
      mergeRead env d.toDestroyed states g = .error f := by
  cases states with
  | none => exact absurd (fun _ ht => by cases ht) h
  | some states =>
      have hnot : ¬ (states.Present ∧ d.Keeps 0 states.readable) := fun hand => h fun t ht => by
        cases ht
        exact hand
      obtain ⟨f, hf, hmerge⟩ := mergeSection_fails hnot
      exact ⟨f, hf.mono fun hall => hall states rfl, hmerge⟩

theorem handlePacket_fails (env : Env) (respBuff : List UInt8) (respSize : ℕ) (g : Gossiper)
    {buff : List UInt8} {size : ℕ} (htype : (decodeHeader buff).type = typePing)
    (h : ¬ ((fb.ping.getRoot (buff.drop 8)).from_.isSome ∧
      ∀ states ∈ gossipRead fb buff size, states.Present ∧ d.Keeps 0 states.readable)) :
    ∃ f, f.Missing ((fb.ping.getRoot (buff.drop 8)).from_.isSome ∧
        ∀ states ∈ gossipRead fb buff size, states.Present) ∧
      handlePacket fb env d.toDestroyed buff size respBuff respSize g = .error f := by
  rw [handlePacket_of_ping htype]
  cases hsender : (fb.ping.getRoot (buff.drop 8)).from_ with
  | none => exact ⟨.absentField, .field (fun hand => by cases hand.1), rfl⟩
  | some sender =>
      have hgossip : ¬ ∀ states ∈ gossipRead fb buff size,
          states.Present ∧ d.Keeps 0 states.readable := fun hall =>
        h ⟨by rw [hsender]; rfl, hall⟩
      obtain ⟨f, hf, hmerge⟩ := mergeRead_fails hgossip
      refine ⟨f, hf.mono And.right, ?_⟩
      rw [orFault_some, Result.ok_bind, hmerge]
      rfl

theorem handleBody_fails {locals : Locals} {buff respBuff : List UInt8} {respSize : UInt64}
    (h : ¬ ((fb.nodeStates.getRoot buff).Present ∧
      d.Keeps 0 (fb.nodeStates.getRoot buff).readable)) :
    ∃ f, f.Missing (fb.nodeStates.getRoot buff).Present ∧
      handleBody fb env order d.toDestroyed locals typeSyncState buff respBuff respSize g =
        .error f := by
  obtain ⟨f, hf, hmerge⟩ := mergeSection_fails h
  refine ⟨f, hf, ?_⟩
  rw [handleBody, answerBody_of_syncState, hmerge]
  rfl

/-- An answer that cannot be copied is not written. -/
theorem handleBody_of_not_copyable {locals a : Locals} {type : UInt32} {buff respBuff : List UInt8}
    {respSize : UInt64} {g' : Gossiper}
    (hok : answerBody fb env order d.toDestroyed locals type buff g = .ok (a, g'))
    (h : ¬ a.Copyable respSize) :
    handleBody fb env order d.toDestroyed locals type buff respBuff respSize g =
      .error .invalidRead := by
  simp only [Locals.Copyable, Classical.not_imp, Bool.not_eq_true, Option.isSome_eq_false_iff,
    Option.isNone_iff_eq_none] at h
  rw [handleBody, hok, Result.ok_bind]
  dsimp only
  rw [if_neg (UInt64.not_lt.2 h.1), h.2]
  rfl

theorem handlePong_of_absent {resp : List UInt8} {size : ℕ}
    (htype : (decodeHeader resp).type = typePong) {alert : Message.NodeState}
    (halert : alert ∈ alertRead fb resp size) (h : ¬ ∃ node ∈ alert.node, node.name.isSome) :
    handlePong fb env resp size g = .error .absentField := by
  rw [alertRead] at halert
  obtain ⟨off, hoff, rfl⟩ := Option.map_eq_some_iff.1 halert
  have hread : readPong fb resp size = .error .absentField := by
    rw [readPong]
    simp only [htype, ne_eq, not_true_eq_false, if_false, hoff]
    cases hnode : (fb.nodeState.getRoot (resp.drop off)).node with
    | none => rfl
    | some node =>
        cases hname : node.name with
        | none => rw [orFault_some, Result.ok_bind, hname]; rfl
        | some name => exact absurd ⟨node, hnode, by rw [hname]; rfl⟩ h
  rw [handlePong, hread]
  rfl

end Gossiper

namespace Process

open Gossiper

variable {fb : FlatBuffers} {env : Env} {order : List NodeState → List NodeState} {p p' : Process}
  {out : List Output} {i : Input}

/-- The fields that the handler of an input reads are there. -/
def Readable (fb : FlatBuffers) (p : Process) : Input → Prop
  | .reply sent behind _ =>
      ∀ resp ∈ readReply sent, (fb.nodeStates.getRoot (resp ++ behind)).Present
  | .pong bytes data =>
      let mem := write 0 (bytes.take mtu) data
      (decodeHeader mem).type = typePong →
        ∀ alert ∈ alertRead fb mem (bytes.take mtu).length, ∃ node ∈ alert.node, node.name.isSome
  | .datagram bytes _ =>
      let mem := write 0 (bytes.take mtu) p.data
      bytes.take mtu ≠ [] → (decodeHeader mem).type = typePing →
        (fb.ping.getRoot (mem.drop 8)).from_.isSome ∧
          ∀ states ∈ gossipRead fb mem (bytes.take mtu).length, states.Present
  | .connection sent inBuff _ _ d =>
      ∀ r ∈ Session.read d.toDestroyed sent inBuff, r.1.type = typeSyncState →
        (fb.nodeStates.getRoot r.2).Present
  | _ => True

/-- So are the objects that it reads and that are gone. -/
def Recoverable (fb : FlatBuffers) (env : Env) (order : List NodeState → List NodeState)
    (p : Process) : Input → Prop
  | .reply sent behind d =>
      ∀ resp ∈ readReply sent, d.Keeps 0 (fb.nodeStates.getRoot (resp ++ behind)).readable
  | .datagram bytes d =>
      let mem := write 0 (bytes.take mtu) p.data
      bytes.take mtu ≠ [] → (decodeHeader mem).type = typePing →
        ∀ states ∈ gossipRead fb mem (bytes.take mtu).length, d.Keeps 0 states.readable
  | .connection sent inBuff _ locals d =>
      ∀ r ∈ Session.read d.toDestroyed sent inBuff,
        (r.1.type = typeSyncState → d.Keeps 0 (fb.nodeStates.getRoot r.2).readable) ∧
        Answerable fb env order d.toDestroyed locals r.1.type r.2 (UInt64.ofNat Session.buffSize)
          p.gossiper
  | _ => True

/-- What is held can be sent, and once the node has announced itself it is listed. -/
structure Sound (env : Env) (p : Process) : Prop where
  settled : p.gossiper.bcQueue.Settled
  sendable : Sendable p.gossiper
  fresh : p.sync = .idle → p.running = false →
    ∃ onJoin onLeave, p.gossiper = Gossiper.fresh.registerNotifier onJoin onLeave
  present : p.sync ≠ .idle ∨ p.running = true → Present env p.gossiper

theorem sound_start (env : Env) (data : List UInt8) : Sound env (start data) where
  settled := BroadcastQueue.settled_empty
  sendable := every_fresh _
  fresh _ _ := ⟨false, false, rfl⟩
  present h := by
    rcases h with h | h
    · exact absurd rfl h
    · cases h

/-- The gossiper stays what it should be. -/
theorem Sound.refined (h : Sound env p) (hrefined : Refined env i p p') :
    p'.gossiper.bcQueue.Settled ∧ Sendable p'.gossiper ∧
      (Present env p.gossiper → Present env p'.gossiper) := by
  obtain ⟨es, hbrings, hvalid, heq⟩ := hrefined
  rw [heq]
  refine ⟨settled_run h.settled es, ?_, fun hpresent => ?_⟩
  · refine h.sendable.run (decimalPort_passed env) hvalid fun m needBc hm => ?_
    obtain ⟨ns, hns⟩ := read_of_brings (hbrings _ hm)
    exact decimalPort_of_convert hns
  · exact hvalid.invariant (fun _ _ hpresent he => hpresent.step he) hpresent

/-- A process that is running stays so, and one that joins goes on to run. -/
theorem Sound.of_stage (h : Sound env p) (hrefined : Refined env i p p')
    (hbefore : p.sync ≠ .idle ∨ p.running = true)
    (hafter : p'.sync ≠ .idle ∨ p'.running = true) : Sound env p' := by
  obtain ⟨hq, hsendable, hpresent⟩ := h.refined hrefined
  refine ⟨hq, hsendable, fun hsync hrunning => ?_, fun _ => hpresent (h.present hbefore)⟩
  rcases hafter with hafter | hafter
  · exact absurd hsync hafter
  · rw [hafter] at hrunning
    cases hrunning

theorem Sound.handle (h : Sound env p) (hi : p.Enabled i)
    (hok : p.handle fb env order i = .ok (p', out)) : Sound env p' := by
  have hrefined : Refined env i p p' := Process.refined h.settled hi hok
  cases i with
  | registerNotifier join leave =>
      cases hok
      obtain ⟨hq, hsendable, hpresent⟩ := h.refined hrefined
      refine ⟨hq, hsendable, fun hsync hrunning => ?_, fun hup => hpresent (h.present hup)⟩
      obtain ⟨onJoin, onLeave, heq⟩ := h.fresh hsync hrunning
      refine ⟨join, leave, ?_⟩
      show p.gossiper.registerNotifier join leave = _
      rw [heq]
      rfl
  | join fuel peer =>
      cases hok
      obtain ⟨hq, hsendable, -⟩ := h.refined hrefined
      obtain ⟨onJoin, onLeave, heq⟩ := h.fresh hi.1 hi.2.1
      have hjoined : Present env (p.gossiper.join env) := by
        rw [heq]
        exact present_joined env onJoin onLeave
      revert hq hsendable
      unfold join
      split
      · dsimp only
        split
        · exact fun hq hsendable =>
            ⟨hq, hsendable, fun hsync _ => (by cases hsync), fun _ => hjoined⟩
        · exact fun hq hsendable =>
            ⟨hq, hsendable, fun _ hrunning => (by cases hrunning), fun _ => hjoined⟩
      · exact fun _ _ => h
  | connected =>
      obtain ⟨body, _, heq⟩ := Result.bind_eq_ok_iff.1 hok
      cases heq
      have hconnecting : p.sync = .connecting := hi
      refine h.of_stage hrefined (Or.inl ?_) (Or.inl fun hidle => by cases hidle)
      rw [hconnecting]
      decide
  | reply sent behind d =>
      have hwaiting : p.sync = .waiting := hi
      refine h.of_stage hrefined (Or.inl (by rw [hwaiting]; decide)) (Or.inr ?_)
      simp only [Process.handle, syncReply] at hok
      split at hok
      case h_1 =>
        cases hok
        rfl
      case h_2 =>
        obtain ⟨g, _, heq⟩ := Result.bind_eq_ok_iff.1 hok
        cases heq
        rfl
  | syncFailed =>
      cases hok
      exact h.of_stage hrefined (Or.inl hi) (Or.inr rfl)
  | probe sendBuff =>
      refine h.of_stage hrefined (Or.inr hi) (Or.inr ?_)
      cases probed h.settled hok with
      | idle _ _ _ _ _ => exact hi
      | failed _ _ _ _ _ => exact hi
      | sent _ _ _ _ _ _ _ _ _ _ _ _ => exact hi
  | probeTimeout node =>
      cases hok
      exact h.of_stage hrefined (Or.inr hi.1) (Or.inr hi.1)
  | pong bytes data =>
      obtain ⟨g, _, heq⟩ := Result.bind_eq_ok_iff.1 hok
      cases heq
      exact h.of_stage hrefined (Or.inr hi) (Or.inr hi)
  | conviction accusation =>
      cases hok
      exact h.of_stage hrefined (Or.inr hi.1) (Or.inr hi.1)
  | datagram bytes d =>
      refine h.of_stage hrefined (Or.inr hi) (Or.inr ?_)
      simp only [Process.handle, receive] at hok
      split at hok
      case isTrue =>
        cases hok
        exact hi
      case isFalse =>
        obtain ⟨⟨n, data, g⟩, _, heq⟩ := Result.bind_eq_ok_iff.1 hok
        cases heq
        exact hi
  | connection sent inBuff outBuff locals d =>
      obtain ⟨⟨written, g⟩, _, heq⟩ := Result.bind_eq_ok_iff.1 hok
      cases heq
      exact h.of_stage hrefined (Or.inr hi) (Or.inr hi)

theorem completes_probe (h : Sound env p) (hpresent : Present env p.gossiper)
    (sendBuff : List UInt8) : Completes (p.probe fb env sendBuff) := by
  obtain ⟨candi, node, hcandi, hnode⟩ := hpresent.exists_probed p.cursor
  have hping : Completes (p.gossiper.probeNode fb env node sendBuff p.maxAppendedMsg) :=
    (completes_probeNode (h.sendable.recorded candi node hnode) h.sendable.queued sendBuff
      p.maxAppendedMsg).1
  simp only [probe, hcandi, List.head?_cons, orFault_some, Result.ok_bind, hnode]
  split
  case isTrue =>
    rw [completes_bind_iff]
    exact ⟨hping, fun _ _ => completes_ok _⟩
  case isFalse => exact completes_ok _

/-- An input is handled when what is read is there. -/
theorem completes_handle (h : Sound env p) (horder : ∀ l, (order l).Perm l) (hi : p.Enabled i)
    (hread : p.Readable fb i) (hrecover : p.Recoverable fb env order i) :
    Completes (p.handle fb env order i) := by
  cases i with
  | registerNotifier | join | syncFailed | probeTimeout | conviction => exact completes_ok _
  | connected =>
      show Completes (p.syncRequest fb order)
      rw [syncRequest, completes_bind_iff]
      exact ⟨completes_encodeLocalState h.sendable horder, fun _ _ => completes_ok _⟩
  | reply sent behind d =>
      show Completes (p.syncReply fb env sent behind d)
      unfold syncReply
      split
      case h_1 => exact completes_ok _
      case h_2 resp hresp =>
        rw [mergeSection_of_keeps (hread resp hresp) (hrecover resp hresp)]
        exact completes_ok _
  | probe sendBuff => exact completes_probe h (h.present (Or.inr hi)) sendBuff
  | pong bytes data =>
      show Completes (p.receivePong fb env bytes data)
      rw [receivePong, completes_bind_iff, completes_handlePong_iff]
      exact ⟨hread, fun _ _ => completes_ok _⟩
  | datagram bytes d =>
      show Completes (p.receive fb env bytes d)
      simp only [receive]
      split
      case isTrue => exact completes_ok _
      case isFalse hne =>
        rw [completes_bind_iff]
        have hall := fun htype => And.intro (hread hne htype).1 fun states hstates =>
          And.intro ((hread hne htype).2 states hstates) (hrecover hne htype states hstates)
        exact ⟨((handlesPacket_iff h.sendable).2 hall).1, fun _ _ => completes_ok _⟩
  | connection sent inBuff outBuff locals d =>
      show Completes (p.serve fb env order sent inBuff outBuff locals d)
      rw [serve, completes_bind_iff, Session.serve]
      refine ⟨?_, fun _ _ => completes_ok _⟩
      cases hsession : Session.read d.toDestroyed sent inBuff with
      | none => exact completes_ok _
      | some r =>
          dsimp only
          rw [completes_bind_iff]
          have hall := fun htype => And.intro (hread r hsession htype)
            ((hrecover r hsession).1 htype)
          exact ⟨((handlesBody_iff h.sendable horder).2 ⟨hall, (hrecover r hsession).2⟩).1,
            fun _ _ => completes_ok _⟩

/-- An input of which something that is read is not there takes the process down. -/
theorem handle_fails (hnot : ¬ (p.Readable fb i ∧ p.Recoverable fb env order i)) :
    ∃ f, f.Missing (p.Readable fb i) ∧ p.handle fb env order i = .error f := by
  cases i with
  | reply sent behind d =>
      cases hresp : readReply sent with
      | none =>
          refine absurd ⟨fun resp h => ?_, fun resp h => ?_⟩ hnot
          · cases hresp.symm.trans h
          · cases hresp.symm.trans h
      | some resp =>
          have hsection : ¬ ((fb.nodeStates.getRoot (resp ++ behind)).Present ∧
              d.Keeps 0 (fb.nodeStates.getRoot (resp ++ behind)).readable) := by
            rintro ⟨hpresent, hkeeps⟩
            refine hnot ⟨fun resp' h => ?_, fun resp' h => ?_⟩
            · cases hresp.symm.trans h
              exact hpresent
            · cases hresp.symm.trans h
              exact hkeeps
          obtain ⟨f, hf, hmerge⟩ := mergeSection_fails hsection
          refine ⟨f, hf.mono fun hread => hread resp hresp, ?_⟩
          show p.syncReply fb env sent behind d = _
          rw [syncReply, hresp]
          dsimp only
          rw [hmerge]
          rfl
  | pong bytes data =>
      have hread : ¬ p.Readable fb (.pong bytes data) := fun hread => hnot ⟨hread, trivial⟩
      refine ⟨.absentField, .field hread, ?_⟩
      simp only [Readable, Classical.not_imp, not_forall] at hread
      obtain ⟨htype, alert, halert, habsent⟩ := hread
      show p.receivePong fb env bytes data = _
      simp only [receivePong, handlePong_of_absent htype halert habsent]
      rfl
  | datagram bytes d =>
      by_cases hping : bytes.take mtu ≠ [] ∧
          (decodeHeader (write 0 (bytes.take mtu) p.data)).type = typePing
      · have hpacket : ¬ ((fb.ping.getRoot ((write 0 (bytes.take mtu) p.data).drop 8)).from_.isSome ∧
            ∀ states ∈ gossipRead fb (write 0 (bytes.take mtu) p.data) (bytes.take mtu).length,
              states.Present ∧ d.Keeps 0 states.readable) := fun hall =>
          hnot ⟨fun _ _ => ⟨hall.1, fun states hstates => (hall.2 states hstates).1⟩,
            fun _ _ states hstates => (hall.2 states hstates).2⟩
        obtain ⟨f, hf, hhandle⟩ := handlePacket_fails env (write 0 (bytes.take mtu) p.data) mtu
          p.gossiper hping.2 hpacket
        refine ⟨f, hf.mono fun hread => hread hping.1 hping.2, ?_⟩
        show p.receive fb env bytes d = _
        simp only [receive, if_neg hping.1, hhandle]
        rfl
      · exact absurd ⟨fun hne htype => absurd ⟨hne, htype⟩ hping,
          fun hne htype => absurd ⟨hne, htype⟩ hping⟩ hnot
  | connection sent inBuff outBuff locals d =>
      cases hsession : Session.read d.toDestroyed sent inBuff with
      | none =>
          refine absurd ⟨fun r hr => ?_, fun r hr => ?_⟩ hnot
          · cases hsession.symm.trans hr
          · cases hsession.symm.trans hr
      | some r =>
          obtain ⟨f, hf, hhandle⟩ : ∃ f,
              f.Missing (p.Readable fb (.connection sent inBuff outBuff locals d)) ∧
              handleBody fb env order d.toDestroyed locals r.1.type r.2 outBuff
                (UInt64.ofNat Session.buffSize) p.gossiper = .error f := by
            by_cases hsync : r.1.type = typeSyncState ∧
                ¬ ((fb.nodeStates.getRoot r.2).Present ∧
                  d.Keeps 0 (fb.nodeStates.getRoot r.2).readable)
            · obtain ⟨f, hf, hhandle⟩ := handleBody_fails hsync.2
              rw [hsync.1]
              exact ⟨f, hf.mono fun hread => hread r hsession hsync.1, hhandle⟩
            · have hfields (htype : r.1.type = typeSyncState) :
                  (fb.nodeStates.getRoot r.2).Present ∧
                    d.Keeps 0 (fb.nodeStates.getRoot r.2).readable :=
                Classical.not_not.1 fun hmissing => hsync ⟨htype, hmissing⟩
              have hanswer : ¬ ∀ a g', answerBody fb env order d.toDestroyed locals r.1.type r.2
                  p.gossiper = .ok (a, g') → a.Copyable (UInt64.ofNat Session.buffSize) := by
                intro hcopyable
                refine hnot ⟨fun r' hr => ?_, fun r' hr => ?_⟩
                · cases hsession.symm.trans hr
                  exact fun htype => (hfields htype).1
                · cases hsession.symm.trans hr
                  exact ⟨fun htype => (hfields htype).2, (copyable_answer_iff hfields).1 hcopyable⟩
              simp only [not_forall] at hanswer
              obtain ⟨a, g', hok, hcopyable⟩ := hanswer
              exact ⟨.invalidRead, .object, handleBody_of_not_copyable hok hcopyable⟩
          refine ⟨f, hf, ?_⟩
          show p.serve fb env order sent inBuff outBuff locals d = _
          simp only [serve, Session.serve, hsession, hhandle]
          rfl
  | _ => exact absurd ⟨trivial, trivial⟩ hnot

theorem Sound.step (h : Sound env p) (hi : p.Enabled i) (hok : p.step fb env order i = .ok p') :
    Sound env p' := by
  obtain ⟨out, hhandle⟩ := step_eq_ok_iff.1 hok
  exact h.handle hi hhandle

/-- A step fails by a field or an object exactly when one is missing, and never by a port. -/
theorem handle_fault (h : Sound env p) (horder : ∀ l, (order l).Perm l) (hi : p.Enabled i)
    {f : Fault} (hf : p.handle fb env order i = .error f) :
    f ≠ .invalidPort ∧ (f = .absentField → ¬ p.Readable fb i) ∧
      (f = .bufferTooLarge ↔ p.Readable fb i ∧ p.Recoverable fb env order i) := by
  by_cases hall : p.Readable fb i ∧ p.Recoverable fb env order i
  · rw [completes_handle h horder hi hall.1 hall.2 f hf]
    exact ⟨by decide, nofun, iff_of_true rfl hall⟩
  · obtain ⟨f', hmissing, hfails⟩ := handle_fails hall
    cases hf.symm.trans hfails
    cases hmissing with
    | field habsent => exact ⟨by decide, fun _ => habsent, iff_of_false (by decide) hall⟩
    | object => exact ⟨by decide, nofun, iff_of_false (by decide) hall⟩

theorem step_eq_error_iff {f : Fault} :
    p.step fb env order i = .error f ↔ p.handle fb env order i = .error f := by
  rw [step]
  cases p.handle fb env order i with
  | error e => simp [Except.map]
  | ok r => simp [Except.map]

/-- A ping that does not name its sender. -/
def anonymousPing : List Input := [.join 3 "a:1", .datagram (pingBytes ⟨7, none⟩) .intact]

end Process

end CppGossip
