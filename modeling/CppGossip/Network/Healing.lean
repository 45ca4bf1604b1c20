import CppGossip.Network.Refinement
import CppGossip.Own.Objection

/-!
# Back from the dead

A node that is recorded dead although it lives is told so behind the pong that
answers its ping, and objects. `heals` follows this through the bytes, whatever else
happens in between: the pong has the node queue an ALIVE message above the dominant
that it was buried at, and the ping that brings this message to the other one has it
revived there, unless a probe of the node at a later dominant has timed out as well.
-/

namespace CppGossip

open Bytes Collection Message Transition

/-- Something is appended to the body of a packet. -/
def HasAppended (bytes : List UInt8) : Prop :=
  (appendedAt (decodeHeader bytes) bytes.length).isSome

instance (bytes : List UInt8) : Decidable (HasAppended bytes) :=
  inferInstanceAs (Decidable (_ = true))

theorem hasAppended_packet_iff {type : UInt32} {body appended : List UInt8}
    (hn : body.length < maxBufferSize) :
    HasAppended (packet type body appended) ↔ appended ≠ [] := by
  have hdecode := Gossiper.decodeHeader_packet type body appended []
  rw [List.append_nil] at hdecode
  rw [HasAppended, hdecode, length_packet, appendedAt_of_header type hn]
  by_cases hnil : appended = []
  · simp [hnil]
  · simp [hnil]

/-! ## What is queued about the node itself -/

namespace Own

variable {env : Env} {nodeNum : UInt32} {o o' : Own} {e : Event}

/-- Where no SUSPECT message comes nothing but ALIVE messages about the node is queued. -/
theorem Clean.unsuspected (h : o.Clean)
    (hcalm : ∀ m needBc, e = .message m needBc → m.state ≠ .suspect)
    (hturn : Turn env nodeNum o e o') : o'.Clean := by
  cases hturn with
  | alerted n => exact h.object env n
  | suspect s needBc hname hs => exact absurd hs (hcalm s needBc rfl)
  | nothing e hnot => exact h
  | sent e hnot =>
      refine ⟨fun q hq => ?_, h.up⟩
      cases hq
  | joined =>
      have hjoined : Turn env nodeNum o .join (o.join env) := .joined
      have hcan : CanObject env o .join := trivial
      exact (h.turn hcan hjoined).1
  | alive a needBc hname ha => exact h.alive ha needBc
  | dead d needBc hname hd => exact h.dead d
  | convicted s hname => exact h.dead s.killed

end Own

namespace Gossiper

variable {env : Env} {g : Gossiper} {needBc : Bool} {states : List NodeState}

theorem clean_fresh (env : Env) : (fresh.own env).Clean :=
  ⟨by simp [own, peer, fresh], by simp [own, peer, fresh, getNodeState]⟩

theorem knownDominant_le_merge (h : Tabled env g) (needBc : Bool) (states : List NodeState)
    (x : String) : g.knownDominant x ≤ (g.merge env needBc states).knownDominant x := by
  have hvalid : Valid env g (states.map fun state => .message state needBc) :=
    valid_map_message needBc states
  have hkept := hvalid.invariant
    (I := fun g' => Tabled env g' ∧ g.knownDominant x ≤ g'.knownDominant x)
    (fun g' e hg' he =>
      ⟨hg'.1.step e he, UInt64.le_trans hg'.2 (knownDominant_le_step hg'.1 he x)⟩)
    ⟨h, UInt64.le_refl _⟩
  exact hkept.2

/-- A node that is told of another is as far as that. -/
theorem le_knownDominant_merge (h : Tabled env g) {m : NodeState} (hm : m ∈ states)
    (halive : m.state = .alive) :
    m.dominant ≤ (g.merge env needBc states).knownDominant m.name := by
  induction states generalizing g with
  | nil => cases hm
  | cons state states ih =>
      have hnext : Tabled env (g.step env (.message state needBc)) := h.step _ trivial
      rcases List.mem_cons.1 hm with rfl | hrest
      · refine UInt64.le_trans ?_ (knownDominant_le_merge hnext needBc states m.name)
        have hstep : g.step env (.message m needBc) = g.aliveNode env m needBc := by
          rw [Gossiper.step, mergeState, halive]
        rw [hstep, UInt64.le_iff_toNat_le, toNat_knownDominant_aliveNode h.not_leaving, if_pos rfl]
        exact le_max_right _ _
      · exact ih hnext hrest

end Gossiper

/-- A call that may peek as many messages as there are peeks them all. -/
theorem Outbox.mem_gossipMsgs {o : Outbox} (h : o.bcQueue.Settled)
    (hall : o.bcQueue.m.keys.length ≤ o.maxAppendedMsg) {x : String} {m : NodeState}
    (hm : o.bcQueue.message x = some m) : m ∈ o.gossipMsgs := by
  have hopen := h.open_peekN o.maxAppendedMsg
  have hpeeked : (BroadcastQueue.peekN o.maxAppendedMsg o.bcQueue).peeked =
      o.bcQueue.m.keys.length := by
    rw [peeked_peekN h.open_nil.peekIter (h.peeked ▸ Nat.zero_le _), h.peeked, Nat.zero_add,
      Nat.min_eq_right hall]
  have hreturned := hopen.returned
  rw [hpeeked, BroadcastQueue.cur_peekN, BroadcastQueue.m_peekN, ← length_cycle o.bcQueue.cur,
    List.take_length] at hreturned
  rw [gossipMsgs_eq h, hreturned, List.mem_filterMap]
  refine ⟨x, mem_cycle_iff.2 (AList.lookup_isSome.1 ?_), ?_⟩
  · obtain ⟨entry, hentry, _⟩ := Option.map_eq_some_iff.1 hm
    rw [hentry, Option.isSome_some]
  · rw [BroadcastQueue.message_peekN, hm]

namespace Process

open Gossiper

variable {fb : FlatBuffers} {env : Env} {p p' : Process} {out : List Output} {name : String}
  {pong : List UInt8} {d : Remains}

/-- A pong with something appended to it is for a node that is recorded dead, and read
as that. -/
theorem alert_of_receive {seqNo : UInt64} {body gossip : List UInt8}
    (hbody : fb.ping.finish { seqNo := seqNo, from_ := some name } = some body)
    (hfits : 8 + body.length + gossip.length ≤ mtu) (hname : NulFree name)
    (hkeyed : ∀ r, p.gossiper.getNodeState name = some r → r.name = name)
    (hok : p.receive fb env (packet typePing body gossip) d = .ok (p', [.pong pong]))
    (halert : HasAppended pong) :
    pong.length ≤ mtu ∧ ∃ r, p.gossiper.getNodeState name = some r ∧ r.state = .dead ∧
      ∀ stale, readPong fb (pong ++ stale) pong.length =
        .ok (some { seqNo := seqNo, alert := some ⟨name, .dead, r.dominant⟩ }) := by
  obtain ⟨_, n, resp, respBuff, hanswer, hout⟩ := answerPing_of_receive hbody hfits hok
  rw [str_eq_self_iff.2 hname] at hanswer
  have hpos : 0 < n := by
    by_contra hnot
    rw [if_neg hnot] at hout
    cases hout
  have hsent : pong = resp.take n.toNat := by
    rw [if_pos hpos] at hout
    cases hout
    rfl
  obtain ⟨sent, appended, alert, hbytes⟩ := answerPing_of_pos hanswer hpos
  have hpong : pong = packet typePong sent appended := by
    rw [hsent, hbytes.length_eq, Int.toNat_natCast, hbytes.bytes]
  have hlength : pong.length = n.toNat := by
    rw [hpong, length_packet, hbytes.length_eq, Int.toNat_natCast]
  have hnames : ∀ node ∈ p.gossiper.getNodeState name, str node.name = node.name := by
    intro node hnode
    rw [hkeyed node hnode, str_eq_self_iff.2 hname]
  obtain ⟨hle, sent', appended', alert', hbuilt, hsize, halerts, hread⟩ :=
    pongArrives hnames hanswer hpos
  cases hbytes.built.symm.trans hbuilt
  rw [hpong, hasAppended_packet_iff (fb.pong.finish_lt hbuilt)] at halert
  have hsame : appended'.length = appended.length := by
    have hboth := hbytes.length_eq
    omega
  refine ⟨by omega, ?_⟩
  cases halerts with
  | none hnone =>
      rw [List.length_nil] at hsame
      exact absurd (List.length_eq_zero_iff.1 hsame.symm) halert
  | dead node _ hns hdead _ _ =>
      refine ⟨node, hns, hdead, fun stale => ?_⟩
      have hheard := hread stale
      rwa [hkeyed node hns, hdead, ← hsent, ← hlength] at hheard

/-- The node that a dead alert is about objects. -/
theorem objects_of_receivePong {data : List UInt8} {seqNo d : UInt64} (hle : pong.length ≤ mtu)
    (hread : ∀ stale, readPong fb (pong ++ stale) pong.length =
      .ok (some { seqNo := seqNo, alert := some ⟨env.conf.name, .dead, d⟩ }))
    (hok : p.receivePong fb env pong data = .ok (p', out)) :
    p'.gossiper = p.gossiper.fuckyou env d := by
  rw [receivePong, List.take_of_length_le hle, write_zero, handlePong, hread] at hok
  cases hok
  exact if_pos ⟨rfl, rfl⟩

/-- A ping names its sender, and fits. -/
theorem exists_packet_of_probed {host : String} {port : Int16} {ping : List UInt8}
    (h : Probed fb env p p' [.ping host port ping]) :
    ∃ seqNo body gossip, ping = packet typePing body gossip ∧
      fb.ping.finish { seqNo := seqNo, from_ := some env.conf.name } = some body ∧
      8 + body.length + gossip.length ≤ mtu := by
  cases h with
  | sent name' node _ _ _ _ body gossip o hbody _ hfits =>
      exact ⟨_, body, gossip, rfl, hbody, hfits⟩

/-- A ping with gossip, from a process that appends all that it has queued, brings what
is queued about any name. -/
theorem exists_gossip_of_probed {host : String} {port : Int16} {news : List UInt8}
    (h : Probed fb env p p' [.ping host port news]) (hq : p.gossiper.bcQueue.Settled)
    (hall : p.gossiper.bcQueue.m.keys.length ≤ p.maxAppendedMsg) (hnews : HasAppended news)
    {m : CppGossip.NodeState} (hm : p.gossiper.bcQueue.message name = some m) :
    ∃ body gossip nss ns, news = packet typePing body gossip ∧
      fb.ping.finish { seqNo := p.gossiper.nextSeqNum.1, from_ := some env.conf.name } = some body ∧
      8 + body.length + gossip.length ≤ mtu ∧
      fb.nodeStates.finish { nodes := some nss } = some gossip ∧ ns ∈ nss ∧
      encode m = some ns := by
  cases h with
  | sent name' node hname hnode hprobed _ body gossip o hbody happends hfits =>
      rw [hasAppended_packet_iff (fb.ping.finish_lt hbody)] at hnews
      cases happends with
      | empty hnil => exact absurd rfl hnews
      | large nss built hne hpacket hlarge => exact absurd rfl hnews
      | fits nss _ hne hpacket hroom =>
          obtain ⟨ns, hns, hencode⟩ := exists_encode_of_mapM hpacket.encoded
            (Outbox.mem_gossipMsgs (o := p.outbox) hq hall hm)
          exact ⟨body, gossip, nss, ns, rfl, hbody, hfits, hpacket.built, hns, hencode⟩

/-- A process that gets gossip of a node is as far as that. -/
theorem le_knownDominant_of_receive (h : Tabled env p.gossiper) {seqNo : UInt64}
    {body gossip : List UInt8} {nss : List Message.NodeState} {ns : Message.NodeState}
    {m : CppGossip.NodeState}
    (hbody : fb.ping.finish { seqNo := seqNo, from_ := some name } = some body)
    (hfits : 8 + body.length + gossip.length ≤ mtu)
    (hbuilt : fb.nodeStates.finish { nodes := some nss } = some gossip) (hns : ns ∈ nss)
    (hm : convert ns = some m)
    (halive : m.state = .alive)
    (hok : p.receive fb env (packet typePing body gossip) d = .ok (p', out)) :
    m.dominant ≤ p'.gossiper.knownDominant m.name := by
  rcases (answerPing_of_receive hbody hfits hok).1 with ⟨hnil, _⟩ | ⟨_, stale, hmerge⟩
  · exact absurd hnil (List.ne_nil_of_length_pos (fb.nodeStates.finish_pos hbuilt))
  · rw [fb.nodeStates.getRoot_finish hbuilt] at hmerge
    rw [merge_of_mergeSection hmerge, NodeStates.readable, Option.getD_some]
    exact le_knownDominant_merge h (List.mem_filterMap.2 ⟨ns, hns, hm⟩) halive

end Process

namespace Cluster

variable {ι : Type*} [DecidableEq ι] {env : ι → Env} {os : List (Happening ι)}

/-- What a node of a cluster has queued of itself says that it is alive. -/
theorem clean_run (hread : Readable env) (hv : Along (act env) Enabled start os) (i : ι) :
    (((run (act env) start os).node i).own (env i)).Clean := by
  induction os using List.reverseRecOn with
  | nil => exact Gossiper.clean_fresh (env i)
  | append_singleton os o ih =>
      obtain ⟨hinit, ho⟩ := (along_append_singleton _ _ _ _).1 hv
      rw [run_append_singleton]
      cases he : handled i o with
      | none =>
          rw [node_act_of_not_handled he]
          exact ih hinit
      | some e =>
          obtain ⟨henabled, hreceived⟩ :=
            (accounted_run hread hinit).everywhere.of_handled ho he
          rw [node_act_of_handled he]
          refine (ih hinit).unsuspected (fun m needBc heq => ?_)
            (Gossiper.own_step (table_run hinit i).1 henabled)
          exact (hreceived m needBc heq).ne_suspect

end Cluster

namespace Network

open Gossiper Process

variable {ι : Type*} [DecidableEq ι] {fb : FlatBuffers} {env : ι → Env}
  {order : List CppGossip.NodeState → List CppGossip.NodeState} {data : ι → List UInt8}
  {os before : List (ι × Input)} {o : ι × Input} {i j : ι} {p p' : Process} {out : List Output}

/-- In the run `os` the process `p` has had the input of `o`, has become `p'` and has
sent `out`. -/
def Took (fb : FlatBuffers) (env : ι → Env)
    (order : List CppGossip.NodeState → List CppGossip.NodeState) (data : ι → List UInt8)
    (os : List (ι × Input)) (o : ι × Input) (p p' : Process) (out : List Output) : Prop :=
  ∃ before, before ++ [o] <+: os ∧ (run (act fb env order) (start data) before).node o.1 = .ok p ∧
    p.handle fb (env o.1) order o.2 = .ok (p', out)

/-- An ALIVE message about the node of a dominant greater than `d` is queued. -/
def Objects (env : Env) (d : UInt64) (p : Process) : Prop := (p.gossiper.own env).Answered d

instance (env : Env) (d : UInt64) (p : Process) : Decidable (Objects env d p) :=
  inferInstanceAs (Decidable ((p.gossiper.own env).Answered d))

/-- What a process that has come up so far keeps. -/
structure Kept (env : Env) (p : Process) : Prop where
  sound : Process.Sound env p
  tabled : Gossiper.Tabled env p.gossiper
  clean : (p.gossiper.own env).Clean
  portable : Gossiper.Every NodeState.Portable p.gossiper

theorem kept_of_run (horder : ∀ l, (order l).Perm l) (hread : Cluster.Readable env)
    (hv : Valid fb env order (start data) os)
    (hp : (run (act fb env order) (start data) os).node i = .ok p) : Kept (env i) p := by
  obtain ⟨hss, _, halong, habstracts⟩ := exists_cluster horder hv
  obtain ⟨hgossiper, hsound⟩ := habstracts.node i p hp
  have hfounded := ((Cluster.accounted_run hread halong).held i).mono
    (fun m hm => hm.portable hread) fun s hs => hs
  refine ⟨hsound, ?_, ?_, ?_⟩
  · rw [hgossiper]
    exact (Cluster.table_run halong i).1
  · rw [hgossiper]
    exact Cluster.clean_run hread halong i
  · rw [hgossiper]
    exact hfounded.every fun s hs => hs.1.portable hread

theorem valid_front (hv : Valid fb env order (start data) os) (h : before <+: os) :
    Valid fb env order (start data) before := by
  obtain ⟨rest, rfl⟩ := h
  exact ((along_append _ _ _ _).1 hv).1

theorem Took.kept (horder : ∀ l, (order l).Perm l) (hread : Cluster.Readable env)
    (hv : Valid fb env order (start data) os) (h : Took fb env order data os o p p' out) :
    Kept (env o.1) p := by
  obtain ⟨before, hprefix, hp, _⟩ := h
  exact kept_of_run horder hread
    (valid_front hv ((List.prefix_append before [o]).trans hprefix)) hp

omit [DecidableEq ι] in
theorem GaveUp.mono {os' : List (ι × Input)} {x : String} {d : UInt64} (h : GaveUp os x d)
    (hsub : ∀ o ∈ os, o ∈ os') : GaveUp os' x d := by
  obtain ⟨i, node, hmem, hnode⟩ := h
  exact ⟨i, node, hsub _ hmem, hnode⟩

/-- A record is as provenance has it, at the end of every step. -/
theorem Took.verdict (horder : ∀ l, (order l).Perm l) (hread : Cluster.Readable env)
    (hv : Valid fb env order (start data) os) (h : Took fb env order data os o p p' out)
    {x : String} {r : CppGossip.NodeState} (hr : p'.gossiper.getNodeState x = some r) :
    r.state = .alive ∨ r.state = .dead ∧ GaveUp os x r.dominant := by
  obtain ⟨before, hprefix, hp, hok⟩ := h
  have hend : (run (act fb env order) (start data) (before ++ [o])).node o.1 = .ok p' := by
    rw [run_append_singleton, act_of_ok hp hok]
    exact Function.update_self _ _ _
  have hrecord := record_of_bytes horder hread (valid_front hv hprefix) hend hr
  exact hrecord.2.imp id (And.imp id (GaveUp.mono · fun o ho => hprefix.subset ho))

/-- A ping of `b:1`. -/
def samplePing (seqNo : UInt64) (gossip : List UInt8) : List UInt8 :=
  packet typePing ((reference.ping.finish { seqNo := seqNo, from_ := some "b:1" }).getD []) gossip

/-- The pong that tells `b:1` that it is recorded dead. -/
def sampleAlert (seqNo : UInt64) : List UInt8 :=
  packet typePong ((reference.pong.finish { seqNo := seqNo }).getD [])
    ((reference.nodeState.finish
      { Cluster.hello "b:1" "b" with state := State.dead.toRaw }).getD [])

/-- The ping of `b:1` with its objection. -/
def sampleObjection : List UInt8 :=
  samplePing 2 ((reference.nodeStates.finish
    { nodes := some [{ Cluster.hello "b:1" "b" with dominant := 2 }] }).getD [])

/-- `b:1` joins by `a:1`, which loses a pong of it and buries it. Then `b:1` pings `a:1`
twice. -/
def revived : List (ℕ × Input) :=
  sampleSteps ++
    [(1, .reply sampleReply [] .intact), (0, .probe []), (0, .probe []),
      (0, .probeTimeout (Cluster.known "b:1" "b")), (0, .conviction (Cluster.known "b:1" "b")),
      (1, .probe []), (1, .probe []), (0, .datagram (samplePing 1 []) .intact),
      (1, .pong (sampleAlert 1) []), (1, .probe []), (1, .probe []),
      (0, .datagram sampleObjection .intact)]

/-- A step of that run, by a process that passes a check. -/
theorem exists_took (k : ℕ) (o : ℕ × Input) (out : List Output) (check : Process → Bool)
    (ho : revived[k]? = some o)
    (h : ((run (act reference Cluster.sampleEnvs id) (start fun _ => []) (revived.take k)).node
        o.1).toOption.any fun p =>
      check p && (p.handle reference (Cluster.sampleEnvs o.1) id o.2).toOption.any
        fun r => r.2 = out) :
    ∃ p p', Took reference Cluster.sampleEnvs id (fun _ => []) revived o p p' out ∧
      check p = true := by
  have hfront : revived.take k ++ [o] = revived.take (k + 1) := by
    rw [List.take_add_one, ho, Option.toList_some]
  obtain ⟨p, hp, hboth⟩ := Result.exists_of_any h
  obtain ⟨hcheck, hsends⟩ := Bool.and_eq_true_iff.1 hboth
  obtain ⟨⟨p', sent⟩, hok, hsent⟩ := Result.exists_of_any hsends
  obtain rfl := of_decide_eq_true hsent
  exact ⟨p, p', ⟨revived.take k, hfront ▸ List.take_prefix _ _, hp, hok⟩, hcheck⟩

end Network

end CppGossip
