import CppGossip.Cluster.Agreement
import CppGossip.Network.Packets

/-!
# A network is a cluster

What processes do to each other by bytes is what gossipers do to each other by
records: `simulation_cluster` matches every step of a network by steps of a
`Cluster`, at the same node, so that what holds in every run of a cluster holds of
the gossipers in a network. None of its processes follows a field that is not there
or takes a text for a number that is none (`refines_cluster`).
-/

namespace CppGossip

open Bytes Message Transition

/-- The faults that are none of what was read: a builder's limit, or an object that is
gone. -/
def Fault.Spares (f : Fault) : Prop := f = .bufferTooLarge ∨ f = .invalidRead

theorem Fault.spares_of_ne {f : Fault} (hport : f ≠ .invalidPort) (hfield : f ≠ .absentField) :
    f.Spares := by
  cases f with
  | absentField => exact absurd rfl hfield
  | invalidPort => exact absurd rfl hport
  | bufferTooLarge => exact Or.inl rfl
  | invalidRead => exact Or.inr rfl

/-- The steps of a cluster that a step of a network may be matched by. -/
def Stirs {ι : Type*} (o : ι × Input) : Happening ι → Prop
  | .own j e => j = o.1 ∧ Brings o.2 e
  | .gossip j _ _ | .sendState j | .receive j _ _ => j = o.1

namespace Cluster

variable {ι : Type*} [DecidableEq ι] {env : ι → Env} {o : ι × Input} {s : Cluster ι}
  {hs hs' : List (Happening ι)} {g g' : Gossiper} {new new' : List Message.NodeState}

/-- The steps `hs` leave the node of `o` as `g`, send the records `new` and change
nothing else. -/
structure Follows (env : ι → Env) (o : ι × Input) (s : Cluster ι) (hs : List (Happening ι))
    (g : Gossiper) (new : List Message.NodeState) : Prop where
  stirs : ∀ h ∈ hs, Stirs o h
  along : Along (act env) Enabled s hs
  node : (run (act env) s hs).node = Function.update s.node o.1 g
  wire : (run (act env) s hs).wire = s.wire ++ new

theorem Follows.nil (env : ι → Env) (o : ι × Input) (s : Cluster ι) :
    Follows env o s [] (s.node o.1) [] where
  stirs _ h := by cases h
  along := trivial
  node := (Function.update_eq_self o.1 s.node).symm
  wire := (List.append_nil s.wire).symm

theorem Follows.trans (h : Follows env o s hs g new)
    (h' : Follows env o (run (act env) s hs) hs' g' new') :
    Follows env o s (hs ++ hs') g' (new ++ new') where
  stirs x hx := (List.mem_append.1 hx).elim (h.stirs x) (h'.stirs x)
  along := (along_append _ _ _ _).2 ⟨h.along, h'.along⟩
  node := by rw [run_append, h'.node, h.node, Function.update_idem]
  wire := by rw [run_append, h'.wire, h.wire, List.append_assoc]

theorem Follows.node_eq (h : Follows env o s hs g new) : (run (act env) s hs).node o.1 = g := by
  rw [h.node, Function.update_self]

/-- One step at the node. -/
theorem Follows.single {x : Happening ι} {e : Event} (hstirs : Stirs o x) (henabled : s.Enabled x)
    (hhandled : ∀ j, handled j x = if o.1 = j then some e else none)
    (hsent : ((s.sent x).mapM encode).getD [] = new) :
    Follows env o s [x] ((s.node o.1).step (env o.1) e) new where
  stirs _ h := List.mem_singleton.1 h ▸ hstirs
  along := ⟨henabled, trivial⟩
  node := by
    funext j
    by_cases hj : o.1 = j
    · subst hj
      rw [Function.update_self]
      exact node_act_of_handled ((hhandled o.1).trans (if_pos rfl))
    · rw [Function.update_of_ne (Ne.symm hj)]
      exact node_act_of_not_handled ((hhandled j).trans (if_neg hj))
  wire := congrArg (s.wire ++ ·) hsent

theorem Follows.own {e : Event} (hown : e.Own) (he : (s.node o.1).Enabled e)
    (hbrings : Brings o.2 e) :
    Follows env o s [.own o.1 e] ((s.node o.1).step (env o.1) e) [] :=
  .single ⟨rfl, hbrings⟩ ⟨hown, he⟩ (fun _ => rfl) rfl

theorem Follows.gossip {n : ℕ} {nss : List Message.NodeState}
    (hnss : (BroadcastQueue.peeks n (s.node o.1).bcQueue).mapM encode = some nss) :
    Follows env o s [.gossip o.1 n true] ((s.node o.1).batch n true) nss :=
  .single (e := .batch n true) rfl trivial (fun _ => rfl) (by rw [sent, hnss, Option.getD_some])

theorem Follows.receive {ns : Message.NodeState} {m : NodeState} {needBc : Bool}
    (hns : ns ∈ s.wire) (hm : convert ns = some m) :
    Follows env o s [.receive o.1 ns needBc]
      ((s.node o.1).step (env o.1) (.message m needBc)) [] := by
  refine .single rfl hns (fun j => ?_) rfl
  rw [handled, hm]
  rfl

/-- The table is sent, and the node stays as it is. -/
theorem Follows.sendState {nss : List Message.NodeState}
    (hnss : (s.node o.1).localState.mapM encode = some nss) :
    Follows env o s [.sendState o.1] (s.node o.1) nss where
  stirs _ h := List.mem_singleton.1 h ▸ rfl
  along := ⟨trivial, trivial⟩
  node := by
    rw [Function.update_eq_self]
    rfl
  wire := by
    show s.wire ++ _ = _
    rw [sent, hnss, Option.getD_some]

/-- Records that were sent are merged one after the other. -/
theorem exists_follows_of_merged {needBc : Bool}
    (h : MergedFrom (env o.1) s.wire needBc (s.node o.1) g) :
    ∃ hs, Follows env o s hs g [] := by
  obtain ⟨nss, hnss, rfl⟩ := h
  induction nss generalizing s with
  | nil => exact ⟨[], .nil env o s⟩
  | cons ns nss ih =>
      obtain ⟨hfirst, hrest⟩ := List.forall_mem_cons.1 hnss
      cases hm : convert ns with
      | none =>
          rw [List.filterMap_cons_none hm]
          exact ih hrest
      | some m =>
          have hreceive : Follows env o s [.receive o.1 ns needBc] _ [] := .receive hfirst hm
          have hwire := hreceive.wire
          rw [List.append_nil] at hwire
          obtain ⟨hs, hfollows⟩ := ih (s := run (act env) s [.receive o.1 ns needBc])
            (by rw [hwire]; exact hrest)
          rw [hreceive.node_eq] at hfollows
          rw [List.filterMap_cons_some hm]
          exact ⟨_, hreceive.trans hfollows⟩

/-- What an input brings that is not messages is handled at the node. -/
theorem follows_of_valid {es : List Event} (hown : ∀ e ∈ es, e.Own ∧ Brings o.2 e)
    (hv : Gossiper.Valid (env o.1) (s.node o.1) es) :
    Follows env o s (es.map (.own o.1)) (run (Gossiper.step (env o.1)) (s.node o.1) es) [] := by
  induction es generalizing s with
  | nil => exact .nil env o s
  | cons e es ih =>
      obtain ⟨⟨hfirst, hbrings⟩, hrest⟩ := List.forall_mem_cons.1 hown
      have hstep : Follows env o s [.own o.1 e] _ [] := .own hfirst hv.1 hbrings
      have hlater := ih (s := run (act env) s [.own o.1 e]) hrest
        (by rw [hstep.node_eq]; exact hv.2)
      rw [hstep.node_eq] at hlater
      exact hstep.trans hlater

end Cluster

namespace Process

open Cluster Gossiper

variable {ι : Type*} [DecidableEq ι] {fb : FlatBuffers} {env : ι → Env}
  {order : List CppGossip.NodeState → List CppGossip.NodeState} {s : Cluster ι} {i : ι}
  {input : Input} {p p' : Process} {out : List Output}

/-- The cluster `s` follows the process at `i` to `p'`, which has sent `out`. -/
def Followed (fb : FlatBuffers) (env : ι → Env) (o : ι × Input) (s : Cluster ι) (p' : Process)
    (out : List Output) : Prop :=
  ∃ hs new, Follows env o s hs p'.gossiper new ∧ (∀ ns ∈ new, ns.Present) ∧
    ∀ sent ∈ out, sent.Made fb (s.wire ++ new)

/-- An input that brings no messages and has nothing sent. -/
theorem followed_of_refined (hgossiper : p.gossiper = s.node i)
    (hown : ∀ e, Brings input e → e.Own) (h : Refined (env i) input p p') :
    Followed fb env (i, input) s p' [] := by
  obtain ⟨es, hbrings, hvalid, heq⟩ := h
  rw [hgossiper] at hvalid heq
  refine ⟨_, [], heq ▸ follows_of_valid (o := (i, input))
    (fun e he => ⟨hown e (hbrings e he), hbrings e he⟩) hvalid, List.forall_mem_nil _,
    List.forall_mem_nil _⟩

/-- A probe is followed by a probe, and by the gossip that is sent behind the ping. -/
theorem followed_probe {sendBuff : List UInt8} (hgossiper : p.gossiper = s.node i)
    (hq : p.gossiper.bcQueue.Settled) (h : Probed fb (env i) p p' out) :
    Followed fb env (i, .probe sendBuff) s p' out := by
  have hprobe {name : String} {node : CppGossip.NodeState}
      (hname : (p.gossiper.roundrobinNode 1 p.cursor).1.head? = some name)
      (hnode : p.gossiper.getNodeState name = some node)
      (hprobed : node.state = .alive ∧ node.name ≠ (env i).conf.name) :
      Follows env (i, .probe sendBuff) s [.own i (.probe p.cursor)]
        (p.pinging node).gossiper [] := by
    have hsame : (s.node i).step (env i) (.probe p.cursor) = (p.pinging node).gossiper := by
      rw [← hgossiper]
      exact probe_eq hname hnode hprobed
    exact hsame ▸ .own trivial trivial trivial
  cases h with
  | idle name node hname hnode hnot =>
      refine ⟨[], [], ?_, List.forall_mem_nil _, List.forall_mem_nil _⟩
      have hnil := Follows.nil env (i, .probe sendBuff) s
      rwa [← hgossiper] at hnil
  | failed name node hname hnode hprobed =>
      exact ⟨_, [], hprobe hname hnode hprobed, List.forall_mem_nil _, List.forall_mem_nil _⟩
  | sent name node hname hnode hprobed port body gossip o hbody happends hfits =>
      have hfollows := hprobe hname hnode hprobed
      have hmade (known : List Message.NodeState) (hgossip : gossip = [] ∨ Tells fb known gossip) :
          ∀ sent ∈ [Output.ping node.ip port (packet typePing body gossip)],
            sent.Made fb known := by
        intro sent hsent
        cases List.mem_singleton.1 hsent
        exact .ping node.ip port _ _ body gossip hbody hgossip hfits
      cases happends with
      | empty _ => exact ⟨_, [], hfollows, List.forall_mem_nil _, hmade _ (Or.inl rfl)⟩
      | large _ _ _ _ _ => exact ⟨_, [], hfollows, List.forall_mem_nil _, hmade _ (Or.inl rfl)⟩
      | fits nss _ _ hpacket _ =>
          have hpeeked := hpacket.encoded
          rw [Outbox.gossipMsgs_eq hq] at hpeeked
          have hnode' := hfollows.node_eq
          have hgossip : Follows env (i, .probe sendBuff)
              (run (Cluster.act env) s [.own i (.probe p.cursor)])
              [.gossip i p.maxAppendedMsg true] _ nss :=
            .gossip (by rw [hnode']; exact hpeeked)
          rw [hnode'] at hgossip
          have htells : Tells fb (s.wire ++ nss) gossip :=
            ⟨nss, fun ns hns => List.mem_append_right _ hns, hpacket.built⟩
          exact ⟨_, nss, hfollows.trans hgossip, present_of_mapM hpeeked, hmade _ (Or.inr htells)⟩

/-- What is merged of the wire, and then sent of the table. -/
theorem followed_of_merged {needBc : Bool} {nss : List Message.NodeState}
    (hgossiper : p.gossiper = s.node i)
    (hmerged : MergedFrom (env i) s.wire needBc p.gossiper p'.gossiper)
    (hnss : p'.gossiper.localState.mapM encode = some nss) (hout : ∀ sent ∈ out, sent.Made fb nss) :
    Followed fb env (i, input) s p' out := by
  rw [hgossiper] at hmerged
  obtain ⟨hs, hfollows⟩ := exists_follows_of_merged (o := (i, input)) hmerged
  have hnode := hfollows.node_eq
  have hsent : Follows env (i, input) (run (Cluster.act env) s hs) [.sendState i] _ nss :=
    .sendState (by rw [hnode]; exact hnss)
  rw [hnode] at hsent
  exact ⟨_, nss, hfollows.trans hsent, present_of_mapM hnss, fun sent h =>
    (hout sent h).mono fun ns hns => List.mem_append_right _ hns⟩

/-- What is merged of the wire, with nothing new sent of the table. -/
theorem followed_of_heard {needBc : Bool} (hgossiper : p.gossiper = s.node i)
    (hmerged : MergedFrom (env i) s.wire needBc p.gossiper p'.gossiper)
    (hout : ∀ sent ∈ out, sent.Made fb s.wire) : Followed fb env (i, input) s p' out := by
  rw [hgossiper] at hmerged
  obtain ⟨hs, hfollows⟩ := exists_follows_of_merged (o := (i, input)) hmerged
  refine ⟨hs, [], hfollows, List.forall_mem_nil _, fun sent h => ?_⟩
  rw [List.append_nil]
  exact hout sent h

/-- A call that returns is followed by the cluster. -/
theorem followed (horder : ∀ l, (order l).Perm l) (hgossiper : p.gossiper = s.node i)
    (hsound : Sound (env i) p) (hi : p.Enabled input)
    (harrives : input.Remote = true → ∃ o : Output, o.Made fb s.wire ∧ o.Roomy ∧ o.Reaches input)
    (hok : p.handle fb (env i) order input = .ok (p', out)) :
    Followed fb env (i, input) s p' out := by
  have hrefined : Refined (env i) input p p' := refined hsound.settled hi hok
  cases input with
  | registerNotifier join leave =>
      cases hok
      refine followed_of_refined hgossiper (fun e he => ?_) hrefined
      cases he
      trivial
  | join fuel peer =>
      cases hok
      refine followed_of_refined hgossiper (fun e he => ?_) hrefined
      cases he
      trivial
  | connected =>
      obtain ⟨hsame, nss, hnss, hout⟩ := syncRequest_of_ok horder hok
      rw [← hsame] at hnss
      have hmerged : MergedFrom (env i) s.wire true p.gossiper p'.gossiper := mergedFrom_of_eq hsame
      exact followed_of_merged hgossiper hmerged hnss hout
  | reply sent behind d =>
      obtain ⟨o, hmade, _, hreach⟩ := harrives rfl
      cases o with
      | reply bytes =>
          obtain ⟨hmerged, rfl⟩ := syncReply_of_front hmade hreach hok
          exact followed_of_heard hgossiper hmerged (List.forall_mem_nil _)
      | _ => exact hreach.elim
  | syncFailed =>
      cases hok
      exact followed_of_refined hgossiper (fun e he => he.elim) hrefined
  | probe sendBuff => exact followed_probe hgossiper hsound.settled (probed hsound.settled hok)
  | probeTimeout node =>
      cases hok
      refine followed_of_refined hgossiper (fun e he => ?_) hrefined
      cases he
      trivial
  | pong bytes data =>
      obtain ⟨g, _, heq⟩ := Result.bind_eq_ok_iff.1 hok
      cases heq
      refine followed_of_refined hgossiper (fun e he => ?_) hrefined
      cases e with
      | deadAlert => trivial
      | _ => exact he.elim
  | conviction accusation =>
      cases hok
      refine followed_of_refined hgossiper (fun e he => ?_) hrefined
      cases he
      trivial
  | datagram bytes d =>
      obtain ⟨o, hmade, _, hreach⟩ := harrives rfl
      cases hmade with
      | ping host port seqNo name body gossip hbody hgossip hfits =>
          cases hreach
          obtain ⟨hmerged, hout⟩ := receive_of_made hbody hgossip hfits hok
          exact followed_of_heard hgossiper hmerged hout
      | _ => exact hreach.elim
  | connection sent inBuff outBuff locals d =>
      obtain ⟨o, hmade, hroomy, hreach⟩ := harrives rfl
      cases o with
      | request bytes =>
          rcases serve_of_front horder hmade hroomy hreach hok with
            ⟨hsame, rfl⟩ | ⟨hmerged, nss, hnss, hout⟩
          · have hmerged : MergedFrom (env i) s.wire true p.gossiper p'.gossiper :=
              mergedFrom_of_eq hsame
            exact followed_of_heard hgossiper hmerged (List.forall_mem_nil _)
          · exact followed_of_merged hgossiper hmerged hnss hout
      | _ => exact hreach.elim

end Process

namespace Network

variable {ι : Type*} [DecidableEq ι] {fb : FlatBuffers} {env : ι → Env}
  {order : List CppGossip.NodeState → List CppGossip.NodeState} {N : Network ι} {s : Cluster ι}
  {o : ι × Input} {os : List (ι × Input)}

/-- The processes that are up run the gossipers of the cluster, those that are down
have met a builder's limit or an object that is gone, and what was sent tells of the
records sent. -/
structure Abstracts (fb : FlatBuffers) (env : ι → Env) (N : Network ι) (s : Cluster ι) : Prop where
  node : ∀ i, WhileUp (fun p => p.gossiper = s.node i ∧ Process.Sound (env i) p) (N.node i)
  down : ∀ i f, N.node i = .error f → f.Spares
  present : ∀ ns ∈ s.wire, ns.Present
  made : ∀ out ∈ N.wire, out.Made fb s.wire

omit [DecidableEq ι] in
theorem abstracts_start (data : ι → List UInt8) : Abstracts fb env (start data) Cluster.start where
  node i := (whileUp_ok _ _).2 ⟨rfl, Process.sound_start (env i) (data i)⟩
  down i f h := by cases h
  present := List.forall_mem_nil _
  made := List.forall_mem_nil _

/-- A process that goes down so changes nothing else. -/
theorem Abstracts.of_fault (h : Abstracts fb env N s) (i : ι) {f : Fault} (hf : f.Spares) :
    Abstracts fb env { N with node := Function.update N.node i (.error f) } s := by
  refine ⟨fun j => ?_, fun j f' hj => ?_, h.present, h.made⟩
  · by_cases hj : j = i
    · subst hj
      simp only [Function.update_self]
      exact whileUp_error _ _
    · simp only [Function.update_of_ne hj]
      exact h.node j
  · by_cases hne : j = i
    · subst hne
      simp only [Function.update_self] at hj
      cases hj
      exact hf
    · simp only [Function.update_of_ne hne] at hj
      exact h.down j f' hj

/-- A call that returns keeps the network and the cluster together. -/
theorem Abstracts.of_ok (h : Abstracts fb env N s) {p' : Process} {out : List Output}
    (hsound : Process.Sound (env o.1) p') {hs : List (Happening ι)}
    {new : List Message.NodeState} (hfollows : Cluster.Follows env o s hs p'.gossiper new)
    (hnew : ∀ ns ∈ new, ns.Present) (hout : ∀ sent ∈ out, sent.Made fb (s.wire ++ new)) :
    Abstracts fb env
      { node := Function.update N.node o.1 (.ok p'), wire := N.wire ++ out }
      (run (Cluster.act env) s hs) := by
  refine ⟨fun j => ?_, fun j f hj => ?_, ?_, ?_⟩
  · by_cases hj : j = o.1
    · subst hj
      simp only [Function.update_self]
      exact (whileUp_ok _ _).2 ⟨hfollows.node_eq.symm, hsound⟩
    · simp only [hfollows.node, Function.update_of_ne hj]
      exact h.node j
  · by_cases hne : j = o.1
    · subst hne
      simp only [Function.update_self] at hj
      cases hj
    · simp only [Function.update_of_ne hne] at hj
      exact h.down j f hj
  · rw [hfollows.wire]
    exact fun ns hns => (List.mem_append.1 hns).elim (h.present ns) (hnew ns)
  · rw [hfollows.wire]
    intro sent hsent
    rcases List.mem_append.1 hsent with hold | hfresh
    · exact (h.made sent hold).mono fun ns hns => List.mem_append_left _ hns
    · exact hout sent hfresh

/-- A network is simulated by a cluster, step by step at the same node. -/
theorem simulation_cluster (fb : FlatBuffers) (env : ι → Env)
    (order : List CppGossip.NodeState → List CppGossip.NodeState)
    (horder : ∀ l, (order l).Perm l) :
    Simulation (act fb env order) (fun N o => N.Enabled o ∧ N.Roomy) (Cluster.act env)
      Cluster.Enabled (fun o hs => ∀ h ∈ hs, Stirs o h) (Abstracts fb env) := by
  rintro N s ⟨i, input⟩ h ⟨⟨henabled, hremote⟩, hroomy⟩
  cases hnode : N.node i with
  | error f =>
      rw [act_of_down hnode]
      exact ⟨[], List.forall_mem_nil _, trivial, h⟩
  | ok p =>
      obtain ⟨hgossiper, hsound⟩ := h.node i p hnode
      have hi : p.Enabled input := henabled p hnode
      have harrives (hr : input.Remote = true) :
          ∃ o : Output, o.Made fb s.wire ∧ o.Roomy ∧ o.Reaches input := by
        obtain ⟨o, ho, hreach⟩ := hremote hr
        exact ⟨o, h.made o ho, hroomy o ho, hreach⟩
      have hreadable : p.Readable fb input := by
        by_cases hr : input.Remote = true
        · obtain ⟨o, hmade, hroom, hreach⟩ := harrives hr
          exact Process.readable_of_made hmade h.present hroom hreach
        · cases input with
          | reply | pong | datagram | connection => exact absurd rfl hr
          | _ => trivial
      cases hhandle : p.handle fb (env i) order input with
      | error f =>
          obtain ⟨hport, hfield, _⟩ := Process.handle_fault hsound horder hi hhandle
          rw [act_of_fault hnode hhandle]
          exact ⟨[], List.forall_mem_nil _, trivial,
            h.of_fault i (Fault.spares_of_ne hport fun habsent => hfield habsent hreadable)⟩
      | ok r =>
          obtain ⟨p', out⟩ := r
          obtain ⟨hs, new, hfollows, hnew, hout⟩ :=
            Process.followed horder hgossiper hsound hi harrives hhandle
          rw [act_of_ok hnode hhandle]
          exact ⟨hs, hfollows.stirs, hfollows.along,
            h.of_ok (hsound.handle hi hhandle) hfollows hnew hout⟩

/-- A run of a network is one of a cluster. -/
theorem exists_cluster (horder : ∀ l, (order l).Perm l) {data : ι → List UInt8}
    (hv : Valid fb env order (start data) os) :
    ∃ hss, List.Forall₂ (fun o hs => ∀ h ∈ hs, Stirs o h) os hss ∧
      Along (Cluster.act env) Cluster.Enabled Cluster.start hss.flatten ∧
      Abstracts fb env (run (act fb env order) (start data) os)
        (run (Cluster.act env) Cluster.start hss.flatten) :=
  (simulation_cluster fb env order horder).run (abstracts_start data) hv

/-- Whatever bytes of what they sent reach which processes, the gossipers of a network
are those of a cluster in a run that has its steps where the network has them. No
process follows an absent field or has a port that is no number: where one goes down,
what it was to send was too large for a builder, or an object that is gone could not
be read. -/
theorem refines_cluster (fb : FlatBuffers) (env : ι → Env)
    (order : List CppGossip.NodeState → List CppGossip.NodeState)
    (horder : ∀ l, (order l).Perm l) (data : ι → List UInt8)
    (hv : Valid fb env order (start data) os) :
    (∃ hss, List.Forall₂ (fun o hs => ∀ h ∈ hs, Stirs o h) os hss ∧
      Along (Cluster.act env) Cluster.Enabled Cluster.start hss.flatten ∧
      ∀ i, WhileUp
        (fun p => p.gossiper = (run (Cluster.act env) Cluster.start hss.flatten).node i)
        ((run (act fb env order) (start data) os).node i)) ∧
    ∀ i f, (run (act fb env order) (start data) os).node i = .error f →
      f = .bufferTooLarge ∨ f = .invalidRead := by
  obtain ⟨hss, hstirs, halong, habstracts⟩ := exists_cluster horder hv
  exact ⟨⟨hss, hstirs, halong, fun i p hp => (habstracts.node i p hp).1⟩, habstracts.down⟩

/-- The request of `b:1`. -/
def sampleRequest : List UInt8 :=
  frame ((reference.nodeStates.finish { nodes := some [Cluster.hello "b:1" "b"] }).getD [])

/-- The reply to `b:1`. -/
def sampleReply : List UInt8 :=
  frame ((reference.nodeStates.finish
    { nodes := some [Cluster.hello "b:1" "b", Cluster.hello "a:1" "a"] }).getD [])

/-- `b:1` joins by `a:1`, which gets the request. -/
def sampleSteps : List (ℕ × Input) :=
  [(0, .join 3 "a:1"), (1, .join 3 "a:1"), (1, .connected),
    (0, .connection sampleRequest [] [] ⟨0, none, 0⟩ .intact)]

set_option maxRecDepth 4000 in
theorem valid_sampleSteps :
    Valid reference Cluster.sampleEnvs id (start fun _ => []) sampleSteps := by
  decide

theorem refines_cluster_of_join :
    ∃ hss : List (List (Happening ℕ)),
      List.Forall₂ (fun o hs => ∀ h ∈ hs, Stirs o h) sampleSteps hss ∧
      Along (Cluster.act Cluster.sampleEnvs) Cluster.Enabled Cluster.start hss.flatten ∧
      ∀ i, WhileUp
        (fun p => p.gossiper =
          (run (Cluster.act Cluster.sampleEnvs) Cluster.start hss.flatten).node i)
        ((run (act reference Cluster.sampleEnvs id) (start fun _ => []) sampleSteps).node i) :=
  (refines_cluster reference Cluster.sampleEnvs id (fun l => List.Perm.refl l) (fun _ => [])
    valid_sampleSteps).1

/-! ## Provenance -/

/-- A process has waited in vain for a pong of `x`, probed at the dominant `d`. -/
def GaveUp (os : List (ι × Input)) (x : String) (d : UInt64) : Prop :=
  ∃ i node, (i, .probeTimeout node) ∈ os ∧ node.name = x ∧ node.dominant = d

/-- A timeout in the cluster is one in the network. -/
theorem gaveUp_of_condemned {hss : List (List (Happening ι))}
    (hstirs : List.Forall₂ (fun o hs => ∀ h ∈ hs, Stirs o h) os hss) {x : String} {d : UInt64}
    (h : Cluster.Condemned env hss.flatten x d) : GaveUp os x d := by
  obtain ⟨i, node, before, _, _, _, hsplit, hmem, hname, hdominant, _⟩ := h
  have htimeout : .own i (.probeTimeout node) ∈ hss.flatten := by
    rw [hsplit]
    exact List.mem_append_left _ hmem
  obtain ⟨⟨j, input⟩, hj, hs, hall, hin⟩ := exists_explained hstirs htimeout
  obtain ⟨rfl, hbrings⟩ := hall _ hin
  cases input with
  | probeTimeout node' =>
      cases hbrings
      exact ⟨i, node, hj, hname, hdominant⟩
  | registerNotifier | join | conviction => cases hbrings
  | connected | syncFailed | probe | pong | reply | datagram | connection => exact hbrings.elim

/-- A record is what a node announced of itself, or the news of its death. -/
theorem record_of_bytes (horder : ∀ l, (order l).Perm l) (hread : Cluster.Readable env)
    {data : ι → List UInt8} (hv : Valid fb env order (start data) os) {i : ι} {p : Process}
    (hp : (run (act fb env order) (start data) os).node i = .ok p) {x : String}
    {r : CppGossip.NodeState} (hr : p.gossiper.getNodeState x = some r) :
    (∃ j, r = { Gossiper.selfState (env j) r.dominant with
      state := r.state, timestamp := r.timestamp }) ∧
    (r.state = .alive ∨ r.state = .dead ∧ GaveUp os x r.dominant) := by
  obtain ⟨hss, hstirs, halong, habstracts⟩ := exists_cluster horder hv
  rw [(habstracts.node i p hp).1] at hr
  have hsourced := ((Cluster.accounted_run hread halong).held i).recorded x r hr
  obtain ⟨j, _, heq⟩ := hsourced.announced
  refine ⟨⟨j, heq⟩, hsourced.verdict.imp id fun ⟨hdead, hcondemned⟩ => ⟨hdead, ?_⟩⟩
  rw [(Cluster.table_run halong i).1.keyed x r hr] at hcondemned
  exact gaveUp_of_condemned hstirs hcondemned

end Network

end CppGossip
