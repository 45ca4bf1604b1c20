import CppGossip.Collection.Reading
import CppGossip.Membership.Count
import CppGossip.Sync.Exchange

/-!
# Lists of states in any order

A list of states is written in the order in which a map is iterated, which means
nothing. When its names are distinct, what becomes of a name is decided by its
one record and by what was held about the name to begin with, so every order
gives the same records, members, suspects and queued messages. The count comes
out the same because every accepted report of a death takes one from it,
whenever it is read.

What does depend on the order is how many confirmations a suspicion opened on
the way will want, since that is fixed by the count of the moment. `Alike`
leaves it out.
-/

namespace CppGossip

open Collection Transition

/-- The name a received table is read to be about. -/
def Message.NodeState.readName (ns : Message.NodeState) : Option String :=
  (ns.node.bind Message.Node.name).map Message.str

theorem readName_of_convert {ns : Message.NodeState} {state : NodeState}
    (h : convert ns = some state) : ns.readName = some state.name := by
  simp only [convert, Option.bind_eq_bind, Option.bind_eq_some_iff, Option.pure_def,
    Option.some_inj] at h
  obtain ⟨node, hnode, name, hname, ip, _, sender, _, rfl⟩ := h
  simp [Message.NodeState.readName, hnode, hname]

namespace Peer

/-- `p` and `q` agree in everything but how far along an open suspicion is. -/
structure Alike (p q : Peer) : Prop where
  record : p.record = q.record
  suspected : p.suspicion.isSome = q.suspicion.isSome
  queued : p.queued = q.queued

theorem Alike.of_eq {p q : Peer} (h : p = q) : Alike p q := h ▸ ⟨rfl, rfl, rfl⟩

/-- How many members a cluster has decides nothing but the quorum wanted. -/
theorem alike_suspect (env : Env) (n n' : UInt32) (s : NodeState) (p : Peer) :
    Alike (p.suspect env n s) (p.suspect env n' s) := by
  unfold suspect
  split
  · split
    · exact .of_eq rfl
    · split
      · exact ⟨rfl, rfl, rfl⟩
      · exact .of_eq rfl
  · exact .of_eq rfl

end Peer

theorem Own.alike_suspect (env : Env) (n n' : UInt32) (s : NodeState) (o : Own) :
    (o.suspect env n s).peer.Alike (o.suspect env n' s).peer ∧
      (o.suspect env n s).dominant = (o.suspect env n' s).dominant := by
  unfold suspect
  split
  · split
    · exact ⟨.of_eq rfl, rfl⟩
    · split
      · exact ⟨⟨rfl, rfl, rfl⟩, rfl⟩
      · exact ⟨.of_eq rfl, rfl⟩
  · exact ⟨.of_eq rfl, rfl⟩

namespace Gossiper

variable {env : Env} {g g' : Gossiper} {z : String} {needBc : Bool}

/-- `g` and `g'` hold the same about `z`, and about the node itself the same
dominant, but for how far along an open suspicion is. -/
def AlikeOf (env : Env) (z : String) (g g' : Gossiper) : Prop :=
  (g.peer z).Alike (g'.peer z) ∧ (z = env.conf.name → g.dominant = g'.dominant)

theorem alikeOf_of_held (h : held env z g = held env z g') : AlikeOf env z g g' := by
  refine ⟨.of_eq (congrArg Prod.fst h), ?_⟩
  intro hself
  have hown := congrArg Prod.snd h
  simp only [held, if_pos hself, Option.some_inj] at hown
  exact congrArg Own.dominant hown

/-- Two gossipers that hold the same about a name do the same to it. -/
theorem alikeOf_mergeState (h : Tabled env g) (h' : Tabled env g') (needBc : Bool) {m : NodeState}
    (hheld : held env m.name g = held env m.name g') :
    AlikeOf env m.name (g.mergeState env needBc m) (g'.mergeState env needBc m) := by
  have hpeer : g.peer m.name = g'.peer m.name := congrArg Prod.fst hheld
  by_cases hself : m.name = env.conf.name
  · have hown : g.own env = g'.own env := by
      have hsnd := congrArg Prod.snd hheld
      simpa only [held, if_pos hself, Option.some_inj] using hsnd
    suffices hturn : ((g.mergeState env needBc m).own env).peer.Alike
        ((g'.mergeState env needBc m).own env).peer ∧
        ((g.mergeState env needBc m).own env).dominant =
          ((g'.mergeState env needBc m).own env).dominant by
      refine ⟨?_, fun _ => hturn.2⟩
      rw [hself]
      exact hturn.1
    unfold mergeState
    cases m.state with
    | alive =>
        simp only [own_aliveNode m needBc (h.not_leaving m),
          own_aliveNode m needBc (h'.not_leaving m), if_pos hself, hown, and_true]
        exact .of_eq rfl
    | suspect =>
        simp only [own_suspectNode h, own_suspectNode h', if_pos hself, hown]
        exact Own.alike_suspect env _ _ m _
    | dead =>
        simp only [own_deadNode h.staying, own_deadNode h'.staying, if_pos hself, hown, and_true]
        exact .of_eq rfl
    | other raw hraw =>
        exact ⟨.of_eq (congrArg Own.peer hown), congrArg Own.dominant hown⟩
  · refine ⟨?_, fun heq => absurd heq hself⟩
    unfold mergeState
    cases m.state with
    | alive =>
        simp only [peer_aliveNode needBc (h.not_leaving m),
          peer_aliveNode needBc (h'.not_leaving m), if_true, hpeer]
        exact .of_eq rfl
    | suspect =>
        simp only [peer_suspectNode h hself, peer_suspectNode h' hself, if_true, hpeer]
        exact Peer.alike_suspect env _ _ m _
    | dead =>
        simp only [peer_deadNode hself, if_true, hpeer]
        exact .of_eq rfl
    | other raw hraw => exact .of_eq hpeer

/-- Every order of a list of records does the same to every name. -/
theorem alikeOf_merge_perm (h : Tabled env g) (needBc : Bool) {l l' : List NodeState}
    (hperm : l.Perm l') (hnodup : (l.map NodeState.name).Nodup) (z : String) :
    AlikeOf env z (g.merge env needBc l) (g.merge env needBc l') := by
  have hnodup' : (l'.map NodeState.name).Nodup := (hperm.map NodeState.name).nodup_iff.1 hnodup
  by_cases hmem : z ∈ l.map NodeState.name
  · obtain ⟨r, hr, rfl⟩ := List.mem_map.1 hmem
    obtain ⟨g₁, hg₁, hbefore, hafter⟩ := held_merge_of_mem h needBc hnodup hr
    obtain ⟨g₂, hg₂, hbefore', hafter'⟩ :=
      held_merge_of_mem h needBc hnodup' (hperm.mem_iff.1 hr)
    have hstep := alikeOf_mergeState hg₁ hg₂ needBc (hbefore.trans hbefore'.symm)
    have hfirst := alikeOf_of_held hafter
    have hlast := alikeOf_of_held hafter'
    refine ⟨⟨?_, ?_, ?_⟩, fun hself => ?_⟩
    · exact hfirst.1.record.trans (hstep.1.record.trans hlast.1.record.symm)
    · exact hfirst.1.suspected.trans (hstep.1.suspected.trans hlast.1.suspected.symm)
    · exact hfirst.1.queued.trans (hstep.1.queued.trans hlast.1.queued.symm)
    · exact (hfirst.2 hself).trans ((hstep.2 hself).trans (hlast.2 hself).symm)
  · have hmem' : z ∉ l'.map NodeState.name := fun hz =>
      hmem ((hperm.map NodeState.name).mem_iff.2 hz)
    apply alikeOf_of_held
    rw [held_merge_of_notMem h hmem, held_merge_of_notMem h hmem']

/-! ## The count -/

/-- Whether a record is an accepted report of a death is decided by what is held
about its name. -/
theorem deathAccepted_congr (h : Tabled env g) {m : NodeState}
    (hpeer : g'.peer m.name = g.peer m.name) (needBc : Bool) :
    g'.DeathAccepted (.message m needBc) ↔ g.DeathAccepted (.message m needBc) := by
  have hrecord : g'.getNodeState m.name = g.getNodeState m.name := congrArg Peer.record hpeer
  have hsus : g'.suspicions.lookup m.name = g.suspicions.lookup m.name :=
    congrArg Peer.suspicion hpeer
  have hheeds : ∀ d : NodeState, d.name = m.name → (g'.Heeds d ↔ g.Heeds d) := by
    intro d hd
    rw [Heeds, Heeds, hd, hrecord]
  have hquorum : g'.quorum m = g.quorum m := by
    rw [quorum, quorum, hsus, if_congr (hheeds m rfl) rfl rfl]
  have hnews : g'.deathNews (.message m needBc) = g.deathNews (.message m needBc) := by
    simp only [deathNews, callback, hquorum]
  have hname : ∀ d ∈ g.deathNews (.message m needBc), d.name = m.name := by
    intro d hd
    simp only [deathNews, callback, quorum] at hd
    split at hd
    case isTrue => exact (Option.some.inj hd) ▸ rfl
    case isFalse =>
      split at hd
      case isFalse => simp at hd
      case isTrue =>
        split at hd
        case isFalse => simp at hd
        case isTrue =>
          cases hopen : g.suspicions.lookup m.name with
          | none => simp [hopen] at hd
          | some sus =>
              have hacc : sus.accusation.name = m.name := h.accused m.name sus hopen
              simp only [hopen, Option.bind_some] at hd
              split at hd
              · rw [← hacc, ← Option.some.inj hd]
                rfl
              · simp at hd
  rw [DeathAccepted, DeathAccepted, hnews]
  exact exists_congr fun d => and_congr_right fun hd => hheeds d (hname d hd)

/-- A list takes from the count in excess as much as it has reports of deaths
that are accepted to begin with. -/
theorem surplus_merge (h : Tabled env g) (needBc : Bool) {l : List NodeState}
    (hnodup : (l.map NodeState.name).Nodup) :
    (g.merge env needBc l).surplus =
      g.surplus - UInt32.ofNat (l.countP fun m => g.DeathAccepted (.message m needBc)) := by
  induction l generalizing g with
  | nil => simp [Gossiper.merge]
  | cons m l ih =>
      rw [List.map_cons, List.nodup_cons] at hnodup
      have hnext : Tabled env (g.step env (.message m needBc)) := h.step _ trivial
      have hcount : l.countP (fun r => (g.step env (.message m needBc)).DeathAccepted
            (.message r needBc)) =
          l.countP fun r => g.DeathAccepted (.message r needBc) := by
        apply List.countP_congr
        intro r hr
        have hne : m.name ≠ r.name := fun heq => hnodup.1 (heq ▸ List.mem_map_of_mem hr)
        have hpeer : (g.step env (.message m needBc)).peer r.name = g.peer r.name :=
          congrArg Prod.fst (held_mergeState_of_ne h hne)
        simpa using deathAccepted_congr h hpeer needBc
      have hstep := surplus_step h (e := .message m needBc) trivial
      have hrun : g.merge env needBc (m :: l) =
          (g.step env (.message m needBc)).merge env needBc l := rfl
      rw [hrun, ih hnext hnodup.2, hcount, hstep, List.countP_cons]
      by_cases hdeath : g.DeathAccepted (.message m needBc)
      · simp only [hdeath, if_true, decide_true, UInt32.ofNat_add]
        grind
      · simp only [hdeath, if_false, decide_false, Nat.add_zero, Bool.false_eq_true]

/-! ## The whole state -/

/-- What two orders of one list have in common. -/
structure SameState (g g' : Gossiper) : Prop where
  records : ∀ x, g.getNodeState x = g'.getNodeState x
  members : ∀ x, x ∈ g.nodes ↔ x ∈ g'.nodes
  nodeNum : g.nodeNum = g'.nodeNum
  dominant : g.dominant = g'.dominant
  suspected : ∀ x, x ∈ g.suspicions ↔ x ∈ g'.suspicions
  queued : ∀ x, (g.bcQueue.message x).map (fun m => (m.dominant, m.state)) =
    (g'.bcQueue.message x).map fun m => (m.dominant, m.state)

theorem sameState_merge_perm (h : Tabled env g) (needBc : Bool) {l l' : List NodeState}
    (hperm : l.Perm l') (hnodup : (l.map NodeState.name).Nodup) :
    SameState (g.merge env needBc l) (g.merge env needBc l') := by
  have hnodup' : (l'.map NodeState.name).Nodup := (hperm.map NodeState.name).nodup_iff.1 hnodup
  have htable : Tabled env (g.merge env needBc l) := h.merge l
  have htable' : Tabled env (g.merge env needBc l') := h.merge l'
  have halike := alikeOf_merge_perm h needBc hperm hnodup
  have hrecords : ∀ x, (g.merge env needBc l).getNodeState x =
      (g.merge env needBc l').getNodeState x := fun x => (halike x).1.record
  have hmembers : ∀ x, x ∈ (g.merge env needBc l).nodes ↔ x ∈ (g.merge env needBc l').nodes := by
    intro x
    rw [htable.mem_nodes_iff, htable'.mem_nodes_iff, Down, Down, hrecords x]
  have hlength : (g.merge env needBc l).nodes.length = (g.merge env needBc l').nodes.length :=
    ((List.perm_ext_iff_of_nodup htable.index.nodup htable'.index.nodup).2 hmembers).length_eq
  have hsurplus : (g.merge env needBc l).surplus = (g.merge env needBc l').surplus := by
    rw [surplus_merge h needBc hnodup, surplus_merge h needBc hnodup',
      hperm.countP_eq fun m => decide (g.DeathAccepted (.message m needBc))]
  refine ⟨hrecords, hmembers, ?_, (halike env.conf.name).2 rfl, ?_, ?_⟩
  · unfold surplus at hsurplus
    rw [hlength] at hsurplus
    grind
  · intro x
    have hsus : ((g.merge env needBc l).suspicions.lookup x).isSome =
        ((g.merge env needBc l').suspicions.lookup x).isSome := (halike x).1.suspected
    rw [← AList.lookup_isSome, ← AList.lookup_isSome, hsus]
  · intro x
    rw [show (g.merge env needBc l).bcQueue.message x = (g.merge env needBc l').bcQueue.message x
      from (halike x).1.queued]

/-- `mergeStates` does the same with every order of a list whose names are
distinct: it follows an absent field in all of them or in none. -/
theorem sameState_mergeStates_perm (env : Env) (es : List Event) (hv : Valid env fresh es)
    (needBc : Bool) (nss nss' : List Message.NodeState) (hperm : nss.Perm nss')
    (hnames : (nss.filterMap Message.NodeState.readName).Nodup) :
    let g := run (Gossiper.step env) fresh es
    Option.Rel SameState (g.mergeStates env nss needBc) (g.mergeStates env nss' needBc) := by
  intro g
  have htable : Tabled env g := tabled_run hv
  cases hread : nss.mapM convert with
  | none =>
      have hread' := mapM_eq_none_of_perm hperm hread
      have hnone : ∀ {l : List Message.NodeState}, l.mapM convert = none →
          g.mergeStates env l needBc = none := by
        intro l hl
        rw [Option.eq_none_iff_forall_ne_some]
        intro g' hg'
        obtain ⟨states, hstates, _⟩ := (mergeStates_eq_some_iff env l needBc g g').1 hg'
        rw [hl] at hstates
        cases hstates
      rw [hnone hread, hnone hread']
      exact .none
  | some states =>
      obtain ⟨states', hread', hstates⟩ := exists_mapM_of_perm hperm hread
      have hnodup : (states.map NodeState.name).Nodup :=
        filterMap_of_mapM (fun _ _ => readName_of_convert) hread ▸ hnames
      rw [(mergeStates_eq_some_iff env nss needBc g _).2 ⟨states, hread, rfl⟩,
        (mergeStates_eq_some_iff env nss' needBc g _).2 ⟨states', hread', rfl⟩]
      exact .some (sameState_merge_perm htable needBc hstates hnodup)

/-- The table that stands for `news`. -/
def wireNews (name : String) (dominant : UInt64) (state : Message.State) (sender : String) :
    Message.NodeState where
  node := some { name := some name, ip := some "b", port := 1 }
  state := state.toRaw
  dominant := dominant
  from_ := some sender
  timeStamp := 0

/-- An accusation that completes a quorum, news of another node and an accusation
of the node itself, in two orders. -/
theorem sameState_mergeStates_of_conviction :
    let es : List Event :=
      [.join, .message (news "c:1" 4 .alive "c:1") true,
        .message (news "c:1" 4 .suspect "d:1") true]
    let nss := [wireNews "c:1" 4 .suspect "b:1", wireNews "b:1" 1 .alive "b:1",
      wireNews "a:1" 7 .dead "d:1"]
    Option.Rel SameState ((run (Gossiper.step sampleEnv) fresh es).mergeStates sampleEnv nss true)
      ((run (Gossiper.step sampleEnv) fresh es).mergeStates sampleEnv nss.reverse true) :=
  sameState_mergeStates_perm sampleEnv _ (by decide) true _ _ (List.reverse_perm _).symm (by decide)

end Gossiper

end CppGossip
