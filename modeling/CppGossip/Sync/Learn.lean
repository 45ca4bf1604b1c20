import CppGossip.Membership.Record
import CppGossip.Sync.Exchange

/-!
# What a joiner learns

A node that has just joined knows nobody but itself. The reply to its sync
request tells it about every node the seed records, but only `aliveNode` puts a
new name in the table: an accusation of an unknown node and news of its death
are both dropped. So the joiner lists the nodes that the seed records alive, and
misses those that the seed suspects though it still counts them as members.
-/

namespace CppGossip

open Collection Transition

namespace Gossiper

variable {env envX envY : Env} {g x y x' y' : Gossiper} {z : String}

theorem getNodeState_of_held (g' : Gossiper) (h : held env z g' = held env z g) :
    g'.getNodeState z = g.getNodeState z :=
  congrArg (fun p => p.1.record) h

/-- A node that has just joined has no record of any other. -/
theorem getNodeState_joined_of_ne (onJoin onLeave : Bool) (hz : z ≠ env.conf.name) :
    (joined env onJoin onLeave).getNodeState z = none := by
  have hnot : ¬ (((fresh.registerNotifier onJoin onLeave).announced env).AliveAccepted env
      (selfState env (fresh.dominant + 1)) ∧ env.conf.name = z) := fun hand => hz hand.2.symm
  exact (getNodeState_aliveNode _ false z).trans (if_neg hnot)

/-- Whatever is merged, a node goes on listing itself. -/
theorem up_merge (h : Tabled env g) (hup : ¬ g.Down env.conf.name) (needBc : Bool)
    (l : List NodeState) : ¬ (g.merge env needBc l).Down env.conf.name := by
  induction l generalizing g with
  | nil => exact hup
  | cons m l ih =>
      have hnext : Tabled env (g.step env (.message m needBc)) := h.step _ trivial
      exact ih hnext (up_own_step h trivial hup)

/-- A record about a name not heard of before is stored when it says alive, and
dropped when it does not. -/
theorem up_mergeState_of_unknown (h : Tabled env g) {r : NodeState}
    (hnone : g.getNodeState r.name = none) (hpos : 0 < r.dominant) (needBc : Bool) :
    ¬ (g.mergeState env needBc r).Down r.name ↔ r.state = .alive := by
  have hdown : g.Down r.name := down_of_none hnone
  unfold mergeState
  cases hr : r.state with
  | alive =>
      have hacc : g.AliveAccepted env r := by
        refine ⟨h.not_leaving r, ?_⟩
        rw [knownDominant_of_none hnone]
        exact hpos
      have hrecord : (g.aliveNode env r needBc).getNodeState r.name =
          some { r with timestamp := 0 } := by
        rw [getNodeState_aliveNode, if_pos ⟨hacc, rfl⟩]
      simp [down_of_some hrecord, hr]
  | suspect =>
      have heq : g.suspectNode env r = g := by simp only [suspectNode, hnone]
      simp [heq, hdown]
  | dead =>
      have heq : g.deadNode env r = g := deadNode_of_not_heeds (not_heeds_of_none hnone)
      simp [heq, hdown]
  | other raw hraw => simp [hdown]

/-- Another node is up for the joiner exactly when the seed records it alive. -/
theorem up_exchange_iff (hy : Tabled envY y') (hrec : Recorded y') (onJoin onLeave : Bool)
    {reply : List NodeState} (hreply : reply.Perm y'.localState) (hz : z ≠ envX.conf.name) :
    ¬ ((joined envX onJoin onLeave).merge envX false reply).Down z ↔
      ∃ r, y'.getNodeState z = some r ∧ r.state = .alive := by
  have hx : Tabled envX (joined envX onJoin onLeave) := tabled_joined envX onJoin onLeave
  have hnone : (joined envX onJoin onLeave).getNodeState z = none :=
    getNodeState_joined_of_ne onJoin onLeave hz
  have hnodup : (reply.map NodeState.name).Nodup :=
    (hreply.map NodeState.name).nodup_iff.2 (nodup_localState hy)
  by_cases hmem : z ∈ reply.map NodeState.name
  · obtain ⟨r, hr, rfl⟩ := List.mem_map.1 hmem
    have hsent : y'.getNodeState r.name = some r :=
      (mem_localState_iff hy).1 (hreply.mem_iff.1 hr)
    obtain ⟨g₁, hg₁, hbefore, hafter⟩ := held_merge_of_mem hx false hnodup hr
    have hunknown : g₁.getNodeState r.name = none :=
      (getNodeState_of_held g₁ hbefore).trans hnone
    have hpos : 0 < r.dominant := (hrec r.name r hsent).2
    rw [Down, getNodeState_of_held _ hafter]
    refine (up_mergeState_of_unknown hg₁ hunknown hpos false).trans ?_
    simp [hsent]
  · have hunsent : y'.getNodeState z = none := by
      rw [Option.eq_none_iff_forall_not_mem]
      intro r hr
      have hname : r.name = z := hy.keyed z r hr
      have hsent : r ∈ reply := hreply.mem_iff.2 ((mem_localState_iff hy).2 (hname.symm ▸ hr))
      exact hmem (hname ▸ List.mem_map_of_mem hsent)
    have hdown : ((joined envX onJoin onLeave).merge envX false reply).Down z := by
      apply down_of_none
      exact (getNodeState_of_held _ (held_merge_of_notMem hx hmem)).trans hnone
    simp [hdown, hunsent]

/-- After the exchange a joiner lists itself and the nodes that the seed lists
and does not suspect. -/
theorem getAliveNodes_exchange (envX envY : Env) (es : List Event) (hv : Valid envY fresh es)
    (onJoin onLeave : Bool) (x' y' : Gossiper)
    (h : Exchange envX envY (joined envX onJoin onLeave) (run (Gossiper.step envY) fresh es) x' y')
    (z : String) :
    z ∈ x'.getAliveNodes ↔
      z = envX.conf.name ∨
        z ∈ y'.getAliveNodes ∧ ∀ r, y'.getNodeState z = some r → r.state ≠ .suspect := by
  obtain ⟨request, reply, _, rfl, hreply, rfl⟩ := h
  have hx : Tabled envX (joined envX onJoin onLeave) := tabled_joined envX onJoin onLeave
  have hvalid := valid_messages hv true request
  rw [merge_run] at hreply ⊢
  have hy := tabled_run hvalid
  have hrec := recorded_run hvalid
  rw [getAliveNodes, (hx.merge reply).mem_nodes_iff, getAliveNodes, hy.mem_nodes_iff]
  by_cases hz : z = envX.conf.name
  · subst hz
    exact iff_of_true (up_merge hx (up_joined envX onJoin onLeave) false reply) (Or.inl rfl)
  · rw [up_exchange_iff hy hrec onJoin onLeave hreply hz, or_iff_right hz]
    generalize run (Gossiper.step envY) fresh _ = g at hrec
    cases hr : g.getNodeState z with
    | none => simp [down_of_none hr]
    | some r =>
        have hnamed : r.state.Named := (hrec z r hr).1
        rw [down_of_some hr]
        rcases hnamed with hs | hs | hs
        · simp [hs]
        · simp [hs]
        · simp [hs]

/-- A node called `x:1`. -/
def joinerEnv : Env := { sampleEnv with conf := { name := "x:1", addr := "x", port := 1 } }

/-- The exchange in which both tables are sent in the order in which they are kept. -/
theorem exchange_localState (envX envY : Env) (x y : Gossiper) :
    Exchange envX envY x y
      (x.merge envX false (y.merge envY true x.localState).localState)
      (y.merge envY true x.localState) :=
  ⟨x.localState, _, .refl _, rfl, .refl _, rfl⟩

/-- The seed counts one of three nodes dead. -/
theorem getAliveNodes_exchange_of_dead :
    let es : List Event :=
      [.join, .message (news "b:1" 1 .alive "b:1") true, .message (news "c:1" 4 .alive "c:1") true,
        .message (news "c:1" 4 .dead "b:1") true]
    let x := joined joinerEnv false false
    let y' := (run (Gossiper.step sampleEnv) fresh es).merge sampleEnv true x.localState
    let x' := x.merge joinerEnv false y'.localState
    "b:1" ∈ x'.getAliveNodes ↔
      "b:1" = "x:1" ∨
        "b:1" ∈ y'.getAliveNodes ∧ ∀ r, y'.getNodeState "b:1" = some r → r.state ≠ .suspect :=
  getAliveNodes_exchange joinerEnv sampleEnv _ (by decide) false false _ _
    (exchange_localState joinerEnv sampleEnv _ _) "b:1"

/-- The seed suspects `b:1` and goes on listing it; the joiner never hears of it. -/
theorem not_getAliveNodes_exchange_of_suspect :
    let es : List Event :=
      [.join, .message (news "b:1" 1 .alive "b:1") true,
        .message (news "b:1" 1 .suspect "c:1") true]
    let x := joined joinerEnv false false
    let y' := (run (Gossiper.step sampleEnv) fresh es).merge sampleEnv true x.localState
    let x' := x.merge joinerEnv false y'.localState
    Valid sampleEnv fresh es ∧
      Exchange joinerEnv sampleEnv x (run (Gossiper.step sampleEnv) fresh es) x' y' ∧
      ¬ (∀ z, z ∈ x'.getAliveNodes ↔ z ∈ y'.getAliveNodes ∨ z = "x:1") ∧
      x'.getAliveNodes = ["x:1", "a:1"] ∧ y'.getAliveNodes = ["a:1", "b:1", "x:1"] := by
  refine ⟨by decide, exchange_localState joinerEnv sampleEnv _ _, ?_, by decide, by decide⟩
  intro hall
  exact absurd ((hall "b:1").2 (Or.inl (by decide))) (by decide)

end Gossiper

end CppGossip
