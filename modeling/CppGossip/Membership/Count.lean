import CppGossip.Gossiper.News

/-!
# The member count

`nodeNum` is meant to be the length of `nodes`. `addNodeState` and
`removeNodeState` move the two together, but `deadNode` lowers the count once
more for every report of a death that passes its first test, whatever becomes
of the report. `surplus` measures the difference in the arithmetic of the
counter, and `surplus_step` says that each accepted report takes one from it
and nothing else changes it.
-/

namespace CppGossip

open Collection Transition

namespace Gossiper

/-- By how much the count exceeds the number of members, modulo `2 ^ 32`. -/
def surplus (g : Gossiper) : UInt32 := g.nodeNum - UInt32.ofNat g.nodes.length

/-- The event brings news of a death that `deadNode` does not turn away. -/
def DeathAccepted (g : Gossiper) (e : Event) : Prop := ∃ d ∈ g.deathNews e, g.Heeds d

instance (g : Gossiper) (e : Event) : Decidable (g.DeathAccepted e) :=
  inferInstanceAs (Decidable (∃ d ∈ g.deathNews e, g.Heeds d))

variable {env : Env} {g : Gossiper}

@[simp] theorem surplus_counted (s : NodeState) (sus : Suspicion) :
    (g.counted s sus).surplus = g.surplus := rfl

theorem surplus_aliveNode (a : NodeState) (needBc : Bool) :
    (g.aliveNode env a needBc).surplus = g.surplus := by
  by_cases hacc : g.AliveAccepted env a
  · rw [aliveNode_of_accepted hacc]
    by_cases hdown : g.Down a.name
    · simp only [surplus, hdown, if_true, List.length_append, List.length_singleton,
        UInt32.ofNat_add]
      grind
    · simp only [surplus, hdown, if_false]
  · rw [aliveNode_of_not_accepted hacc]

theorem surplus_deadNode (h : Tabled env g) (d : NodeState) :
    (g.deadNode env d).surplus = if g.Heeds d then g.surplus - 1 else g.surplus := by
  by_cases hheeds : g.Heeds d
  · rw [if_pos hheeds]
    by_cases hdown : g.Down d.name
    · rw [deadNode_of_down hheeds hdown]
      simp only [surplus]
      grind
    · by_cases hself : d.name = env.conf.name
      · rw [deadNode_of_self hheeds hdown hself h.staying]
        simp only [surplus, fuckyou_nodeNum, fuckyou_nodes]
        grind
      · -- a node that is not down is listed, so the count is lowered twice
        have hmem : d.name ∈ g.nodes := (h.mem_nodes_iff _).2 hdown
        have hlen : g.nodes.length = (swapRemove d.name g.nodes).length + 1 := by
          have hpos := List.length_pos_of_mem hmem
          rw [length_swapRemove_of_mem hmem]
          omega
        rw [deadNode_of_buried hheeds hdown fun hand => hself hand.1]
        simp only [surplus, hmem, if_true, hlen, UInt32.ofNat_add]
        grind
  · rw [deadNode_of_not_heeds hheeds, if_neg hheeds]

theorem surplus_suspectNode (h : Tabled env g) (s : NodeState) :
    (g.suspectNode env s).surplus =
      if ∃ d ∈ (g.quorum s).map NodeState.killed, g.Heeds d then g.surplus - 1
      else g.surplus := by
  have hcases := suspected env g s
  generalize g.suspectNode env s = g' at hcases
  cases hcases with
  | stale hheeds => simp [quorum_of_not_heeds hheeds]
  | convicted hheeds sus hsus hquorum =>
      rw [surplus_deadNode (h.counted hsus)]
      simp [quorum_of_confirmed hheeds hsus, hquorum]
  | confirmed hheeds sus hsus hquorum =>
      simp [quorum_of_confirmed hheeds hsus, hquorum]
      rfl
  | ignored _ hsus _ => simp [quorum_of_none hsus]
  | openedSelf _ hsus _ _ => simp [quorum_of_none hsus, surplus, updateNodeState]
  | opened _ hsus _ _ => simp [quorum_of_none hsus, surplus, updateNodeState]

/-- Every accepted report of a death takes one from the count in excess of what
it should be. -/
theorem surplus_step (h : Tabled env g) {e : Event} (he : g.Enabled e) :
    (g.step env e).surplus = if g.DeathAccepted e then g.surplus - 1 else g.surplus := by
  have hcases := handled h e he
  generalize g.step env e = g' at hcases
  cases hcases with
  | quiet hsilent hquiet =>
      simp [DeathAccepted, deathNews_of_silent hsilent, surplus, hquiet.nodeNum, hquiet.nodes]
  | joined =>
      rw [surplus_aliveNode]
      simp [DeathAccepted, deathNews, callback]
      rfl
  | alive a needBc ha => simp [DeathAccepted, deathNews, callback, ha, surplus_aliveNode]
  | suspect s needBc hs =>
      rw [surplus_suspectNode h]
      simp [DeathAccepted, deathNews, callback, hs]
  | timeout s _ _ =>
      rw [surplus_suspectNode h]
      simp [DeathAccepted, deathNews, callback]
  | dead d needBc hd =>
      rw [surplus_deadNode h]
      simp [DeathAccepted, deathNews, hd]
  | convicted s _ =>
      rw [surplus_deadNode h]
      simp [DeathAccepted, deathNews, callback]
  | alerted n => simp [DeathAccepted, deathNews, callback, surplus]

/-- The event adds a name to the list of members. -/
def NewMember (env : Env) (g : Gossiper) (e : Event) : Prop :=
  ∃ a ∈ g.aliveNews env e, g.AliveAccepted env a ∧ g.Down a.name

instance (env : Env) (g : Gossiper) (e : Event) : Decidable (g.NewMember env e) :=
  inferInstanceAs (Decidable (∃ a ∈ g.aliveNews env e, _))

theorem length_nodes_aliveNode (a : NodeState) (needBc : Bool) :
    (g.aliveNode env a needBc).nodes.length =
      g.nodes.length + if g.AliveAccepted env a ∧ g.Down a.name then 1 else 0 := by
  by_cases hacc : g.AliveAccepted env a
  · rw [aliveNode_of_accepted hacc]
    by_cases hdown : g.Down a.name
    · simp [hacc, hdown]
    · simp [hdown]
  · simp [aliveNode_of_not_accepted hacc, hacc]

theorem nodes_suspectNode {s : NodeState}
    (h : ¬ ∃ d ∈ (g.quorum s).map NodeState.killed, g.Heeds d) :
    (g.suspectNode env s).nodes = g.nodes := by
  have hcases := suspected env g s
  generalize g.suspectNode env s = g' at hcases
  cases hcases with
  | stale _ => rfl
  | convicted hheeds sus hsus hquorum =>
      have hturned : ¬ (g.counted s sus).Heeds sus.accusation.killed := by
        simpa [quorum_of_confirmed hheeds hsus, hquorum] using h
      rw [deadNode_of_not_heeds hturned]
      rfl
  | confirmed _ _ _ _ => rfl
  | ignored _ _ _ => rfl
  | openedSelf _ _ _ _ => simp [updateNodeState]
  | opened _ _ _ _ => rfl

/-- Without an accepted report of a death the list grows by the new members. -/
theorem length_nodes_step (h : Tabled env g) {e : Event} (he : g.Enabled e)
    (hdeath : ¬ g.DeathAccepted e) :
    (g.step env e).nodes.length = g.nodes.length + if g.NewMember env e then 1 else 0 := by
  have hcases := handled h e he
  generalize g.step env e = g' at hcases
  cases hcases with
  | quiet hsilent hquiet => simp [NewMember, aliveNews_of_silent hsilent, hquiet.nodes]
  | joined =>
      rw [length_nodes_aliveNode]
      simp only [NewMember, aliveNews, Option.mem_some_iff, exists_eq_left']
      rfl
  | alive a needBc ha =>
      rw [length_nodes_aliveNode]
      simp [NewMember, aliveNews, ha]
  | suspect s needBc hs =>
      rw [nodes_suspectNode (by simpa [DeathAccepted, deathNews, callback, hs] using hdeath)]
      simp [NewMember, aliveNews, hs]
  | timeout s _ _ =>
      rw [nodes_suspectNode (by simpa [DeathAccepted, deathNews, callback] using hdeath)]
      simp [NewMember, aliveNews]
  | dead d needBc hd =>
      have hturned : ¬ g.Heeds d := by simpa [DeathAccepted, deathNews, hd] using hdeath
      simp [deadNode_of_not_heeds hturned, NewMember, aliveNews, hd]
  | convicted s _ =>
      have hturned : ¬ g.Heeds s.killed := by
        simpa [DeathAccepted, deathNews, callback] using hdeath
      simp [deadNode_of_not_heeds hturned, NewMember, aliveNews]
  | alerted n => simp [NewMember, aliveNews]

theorem nodeNum_eq_length_iff_surplus :
    g.nodeNum.toNat = g.nodes.length ↔ g.surplus = 0 ∧ g.nodes.length < UInt32.size := by
  constructor
  · intro h
    refine ⟨?_, h ▸ g.nodeNum.toNat_lt⟩
    rw [surplus, ← h, UInt32.ofNat_toNat]
    grind
  · rintro ⟨hsurplus, hlt⟩
    have heq : g.nodeNum = UInt32.ofNat g.nodes.length := by
      unfold surplus at hsurplus
      grind
    rw [heq, UInt32.toNat_ofNat_of_lt' hlt]

/-- The step leaves the count right: it brings no death that is accepted, and it
adds no member to a list whose length the counter cannot exceed. -/
def KeepsCount (env : Env) (g : Gossiper) (e : Event) : Prop :=
  ¬ g.DeathAccepted e ∧ ¬ (g.NewMember env e ∧ g.nodes.length + 1 = UInt32.size)

instance (env : Env) (g : Gossiper) (e : Event) : Decidable (g.KeepsCount env e) :=
  inferInstanceAs (Decidable (_ ∧ _))

theorem nodeNum_eq_length_step_iff (h : Tabled env g) {e : Event} (he : g.Enabled e)
    (hcount : g.nodeNum.toNat = g.nodes.length) :
    (g.step env e).nodeNum.toNat = (g.step env e).nodes.length ↔ g.KeepsCount env e := by
  obtain ⟨hsurplus, hlt⟩ := nodeNum_eq_length_iff_surplus.1 hcount
  rw [nodeNum_eq_length_iff_surplus, surplus_step h he, hsurplus, KeepsCount]
  by_cases hdeath : g.DeathAccepted e
  · simp only [hdeath, if_true, not_true_eq_false, false_and, iff_false, not_and]
    intro hwrap
    exact absurd hwrap (by decide)
  · rw [length_nodes_step h he hdeath]
    by_cases hnew : g.NewMember env e
    · simp only [hdeath, hnew, if_false, if_true, not_false_eq_true, true_and]
      omega
    · simp only [hdeath, hnew, if_false, not_false_eq_true, true_and, false_and, and_true,
        Nat.add_zero, iff_true]
      exact hlt

/-- The count is the number of members in every state of a run exactly when no
step of the run accepts a report of a death or adds a member beyond the range
of the counter. -/
theorem nodeNum_eq_length_throughout_iff (env : Env) (es : List Event)
    (hv : Valid env fresh es) :
    Throughout (Gossiper.step env) (fun g => g.nodeNum.toNat = g.nodes.length) fresh es ↔
      Along (Gossiper.step env) (KeepsCount env) fresh es :=
  throughout_iff_along (I := Tabled env) (fun _ e h he => h.step e he)
    (fun _ _ h hcount he => nodeNum_eq_length_step_iff h he hcount) tabled_fresh rfl hv

theorem nodeNum_eq_length_of_join_of_alive :
    Throughout (Gossiper.step sampleEnv) (fun g => g.nodeNum.toNat = g.nodes.length) fresh
      [.join, .message (news "b:1" 1 .alive "b:1") true] :=
  (nodeNum_eq_length_throughout_iff sampleEnv _ (by decide)).2 (by decide)

/-- One member dies and the count drops by two. -/
theorem nodeNum_ne_length_of_dead :
    let es : List Event :=
      [.join, .message (news "b:1" 1 .alive "b:1") true, .message (news "b:1" 1 .dead "c:1") true]
    Valid sampleEnv fresh es ∧
      ¬ Throughout (Gossiper.step sampleEnv) (fun g => g.nodeNum.toNat = g.nodes.length) fresh es := by
  decide

end Gossiper

end CppGossip
