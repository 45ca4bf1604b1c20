import CppGossip.Collection.Index
import CppGossip.Gossiper.Outcome

/-!
# The membership table

`Tabled` is the invariant that ties the fields of the table together: `nodes` is
the index of the records that are not dead, and every record and every suspicion
stands under its own name. It also says what the pending probe timeouts are
bound to, since `suspectNode` copies that record into the table.
-/

namespace CppGossip

open Collection Transition

/-- A record counts as a member unless it is dead. -/
def NodeState.IsUp (r : NodeState) : Prop := r.state ≠ .dead

instance (r : NodeState) : Decidable r.IsUp := inferInstanceAs (Decidable (_ ≠ _))

namespace Gossiper

/-- `GetAliveNodes`. -/
def getAliveNodes (g : Gossiper) : List String := g.nodes

/-- The fields of the membership table agree. -/
structure Tabled (env : Env) (g : Gossiper) : Prop where
  index : IsIndex NodeState.IsUp g.nodeMap g.nodes
  keyed : ∀ x r, g.nodeMap.lookup x = some r → r.name = x
  accused : ∀ x sus, g.suspicions.lookup x = some sus → sus.accusation.name = x
  pinged : ∀ node ∈ g.pings, node.state = .alive ∧ node.name ≠ env.conf.name
  staying : g.isLeaving = false

variable {env : Env} {g : Gossiper}

theorem tabled_fresh : Tabled env fresh where
  index := isIndex_empty _
  keyed _ _ h := by simp [fresh] at h
  accused _ _ h := by simp [fresh] at h
  pinged _ h := by simp [fresh] at h
  staying := rfl

theorem Tabled.not_leaving (h : Tabled env g) (a : NodeState) :
    ¬ (g.isLeaving ∧ a.name = env.conf.name) := by
  intro hleave
  rw [h.staying] at hleave
  exact Bool.false_ne_true hleave.1

/-- A name is listed unless it is down. -/
theorem Tabled.mem_nodes_iff (h : Tabled env g) (x : String) : x ∈ g.nodes ↔ ¬ g.Down x := by
  rw [h.index.mem_iff]
  cases hr : g.getNodeState x with
  | none =>
      have hnone : g.nodeMap.lookup x = none := hr
      simp [hnone, down_of_none hr]
  | some r =>
      have hsome : g.nodeMap.lookup x = some r := hr
      simp [hsome, down_of_some hr, NodeState.IsUp]

theorem Tabled.aliveNode (h : Tabled env g) {a : NodeState} (needBc : Bool)
    (ha : a.state ≠ .dead) : Tabled env (g.aliveNode env a needBc) := by
  by_cases hacc : g.AliveAccepted env a
  · rw [aliveNode_of_accepted hacc]
    refine ⟨?_, forall_lookup_insert h.keyed rfl, forall_lookup_erase h.accused a.name,
      h.pinged, h.staying⟩
    have hup : NodeState.IsUp { a with timestamp := 0 } := ha
    by_cases hdown : g.Down a.name
    · have hnew : a.name ∉ g.nodes := fun hmem => (h.mem_nodes_iff _).1 hmem hdown
      simpa only [hdown, if_true] using h.index.insert_of_notMem hnew hup
    · have hmem : a.name ∈ g.nodes := (h.mem_nodes_iff _).2 hdown
      simpa only [hdown, if_false] using h.index.insert_of_mem hmem hup
  · rw [aliveNode_of_not_accepted hacc]
    exact h

theorem Tabled.deadNode (h : Tabled env g) {d : NodeState} (hd : d.state = .dead) :
    Tabled env (g.deadNode env d) := by
  by_cases hheeds : g.Heeds d
  · by_cases hdown : g.Down d.name
    · rw [deadNode_of_down hheeds hdown]
      exact ⟨h.index, h.keyed, forall_lookup_erase h.accused d.name, h.pinged, h.staying⟩
    · by_cases hself : d.name = env.conf.name
      · rw [deadNode_of_self hheeds hdown hself h.staying]
        exact ⟨by simpa using h.index, by simpa using h.keyed,
          by simpa using forall_lookup_erase h.accused d.name, by simpa using h.pinged,
          by simpa using h.staying⟩
      · rw [deadNode_of_buried hheeds hdown fun hand => hself hand.1]
        have hgone : ¬ NodeState.IsUp { d with timestamp := 0 } := fun hup => hup hd
        exact ⟨h.index.insert_swapRemove d.name hgone, forall_lookup_insert h.keyed rfl,
          forall_lookup_erase h.accused d.name, h.pinged, h.staying⟩
  · rw [deadNode_of_not_heeds hheeds]
    exact h

/-- Opening a suspicion overwrites the record of a listed node. -/
theorem Tabled.index_opened (h : Tabled env g) {s : NodeState} (hheeds : g.Heeds s)
    (halive : ∀ r ∈ g.getNodeState s.name, r.state = .alive) (hs : s.state ≠ .dead) :
    IsIndex NodeState.IsUp (g.nodeMap.insert s.name { s with timestamp := 0 }) g.nodes := by
  obtain ⟨r, hr, _⟩ := hheeds.exists_record
  have hup : r.state ≠ .dead := by
    rw [halive r hr]
    decide
  exact h.index.insert_of_mem ((h.index.mem_iff _).2 ⟨r, hr, hup⟩) hs

theorem Tabled.counted (h : Tabled env g) {s : NodeState} {sus : Suspicion}
    (hsus : g.suspicions.lookup s.name = some sus) : Tabled env (g.counted s sus) := by
  have hname : (sus.confirm s.from_).2.accusation.name = s.name := by
    rw [Suspicion.confirm_accusation]
    exact h.accused s.name sus hsus
  exact ⟨h.index, h.keyed, forall_lookup_insert h.accused hname, h.pinged, h.staying⟩

theorem Tabled.suspectNode (h : Tabled env g) {s : NodeState} (hs : s.state ≠ .dead) :
    Tabled env (g.suspectNode env s) := by
  have hcases := suspected env g s
  generalize g.suspectNode env s = g' at hcases
  cases hcases with
  | stale _ => exact h
  | convicted _ sus hsus _ => exact (h.counted hsus).deadNode rfl
  | confirmed _ sus hsus _ =>
      have hcounted := h.counted hsus
      exact ⟨hcounted.index, hcounted.keyed, hcounted.accused, hcounted.pinged,
        hcounted.staying⟩
  | ignored _ _ _ => exact h
  | openedSelf hheeds _ halive _ =>
      have hkeyed : ∀ x r, (g.nodeMap.insert s.name { s with timestamp := 0 }).lookup x = some r →
          r.name = x := forall_lookup_insert h.keyed rfl
      refine ⟨?_, ?_, forall_lookup_insert h.accused rfl, ?_, ?_⟩
      · simpa [updateNodeState] using h.index_opened hheeds halive hs
      · simpa [updateNodeState] using hkeyed
      · simpa [updateNodeState] using h.pinged
      · simpa [updateNodeState] using h.staying
  | opened hheeds _ halive _ =>
      exact ⟨h.index_opened hheeds halive hs, forall_lookup_insert h.keyed rfl,
        forall_lookup_insert h.accused rfl, h.pinged, h.staying⟩

theorem Tabled.probe (h : Tabled env g) (cursor : ℕ) : Tabled env (g.probe env cursor) := by
  unfold Gossiper.probe
  split
  case h_1 => exact h
  case h_2 candi _ _ =>
    cases hr : g.getNodeState candi with
    | none => exact h
    | some node =>
        dsimp only
        split
        case isTrue hprobed =>
          refine ⟨h.index, h.keyed, h.accused, ?_, h.staying⟩
          intro n hn
          rcases List.mem_cons.1 hn with rfl | hn
          · exact hprobed
          · exact h.pinged n hn
        case isFalse => exact h

theorem Tabled.step (h : Tabled env g) (e : Event) (he : g.Enabled e) :
    Tabled env (g.step env e) := by
  cases e with
  | registerNotifier join leave => exact ⟨h.index, h.keyed, h.accused, h.pinged, h.staying⟩
  | join =>
      have hnext : Tabled env (({ g with dominant := g.dominant + 1 } : Gossiper).record
          (.issue (selfState env (g.dominant + 1)) none)) :=
        ⟨h.index, h.keyed, h.accused, h.pinged, h.staying⟩
      apply hnext.aliveNode false
      simp [selfState]
  | message m needBc =>
      cases hm : m.state with
      | alive =>
          simp only [Gossiper.step, mergeState, hm]
          exact h.aliveNode needBc (by simp [hm])
      | suspect =>
          simp only [Gossiper.step, mergeState, hm]
          exact h.suspectNode (by simp [hm])
      | dead =>
          simp only [Gossiper.step, mergeState, hm]
          exact h.deadNode hm
      | other raw hraw =>
          simp only [Gossiper.step, mergeState, hm]
          exact h
  | probe cursor => exact h.probe cursor
  | probeTimeout node =>
      apply h.suspectNode
      rw [(h.pinged node he).1]
      decide
  | deadAlert name state dominant =>
      simp only [Gossiper.step, deadAlert]
      split
      · exact ⟨by simpa using h.index, by simpa using h.keyed, by simpa using h.accused,
          by simpa using h.pinged, by simpa using h.staying⟩
      · exact h
  | conviction s => exact h.deadNode rfl
  | batch n applied => exact ⟨h.index, h.keyed, h.accused, h.pinged, h.staying⟩

/-- The table is kept in every run. -/
theorem tabled_run {es : List Event} (hv : Valid env fresh es) :
    Tabled env (run (Gossiper.step env) fresh es) :=
  hv.invariant (fun _ e h he => h.step e he) tabled_fresh

/-- What `GetAliveNodes` returns is the list of the names recorded and not dead,
each once, and every record has the name it is stored under. -/
theorem getAliveNodes_of_valid (env : Env) (es : List Event) (hv : Valid env fresh es) :
    let g := run (Gossiper.step env) fresh es
    g.getAliveNodes.Nodup ∧
      (∀ x, x ∈ g.getAliveNodes ↔ ∃ r, g.getNodeState x = some r ∧ r.state ≠ .dead) ∧
      ∀ x r, g.getNodeState x = some r → r.name = x := by
  intro g
  have htable : Tabled env g := tabled_run hv
  exact ⟨htable.index.nodup, htable.index.mem_iff, htable.keyed⟩

/-- `b:1` dies, comes back at a greater dominant and is listed once. -/
theorem getAliveNodes_of_revival :
    let es : List Event :=
      [.join, .message (news "b:1" 1 .alive "b:1") true, .message (news "b:1" 1 .dead "c:1") true,
        .message (news "b:1" 2 .alive "b:1") true]
    let g := run (Gossiper.step sampleEnv) fresh es
    g.getAliveNodes.Nodup ∧
      (∀ x, x ∈ g.getAliveNodes ↔ ∃ r, g.getNodeState x = some r ∧ r.state ≠ .dead) ∧
      ∀ x r, g.getNodeState x = some r → r.name = x :=
  getAliveNodes_of_valid sampleEnv _ (by decide)

end Gossiper

end CppGossip
