import CppGossip.Membership.Record
import CppGossip.Own.Record

/-!
# Accesses without a test

Three accesses are made without a test: `updateNodeState` writes through the
pointer that it finds under a name, and `probe` takes the first of the names
that `roundrobinNode` returns and the record of that name. The handlers are
written out again here with these accesses as they are, `none` where one of them
goes wrong. Every reachable state after a `Join` lists the node itself, and from
there on they agree with the handlers that never fail.
-/

namespace CppGossip

open Collection Transition

namespace Gossiper

/-- `updateNodeState` on a pointer that may be null. -/
def updateNodeState? (target : String) (from_ : NodeState) (g : Gossiper) : Option Gossiper :=
  (g.nodeMap.lookup target).map fun _ => g.updateNodeState target from_

variable (env : Env)

/-- `aliveNode`. -/
def aliveNode? (a : NodeState) (needBc : Bool) (g : Gossiper) : Option Gossiper :=
  if g.isLeaving ∧ a.name = env.conf.name then some g
  else
    let state := (g.getNodeState a.name).getD { a with dominant := 0, state := .dead }
    if a.dominant ≤ state.dominant then some g
    else
      let needNotify := state.state = .dead
      let g := if needNotify then g.addNodeState a.name state else g
      (g.updateNodeState? a.name a).map fun g =>
        let g := g.eraseSuspicion a.name
        let g := if needBc then g.push env a else g
        let g := if a.name = env.conf.name then { g with dominant := a.dominant } else g
        if needNotify ∧ a.name ≠ env.conf.name ∧ g.notifyJoin then g.record (.notifyJoin a.name)
        else g

/-- `deadNode`. -/
def deadNode? (d : NodeState) (g : Gossiper) : Option Gossiper :=
  match g.getNodeState d.name with
  | none => some g
  | some state =>
      if d.dominant < state.dominant then some g
      else
        let g := g.eraseSuspicion d.name
        let g := { g with nodeNum := g.nodeNum - 1 }
        if state.state = .dead then some g
        else if d.name = env.conf.name ∧ ¬ g.isLeaving then some (g.fuckyou env d.dominant)
        else
          (g.updateNodeState? d.name d).map fun g =>
            let g := g.removeNodeState d.name
            let g := g.push env d
            if d.name ≠ env.conf.name ∧ g.notifyLeave then g.record (.notifyLeave d.name)
            else g

/-- `suspectNode`. -/
def suspectNode? (s : NodeState) (g : Gossiper) : Option Gossiper :=
  match g.getNodeState s.name with
  | none => some g
  | some state =>
      if s.dominant < state.dominant then some g
      else
        match g.suspicions.lookup s.name with
        | some sus =>
            let (confirmed, sus) := sus.confirm s.from_
            let g := { g with suspicions := g.suspicions.insert s.name sus }
            if confirmed then g.deadNode? env { sus.accusation with state := .dead }
            else some (g.push env s)
        | none =>
            if state.state ≠ .alive then some g
            else
              let g := if env.conf.name = s.name then g.fuckyou env s.dominant else g.push env s
              (g.updateNodeState? s.name s).map fun g =>
                if s.name ∈ g.suspicions then g
                else
                  { g with
                    suspicions := g.suspicions.insert s.name (Suspicion.new env g.nodeNum s)
                    timers := s :: g.timers }

/-- `probe`: `candi[0]` and `node->` go wrong on an empty list and on a name
without a record. -/
def probe? (cursor : ℕ) (g : Gossiper) : Option Gossiper :=
  (g.roundrobinNode 1 cursor).1.head?.bind fun candi =>
    (g.getNodeState candi).map fun node =>
      if node.state = .alive ∧ node.name ≠ env.conf.name then
        { g.nextSeqNum.2 with pings := node :: g.pings }
      else g

/-- `mergeState`. -/
def mergeState? (needBc : Bool) (state : NodeState) (g : Gossiper) : Option Gossiper :=
  match state.state with
  | .alive => g.aliveNode? env state needBc
  | .suspect => g.suspectNode? env state
  | .dead => g.deadNode? env state
  | .other _ _ => some g

/-- `Join` once its argument has been parsed. -/
def join? (g : Gossiper) : Option Gossiper :=
  let (d, g) := g.nextDominant 1
  let a := selfState env d
  (g.record (.issue a none)).aliveNode? env a false

/-- The handling of one event. -/
def step? (g : Gossiper) : Event → Option Gossiper
  | .registerNotifier join leave => some (g.registerNotifier join leave)
  | .join => g.join? env
  | .message state needBc => g.mergeState? env needBc state
  | .probe cursor => g.probe? env cursor
  | .probeTimeout node => g.suspectNode? env node
  | .deadAlert name state dominant => some (g.deadAlert env name state dominant)
  | .conviction accusation => g.deadNode? env { accusation with state := .dead }
  | .batch n applied => some (g.batch n applied)

variable {env} {g : Gossiper}

/-! ## Writing through a pointer -/

theorem updateNodeState?_of_some {x : String} {r : NodeState} (h : g.getNodeState x = some r)
    (from_ : NodeState) : g.updateNodeState? x from_ = some (g.updateNodeState x from_) := by
  have hlookup : g.nodeMap.lookup x = some r := h
  rw [updateNodeState?, hlookup, Option.map_some]

/-- A name that is not recorded is added before its record is written. -/
theorem aliveNode?_eq (a : NodeState) (needBc : Bool) :
    g.aliveNode? env a needBc = some (g.aliveNode env a needBc) := by
  rw [aliveNode?, aliveNode]
  split
  case isTrue => rfl
  case isFalse =>
    dsimp only
    split
    case isTrue => rfl
    case isFalse =>
      generalize hstate : (g.getNodeState a.name).getD { a with dominant := 0, state := .dead } = state
      by_cases hdead : state.state = .dead
      · have hadded : (g.addNodeState a.name state).getNodeState a.name = some state :=
          AList.lookup_insert _
        simp only [hdead, if_true, updateNodeState?_of_some hadded, Option.map_some]
      · cases hr : g.getNodeState a.name with
        | none =>
          rw [hr, Option.getD_none] at hstate
          exact absurd (hstate ▸ rfl) hdead
        | some r => simp only [hdead, if_false, updateNodeState?_of_some hr, Option.map_some]

theorem deadNode?_eq (d : NodeState) : g.deadNode? env d = some (g.deadNode env d) := by
  rw [deadNode?, deadNode]
  cases hr : g.getNodeState d.name with
  | none => rfl
  | some state =>
    have hfound : ({ g.eraseSuspicion d.name with
        nodeNum := (g.eraseSuspicion d.name).nodeNum - 1 } : Gossiper).getNodeState d.name =
          some state := hr
    dsimp only
    split
    · rfl
    · split
      · rfl
      · split
        · rfl
        · rw [updateNodeState?_of_some hfound, Option.map_some]

theorem suspectNode?_eq (s : NodeState) : g.suspectNode? env s = some (g.suspectNode env s) := by
  rw [suspectNode?, suspectNode]
  cases hr : g.getNodeState s.name with
  | none => rfl
  | some state =>
    dsimp only
    split
    · rfl
    · cases hsus : g.suspicions.lookup s.name with
      | some sus =>
        dsimp only
        split
        · exact deadNode?_eq _
        · rfl
      | none =>
        dsimp only
        split
        · rfl
        · have hfound : (if env.conf.name = s.name then g.fuckyou env s.dominant
              else g.push env s).getNodeState s.name = some state := by
            split
            · rw [getNodeState, fuckyou_nodeMap]
              exact hr
            · exact hr
          rw [updateNodeState?_of_some hfound, Option.map_some]

/-! ## After a join -/

/-- The node lists itself, and what is listed is recorded. -/
structure Present (env : Env) (g : Gossiper) : Prop extends Tabled env g where
  own : env.conf.name ∈ g.nodes

theorem Present.step (h : Present env g) {e : Event} (he : g.Enabled e) :
    Present env (g.step env e) := by
  have hnext : Tabled env (g.step env e) := h.toTabled.step e he
  have hup : ¬ g.Down env.conf.name := (h.mem_nodes_iff _).1 h.own
  exact ⟨hnext, (hnext.mem_nodes_iff _).2 (up_own_step h.toTabled he hup)⟩

theorem present_joined (env : Env) (onJoin onLeave : Bool) :
    Present env (joined env onJoin onLeave) := by
  have h : Tabled env (joined env onJoin onLeave) := tabled_joined env onJoin onLeave
  exact ⟨h, (h.mem_nodes_iff _).2 (up_joined env onJoin onLeave)⟩

/-- The name to be probed and its record. -/
theorem Present.exists_probed (h : Present env g) (cursor : ℕ) :
    ∃ candi node, (g.roundrobinNode 1 cursor).1 = [candi] ∧ g.getNodeState candi = some node := by
  have hlt : cursor % g.nodes.length < g.nodes.length :=
    Nat.mod_lt _ (List.length_pos_of_mem h.own)
  have hcandi := roundrobinNode_one (List.ne_nil_of_mem h.own) cursor
  rw [List.getD_eq_getElem?_getD, List.getElem?_eq_getElem hlt, Option.getD_some] at hcandi
  obtain ⟨node, hnode, _⟩ := (h.index.mem_iff _).1 (List.getElem_mem hlt)
  exact ⟨_, node, hcandi, hnode⟩

theorem Present.probe?_eq (h : Present env g) (cursor : ℕ) :
    g.probe? env cursor = some (g.probe env cursor) := by
  obtain ⟨candi, node, hcandi, hnode⟩ := h.exists_probed cursor
  rw [probe?, probe, hcandi, List.head?_cons, Option.bind_some]
  simp only [hnode, Option.map_some]

/-- Nothing goes wrong in a step. -/
theorem Present.step?_eq (h : Present env g) (e : Event) :
    g.step? env e = some (g.step env e) := by
  cases e with
  | registerNotifier join leave => rfl
  | join => exact aliveNode?_eq _ false
  | message m needBc =>
      rw [step?, Gossiper.step, mergeState?, mergeState]
      cases m.state with
      | alive => exact aliveNode?_eq m needBc
      | suspect => exact suspectNode?_eq m
      | dead => exact deadNode?_eq m
      | other raw hraw => rfl
  | probe cursor => exact h.probe?_eq cursor
  | probeTimeout node => exact suspectNode?_eq node
  | deadAlert name state dominant => rfl
  | conviction s => exact deadNode?_eq _
  | batch n applied => rfl

/-- In every state after a `Join` the node lists itself, `probe` finds one name
and its record, and whatever comes next is handled without a wrong access. -/
theorem present_of_joined (env : Env) (onJoin onLeave : Bool) (es : List Event)
    (hv : Valid env (joined env onJoin onLeave) es) :
    let g := run (Gossiper.step env) (joined env onJoin onLeave) es
    env.conf.name ∈ g.nodes ∧
      (∀ cursor, ∃ candi node,
        (g.roundrobinNode 1 cursor).1 = [candi] ∧ g.getNodeState candi = some node) ∧
      ∀ e, g.Enabled e → g.step? env e = some (g.step env e) := by
  intro g
  have h : Present env g :=
    hv.invariant (fun _ _ h he => h.step he) (present_joined env onJoin onLeave)
  exact ⟨h.own, h.exists_probed, fun e _ => h.step?_eq e⟩

/-- The node is accused of being dead and probes. -/
theorem present_of_accusation :
    let g := run (Gossiper.step sampleEnv) (joined sampleEnv true true)
      [.message (news "a:1" 1 .dead "b:1") true, .message (news "b:1" 1 .alive "b:1") true,
        .message (news "b:1" 1 .dead "c:1") true]
    sampleEnv.conf.name ∈ g.nodes ∧
      (∀ cursor, ∃ candi node,
        (g.roundrobinNode 1 cursor).1 = [candi] ∧ g.getNodeState candi = some node) ∧
      ∀ e, g.Enabled e → g.step? sampleEnv e = some (g.step sampleEnv e) :=
  present_of_joined sampleEnv true true _ (by decide)

end Gossiper

end CppGossip
