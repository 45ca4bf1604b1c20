import CppGossip.Membership.Table
import Mathlib.Logic.Function.Iterate

/-!
# Handlers as sequences of locked steps

With more than one thread the handlers run at the same time. Each takes the lock
of the table for one access and gives it back, so between two accesses of a
handler others may run. `Pc` says where in a handler a thread is and what it has
in its local variables, and `Pc.move` what it does next: one access under a lock
together with what follows it up to the next. A thread that runs alone does what
the handler does (`iterate_alone_aliveRead`, `iterate_alone_deadRead` and
`iterate_alone_suspectRead`).

`Confirm` counts under a lock of its own and does not touch the table. Its answer
is left open here.
-/

namespace CppGossip

open Collection

/-- The next access of a thread. -/
inductive Pc where
  | idle
  | aliveRead (a : NodeState) (needBc : Bool)
  | aliveAdd (a : NodeState) (needBc : Bool) (state : NodeState)
  | aliveUpdate (a : NodeState) (needBc needNotify : Bool)
  | aliveClear (a : NodeState) (needBc needNotify : Bool)
  | aliveTell (a : NodeState) (needBc needNotify : Bool)
  | suspectRead (s : NodeState)
  | suspectLook (s state : NodeState)
  | suspectConfirm (s : NodeState) (sus : Suspicion)
  | suspectTell (s : NodeState)
  | suspectUpdate (s : NodeState)
  | suspectOpen (s : NodeState)
  | deadRead (d : NodeState)
  | deadClear (d state : NodeState)
  | deadUpdate (d : NodeState)
  | deadRemove (d : NodeState)
  | deadTell (d : NodeState)
deriving DecidableEq

namespace Pc

/-- One step of a thread. `quorum` is the answer of `Confirm`, which convicts
when it is true. -/
def move (env : Env) (quorum : Bool) (g : Gossiper) : Pc → Gossiper × Pc
  | idle => (g, idle)
  | aliveRead a needBc =>
      if g.isLeaving ∧ a.name = env.conf.name then (g, idle)
      else
        let state := (g.getNodeState a.name).getD { a with dominant := 0, state := .dead }
        if a.dominant ≤ state.dominant then (g, idle)
        else if state.state = .dead then (g, aliveAdd a needBc state)
        else (g, aliveUpdate a needBc false)
  -- the copy that was read, or made up, becomes the record
  | aliveAdd a needBc state => (g.addNodeState a.name state, aliveUpdate a needBc true)
  | aliveUpdate a needBc needNotify => (g.updateNodeState a.name a, aliveClear a needBc needNotify)
  | aliveClear a needBc needNotify => (g.eraseSuspicion a.name, aliveTell a needBc needNotify)
  | aliveTell a needBc needNotify =>
      let g := if needBc then g.push env a else g
      let g := if a.name = env.conf.name then { g with dominant := a.dominant } else g
      (if needNotify ∧ a.name ≠ env.conf.name ∧ g.notifyJoin then g.record (.notifyJoin a.name)
        else g, idle)
  | suspectRead s =>
      match g.getNodeState s.name with
      | none => (g, idle)
      | some state => if s.dominant < state.dominant then (g, idle) else (g, suspectLook s state)
  | suspectLook s state =>
      match g.suspicions.lookup s.name with
      | some sus => (g, suspectConfirm s sus)
      | none => if state.state ≠ .alive then (g, idle) else (g, suspectTell s)
  | suspectConfirm s sus =>
      if quorum then (g, deadRead sus.accusation.killed) else (g.push env s, idle)
  | suspectTell s =>
      (if env.conf.name = s.name then g.fuckyou env s.dominant else g.push env s, suspectUpdate s)
  | suspectUpdate s => (g.updateNodeState s.name s, suspectOpen s)
  | suspectOpen s =>
      if s.name ∈ g.suspicions then (g, idle)
      else
        ({ g with
          suspicions := g.suspicions.insert s.name (Suspicion.new env g.nodeNum s)
          timers := s :: g.timers }, idle)
  | deadRead d =>
      match g.getNodeState d.name with
      | none => (g, idle)
      | some state => if d.dominant < state.dominant then (g, idle) else (g, deadClear d state)
  | deadClear d state =>
      let g := g.eraseSuspicion d.name
      let g := { g with nodeNum := g.nodeNum - 1 }
      if state.state = .dead then (g, idle)
      else if d.name = env.conf.name ∧ ¬ g.isLeaving then (g.fuckyou env d.dominant, idle)
      else (g, deadUpdate d)
  | deadUpdate d => (g.updateNodeState d.name d, deadRemove d)
  | deadRemove d => (g.removeNodeState d.name, deadTell d)
  | deadTell d =>
      let g := g.push env d
      (if d.name ≠ env.conf.name ∧ g.notifyLeave then g.record (.notifyLeave d.name) else g, idle)

/-- The node that the handler is about. -/
def about : Pc → Option String
  | idle => none
  | aliveRead m _ | aliveAdd m _ _ | aliveUpdate m _ _ | aliveClear m _ _ | aliveTell m _ _
  | suspectRead m | suspectLook m _ | suspectConfirm m _ | suspectTell m | suspectUpdate m
  | suspectOpen m | deadRead m | deadClear m _ | deadUpdate m | deadRemove m | deadTell m =>
      some m.name

/-- The entry of `node_map_` that the step is about to write, with the record. -/
def writes : Pc → Option (String × NodeState)
  | aliveAdd a _ state => some (a.name, state)
  | aliveUpdate m _ _ | suspectUpdate m | deadUpdate m => some (m.name, { m with timestamp := 0 })
  | _ => none

/-- The name that the step is about to append to `nodes_`. -/
def appends : Pc → Option String
  | aliveAdd a _ _ => some a.name
  | _ => none

/-- The node of which the thread has written one of `node_map_` and `nodes_` and
is about to write the other. -/
def between : Pc → Option String
  | aliveUpdate a _ true => some a.name
  | deadRemove d => some d.name
  | _ => none

/-- A thread handles news of the kind its handler is for. -/
def Proper : Pc → Prop
  | idle => True
  | aliveRead m _ | aliveAdd m _ _ | aliveUpdate m _ _ | aliveClear m _ _ | aliveTell m _ _ =>
      m.state = .alive
  | suspectRead m | suspectLook m _ | suspectConfirm m _ | suspectTell m | suspectUpdate m
  | suspectOpen m => m.state ≠ .dead
  | deadRead m | deadClear m _ | deadUpdate m | deadRemove m | deadTell m => m.state = .dead

variable {env : Env} {quorum : Bool} {g : Gossiper} {p : Pc}

/-! ## What one step does to the table -/

theorem nodeMap_move (env : Env) (quorum : Bool) (g : Gossiper) (p : Pc) :
    (p.move env quorum g).1.nodeMap =
      p.writes.elim g.nodeMap fun w => g.nodeMap.insert w.1 w.2 := by
  cases p with
  | aliveAdd | aliveUpdate | suspectUpdate | deadUpdate => rfl
  | _ =>
      simp only [move, writes, Option.elim_none]
      repeat' split
      all_goals simp [Gossiper.record, Gossiper.eraseSuspicion, Gossiper.removeNodeState]

theorem nodes_move_of_appends {x : String} (h : p.appends = some x) :
    (p.move env quorum g).1.nodes = g.nodes ++ [x] := by
  cases p with
  | aliveAdd a needBc state =>
      cases h
      rfl
  | _ => cases h

theorem nodes_move_deadRemove (d : NodeState) :
    ((deadRemove d).move env quorum g).1.nodes = swapRemove d.name g.nodes := rfl

theorem nodes_move_of_ne (happends : p.appends = none) (hremove : ∀ d, p ≠ deadRemove d) :
    (p.move env quorum g).1.nodes = g.nodes := by
  cases p with
  | aliveAdd => cases happends
  | deadRemove d => exact absurd rfl (hremove d)
  | _ =>
      simp only [move]
      repeat' split
      all_goals simp [Gossiper.record, Gossiper.eraseSuspicion, Gossiper.updateNodeState]

/-- A step lists no name but the one it appends. -/
theorem mem_nodes_of_move {x : String} (h : x ∈ (p.move env quorum g).1.nodes) :
    x ∈ g.nodes ∨ p.appends = some x := by
  cases happends : p.appends with
  | some y =>
      rw [nodes_move_of_appends happends, List.mem_append, List.mem_singleton] at h
      exact h.imp_right fun hx => congrArg some hx.symm
  | none =>
      by_cases hremove : ∃ d, p = deadRemove d
      · obtain ⟨d, rfl⟩ := hremove
        rw [nodes_move_deadRemove, (swapRemove_perm_erase d.name g.nodes).mem_iff] at h
        exact .inl (List.mem_of_mem_erase h)
      · rw [nodes_move_of_ne happends fun d hd => hremove ⟨d, hd⟩] at h
        exact .inl h

theorem Proper.move (h : p.Proper) (env : Env) (quorum : Bool) (g : Gossiper) :
    (p.move env quorum g).2.Proper := by
  cases p with
  | suspectConfirm s sus =>
      cases quorum with
      | true => rfl
      | false => trivial
  | _ =>
      simp only [Pc.move]
      repeat' split
      all_goals first | exact h | trivial

/-- A record written is not dead, or the thread comes to stand between its two
writes. -/
theorem Proper.of_writes (h : p.Proper) (env : Env) (quorum : Bool) (g : Gossiper) {x : String}
    {r : NodeState} (hw : p.writes = some (x, r)) :
    r.state ≠ .dead ∨ (p.move env quorum g).2.between = some x := by
  cases p with
  | aliveAdd a needBc state =>
      cases hw
      exact .inr rfl
  | aliveUpdate a needBc needNotify =>
      cases hw
      have ha : a.state = .alive := h
      exact .inl (by simp [ha])
  | suspectUpdate s =>
      cases hw
      exact .inl h
  | deadUpdate d =>
      cases hw
      exact .inr rfl
  | _ => cases hw

theorem exists_writes_of_appends {x : String} (h : p.appends = some x) :
    ∃ r, p.writes = some (x, r) := by
  cases p with
  | aliveAdd a needBc state =>
      cases h
      exact ⟨state, rfl⟩
  | _ => cases h

theorem writes_or_removes_of_between {x : String} (h : p.between = some x) :
    (∃ r, p.writes = some (x, r)) ∨ ∃ d, p = deadRemove d ∧ d.name = x := by
  cases p with
  | aliveUpdate a needBc needNotify =>
      cases needNotify with
      | true =>
          cases h
          exact .inl ⟨_, rfl⟩
      | false => cases h
  | deadRemove d =>
      cases h
      exact .inr ⟨d, rfl, rfl⟩
  | _ => cases h

theorem about_of_writes {x : String} {r : NodeState} (h : p.writes = some (x, r)) :
    p.about = some x := by
  cases p with
  | aliveAdd | aliveUpdate | suspectUpdate | deadUpdate =>
      cases h
      rfl
  | _ => cases h

theorem about_of_between {x : String} (h : p.between = some x) : p.about = some x := by
  rcases writes_or_removes_of_between h with ⟨r, hw⟩ | ⟨d, rfl, rfl⟩
  · exact about_of_writes hw
  · rfl

/-! ## The reading steps -/

theorem move_suspectRead {s state : NodeState} (hr : g.getNodeState s.name = some state)
    (hle : state.dominant ≤ s.dominant) :
    (suspectRead s).move env quorum g = (g, suspectLook s state) := by
  simp only [move, hr, if_neg (UInt64.not_lt.mpr hle)]

theorem move_suspectRead_of_not_heeds {s : NodeState} (h : ¬ g.Heeds s) :
    (suspectRead s).move env quorum g = (g, idle) := by
  cases hr : g.getNodeState s.name with
  | none => simp only [move, hr]
  | some state =>
      rw [Gossiper.heeds_of_some hr, UInt64.not_le] at h
      simp only [move, hr, if_pos h]

theorem move_suspectLook {s state : NodeState} {sus : Suspicion}
    (hsus : g.suspicions.lookup s.name = some sus) :
    (suspectLook s state).move env quorum g = (g, suspectConfirm s sus) := by
  simp only [move, hsus]

theorem move_suspectLook_of_none (env : Env) (quorum : Bool) {s state : NodeState}
    (hsus : g.suspicions.lookup s.name = none) :
    (suspectLook s state).move env quorum g =
      if state.state ≠ .alive then (g, idle) else (g, suspectTell s) := by
  simp only [move, hsus]

theorem move_deadRead {d state : NodeState} (hr : g.getNodeState d.name = some state)
    (hle : state.dominant ≤ d.dominant) :
    (deadRead d).move env quorum g = (g, deadClear d state) := by
  simp only [move, hr, if_neg (UInt64.not_lt.mpr hle)]

theorem move_deadRead_of_not_heeds {d : NodeState} (h : ¬ g.Heeds d) :
    (deadRead d).move env quorum g = (g, idle) := by
  cases hr : g.getNodeState d.name with
  | none => simp only [move, hr]
  | some state =>
      rw [Gossiper.heeds_of_some hr, UInt64.not_le] at h
      simp only [move, hr, if_pos h]

/-! ## What was read and still holds -/

/-- The record bears out what the thread has read of it. -/
def Abreast (g : Gossiper) : Pc → Prop
  | aliveAdd a _ state =>
      g.Down a.name ∧ g.knownDominant a.name ≤ state.dominant ∧ state.dominant ≤ a.dominant
  | aliveUpdate m _ _ | suspectLook m _ | suspectTell m | suspectUpdate m | deadClear m _
  | deadUpdate m => g.knownDominant m.name ≤ m.dominant
  | suspectConfirm m sus => sus.accusation.name = m.name
  | _ => True

theorem Abreast.congr {g' : Gossiper} (h : p.Abreast g)
    (hrecord : ∀ x, p.about = some x → g'.getNodeState x = g.getNodeState x) : p.Abreast g' := by
  cases p with
  | aliveAdd m | aliveUpdate m | suspectLook m | suspectTell m | suspectUpdate m | deadClear m
  | deadUpdate m =>
      simpa only [Abreast, Gossiper.knownDominant, Gossiper.Down, hrecord m.name rfl] using h
  | suspectConfirm => exact h
  | _ => trivial

/-- A thread that goes on has found the node down, or its record older. -/
theorem abreast_aliveRead (env : Env) (quorum : Bool) (g : Gossiper) (a : NodeState)
    (needBc : Bool) :
    ((aliveRead a needBc).move env quorum g).2.Abreast
      ((aliveRead a needBc).move env quorum g).1 := by
  simp only [Pc.move]
  split
  case isTrue => trivial
  case isFalse =>
    split
    case isTrue => trivial
    case isFalse hle =>
      have hlt := UInt64.le_of_lt (UInt64.not_le.mp hle)
      cases hr : g.getNodeState a.name with
      | none =>
          have hknown : g.knownDominant a.name ≤ 0 := by
            rw [Gossiper.knownDominant_of_none hr]
            exact UInt64.zero_le
          simp only [Option.getD_none, if_true]
          exact ⟨Gossiper.down_of_none hr, hknown, UInt64.zero_le⟩
      | some r =>
          have hknown : g.knownDominant a.name ≤ r.dominant :=
            Gossiper.knownDominant_le_of_some hr (UInt64.le_refl _)
          rw [hr, Option.getD_some] at hlt
          simp only [Option.getD_some]
          split
          case isTrue hdead => exact ⟨(Gossiper.down_of_some hr).2 hdead, hknown, hlt⟩
          case isFalse => exact UInt64.le_trans hknown hlt

/-- A thread's own step does not outdate what it has read. -/
theorem Abreast.move (h : p.Abreast g) (env : Env) (quorum : Bool)
    (haccused : ∀ x sus, g.suspicions.lookup x = some sus → sus.accusation.name = x) :
    (p.move env quorum g).2.Abreast (p.move env quorum g).1 := by
  cases p with
  | aliveRead a needBc => exact abreast_aliveRead env quorum g a needBc
  | aliveAdd a needBc state =>
      have hnew : (g.addNodeState a.name state).getNodeState a.name = some state :=
        AList.lookup_insert g.nodeMap
      exact Gossiper.knownDominant_le_of_some hnew h.2.2
  | suspectRead m =>
      by_cases hheeds : g.Heeds m
      · obtain ⟨state, hr, hle⟩ := hheeds.exists_record
        rw [move_suspectRead hr hle]
        exact Gossiper.knownDominant_le_of_some hr hle
      · rw [move_suspectRead_of_not_heeds hheeds]
        trivial
  | suspectLook m state =>
      cases hsus : g.suspicions.lookup m.name with
      | some sus =>
          rw [move_suspectLook hsus]
          exact haccused m.name sus hsus
      | none =>
          rw [move_suspectLook_of_none env quorum hsus]
          split
          · trivial
          · exact h
  | suspectTell m =>
      simp only [Pc.move]
      refine Abreast.congr h fun x _ => ?_
      split
      · simp [Gossiper.getNodeState]
      · rfl
  | deadRead m =>
      by_cases hheeds : g.Heeds m
      · obtain ⟨state, hr, hle⟩ := hheeds.exists_record
        rw [move_deadRead hr hle]
        exact Gossiper.knownDominant_le_of_some hr hle
      · rw [move_deadRead_of_not_heeds hheeds]
        trivial
  | deadClear m state =>
      simp only [Pc.move]
      repeat' split
      · trivial
      · trivial
      · exact h
  | _ =>
      simp only [Pc.move]
      repeat' split
      all_goals trivial

/-- A handler stays with its node. -/
theorem Abreast.about_move (h : p.Abreast g) (env : Env) (quorum : Bool) {x : String}
    (hx : (p.move env quorum g).2.about = some x) : p.about = some x := by
  cases p with
  | suspectConfirm m sus =>
      cases quorum with
      | true =>
          cases hx
          exact congrArg some h.symm
      | false => cases hx
  | _ =>
      simp only [Pc.move] at hx
      repeat' split at hx
      all_goals first | exact hx | cases hx

theorem accused_move (env : Env) (quorum : Bool) (g : Gossiper) (p : Pc)
    (h : ∀ x sus, g.suspicions.lookup x = some sus → sus.accusation.name = x) :
    ∀ x sus, (p.move env quorum g).1.suspicions.lookup x = some sus → sus.accusation.name = x := by
  cases p with
  | aliveClear a needBc needNotify => exact forall_lookup_erase h a.name
  | deadClear d state =>
      have herased := forall_lookup_erase h d.name
      simp only [move]
      repeat' split
      all_goals simpa [Gossiper.eraseSuspicion] using herased
  | suspectOpen m =>
      simp only [move]
      split
      case isTrue => exact h
      case isFalse => exact forall_lookup_insert h rfl
  | _ =>
      simp only [move]
      repeat' split
      all_goals simpa [Gossiper.record, Gossiper.addNodeState, Gossiper.updateNodeState,
        Gossiper.removeNodeState] using h

/-! ## A thread that runs alone -/

section Alone

variable (env g) (quorum : Bool)

/-- One step of the only thread. -/
def alone (c : Gossiper × Pc) : Gossiper × Pc := c.2.move env quorum c.1

theorem iterate_alone_idle (n : ℕ) : (alone env quorum)^[n] (g, idle) = (g, idle) := by
  induction n with
  | zero => rfl
  | succ n ih => exact ih

theorem iterate_alone_succ {g' : Gossiper} {p' : Pc} (n : ℕ)
    (h : p.move env quorum g = (g', p')) :
    (alone env quorum)^[n + 1] (g, p) = (alone env quorum)^[n] (g', p') := by
  rw [Function.iterate_succ_apply, alone, h]

/-- The end of `aliveNode`, from the update of the record on. -/
theorem iterate_alone_aliveUpdate (a : NodeState) (needBc needNotify : Bool) :
    (alone env quorum)^[3] (g, aliveUpdate a needBc needNotify) =
      (let g := g.updateNodeState a.name a
      let g := g.eraseSuspicion a.name
      let g := if needBc then g.push env a else g
      let g := if a.name = env.conf.name then { g with dominant := a.dominant } else g
      if needNotify ∧ a.name ≠ env.conf.name ∧ g.notifyJoin then g.record (.notifyJoin a.name)
      else g, idle) := by
  rw [iterate_alone_succ env g quorum 2 rfl, iterate_alone_succ env _ quorum 1 rfl,
    Function.iterate_one, alone, move]

theorem iterate_alone_aliveRead (a : NodeState) (needBc : Bool) :
    (alone env quorum)^[5] (g, aliveRead a needBc) = (g.aliveNode env a needBc, idle) := by
  by_cases hleave : g.isLeaving ∧ a.name = env.conf.name
  · have hread : (aliveRead a needBc).move env quorum g = (g, idle) := if_pos hleave
    rw [iterate_alone_succ env g quorum 4 hread, iterate_alone_idle, Gossiper.aliveNode,
      if_pos hleave]
  · rw [Gossiper.aliveNode, if_neg hleave]
    dsimp only
    generalize hstate :
      (g.getNodeState a.name).getD { a with dominant := 0, state := .dead } = state
    have hread : (aliveRead a needBc).move env quorum g =
        if a.dominant ≤ state.dominant then (g, idle)
        else if state.state = .dead then (g, aliveAdd a needBc state)
        else (g, aliveUpdate a needBc false) := by
      rw [move, if_neg hleave, hstate]
    by_cases hle : a.dominant ≤ state.dominant
    · rw [if_pos hle] at hread ⊢
      rw [iterate_alone_succ env g quorum 4 hread, iterate_alone_idle]
    · rw [if_neg hle] at hread ⊢
      by_cases hdead : state.state = .dead
      · rw [if_pos hdead] at hread
        rw [iterate_alone_succ env g quorum 4 hread, iterate_alone_succ env g quorum 3 rfl,
          iterate_alone_aliveUpdate]
        simp only [hdead, if_true, true_and]
      · rw [if_neg hdead] at hread
        rw [iterate_alone_succ env g quorum 4 hread, Function.iterate_succ_apply',
          iterate_alone_aliveUpdate]
        simp only [hdead, if_false, false_and, Bool.false_eq_true]
        rfl

theorem iterate_alone_deadRead (d : NodeState) :
    (alone env quorum)^[5] (g, deadRead d) = (g.deadNode env d, idle) := by
  by_cases hheeds : g.Heeds d
  · obtain ⟨state, hr, hle⟩ := hheeds.exists_record
    rw [iterate_alone_succ env g quorum 4 (move_deadRead hr hle)]
    simp only [Gossiper.deadNode, hr, if_neg (UInt64.not_lt.mpr hle)]
    by_cases hdead : state.state = .dead
    · have hclear : (deadClear d state).move env quorum g = (_, idle) := if_pos hdead
      rw [iterate_alone_succ env g quorum 3 hclear, iterate_alone_idle, if_pos hdead]
    · rw [if_neg hdead]
      by_cases hself : d.name = env.conf.name ∧ ¬ g.isLeaving
      · have hclear : (deadClear d state).move env quorum g = (_, idle) :=
          (if_neg hdead).trans (if_pos hself)
        rw [iterate_alone_succ env g quorum 3 hclear, iterate_alone_idle]
        exact congrArg (·, idle) (if_pos hself).symm
      · have hclear : (deadClear d state).move env quorum g = (_, deadUpdate d) :=
          (if_neg hdead).trans (if_neg hself)
        rw [iterate_alone_succ env g quorum 3 hclear, iterate_alone_succ env _ quorum 2 rfl,
          iterate_alone_succ env _ quorum 1 rfl, Function.iterate_one, alone, move]
        exact congrArg (·, idle) (if_neg hself).symm
  · rw [iterate_alone_succ env g quorum 4 (move_deadRead_of_not_heeds hheeds),
      iterate_alone_idle, Gossiper.deadNode_of_not_heeds hheeds]

/-- The table after the news of a death does not depend on the suspicions. -/
theorem deadNode_counted (s d : NodeState) (sus : Suspicion) :
    ((g.counted s sus).deadNode env d).nodeMap = (g.deadNode env d).nodeMap ∧
      ((g.counted s sus).deadNode env d).nodes = (g.deadNode env d).nodes := by
  by_cases hheeds : g.Heeds d
  · have hcounted : (g.counted s sus).Heeds d := hheeds
    by_cases hdown : g.Down d.name
    · rw [Gossiper.deadNode_of_down hheeds hdown, Gossiper.deadNode_of_down hcounted hdown]
      exact ⟨rfl, rfl⟩
    · by_cases hself : d.name = env.conf.name ∧ g.isLeaving = false
      · rw [Gossiper.deadNode_of_self hheeds hdown hself.1 hself.2,
          Gossiper.deadNode_of_self hcounted hdown hself.1 hself.2]
        simp [Gossiper.counted]
      · rw [Gossiper.deadNode_of_buried hheeds hdown hself,
          Gossiper.deadNode_of_buried hcounted hdown hself]
        exact ⟨rfl, rfl⟩
  · have hcounted : ¬ (g.counted s sus).Heeds d := hheeds
    rw [Gossiper.deadNode_of_not_heeds hheeds, Gossiper.deadNode_of_not_heeds hcounted]
    exact ⟨rfl, rfl⟩

/-- The end of `suspectNode`, from the broadcast or the objection on. -/
theorem iterate_alone_suspectTell (s : NodeState) :
    ((alone env quorum)^[6] (g, suspectTell s)).2 = idle ∧
      ((alone env quorum)^[6] (g, suspectTell s)).1.nodeMap =
        g.nodeMap.insert s.name { s with timestamp := 0 } ∧
      ((alone env quorum)^[6] (g, suspectTell s)).1.nodes = g.nodes := by
  let told := if env.conf.name = s.name then g.fuckyou env s.dominant else g.push env s
  have htold : told.nodeMap = g.nodeMap ∧ told.nodes = g.nodes := by
    by_cases hself : env.conf.name = s.name
    · simp [told, hself]
    · simp [told, hself]
  have htell : (suspectTell s).move env quorum g = (told, suspectUpdate s) := rfl
  have hupdate : (suspectUpdate s).move env quorum told =
      (told.updateNodeState s.name s, suspectOpen s) := rfl
  have hopen : ((suspectOpen s).move env quorum (told.updateNodeState s.name s)).2 = idle := by
    simp only [move]
    split
    · rfl
    · rfl
  have hlast : (suspectOpen s).move env quorum (told.updateNodeState s.name s) =
      (((suspectOpen s).move env quorum (told.updateNodeState s.name s)).1, idle) := by
    rw [← hopen]
  rw [iterate_alone_succ env g quorum 5 htell, iterate_alone_succ env told quorum 4 hupdate,
    iterate_alone_succ env _ quorum 3 hlast, iterate_alone_idle, nodeMap_move,
    nodes_move_of_ne rfl (by simp)]
  simp [writes, Gossiper.updateNodeState, htold.1, htold.2]

/-- Alone, and with the answer that `Confirm` gives, `suspectNode` ends with the
table it should. -/
theorem iterate_alone_suspectRead (s : NodeState)
    (hquorum : ∀ sus ∈ g.suspicions.lookup s.name, (sus.confirm s.from_).1 = quorum) :
    ((alone env quorum)^[8] (g, suspectRead s)).2 = idle ∧
      ((alone env quorum)^[8] (g, suspectRead s)).1.nodeMap = (g.suspectNode env s).nodeMap ∧
      ((alone env quorum)^[8] (g, suspectRead s)).1.nodes = (g.suspectNode env s).nodes := by
  have hcases := Gossiper.suspected env g s
  generalize g.suspectNode env s = g' at hcases
  have hlook (h : g.Heeds s) : ∃ state, g.getNodeState s.name = some state ∧
      (alone env quorum)^[8] (g, suspectRead s) =
        (alone env quorum)^[7] (g, suspectLook s state) := by
    obtain ⟨state, hr, hle⟩ := h.exists_record
    exact ⟨state, hr, iterate_alone_succ env g quorum 7 (move_suspectRead hr hle)⟩
  have htell (h : g.Heeds s) (hsus : g.suspicions.lookup s.name = none)
      (hstate : ∀ r ∈ g.getNodeState s.name, r.state = .alive) :
      (alone env quorum)^[8] (g, suspectRead s) =
        (alone env quorum)^[6] (g, suspectTell s) := by
    obtain ⟨state, hr, hfirst⟩ := hlook h
    have hopen := (move_suspectLook_of_none env quorum hsus).trans
      (if_neg (not_not_intro (hstate state hr)))
    rw [hfirst, iterate_alone_succ env g quorum 6 hopen]
  cases hcases with
  | stale hstale =>
      rw [iterate_alone_succ env g quorum 7 (move_suspectRead_of_not_heeds hstale),
        iterate_alone_idle]
      exact ⟨rfl, rfl, rfl⟩
  | convicted hheeds sus hsus hconfirmed =>
      obtain ⟨state, _, hfirst⟩ := hlook hheeds
      have hconvict : (suspectConfirm s sus).move env quorum g =
          (g, deadRead sus.accusation.killed) :=
        if_pos ((hquorum sus hsus).symm.trans hconfirmed)
      rw [hfirst, iterate_alone_succ env g quorum 6 (move_suspectLook hsus),
        iterate_alone_succ env g quorum 5 hconvict, iterate_alone_deadRead]
      have htable := deadNode_counted env g s sus.accusation.killed sus
      exact ⟨rfl, htable.1.symm, htable.2.symm⟩
  | confirmed hheeds sus hsus hconfirmed =>
      obtain ⟨state, _, hfirst⟩ := hlook hheeds
      have hpass : (suspectConfirm s sus).move env quorum g = (g.push env s, idle) := by
        have hfalse : quorum = false := (hquorum sus hsus).symm.trans hconfirmed
        simp [move, hfalse]
      rw [hfirst, iterate_alone_succ env g quorum 6 (move_suspectLook hsus),
        iterate_alone_succ env g quorum 5 hpass, iterate_alone_idle]
      exact ⟨rfl, rfl, rfl⟩
  | ignored hheeds hsus hstate =>
      obtain ⟨state, hr, hfirst⟩ := hlook hheeds
      have hstop := (move_suspectLook_of_none env quorum hsus).trans (if_pos (hstate state hr))
      rw [hfirst, iterate_alone_succ env g quorum 6 hstop, iterate_alone_idle]
      exact ⟨rfl, rfl, rfl⟩
  | openedSelf hheeds hsus hstate hself =>
      rw [htell hheeds hsus hstate]
      simpa [Gossiper.updateNodeState] using iterate_alone_suspectTell env g quorum s
  | opened hheeds hsus hstate hother =>
      rw [htell hheeds hsus hstate]
      exact iterate_alone_suspectTell env g quorum s

end Alone

end Pc

end CppGossip
