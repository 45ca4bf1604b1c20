import CppGossip.Broadcast.Message
import CppGossip.Gossiper.Step

/-!
# What the handlers do

Each handler either leaves the gossiper as it is or makes one of a few changes,
each behind its own test on the record. The tests are named here and the
changes written out once: `aliveNode_of_accepted`, `fuckyou_eq`, the lemmas on
`deadNode`, and `Suspected`, which lists the outcomes of `suspectNode`. Later
proofs go by these cases and do not unfold the handlers.
-/

namespace CppGossip

open Collection

/-- The news of death that the callback of a suspicion makes of its accusation. -/
def NodeState.killed (s : NodeState) : NodeState := { s with state := .dead }

namespace Gossiper

/-- The recorded dominant of `x`, zero when there is no record. -/
def knownDominant (g : Gossiper) (x : String) : UInt64 :=
  (g.getNodeState x).elim 0 NodeState.dominant

/-- `x` has no record or is recorded dead. -/
def Down (g : Gossiper) (x : String) : Prop := ∀ r ∈ g.getNodeState x, r.state = .dead

instance (g : Gossiper) (x : String) : Decidable (g.Down x) :=
  inferInstanceAs (Decidable (∀ r ∈ g.getNodeState x, r.state = .dead))

/-- The test `suspectNode` and `deadNode` begin with: there is a record, of a
dominant no greater than the accusation's. -/
def Heeds (g : Gossiper) (m : NodeState) : Prop :=
  ∃ r ∈ g.getNodeState m.name, r.dominant ≤ m.dominant

instance (g : Gossiper) (m : NodeState) : Decidable (g.Heeds m) :=
  inferInstanceAs (Decidable (∃ r ∈ g.getNodeState m.name, r.dominant ≤ m.dominant))

/-- The test of `aliveNode`: the message is newer than what is recorded, and the
node is not being talked back into a cluster it leaves. -/
def AliveAccepted (env : Env) (g : Gossiper) (a : NodeState) : Prop :=
  ¬ (g.isLeaving ∧ a.name = env.conf.name) ∧ g.knownDominant a.name < a.dominant

instance (env : Env) (g : Gossiper) (a : NodeState) : Decidable (g.AliveAccepted env a) :=
  inferInstanceAs (Decidable (_ ∧ _))

theorem knownDominant_of_some {g : Gossiper} {x : String} {r : NodeState}
    (h : g.getNodeState x = some r) : g.knownDominant x = r.dominant := by
  simp [knownDominant, h]

theorem knownDominant_of_none {g : Gossiper} {x : String}
    (h : g.getNodeState x = none) : g.knownDominant x = 0 := by
  simp [knownDominant, h]

theorem knownDominant_le_of_some {g : Gossiper} {x : String} {r : NodeState} {n : UInt64}
    (h : g.getNodeState x = some r) (hle : r.dominant ≤ n) : g.knownDominant x ≤ n := by
  rwa [knownDominant_of_some h]

theorem down_of_some {g : Gossiper} {x : String} {r : NodeState}
    (h : g.getNodeState x = some r) : g.Down x ↔ r.state = .dead := by
  simp [Down, h]

theorem down_of_none {g : Gossiper} {x : String} (h : g.getNodeState x = none) : g.Down x := by
  simp [Down, h]

theorem heeds_of_some {g : Gossiper} {m r : NodeState}
    (h : g.getNodeState m.name = some r) : g.Heeds m ↔ r.dominant ≤ m.dominant := by
  simp [Heeds, h]

theorem not_heeds_of_none {g : Gossiper} {m : NodeState}
    (h : g.getNodeState m.name = none) : ¬ g.Heeds m := by
  simp [Heeds, h]

theorem Heeds.exists_record {g : Gossiper} {m : NodeState} (h : g.Heeds m) :
    ∃ r, g.getNodeState m.name = some r ∧ r.dominant ≤ m.dominant := by
  obtain ⟨r, hr, hle⟩ := h
  exact ⟨r, hr, hle⟩

theorem Heeds.knownDominant_le {g : Gossiper} {m : NodeState} (h : g.Heeds m) :
    g.knownDominant m.name ≤ m.dominant := by
  obtain ⟨r, hr, hle⟩ := h.exists_record
  exact knownDominant_le_of_some hr hle

@[simp] theorem heeds_killed (g : Gossiper) (s : NodeState) :
    g.Heeds s.killed ↔ g.Heeds s := Iff.rfl

variable {env : Env} {g : Gossiper}

/-! ## The objection -/

/-- The dominant `fuckyou` arrives at from `current` on an accusation of
dominant `n`. -/
def objection (current n : UInt64) : UInt64 :=
  let d := current + 1
  if n ≥ d then d + (n - d + 1) else d

/-- The greatest dominant, `2 ^ 64 - 1`. -/
abbrev lastDominant : UInt64 := 18446744073709551615

theorem objection_of_lt {current n : UInt64} (h : n < current + 1) :
    objection current n = current + 1 := by
  rw [objection]
  exact if_neg (UInt64.not_le.mpr h)

theorem objection_of_le {current n : UInt64} (h : current + 1 ≤ n) :
    objection current n = n + 1 := by
  rw [objection]
  simp only [ge_iff_le, h, if_true]
  grind

theorem lt_objection {current n : UInt64} (hn : n ≠ lastDominant) : n < objection current n := by
  rcases UInt64.lt_or_le n (current + 1) with h | h
  · rw [objection_of_lt h]
    exact h
  · rw [objection_of_le h]
    grind

theorem current_lt_objection {current n : UInt64} (hcurrent : current ≠ lastDominant)
    (hn : n ≠ lastDominant) : current < objection current n := by
  rcases UInt64.lt_or_le n (current + 1) with h | h
  · rw [objection_of_lt h]
    grind
  · rw [objection_of_le h]
    grind

/-- The objection to an accusation of the greatest dominant wraps around. -/
theorem objection_last (current : UInt64) : objection current lastDominant = 0 := by
  rw [objection_of_le (by grind)]
  rfl

theorem objection_eq_iff {current n : UInt64} (hcurrent : current ≠ 0) :
    objection current n = current ↔ current = lastDominant ∧ n = lastDominant - 1 := by
  rcases UInt64.lt_or_le n (current + 1) with h | h
  · rw [objection_of_lt h]
    constructor
    · grind
    · grind
  · rw [objection_of_le h]
    constructor
    · grind
    · grind

/-- However the map is iterated, the message of the greater precedence is kept. -/
theorem message_push (calls : ℕ) (msg : NodeState) (nodeNum : UInt32) (q : BroadcastQueue)
    (x : String) :
    (env.push calls msg nodeNum q).message x =
      if msg.name = x then some (BroadcastQueue.kept msg (q.message x)) else q.message x := by
  rw [Env.push]
  split
  · rw [BroadcastQueue.message_push]
  · rw [BroadcastQueue.message_rehash, BroadcastQueue.message_push]

theorem fuckyou_eq (n : UInt64) :
    g.fuckyou env n =
      ({ g with dominant := objection g.dominant n }.record
        (.issue (selfState env (objection g.dominant n)) (some n))).push env
          (selfState env (objection g.dominant n)) := by
  unfold fuckyou nextDominant objection
  dsimp only
  split
  · rfl
  · rfl

section Frame

variable (env g) (msg : NodeState) (n : UInt64)

@[simp] theorem push_dominant : (g.push env msg).dominant = g.dominant := rfl
@[simp] theorem push_isLeaving : (g.push env msg).isLeaving = g.isLeaving := rfl
@[simp] theorem push_nodeMap : (g.push env msg).nodeMap = g.nodeMap := rfl
@[simp] theorem push_nodes : (g.push env msg).nodes = g.nodes := rfl
@[simp] theorem push_nodeNum : (g.push env msg).nodeNum = g.nodeNum := rfl
@[simp] theorem push_suspicions : (g.push env msg).suspicions = g.suspicions := rfl
@[simp] theorem push_timers : (g.push env msg).timers = g.timers := rfl
@[simp] theorem push_pings : (g.push env msg).pings = g.pings := rfl

@[simp] theorem fuckyou_dominant : (g.fuckyou env n).dominant = objection g.dominant n := by
  rw [fuckyou_eq]
  rfl

@[simp] theorem fuckyou_isLeaving : (g.fuckyou env n).isLeaving = g.isLeaving := by
  rw [fuckyou_eq]
  rfl

@[simp] theorem fuckyou_nodeMap : (g.fuckyou env n).nodeMap = g.nodeMap := by
  rw [fuckyou_eq]
  rfl

@[simp] theorem fuckyou_nodes : (g.fuckyou env n).nodes = g.nodes := by
  rw [fuckyou_eq]
  rfl

@[simp] theorem fuckyou_nodeNum : (g.fuckyou env n).nodeNum = g.nodeNum := by
  rw [fuckyou_eq]
  rfl

@[simp] theorem fuckyou_suspicions : (g.fuckyou env n).suspicions = g.suspicions := by
  rw [fuckyou_eq]
  rfl

@[simp] theorem fuckyou_timers : (g.fuckyou env n).timers = g.timers := by
  rw [fuckyou_eq]
  rfl

@[simp] theorem fuckyou_pings : (g.fuckyou env n).pings = g.pings := by
  rw [fuckyou_eq]
  rfl

end Frame

/-! ## News that a node is alive -/

theorem aliveNode_of_not_accepted {a : NodeState} {needBc : Bool}
    (h : ¬ g.AliveAccepted env a) : g.aliveNode env a needBc = g := by
  unfold aliveNode
  by_cases hleave : g.isLeaving ∧ a.name = env.conf.name
  · rw [if_pos hleave]
  · rw [if_neg hleave]
    have hle : a.dominant ≤ g.knownDominant a.name := by
      refine UInt64.not_lt.mp fun hlt => h ⟨hleave, hlt⟩
    apply if_pos
    cases hr : g.getNodeState a.name with
    | none => simpa [knownDominant, hr] using hle
    | some r => simpa [knownDominant, hr] using hle

theorem aliveNode_of_accepted {a : NodeState} {needBc : Bool} (h : g.AliveAccepted env a) :
    g.aliveNode env a needBc =
      { g with
        nodeMap := g.nodeMap.insert a.name { a with timestamp := 0 }
        nodes := if g.Down a.name then g.nodes ++ [a.name] else g.nodes
        nodeNum := if g.Down a.name then g.nodeNum + 1 else g.nodeNum
        suspicions := g.suspicions.erase a.name
        bcQueue :=
          if needBc then
            env.push g.trace.length a (if g.Down a.name then g.nodeNum + 1 else g.nodeNum)
              g.bcQueue
          else g.bcQueue
        dominant := if a.name = env.conf.name then a.dominant else g.dominant
        trace :=
          (if g.Down a.name ∧ a.name ≠ env.conf.name ∧ g.notifyJoin then [.notifyJoin a.name]
            else []) ++ (if needBc then [.push a] else []) ++ g.trace } := by
  unfold aliveNode
  rw [if_neg h.1]
  cases hr : g.getNodeState a.name with
  | none =>
      have hdown := down_of_none hr
      have hlt : ¬ a.dominant ≤ 0 := by
        have hknown := h.2
        rw [knownDominant_of_none hr] at hknown
        exact UInt64.not_le.mpr hknown
      simp only [Option.getD_none, if_neg hlt, hdown, if_true, true_and]
      by_cases hself : a.name = env.conf.name <;> cases needBc <;> cases hn : g.notifyJoin <;>
        simp [hself, hn, addNodeState, updateNodeState, eraseSuspicion, push, record]
  | some r =>
      have hlt : ¬ a.dominant ≤ r.dominant := by
        have hknown := h.2
        rw [knownDominant_of_some hr] at hknown
        exact UInt64.not_le.mpr hknown
      simp only [Option.getD_some, if_neg hlt, down_of_some hr]
      by_cases hdead : r.state = .dead <;> by_cases hself : a.name = env.conf.name <;>
        cases needBc <;> cases hn : g.notifyJoin <;>
        simp [hdead, hself, hn, addNodeState, updateNodeState, eraseSuspicion, push, record]

/-! ## News that a node is dead -/

theorem deadNode_of_not_heeds {d : NodeState} (h : ¬ g.Heeds d) : g.deadNode env d = g := by
  unfold deadNode
  cases hr : g.getNodeState d.name with
  | none => rfl
  | some r =>
      rw [heeds_of_some hr, UInt64.not_le] at h
      exact if_pos h

/-- A second report of a death still clears the suspicion and lowers the count. -/
theorem deadNode_of_down {d : NodeState} (h : g.Heeds d) (hdown : g.Down d.name) :
    g.deadNode env d =
      { g with suspicions := g.suspicions.erase d.name, nodeNum := g.nodeNum - 1 } := by
  obtain ⟨r, hr, hle⟩ := h.exists_record
  have hdead : r.state = .dead := (down_of_some hr).1 hdown
  simp only [deadNode, hr, if_neg (UInt64.not_lt.mpr hle), if_pos hdead]
  rfl

theorem deadNode_of_self {d : NodeState} (h : g.Heeds d) (hup : ¬ g.Down d.name)
    (hself : d.name = env.conf.name) (hstay : g.isLeaving = false) :
    g.deadNode env d =
      ({ g with suspicions := g.suspicions.erase d.name, nodeNum := g.nodeNum - 1 } :
        Gossiper).fuckyou env d.dominant := by
  obtain ⟨r, hr, hle⟩ := h.exists_record
  have hdead : r.state ≠ .dead := fun hd => hup ((down_of_some hr).2 hd)
  have hobject : d.name = env.conf.name ∧ ¬ g.isLeaving := ⟨hself, by simp [hstay]⟩
  simp only [deadNode, hr, if_neg (UInt64.not_lt.mpr hle), if_neg hdead]
  exact if_pos hobject

theorem deadNode_of_buried {d : NodeState} (h : g.Heeds d) (hup : ¬ g.Down d.name)
    (hother : ¬ (d.name = env.conf.name ∧ g.isLeaving = false)) :
    g.deadNode env d =
      { g with
        nodeMap := g.nodeMap.insert d.name { d with timestamp := 0 }
        nodes := swapRemove d.name g.nodes
        nodeNum := if d.name ∈ g.nodes then g.nodeNum - 1 - 1 else g.nodeNum - 1
        suspicions := g.suspicions.erase d.name
        bcQueue := env.push g.trace.length d
          (if d.name ∈ g.nodes then g.nodeNum - 1 - 1 else g.nodeNum - 1) g.bcQueue
        trace :=
          (if d.name ≠ env.conf.name ∧ g.notifyLeave then [.notifyLeave d.name] else []) ++
            .push d :: g.trace } := by
  obtain ⟨r, hr, hle⟩ := h.exists_record
  have hdead : r.state ≠ .dead := fun hd => hup ((down_of_some hr).2 hd)
  have hobject : ¬ (d.name = env.conf.name ∧ ¬ g.isLeaving) := by simpa using hother
  simp only [deadNode, hr, if_neg (UInt64.not_lt.mpr hle), if_neg hdead]
  refine (if_neg hobject).trans ?_
  by_cases hself : d.name = env.conf.name <;> cases hn : g.notifyLeave <;>
    simp [hself, hn, eraseSuspicion, updateNodeState, removeNodeState, push, record]

/-! ## News that a node is suspect -/

/-- `g` with the accuser of `s` counted in the open suspicion `sus`. -/
def counted (s : NodeState) (sus : Suspicion) (g : Gossiper) : Gossiper :=
  { g with suspicions := g.suspicions.insert s.name (sus.confirm s.from_).2 }

@[simp] theorem heeds_counted (s : NodeState) (sus : Suspicion) (m : NodeState) :
    (g.counted s sus).Heeds m ↔ g.Heeds m := Iff.rfl

/-- The outcomes of `suspectNode` on the accusation `s`. -/
inductive Suspected (env : Env) (g : Gossiper) (s : NodeState) : Gossiper → Prop
  /-- no record of the accused, or a newer one -/
  | stale (h : ¬ g.Heeds s) : Suspected env g s g
  /-- the accuser completes the quorum of the open suspicion -/
  | convicted (h : g.Heeds s) (sus : Suspicion) (hsus : g.suspicions.lookup s.name = some sus)
      (hquorum : (sus.confirm s.from_).1 = true) :
      Suspected env g s ((g.counted s sus).deadNode env sus.accusation.killed)
  /-- the accuser is counted and the accusation passed on -/
  | confirmed (h : g.Heeds s) (sus : Suspicion) (hsus : g.suspicions.lookup s.name = some sus)
      (hquorum : (sus.confirm s.from_).1 = false) :
      Suspected env g s ((g.counted s sus).push env s)
  /-- no suspicion is open and the accused is not recorded alive -/
  | ignored (h : g.Heeds s) (hsus : g.suspicions.lookup s.name = none)
      (hstate : ∀ r ∈ g.getNodeState s.name, r.state ≠ .alive) : Suspected env g s g
  /-- a suspicion of the node itself is opened, with an objection -/
  | openedSelf (h : g.Heeds s) (hsus : g.suspicions.lookup s.name = none)
      (hstate : ∀ r ∈ g.getNodeState s.name, r.state = .alive) (hself : s.name = env.conf.name) :
      Suspected env g s
        { (g.fuckyou env s.dominant).updateNodeState s.name s with
          suspicions := g.suspicions.insert s.name (Suspicion.new env g.nodeNum s)
          timers := s :: g.timers }
  /-- a suspicion of another node is opened -/
  | opened (h : g.Heeds s) (hsus : g.suspicions.lookup s.name = none)
      (hstate : ∀ r ∈ g.getNodeState s.name, r.state = .alive) (hother : s.name ≠ env.conf.name) :
      Suspected env g s
        { (g.push env s).updateNodeState s.name s with
          suspicions := g.suspicions.insert s.name (Suspicion.new env g.nodeNum s)
          timers := s :: g.timers }

theorem suspected (env : Env) (g : Gossiper) (s : NodeState) :
    Suspected env g s (g.suspectNode env s) := by
  cases hr : g.getNodeState s.name with
  | none =>
      have heq : g.suspectNode env s = g := by simp only [suspectNode, hr]
      rw [heq]
      exact .stale (not_heeds_of_none hr)
  | some r =>
      by_cases hlt : s.dominant < r.dominant
      · have heq : g.suspectNode env s = g := by simp only [suspectNode, hr, if_pos hlt]
        rw [heq]
        exact .stale fun h => UInt64.not_le.mpr hlt ((heeds_of_some hr).1 h)
      · have hheeds : g.Heeds s := (heeds_of_some hr).2 (UInt64.not_lt.mp hlt)
        cases hsus : g.suspicions.lookup s.name with
        | some sus =>
            cases hquorum : (sus.confirm s.from_).1 with
            | true =>
                have heq : g.suspectNode env s =
                    (g.counted s sus).deadNode env sus.accusation.killed := by
                  simp [suspectNode, hr, hlt, hsus, hquorum, counted, convict, NodeState.killed]
                rw [heq]
                exact .convicted hheeds sus hsus hquorum
            | false =>
                have heq : g.suspectNode env s = (g.counted s sus).push env s := by
                  simp [suspectNode, hr, hlt, hsus, hquorum, counted]
                rw [heq]
                exact .confirmed hheeds sus hsus hquorum
        | none =>
            have hnot : s.name ∉ g.suspicions := AList.lookup_eq_none.mp hsus
            by_cases hstate : r.state = .alive
            · have halive : ∀ r ∈ g.getNodeState s.name, r.state = .alive := by
                simpa [hr] using hstate
              by_cases hself : s.name = env.conf.name
              · have heq : g.suspectNode env s =
                    { (g.fuckyou env s.dominant).updateNodeState s.name s with
                      suspicions := g.suspicions.insert s.name (Suspicion.new env g.nodeNum s)
                      timers := s :: g.timers } := by
                  simp [suspectNode, hr, hlt, hsus, hstate, hself.symm, hnot, fuckyou_eq,
                    push, record, updateNodeState]
                rw [heq]
                exact .openedSelf hheeds hsus halive hself
              · have heq : g.suspectNode env s =
                    { (g.push env s).updateNodeState s.name s with
                      suspicions := g.suspicions.insert s.name (Suspicion.new env g.nodeNum s)
                      timers := s :: g.timers } := by
                  simp [suspectNode, hr, hlt, hsus, hstate, Ne.symm hself, hnot, push,
                    updateNodeState]
                rw [heq]
                exact .opened hheeds hsus halive hself
            · have heq : g.suspectNode env s = g := by
                simp [suspectNode, hr, hlt, hsus, hstate]
              rw [heq]
              exact .ignored hheeds hsus (by simpa [hr] using hstate)

end Gossiper

end CppGossip
