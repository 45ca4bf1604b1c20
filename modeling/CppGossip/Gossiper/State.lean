import CppGossip.Broadcast.Queue
import CppGossip.Collection.SwapRemove
import Mathlib.Data.Finset.Insert

/-!
# The state of a gossiper

`Gossiper` has the fields of `class gossiper` that its handlers read and write.
Three more stand for what the handlers leave outside of it: `timers` are the
accusations of all suspicions created so far, whose wait handlers the timer
service may run at any later time, `pings` the records bound to the timeouts of
the pings sent so far, and `trace` the calls made outwards, the latest first.

A suspicion's callback captures the accusation by reference. `Suspicion` keeps
the accusation itself, as it was when the suspicion was created.
-/

namespace CppGossip

open Collection

/-- The fields of `struct config` that name the node itself. -/
structure Config where
  name : String
  addr : String
  port : Int16

/-- What a gossiper runs in: its configuration, and what the language leaves
open. `place` says where the hash map of the broadcast queue puts a new key, and
`grown` by the number of calls made before in which order it is iterated after a push
that lets it grow. `timestamp` is the value of a timestamp never assigned, and
`ceilLog2Zero` the number that `ceil(log2(0))` is converted to. -/
structure Env where
  conf : Config
  place : List String → String → ℕ
  grown : ℕ → HashMap String (NodeState × Int) → Option (HashMap String (NodeState × Int))
  timestamp : UInt64
  ceilLog2Zero : UInt32

/-- `Push` on the queue of a gossiper that has made `calls` calls. -/
def Env.push (env : Env) (calls : ℕ) (msg : NodeState) (nodeNum : UInt32) (q : BroadcastQueue) :
    BroadcastQueue :=
  let q := q.push (env.place q.m.keys msg.name) msg nodeNum
  match env.grown calls q.m with
  | none => q
  | some m => q.rehash m

/-- `class suspicion`; `accusation` is what its callback was made from. -/
structure Suspicion where
  needConfirm : UInt32
  confirmCount : UInt32
  whoConfirmed : Finset String
  accusation : NodeState
deriving DecidableEq

namespace Suspicion

/-- The constructor: `ceil(log2(node_num))` confirmations are wanted. -/
def new (env : Env) (nodeNum : UInt32) (accusation : NodeState) : Suspicion where
  needConfirm :=
    if nodeNum = 0 then env.ceilLog2Zero else UInt32.ofNat (Nat.clog 2 nodeNum.toNat)
  confirmCount := 0
  whoConfirmed := ∅
  accusation := accusation

/-- `Confirm`, up to the call of the callback: whether the quorum is reached,
and the suspicion with `sender` counted. -/
def confirm (sender : String) (sus : Suspicion) : Bool × Suspicion :=
  let counted :=
    if sender ∈ sus.whoConfirmed then sus
    else { sus with
      whoConfirmed := insert sender sus.whoConfirmed
      confirmCount := sus.confirmCount + 1 }
  (decide (counted.confirmCount ≥ counted.needConfirm), counted)

@[simp] theorem confirm_accusation (sender : String) (sus : Suspicion) :
    (sus.confirm sender).2.accusation = sus.accusation := by
  unfold confirm
  dsimp only
  split
  · rfl
  · rfl

@[simp] theorem new_accusation (env : Env) (nodeNum : UInt32) (s : NodeState) :
    (new env nodeNum s).accusation = s := rfl

end Suspicion

/-- A call that a handler makes outwards. -/
inductive Effect where
  /-- a call of `Push` -/
  | push (msg : NodeState)
  /-- an ALIVE message made by the node about itself, in answer to an accusation
  of that dominant or, on joining, to none -/
  | issue (alive : NodeState) (accusation : Option UInt64)
  | notifyJoin (name : String)
  | notifyLeave (name : String)
deriving DecidableEq

/-- `class gossiper`. -/
structure Gossiper where
  seqNum : UInt64
  dominant : UInt64
  isLeaving : Bool
  nodeMap : HashMap String NodeState
  nodes : List String
  nodeNum : UInt32
  suspicions : HashMap String Suspicion
  bcQueue : BroadcastQueue
  notifyJoin : Bool
  notifyLeave : Bool
  timers : List NodeState
  pings : List NodeState
  trace : List Effect

namespace Gossiper

/-- A gossiper as it is constructed. -/
def fresh : Gossiper where
  seqNum := 0
  dominant := 0
  isLeaving := false
  nodeMap := ∅
  nodes := []
  nodeNum := 0
  suspicions := ∅
  bcQueue := .empty
  notifyJoin := false
  notifyLeave := false
  timers := []
  pings := []
  trace := []

/-- `getNodeState`: a copy of the record of `name`. -/
def getNodeState (g : Gossiper) (name : String) : Option NodeState := g.nodeMap.lookup name

/-- `updateNodeState`. -/
def updateNodeState (target : String) (from_ : NodeState) (g : Gossiper) : Gossiper :=
  { g with nodeMap := g.nodeMap.insert target { from_ with timestamp := 0 } }

/-- `addNodeState`. -/
def addNodeState (name : String) (state : NodeState) (g : Gossiper) : Gossiper :=
  { g with
    nodeMap := g.nodeMap.insert name state
    nodes := g.nodes ++ [name]
    nodeNum := g.nodeNum + 1 }

/-- `removeNodeState`: the record stays in the map. -/
def removeNodeState (name : String) (g : Gossiper) : Gossiper :=
  { g with
    nodes := swapRemove name g.nodes
    nodeNum := if name ∈ g.nodes then g.nodeNum - 1 else g.nodeNum }

/-- `suspicions_.erase`. -/
def eraseSuspicion (name : String) (g : Gossiper) : Gossiper :=
  { g with suspicions := g.suspicions.erase name }

/-- `bc_queue_.Push` with the current member count. -/
def push (env : Env) (msg : NodeState) (g : Gossiper) : Gossiper :=
  { g with
    bcQueue := env.push g.trace.length msg g.nodeNum g.bcQueue
    trace := .push msg :: g.trace }

/-- A call recorded in the trace. -/
def record (e : Effect) (g : Gossiper) : Gossiper := { g with trace := e :: g.trace }

/-- `nextDominant`. -/
def nextDominant (shift : UInt64) (g : Gossiper) : UInt64 × Gossiper :=
  (g.dominant + shift, { g with dominant := g.dominant + shift })

/-- `nextSeqNum`. -/
def nextSeqNum (g : Gossiper) : UInt64 × Gossiper :=
  (g.seqNum + 1, { g with seqNum := g.seqNum + 1 })

/-- `roundrobinNode`, given the value of its static cursor, with the value it
leaves in it. -/
def roundrobinNode (num cursor : ℕ) (g : Gossiper) : List String × ℕ :=
  if g.nodes.length ≤ num then (g.nodes, cursor)
  else
    ((List.range num).filterMap fun i => g.nodes[(cursor + i) % g.nodes.length]?,
      (cursor + num) % g.nodes.length)

/-- One name is returned, the one at the remainder of the cursor. -/
theorem roundrobinNode_one {g : Gossiper} (h : g.nodes ≠ []) (cursor : ℕ) :
    (g.roundrobinNode 1 cursor).1 = [g.nodes.getD (cursor % g.nodes.length) ""] := by
  have hpos : 0 < g.nodes.length := List.length_pos_iff.2 h
  have hlt : cursor % g.nodes.length < g.nodes.length := Nat.mod_lt _ hpos
  rw [roundrobinNode]
  split
  case isTrue hle =>
    obtain ⟨candi, hcandi⟩ := List.length_eq_one_iff.1 (Nat.le_antisymm hle hpos)
    simp [hcandi, Nat.mod_one]
  case isFalse =>
    show List.filterMap (fun i => g.nodes[(cursor + i) % g.nodes.length]?) [0] = _
    simp only [List.filterMap_cons, Nat.add_zero, List.getElem?_eq_getElem hlt,
      List.filterMap_nil, List.getD_eq_getElem?_getD, Option.getD_some]

end Gossiper

end CppGossip
