import CppGossip.Collection.HashMap
import CppGossip.Message.NodeState
import Mathlib.Data.Nat.Log

/-!
# The broadcast queue

`BroadcastQueue` holds at most one message about each name together with the
number of times it is still to be sent. Its two cursors are iterators of the
map: `cur` is where the next message is popped, `peekIter` where the next one
is peeked, and `peeked` counts the messages peeked since the last batch ended.
-/

namespace CppGossip

open Collection

/-- `class BroadcastQueue`. The cursors are keys of `m`, `none` being its end. -/
structure BroadcastQueue where
  m : HashMap String (NodeState × Int)
  cur : Option String
  peekIter : Option String
  peeked : ℕ

namespace BroadcastQueue

/-- The queue as it is constructed: no messages, both cursors at the end. -/
def empty : BroadcastQueue where
  m := ∅
  cur := none
  peekIter := none
  peeked := 0

/-- `broadcast_multi_`. -/
def broadcastMulti : ℕ := 3

/-- How many times a message is to be sent in a cluster of `nodeNum` members:
`broadcast_multi_ * ceil(log10(node_num))`, for two members at least. -/
def times (nodeNum : UInt32) : Int :=
  let num := if nodeNum ≤ 1 then 2 else nodeNum
  broadcastMulti * Nat.clog 10 num.toNat

/-- The test by which `Push` lets `msg` replace `old`. -/
def Supersedes (msg old : NodeState) : Prop :=
  msg.dominant > old.dominant ∨ (msg.state > old.state ∧ msg.dominant = old.dominant)

instance (msg old : NodeState) : Decidable (Supersedes msg old) :=
  inferInstanceAs (Decidable (_ ∨ _))

/-- `Push`; a new key goes to place `place` of the map, which keeps the order of the
others unless it grows (`rehash`). -/
def push (place : ℕ) (msg : NodeState) (nodeNum : UInt32) (q : BroadcastQueue) : BroadcastQueue :=
  match q.m.lookup msg.name with
  | none => { q with m := assign place msg.name (msg, times nodeNum) q.m }
  | some (old, _) =>
      if Supersedes msg old then { q with m := assign place msg.name (msg, times nodeNum) q.m }
      else q

/-- What a `Push` that lets the map grow does besides: the map is rehashed, and then
iterated in the order of `m`. Iterators still refer to the entry they did. -/
def rehash (m : HashMap String (NodeState × Int)) (q : BroadcastQueue) : BroadcastQueue :=
  { q with m := reorder m q.m }

/-- `pop`: takes the message at `cur`, counts it down and erases it when it has
been sent often enough. -/
def pop (q : BroadcastQueue) : Option NodeState × BroadcastQueue :=
  match (if q.cur = none then first q.m else q.cur) with
  | none => (none, q)
  | some k =>
      match q.m.lookup k with
      | none => (none, q)
      | some (msg, t) =>
          if t - 1 < 1 then (some msg, { q with m := q.m.erase k, cur := next k q.m })
          else (some msg, { q with m := assign 0 k (msg, t - 1) q.m, cur := next k q.m })

/-- `Peek`: the message at `peekIter`, at most one for each message queued. -/
def peek (q : BroadcastQueue) : Option NodeState × BroadcastQueue :=
  match (if q.peekIter = none then first q.m else q.peekIter) with
  | none => (none, { q with peekIter := none })
  | some k =>
      if q.peeked ≥ q.m.keys.length then (none, { q with peekIter := some k })
      else ((q.m.lookup k).map Prod.fst,
        { q with peekIter := next k q.m, peeked := q.peeked + 1 })

/-- `ResetPeek`. -/
def resetPeek (q : BroadcastQueue) : BroadcastQueue :=
  { q with peekIter := q.cur, peeked := 0 }

/-- `n` calls of `pop`. -/
def popN : ℕ → BroadcastQueue → BroadcastQueue
  | 0, q => q
  | n + 1, q => popN n q.pop.2

/-- `ApplyPeek`: pops as many messages as were peeked. -/
def applyPeek (q : BroadcastQueue) : BroadcastQueue :=
  let popped := popN q.peeked q
  { popped with peekIter := popped.cur, peeked := 0 }

/-- `n` calls of `peek`. -/
def peekN : ℕ → BroadcastQueue → BroadcastQueue
  | 0, q => q
  | n + 1, q => peekN n q.peek.2

/-- The queued message about `x`. -/
def message (q : BroadcastQueue) (x : String) : Option NodeState := (q.m.lookup x).map Prod.fst

end BroadcastQueue

end CppGossip
