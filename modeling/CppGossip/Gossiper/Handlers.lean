import CppGossip.Gossiper.State
import CppGossip.Message.Schema

/-!
# The handlers of a gossiper

The handlers that change the membership: `aliveNode`, `suspectNode` and
`deadNode` for the three kinds of news, `fuckyou` for the objection of a node
that is accused itself, and what calls them, `Join`, `mergeStates`, the probe
with its timeout and its pong, and the callback of a suspicion.
-/

namespace CppGossip

namespace Gossiper

variable (env : Env)

/-- The ALIVE message of dominant `d` that a node makes about itself. -/
def selfState (d : UInt64) : NodeState where
  name := env.conf.name
  ip := env.conf.addr
  port := toString env.conf.port
  dominant := d
  state := .alive
  from_ := ""
  timestamp := env.timestamp

/-- `fuckyou`: the objection to an accusation of dominant `dominant`. -/
def fuckyou (dominant : UInt64) (g : Gossiper) : Gossiper :=
  let (d, g) := g.nextDominant 1
  let (d, g) := if dominant ≥ d then g.nextDominant (dominant - d + 1) else (d, g)
  let alive := selfState env d
  (g.record (.issue alive (some dominant))).push env alive

/-- `aliveNode`. -/
def aliveNode (a : NodeState) (needBc : Bool) (g : Gossiper) : Gossiper :=
  if g.isLeaving ∧ a.name = env.conf.name then g
  else
    -- a node never seen before is dead, at dominant 0
    let state := (g.getNodeState a.name).getD { a with dominant := 0, state := .dead }
    if a.dominant ≤ state.dominant then g
    else
      let needNotify := state.state = .dead
      let g := if needNotify then g.addNodeState a.name state else g
      let g := g.updateNodeState a.name a
      let g := g.eraseSuspicion a.name
      let g := if needBc then g.push env a else g
      let g := if a.name = env.conf.name then { g with dominant := a.dominant } else g
      if needNotify ∧ a.name ≠ env.conf.name ∧ g.notifyJoin then g.record (.notifyJoin a.name)
      else g

/-- `deadNode`. -/
def deadNode (d : NodeState) (g : Gossiper) : Gossiper :=
  match g.getNodeState d.name with
  | none => g
  | some state =>
      if d.dominant < state.dominant then g
      else
        let g := g.eraseSuspicion d.name
        let g := { g with nodeNum := g.nodeNum - 1 }
        if state.state = .dead then g
        else if d.name = env.conf.name ∧ ¬ g.isLeaving then g.fuckyou env d.dominant
        else
          let g := g.updateNodeState d.name d
          let g := g.removeNodeState d.name
          let g := g.push env d
          if d.name ≠ env.conf.name ∧ g.notifyLeave then g.record (.notifyLeave d.name)
          else g

/-- The callback of a suspicion raised by the accusation `s`. -/
def convict (s : NodeState) (g : Gossiper) : Gossiper :=
  g.deadNode env { s with state := .dead }

/-- `suspectNode`. -/
def suspectNode (s : NodeState) (g : Gossiper) : Gossiper :=
  match g.getNodeState s.name with
  | none => g
  | some state =>
      if s.dominant < state.dominant then g
      else
        match g.suspicions.lookup s.name with
        | some sus =>
            let (confirmed, sus) := sus.confirm s.from_
            let g := { g with suspicions := g.suspicions.insert s.name sus }
            if confirmed then g.convict env sus.accusation else g.push env s
        | none =>
            if state.state ≠ .alive then g
            else
              let g := if env.conf.name = s.name then g.fuckyou env s.dominant else g.push env s
              let g := g.updateNodeState s.name s
              if s.name ∈ g.suspicions then g
              else
                { g with
                  suspicions := g.suspicions.insert s.name (Suspicion.new env g.nodeNum s)
                  timers := s :: g.timers }

/-- The dispatch of `mergeStates` on one received record. -/
def mergeState (needBc : Bool) (state : NodeState) (g : Gossiper) : Gossiper :=
  match state.state with
  | .alive => g.aliveNode env state needBc
  | .suspect => g.suspectNode env state
  | .dead => g.deadNode env state
  | .other _ _ => g

/-- `mergeStates` on the records as `convert` fills them, `none` when an absent field
is dereferenced. -/
def mergeStates (remoteStates : List Message.NodeState) (needBc : Bool) (g : Gossiper) :
    Option Gossiper :=
  remoteStates.foldlM (fun g ns => (convert ns).map fun state => g.mergeState env needBc state) g

/-- `Join` once its argument has been parsed: the node announces itself. The
reply to the state sync that follows is merged with `need_bc` false. -/
def join (g : Gossiper) : Gossiper :=
  let (d, g) := g.nextDominant 1
  let a := selfState env d
  (g.record (.issue a none)).aliveNode env a false

/-- `RegisterNotifier`; the flags say which of the two is given. -/
def registerNotifier (join leave : Bool) (g : Gossiper) : Gossiper :=
  { g with notifyJoin := join, notifyLeave := leave }

/-- `probe`, given the value of the static cursor: the ping's timeout is bound
to the record of the node probed. -/
def probe (cursor : ℕ) (g : Gossiper) : Gossiper :=
  match (g.roundrobinNode 1 cursor).1 with
  | [] => g
  | candi :: _ =>
      match g.getNodeState candi with
      | none => g
      | some node =>
          if node.state = .alive ∧ node.name ≠ env.conf.name then
            { g.nextSeqNum.2 with pings := node :: g.pings }
          else g

/-- The pong handler of `probeNode` on a dead alert appended to the pong. -/
def deadAlert (name : String) (state : Message.State) (dominant : UInt64) (g : Gossiper) :
    Gossiper :=
  if name = env.conf.name ∧ state = .dead then g.fuckyou env dominant else g

/-- The gossip appended to one ping: `n` messages are peeked, then popped or
given up. -/
def batch (n : ℕ) (applied : Bool) (g : Gossiper) : Gossiper :=
  let peeked := g.bcQueue.peekN n
  { g with bcQueue := if applied then peeked.applyPeek else peeked.resetPeek }

end Gossiper

end CppGossip
