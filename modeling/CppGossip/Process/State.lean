import CppGossip.Sync.Seed
import CppGossip.Transition.Simulation
import CppGossip.Wire.Survival

/-!
# A process

`Process` is a gossiper with what it runs in: the number of messages it may
append to a ping, the cursor of `roundrobinNode`, the buffer of the UDP server
and the stage that `Join` has reached. It takes bytes in and gives bytes out.
`handle` is what the handlers do that the I/O service calls, and `Join` cut at
the places where it waits: for the connection and for the reply.

A handler that throws, follows an absent field, fails an assertion or cannot read
an object that is gone takes the whole process down, since nothing catches it; `Join`
catches the errors of the socket only. A process is taken to find objects that are
gone as they were left, or not at all (`Remains`), and the accusation that a
suspicion's timer acts on and the send buffer of a ping as they were left.
-/

namespace CppGossip

open Bytes Message Text Transition

/-- Where `syncState` waits. -/
inductive SyncStage where
  | idle
  /-- in `Connect` -/
  | connecting
  /-- for the reply -/
  | waiting
deriving DecidableEq

/-- A process that runs a gossiper. -/
structure Process where
  gossiper : Gossiper
  /-- `MAX_APPENDED_MSG_` -/
  maxAppendedMsg : ℕ
  /-- `static int cursor` -/
  cursor : ℕ
  /-- `data_` of `udp::Server` -/
  data : List UInt8
  sync : SyncStage
  /-- `Run` has been called -/
  running : Bool

/-- What a process sends. -/
inductive Output where
  | ping (host : String) (port : Int16) (bytes : List UInt8)
  /-- to the sender of the datagram answered -/
  | pong (bytes : List UInt8)
  | request (bytes : List UInt8)
  /-- on the connection of the request -/
  | reply (bytes : List UInt8)
deriving DecidableEq

/-- What happens to a process. -/
inductive Input where
  | registerNotifier (join leave : Bool)
  /-- a call of `Join`, with that many turns of the loop of `Split` -/
  | join (fuel : ℕ) (peer : String)
  | connected
  /-- what the peer sends before it stops, and the memory behind the buffer for the body -/
  | reply (sent behind : List UInt8) (d : Remains)
  /-- a `system_error` in `syncState` -/
  | syncFailed
  /-- the ticker runs `probe`; the send buffer as `probeNode` finds it -/
  | probe (sendBuff : List UInt8)
  | probeTimeout (node : NodeState)
  /-- a datagram for the client of a probe, and its buffer before -/
  | pong (bytes data : List UInt8)
  | conviction (accusation : NodeState)
  /-- a datagram for the server -/
  | datagram (bytes : List UInt8) (d : Remains)
  /-- what is sent on a connection before it stops, and what the session's memory holds before -/
  | connection (sent inBuff outBuff : List UInt8) (locals : Gossiper.Locals) (d : Remains)

namespace Process

/-- A process as it is constructed; `data` is what the buffer holds by then. -/
def start (data : List UInt8) : Process where
  gossiper := .fresh
  maxAppendedMsg := 10
  cursor := 0
  data := data
  sync := .idle
  running := false

variable (fb : FlatBuffers) (env : Env) (order : List NodeState → List NodeState)

/-- `Join` up to `syncState`. -/
def join (fuel : ℕ) (peer : String) (p : Process) : Process :=
  match split fuel peer ":" with
  | some [host, port] =>
      let p := { p with gossiper := p.gossiper.join env }
      if host ≠ env.conf.addr ∨ toString env.conf.port ≠ port then { p with sync := .connecting }
      else { p with running := true }
  | _ => p

/-- What `syncState` writes. -/
def syncRequest (p : Process) : Result (Process × List Output) := do
  let body ← p.gossiper.encodeLocalState fb order
  let header := encodeHeader { type := typeSyncState, bodyLength := UInt32.ofNat body.length }
  .ok ({ p with sync := .waiting }, [.request (header ++ body)])

/-- The two calls of `ReadFull` in `syncState`: the body of the reply. Nothing when
less comes than is asked for, which throws. The type is not looked at. -/
def readReply (sent : List UInt8) : Option (List UInt8) :=
  if sent.length < 8 then none
  else
    let wanted := (decodeHeader (sent.take 8)).bodyLength.toNat
    if sent.length - 8 < wanted then none else some ((sent.drop 8).take wanted)

/-- The end of `Join`: `alive`. -/
def alive (p : Process) : Process := { p with sync := .idle, running := true }

/-- `syncState` from the reply on, and what follows in `Join`. -/
def syncReply (sent behind : List UInt8) (d : Remains) (p : Process) :
    Result (Process × List Output) :=
  match readReply sent with
  | none => .ok (p.alive, [])
  | some resp => do
      let g ← Gossiper.mergeSection d.toDestroyed env false
        (fb.nodeStates.getRoot (resp ++ behind)) p.gossiper
      .ok ({ p with gossiper := g }.alive, [])

/-- `probe` and `probeNode`. `AsyncSendTo` sends nothing when `generatePing` fails. -/
def probe (sendBuff : List UInt8) (p : Process) : Result (Process × List Output) := do
  let (candi, cursor) := p.gossiper.roundrobinNode 1 p.cursor
  let p := { p with cursor := cursor }
  let name ← orFault .absentField candi.head?
  let node ← orFault .absentField (p.gossiper.getNodeState name)
  if node.state = .alive ∧ node.name ≠ env.conf.name then
    let ((host, port), size, sent, o) ←
      p.gossiper.probeNode fb env node sendBuff p.maxAppendedMsg
    let g :=
      { p.gossiper.nextSeqNum.2 with pings := node :: p.gossiper.pings, bcQueue := o.bcQueue }
    .ok ({ p with gossiper := g, maxAppendedMsg := o.maxAppendedMsg },
      if 0 < size then [.ping host port (sent.take size.toNat)] else [])
  else .ok (p, [])

/-- The handlers of `udp::Server`. The packet is answered in the buffer it was
received in: `handlePacket` has read it by the time it writes. -/
def receive (bytes : List UInt8) (d : Remains) (p : Process) : Result (Process × List Output) :=
  let bytes := bytes.take mtu
  let p := { p with data := write 0 bytes p.data }
  if bytes = [] then .ok (p, [])
  else do
    let (n, data, g) ←
      p.gossiper.handlePacket fb env d.toDestroyed p.data bytes.length p.data mtu
    .ok ({ p with data := data, gossiper := g },
      if 0 < n then [.pong (data.take n.toNat)] else [])

/-- The pong handler, called by the client of a probe with its buffer. -/
def receivePong (bytes data : List UInt8) (p : Process) : Result (Process × List Output) := do
  let bytes := bytes.take mtu
  let g ← p.gossiper.handlePong fb env (write 0 bytes data) bytes.length
  .ok ({ p with gossiper := g }, [])

/-- A session, from the accepted connection to the reply. -/
def serve (sent inBuff outBuff : List UInt8) (locals : Gossiper.Locals) (d : Remains)
    (p : Process) : Result (Process × List Output) := do
  let (written, g) ←
    Session.serve fb env order d.toDestroyed locals sent inBuff outBuff p.gossiper
  .ok ({ p with gossiper := g }, if written = [] then [] else [.reply written])

/-- What a process does, and sends. -/
def handle (p : Process) : Input → Result (Process × List Output)
  | .registerNotifier join leave =>
      .ok ({ p with gossiper := p.gossiper.registerNotifier join leave }, [])
  | .join fuel peer => .ok (p.join env fuel peer, [])
  | .connected => p.syncRequest fb order
  | .reply sent behind d => p.syncReply fb env sent behind d
  | .syncFailed => .ok (p.alive, [])
  | .probe sendBuff => p.probe fb env sendBuff
  | .probeTimeout node => .ok ({ p with gossiper := p.gossiper.suspectNode env node }, [])
  | .pong bytes data => p.receivePong fb env bytes data
  | .conviction accusation => .ok ({ p with gossiper := p.gossiper.convict env accusation }, [])
  | .datagram bytes d => p.receive fb env bytes d
  | .connection sent inBuff outBuff locals d => p.serve fb env order sent inBuff outBuff locals d

/-- The state that a process is left in. -/
def step (p : Process) (i : Input) : Result Process := (p.handle fb env order i).map Prod.fst

theorem step_eq_ok_iff {fb : FlatBuffers} {env : Env} {order : List NodeState → List NodeState}
    {p p' : Process} {i : Input} :
    p.step fb env order i = .ok p' ↔ ∃ out, p.handle fb env order i = .ok (p', out) := by
  rw [step]
  cases p.handle fb env order i with
  | error e => simp [Except.map]
  | ok r => simp [Except.map, Prod.ext_iff]

/-- What may happen to a process next. `Join` is called once, the handlers are not
called before it starts the service, and what it asks of `Split` returns. -/
def Enabled (p : Process) : Input → Prop
  | .registerNotifier _ _ => True
  | .join fuel peer => p.sync = .idle ∧ p.running = false ∧ (split fuel peer ":").isSome
  | .connected => p.sync = .connecting
  | .reply _ _ _ => p.sync = .waiting
  | .syncFailed => p.sync ≠ .idle
  | .probe _ | .pong _ _ | .datagram _ _ | .connection _ _ _ _ _ => p.running
  | .probeTimeout node => p.running ∧ node ∈ p.gossiper.pings
  | .conviction accusation => p.running ∧ accusation ∈ p.gossiper.timers

instance Enabled.decidable (p : Process) : ∀ i, Decidable (p.Enabled i)
  | .registerNotifier _ _ => inferInstanceAs (Decidable True)
  | .join _ _ => inferInstanceAs (Decidable (_ ∧ _ ∧ _))
  | .connected | .reply _ _ _ => inferInstanceAs (Decidable (p.sync = _))
  | .syncFailed => inferInstanceAs (Decidable (_ ≠ _))
  | .probe _ | .pong _ _ | .datagram _ _ | .connection _ _ _ _ _ =>
      inferInstanceAs (Decidable (p.running = true))
  | .probeTimeout _ => inferInstanceAs (Decidable (_ ∧ _))
  | .conviction _ => inferInstanceAs (Decidable (_ ∧ _))

/-- The run of the inputs has only such as may come, as long as the process is up. -/
abbrev Valid (x : Result Process) (is : List Input) : Prop :=
  Along (attempt (step fb env order)) (fun x i => WhileUp (Enabled · i) x) x is

end Process

end CppGossip
