import CppGossip.Wire.Append
import CppGossip.Wire.Lifetime

/-!
# Packets

A ping is a header, the body and the gossip appended to it; a pong is a header,
the body and, when the receiver of the ping has the sender recorded dead, the
record. Both are read by the same rule: something is appended when the header
and the body are shorter than what was received. `handleBody` answers a frame,
whose length the header gives, and `Session` reads the frame and writes the
answer. What any of them reads of objects that are gone is the parameter `d`.

The buffers are lists of bytes and the sizes natural numbers. The sums that the
source makes of `uint32_t` and `size_t` are made so here.
-/

namespace CppGossip

open Bytes Message

/-- Where `header.Body_length_+HEADER_SIZE < size` says that a section is
appended: behind the header and the body, a pointer's distance. -/
def Message.appendedAt (header : Header) (size : ℕ) : Option ℕ :=
  if (header.bodyLength + headerSize).toNat < size then some (8 + header.bodyLength.toNat)
  else none

namespace Gossiper

variable (fb : FlatBuffers) (env : Env)

/-! ## Pings -/

/-- `generatePing`: what it returns, and the send buffer. -/
def generatePing (seqNo : UInt64) (sendBuff : List UInt8) (sendBuffSize : ℕ) (o : Outbox) :
    Result (Int × List UInt8 × Outbox) := do
  let body ← orFault .bufferTooLarge
    (fb.ping.finish { seqNo := seqNo, from_ := some env.conf.name })
  let size := UInt32.ofNat body.length
  let sendBuff := write 0 (encodeHeader { type := typePing, bodyLength := size }) sendBuff
  if (headerSize + size).toNat > sendBuffSize then .ok (-1, sendBuff, o)
  else
    let sendBuff := write 8 body sendBuff
    let (gossip, o) ← o.appendGossipMsg fb (sendBuffSize - body.length - 8)
    .ok (8 + body.length + gossip.length, write (8 + body.length) gossip sendBuff, o)

/-- `appendDeadAlert`: the bytes it copies to its buffer, as many as it returns. -/
def appendDeadAlert (node : NodeState) (buffSize : Int) : Result (List UInt8) := do
  let ns ← orFault .invalidPort (encode node)
  let body ← orFault .bufferTooLarge (fb.nodeState.finish ns)
  if (body.length : Int) > buffSize then .ok [] else .ok body

/-- The PING case of `handlePacket` after the gossip has been merged. -/
def answerPing (seqNo : UInt64) (ns : Option NodeState) (respBuff : List UInt8) (respSize : ℕ) :
    Result (Int × List UInt8) := do
  let pong ← orFault .bufferTooLarge (fb.pong.finish { seqNo := seqNo })
  let size := UInt32.ofNat pong.length
  if (headerSize + size).toNat > respSize then .ok (-1, respBuff)
  else
    let header := encodeHeader { type := typePong, bodyLength := size }
    let respBuff := write 8 pong (write 0 header respBuff)
    let rst := pong.length + 8
    match ns with
    | none => .ok (rst, respBuff)
    | some ns =>
        if ns.state = .dead then
          let alert ← appendDeadAlert fb ns (respSize - rst)
          .ok (rst + alert.length, write rst alert respBuff)
        else .ok (rst, respBuff)

/-- `handlePacket` on a buffer of which `size` bytes were received. -/
def handlePacket (d : Destroyed) (buff : List UInt8) (size : ℕ) (respBuff : List UInt8)
    (respSize : ℕ) (g : Gossiper) : Result (Int × List UInt8 × Gossiper) :=
  let header := decodeHeader buff
  if header.type = typePing then do
    let ping := fb.ping.getRoot (buff.drop 8)
    let sender ← orFault .absentField ping.from_
    let ns := g.getNodeState (str sender)
    let g ←
      match appendedAt header size with
      | none => .ok g
      | some off => mergeSection d env true (fb.nodeStates.getRoot (buff.drop off)) g
    let (rst, respBuff) ← answerPing fb ping.seqNo ns respBuff respSize
    .ok (rst, respBuff, g)
  else .ok (0, respBuff, g)

/-- The table of gossip that `handlePacket` reads. -/
def gossipRead (buff : List UInt8) (size : ℕ) : Option NodeStates :=
  (appendedAt (decodeHeader buff) size).map fun off => fb.nodeStates.getRoot (buff.drop off)

/-- The records that are merged of a table that may have been appended. -/
def copiesRead (d : Destroyed) (states : Option NodeStates) : Result (List NodeState) :=
  states.elim (.ok []) (copiesSection d)

/-- The merge of a table that may have been appended. -/
def mergeRead (d : Destroyed) (states : Option NodeStates) (g : Gossiper) : Result Gossiper :=
  states.elim (.ok g) fun states => mergeSection d env true states g

variable {fb env} {d : Destroyed}

theorem mergeRead_eq (states : Option NodeStates) (g : Gossiper) :
    mergeRead env d states g = (copiesRead d states).map fun states => g.merge env true states := by
  cases states with
  | none => rfl
  | some states => exact mergeSection_eq states g

/-- A ping is handled in three steps that may fail. -/
theorem handlePacket_of_ping {buff respBuff : List UInt8} {size respSize : ℕ} {g : Gossiper}
    (htype : (decodeHeader buff).type = typePing) :
    handlePacket fb env d buff size respBuff respSize g = (do
      let sender ← orFault .absentField (fb.ping.getRoot (buff.drop 8)).from_
      let g' ← mergeRead env d (gossipRead fb buff size) g
      let (rst, resp) ← answerPing fb (fb.ping.getRoot (buff.drop 8)).seqNo
        (g.getNodeState (str sender)) respBuff respSize
      .ok (rst, resp, g')) := by
  rw [handlePacket, if_pos htype, gossipRead]
  cases appendedAt (decodeHeader buff) size with
  | none => rfl
  | some off => rfl

/-! ## Pongs -/

end Gossiper

/-- The fields that the pong handler reads of a dead alert. -/
structure DeadAlert where
  name : String
  state : State
  dominant : UInt64
deriving DecidableEq

/-- What the pong handler reads of a pong. -/
structure PongContents where
  seqNo : UInt64
  alert : Option DeadAlert
deriving DecidableEq

namespace Gossiper

variable (fb : FlatBuffers) (env : Env)

/-- The pong handler of `probeNode`, as far as it reads; `none` for a wrong type. -/
def readPong (resp : List UInt8) (size : ℕ) : Result (Option PongContents) :=
  let header := decodeHeader resp
  if header.type ≠ typePong then .ok none
  else
    let pong := fb.pong.getRoot (resp.drop 8)
    match appendedAt header size with
    | none => .ok (some { seqNo := pong.seqNo, alert := none })
    | some off => do
        let deadNodeState := fb.nodeState.getRoot (resp.drop off)
        let node ← orFault .absentField deadNodeState.node
        let name ← orFault .absentField node.name
        .ok (some
          { seqNo := pong.seqNo
            alert := some
              { name := str name
                state := .ofRaw deadNodeState.state
                dominant := deadNodeState.dominant } })

/-- The pong handler of `probeNode`. A mismatched number is only logged. -/
def handlePong (resp : List UInt8) (size : ℕ) (g : Gossiper) : Result Gossiper := do
  let pong ← readPong fb resp size
  match pong.bind PongContents.alert with
  | none => .ok g
  | some alert => .ok (g.deadAlert env alert.name alert.state alert.dominant)

/-! ## Frames -/

/-- The variables that the `switch` of `handleBody` assigns. Until then they hold
what a call finds in them. `body` is what stands where the pointer leads, `none`
when nothing can be read there. -/
structure Locals where
  result : UInt64
  body : Option (ℕ → UInt8)
  type : UInt32

/-- The variables past the `switch`, where the builder that had the buffer is gone. -/
def Locals.ofBuffer (d : Destroyed) (type : UInt32) (buff : List UInt8) : Locals where
  result := UInt64.ofNat buff.length
  body := d.builder buff
  type := type

variable (order : List NodeState → List NodeState)

/-- `encodeLocalState`; `order` is how the map is iterated. -/
def encodeLocalState (g : Gossiper) : Result (List UInt8) := do
  let nss ← orFault .invalidPort ((order g.localState).mapM encode)
  orFault .bufferTooLarge (fb.nodeStates.finish { nodes := some nss })

/-- The `switch` of `handleBody`. -/
def answerBody (d : Destroyed) (locals : Locals) (type : UInt32) (buff : List UInt8)
    (g : Gossiper) : Result (Locals × Gossiper) :=
  if type = typePing then do
    let ping := fb.ping.getRoot buff
    let pong ← orFault .bufferTooLarge (fb.pong.finish { seqNo := ping.seqNo })
    .ok (.ofBuffer d typePong pong, g)
  else if type = typeSyncState then do
    let g ← mergeSection d env true (fb.nodeStates.getRoot buff) g
    let body ← encodeLocalState fb order g
    .ok (.ofBuffer d typeSyncState body, g)
  else .ok (locals, g)

/-- A request to merge a table is answered with the table merged. -/
theorem answerBody_of_syncState (d : Destroyed) (locals : Locals) (buff : List UInt8)
    (g : Gossiper) :
    answerBody fb env order d locals typeSyncState buff g = (do
      let g' ← mergeSection d env true (fb.nodeStates.getRoot buff) g
      let body ← encodeLocalState fb order g'
      .ok (.ofBuffer d typeSyncState body, g')) := by
  rw [answerBody, if_neg (by decide), if_pos rfl]

/-- `handleBody`: what it returns, and the response buffer. -/
def handleBody (d : Destroyed) (locals : Locals) (type : UInt32) (buff respBuff : List UInt8)
    (respSize : UInt64) (g : Gossiper) : Result (UInt64 × List UInt8 × Gossiper) := do
  let (locals, g) ← answerBody fb env order d locals type buff g
  if locals.result > respSize then .ok (-1 + headerSize.toUInt64, respBuff, g)
  else
    let header := encodeHeader { type := locals.type, bodyLength := locals.result.toUInt32 }
    let mem ← orFault .invalidRead locals.body
    let body := (List.range locals.result.toNat).map mem
    .ok (locals.result + headerSize.toUInt64, write 8 body (write 0 header respBuff), g)

end Gossiper

namespace Session

/-- `buff_size_`. -/
def buffSize : ℕ := 65536

/-- `doReadHeader` and `doReadBody` on what the peer sends before it stops: the
header that the handler of `doReadBody` reads, and the buffer that the body was
read into, as far as the buffer goes. Nothing more happens when less is sent than
is asked for. -/
def read (d : Destroyed) (sent inBuff : List UInt8) : Option (Header × List UInt8) :=
  if sent.length < 8 then none
  else
    let inBuff := write 0 (sent.take 8) inBuff
    let header := decodeHeader inBuff
    let wanted := min buffSize header.bodyLength.toNat
    if sent.length - 8 < wanted then none
    else some (d.header header, write 0 ((sent.drop 8).take wanted) inBuff)

/-- `doWriteResponse`: the bytes written to the socket. -/
def written (outBuff : List UInt8) (length : UInt32) : List UInt8 :=
  outBuff.take (min buffSize length.toNat)

/-- A session: the frame is read and handled and the answer written. -/
def serve (fb : FlatBuffers) (env : Env) (order : List NodeState → List NodeState)
    (d : Destroyed) (locals : Gossiper.Locals) (sent inBuff outBuff : List UInt8) (g : Gossiper) :
    Result (List UInt8 × Gossiper) :=
  match read d sent inBuff with
  | none => .ok ([], g)
  | some (header, inBuff) => do
      let (n, outBuff, g) ←
        g.handleBody fb env order d locals header.type inBuff outBuff (UInt64.ofNat buffSize)
      .ok (written outBuff n.toUInt32, g)

end Session

end CppGossip
