import CppGossip.Bytes.Codec
import CppGossip.Wire.Section

/-!
# A serialisation to run examples on

`Section` asks of the serialisation library no more than what
`Section.ofCodec` makes of any codec: buffers of less than the largest size,
which are read back whatever stands behind them. `reference` writes the four
tables field by field.
-/

namespace CppGossip

open Bytes

/-- A codec with the library's limit on the size of a buffer. -/
def Section.ofCodec {α : Type} (c : Codec α) (default : α) (h : ∀ a, 0 < (c.put a).length) :
    Section α where
  finish a := if (c.put a).length < maxBufferSize then some (c.put a) else none
  getRoot mem := ((c.get mem).map Prod.fst).getD default
  finish_pos {a buff} hbuff := by
    obtain ⟨_, heq⟩ := Option.ite_none_right_eq_some.1 hbuff
    cases heq
    exact h a
  finish_lt {a buff} hbuff := by
    obtain ⟨hlt, heq⟩ := Option.ite_none_right_eq_some.1 hbuff
    cases heq
    exact hlt
  getRoot_finish {a buff} hbuff rest := by
    obtain ⟨_, heq⟩ := Option.ite_none_right_eq_some.1 hbuff
    cases heq
    rw [c.get_put]
    rfl

theorem Section.finish_ofCodec_iff {α : Type} {c : Codec α} {default : α}
    {h : ∀ a, 0 < (c.put a).length} {a : α} {buff : List UInt8} :
    (Section.ofCodec c default h).finish a = some buff ↔
      (c.put a).length < maxBufferSize ∧ c.put a = buff := by
  rw [Section.ofCodec]
  simp

namespace Reference

/-- `table Node`. -/
def node : Codec Message.Node :=
  ((Codec.string.option.pair Codec.string.option).pair Codec.short).map
    (fun r => ⟨r.1.1, r.1.2, r.2⟩) (fun n => ((n.name, n.ip), n.port)) fun _ => rfl

/-- `table NodeState`. -/
def nodeState : Codec Message.NodeState :=
  ((node.option.pair Codec.byte).pair (Codec.long.pair (Codec.string.option.pair Codec.long))).map
    (fun r => ⟨r.1.1, r.1.2, r.2.1, r.2.2.1, r.2.2.2⟩)
    (fun n => ((n.node, n.state), n.dominant, n.from_, n.timeStamp)) fun _ => rfl

/-- `table NodeStates`. -/
def nodeStates : Codec Message.NodeStates :=
  nodeState.list.option.map Message.NodeStates.mk Message.NodeStates.nodes fun _ => rfl

/-- `table Ping`. -/
def ping : Codec Message.Ping :=
  (Codec.long.pair Codec.string.option).map (fun r => ⟨r.1, r.2⟩) (fun p => (p.seqNo, p.from_))
    fun _ => rfl

/-- `table Pong`. -/
def pong : Codec Message.Pong := Codec.long.map Message.Pong.mk Message.Pong.seqNo fun _ => rfl

theorem length_long (x : UInt64) : (Codec.long.put x).length = 8 := rfl

theorem ping_pos (p : Message.Ping) : 0 < (ping.put p).length := by
  show 0 < (Codec.long.put p.seqNo ++ Codec.string.option.put p.from_).length
  rw [List.length_append, length_long]
  omega

theorem nodeState_pos (n : Message.NodeState) : 0 < (nodeState.put n).length := by
  show 0 < ((node.option.pair Codec.byte).put (n.node, n.state) ++
    (Codec.long.put n.dominant ++ (Codec.string.option.pair Codec.long).put _)).length
  rw [List.length_append, List.length_append, length_long]
  omega

theorem nodeStates_pos (n : Message.NodeStates) : 0 < (nodeStates.put n).length := by
  show 0 < (nodeState.list.option.put n.nodes).length
  cases n.nodes with
  | none => exact Nat.zero_lt_one
  | some l => exact Nat.succ_pos _

end Reference

/-- The four sections, each table written field by field. -/
def reference : FlatBuffers where
  ping := .ofCodec Reference.ping ⟨0, none⟩ Reference.ping_pos
  pong := .ofCodec Reference.pong ⟨0⟩ fun p => (Reference.length_long p.seqNo).symm ▸ Nat.succ_pos 7
  nodeState := .ofCodec Reference.nodeState ⟨none, 0, 0, none, 0⟩ Reference.nodeState_pos
  nodeStates := .ofCodec Reference.nodeStates ⟨none⟩ Reference.nodeStates_pos

theorem finish_nodeStates_iff {nss : Message.NodeStates} {buff : List UInt8} :
    reference.nodeStates.finish nss = some buff ↔
      (Reference.nodeStates.put nss).length < maxBufferSize ∧
        Reference.nodeStates.put nss = buff :=
  Section.finish_ofCodec_iff (h := Reference.nodeStates_pos)

end CppGossip
