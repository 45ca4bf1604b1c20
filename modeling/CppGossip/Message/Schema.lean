import CppGossip.Message.NodeState

/-!
# The tables of the message schema

`Message.Node` and `Message.NodeState` are the schema's tables as the generated
accessors read them: a field that holds an offset is `none` when the sender
left it out, a scalar then has its default. `convert` reads a table into a
`NodeState`, and is `none` where the reader would follow an absent field.
-/

namespace CppGossip

namespace Message

/-- `table Node`. -/
structure Node where
  name : Option String
  ip : Option String
  port : Int16
deriving DecidableEq

/-- `table NodeState`. -/
structure NodeState where
  node : Option Node
  state : Int8
  dominant : UInt64
  from_ : Option String
  timeStamp : UInt64
deriving DecidableEq

/-- `flatbuffers::String::str()`: the string up to its first NUL. -/
def str (s : String) : String := String.ofList (s.toList.takeWhile fun c => c ≠ Char.ofNat 0)

end Message

/-- `convert`: the record it fills for a received table, or `none` when an absent
field is dereferenced. The overload with one argument, which `mergeStates` calls,
returns a reference to that record and destroys it. -/
def convert (from_ : Message.NodeState) : Option NodeState := do
  let node ← from_.node
  let name ← node.name
  let ip ← node.ip
  let sender ← from_.from_
  return {
    name := Message.str name
    ip := Message.str ip
    port := toString node.port
    dominant := from_.dominant
    state := Message.State.ofRaw from_.state
    from_ := Message.str sender
    timestamp := from_.timeStamp }

end CppGossip
