import CppGossip.Message.Encode
import CppGossip.Wire.Header

/-!
# Sections

A body and what is appended to it are each a section: a buffer that the
serialisation library finishes around one root table, and reads back from a
pointer to its first byte. `Section` is what the messages rely on. Reading is a
function of the whole memory from that byte on, as the library is not told
where a section ends; `getRoot_finish` says that what lies behind a section that
was finished makes no difference.
-/

namespace CppGossip

namespace Message

/-- `table Ping`. -/
structure Ping where
  seqNo : UInt64
  from_ : Option String
deriving DecidableEq

/-- `table Pong`. -/
structure Pong where
  seqNo : UInt64
deriving DecidableEq

/-- `table NodeStates`. -/
structure NodeStates where
  nodes : Option (List NodeState)
deriving DecidableEq

end Message

/-- The library's assertion keeps a buffer below this size. -/
def maxBufferSize : ℕ := 2147483647

/-- Writing and reading a buffer whose root is a table of type `α`. `finish` is
`none` when the builder's assertion on its size fails. -/
structure Section (α : Type) where
  finish : α → Option (List UInt8)
  getRoot : List UInt8 → α
  finish_pos : ∀ {a buff}, finish a = some buff → 0 < buff.length
  finish_lt : ∀ {a buff}, finish a = some buff → buff.length < maxBufferSize
  getRoot_finish : ∀ {a buff}, finish a = some buff → ∀ rest, getRoot (buff ++ rest) = a

/-- The sections that are sent. -/
structure FlatBuffers where
  ping : Section Message.Ping
  pong : Section Message.Pong
  nodeState : Section Message.NodeState
  nodeStates : Section Message.NodeStates

/-- Why a handler does not return. -/
inductive Fault where
  /-- a field that is not there is dereferenced -/
  | absentField
  /-- `std::stoi` throws -/
  | invalidPort
  /-- a builder's assertion fails -/
  | bufferTooLarge
  /-- an object that is gone is read where nothing can be -/
  | invalidRead
deriving DecidableEq

/-- What a handler gives: a value, or the reason why it has none. -/
abbrev Result (α : Type) := Except Fault α

/-- `none` is the fault `e`. -/
def orFault {α : Type} (e : Fault) : Option α → Result α
  | none => .error e
  | some a => .ok a

@[simp] theorem orFault_some {α : Type} (e : Fault) (a : α) : orFault e (some a) = .ok a := rfl

@[simp] theorem orFault_none {α : Type} (e : Fault) : orFault e (none : Option α) = .error e := rfl

theorem orFault_eq_ok_iff {α : Type} {e : Fault} {o : Option α} {a : α} :
    orFault e o = .ok a ↔ o = some a := by
  cases o with
  | none => simp
  | some b => simp

@[simp] theorem Result.ok_bind {α β : Type} (a : α) (f : α → Result β) :
    (Except.ok a : Result α) >>= f = f a := rfl

@[simp] theorem Result.error_bind {α β : Type} (e : Fault) (f : α → Result β) :
    (Except.error e : Result α) >>= f = .error e := rfl

/-- A sequence of steps gives a value when each of them does. -/
theorem Result.bind_eq_ok_iff {α β : Type} {x : Result α} {f : α → Result β} {b : β} :
    x >>= f = .ok b ↔ ∃ a, x = .ok a ∧ f a = .ok b := by
  cases x with
  | error e => simp [bind, Except.bind]
  | ok a => simp [bind, Except.bind]

theorem Result.map_eq_ok_iff {α β : Type} {x : Result α} {f : α → β} {b : β} :
    x.map f = .ok b ↔ ∃ a, x = .ok a ∧ f a = b := by
  cases x with
  | error e => simp [Except.map]
  | ok a => simp [Except.map]

theorem Result.exists_of_any {α : Type} {x : Result α} {p : α → Bool}
    (h : x.toOption.any p = true) : ∃ a, x = .ok a ∧ p a = true := by
  cases x with
  | error e => cases h
  | ok a => exact ⟨a, rfl, h⟩

end CppGossip
