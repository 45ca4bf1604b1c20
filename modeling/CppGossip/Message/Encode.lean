import CppGossip.Message.Schema
import Mathlib.Algebra.Order.Ring.Int

/-!
# Records on the wire

Every sender writes a record as the table `CreateNodeState` of its fields, with
the port read back from its text by `std::stoi`. What `convert` makes of such a
table has the dominant, the state and the time of the record, and its names up
to their first NUL.
-/

namespace CppGossip

namespace Message

/-- `isspace` in the C locale. -/
def isSpace (c : Char) : Bool := c = ' ' ∨ '\t' ≤ c ∧ c ≤ '\r'

/-- The value of a string of decimal digits. -/
def decimal (digits : List Char) : ℕ := digits.foldl (fun n c => 10 * n + (c.toNat - '0'.toNat)) 0

/-- `std::stoi`: blanks, a sign, then at least one digit, and whatever else.
`none` stands for the two exceptions. -/
def stoi (s : String) : Option Int :=
  let (negative, rest) :=
    match s.toList.dropWhile isSpace with
    | '-' :: rest => (true, rest)
    | '+' :: rest => (false, rest)
    | rest => (false, rest)
  let digits := rest.takeWhile Char.isDigit
  if digits = [] then none
  else
    let n : Int := if negative then -decimal digits else decimal digits
    if -2147483648 ≤ n ∧ n ≤ 2147483647 then some n else none

example : stoi " -12x" = some (-12) := by decide

/-- The table that stands for a record: `CreateNode` and `CreateNodeState` on its
fields. The parameter for the port is an `int16_t`. -/
def encode (node : CppGossip.NodeState) : Option NodeState :=
  (stoi node.port).map fun port => {
    node := some { name := some node.name, ip := some node.ip, port := Int16.ofInt port }
    state := node.state.toRaw
    dominant := node.dominant
    from_ := some node.from_
    timeStamp := node.timestamp }

end Message

open Message

/-- What is received of a record that was sent. -/
theorem convert_of_encode {node : NodeState} {ns : Message.NodeState} (h : encode node = some ns) :
    ∃ port, convert ns = some
      { node with
        name := str node.name
        ip := str node.ip
        port := port
        from_ := str node.from_ } := by
  obtain ⟨port, _, rfl⟩ := Option.map_eq_some_iff.1 h
  refine ⟨toString (Int16.ofInt port), ?_⟩
  have hstate : State.ofRaw node.state.toRaw = node.state := State.ofRaw_toRaw node.state
  simp [convert, hstate]

end CppGossip
