import Mathlib.Data.Prod.Lex
import Mathlib.Data.Int.Order.Basic

/-!
# Node states

A `NodeState` is the record `node_state` that the gossiper keeps for a member
and sends about it. Its state is the schema's `enum STATE:byte`; since the
reader casts any received byte to the enumeration, `Message.State` keeps the
bytes without a name in a constructor of their own, which excludes the three
named ones.

`NodeState.precedence` is the order in which the broadcast queue lets one
message replace another: the dominant first, then the state.
-/

namespace CppGossip

namespace Message

/-- `enum STATE`, with the values that a byte off the wire can take besides. -/
inductive State where
  | alive
  | suspect
  | dead
  | other (raw : Int8) (h : raw ≠ 0 ∧ raw ≠ 1 ∧ raw ≠ 2)
deriving DecidableEq

namespace State

/-- The byte that stands for a state on the wire. -/
def toRaw : State → Int8
  | alive => 0
  | suspect => 1
  | dead => 2
  | other raw _ => raw

/-- `static_cast<STATE>` of a byte. -/
def ofRaw (raw : Int8) : State :=
  if h₀ : raw = 0 then alive
  else if h₁ : raw = 1 then suspect
  else if h₂ : raw = 2 then dead
  else other raw ⟨h₀, h₁, h₂⟩

theorem toRaw_ofRaw (raw : Int8) : (ofRaw raw).toRaw = raw := by
  unfold ofRaw
  split_ifs with h₀ h₁ h₂
  · exact h₀.symm
  · exact h₁.symm
  · exact h₂.symm
  · rfl

theorem ofRaw_toRaw (s : State) : ofRaw s.toRaw = s := by
  cases s with
  | alive => rfl
  | suspect => rfl
  | dead => rfl
  | other raw h => simp [toRaw, ofRaw, h.1, h.2.1, h.2.2]

theorem toRaw_injective : Function.Injective toRaw :=
  Function.LeftInverse.injective ofRaw_toRaw

/-- The order of the enumeration values, `ALIVE < SUSPECT < DEAD`. -/
instance : LinearOrder State :=
  LinearOrder.lift' (fun s => s.toRaw.toInt) fun _ _ h =>
    toRaw_injective (Int8.toInt_inj.mp h)

/-- The state has a name in the schema. -/
def Named (s : State) : Prop := s = .alive ∨ s = .suspect ∨ s = .dead

instance (s : State) : Decidable s.Named := inferInstanceAs (Decidable (_ ∨ _))

theorem Named.alive_le {s : State} (h : s.Named) : .alive ≤ s := by
  rcases h with rfl | rfl | rfl <;> decide

theorem Named.le_dead {s : State} (h : s.Named) : s ≤ .dead := by
  rcases h with rfl | rfl | rfl <;> decide

end State

end Message

/-- `struct node_state`. -/
structure NodeState where
  name : String
  ip : String
  port : String
  dominant : UInt64
  state : Message.State
  from_ : String
  timestamp : UInt64
deriving DecidableEq

namespace NodeState

/-- The dominant, then the state. -/
def precedence (m : NodeState) : ℕ ×ₗ Message.State := toLex (m.dominant.toNat, m.state)

theorem precedence_lt_iff (m r : NodeState) :
    m.precedence < r.precedence ↔
      m.dominant < r.dominant ∨ m.dominant = r.dominant ∧ m.state < r.state := by
  rw [precedence, precedence, Prod.Lex.toLex_lt_toLex, UInt64.toNat_inj, UInt64.lt_iff_toNat_lt]

theorem precedence_le_iff (m r : NodeState) :
    m.precedence ≤ r.precedence ↔
      m.dominant < r.dominant ∨ m.dominant = r.dominant ∧ m.state ≤ r.state := by
  rw [precedence, precedence, Prod.Lex.toLex_le_toLex, UInt64.toNat_inj, UInt64.lt_iff_toNat_lt]

theorem dominant_le_of_precedence_le {m r : NodeState} (h : m.precedence ≤ r.precedence) :
    m.dominant ≤ r.dominant := by
  rcases (precedence_le_iff m r).1 h with hlt | ⟨heq, _⟩
  · exact UInt64.le_of_lt hlt
  · exact heq ▸ UInt64.le_refl _

end NodeState

end CppGossip
