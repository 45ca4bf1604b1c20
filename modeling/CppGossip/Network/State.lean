import CppGossip.Process.Survival

/-!
# A network of processes

`Network` is any number of processes and the bytes they have sent. A datagram that
has been sent may reach any server, or any client of a probe, at any later time, any
number of times, or never; of what is sent on a connection the other end gets some
front part. Where a datagram ends up is not looked at, so that wrong addresses are
allowed for. A process that goes down sends nothing more.
-/

namespace CppGossip

open Bytes Message Transition

/-- The processes of a network and what they have sent. -/
structure Network (ι : Type*) where
  node : ι → Result Process
  wire : List Output

/-- What an input gets of what was sent: a datagram whole, or the front of what was
written to a connection. -/
def Output.Reaches : Output → Input → Prop
  | .ping _ _ bytes, .datagram bytes' _ => bytes' = bytes
  | .pong bytes, .pong bytes' _ => bytes' = bytes
  | .request bytes, .connection sent _ _ _ _ => sent <+: bytes
  | .reply bytes, .reply sent _ _ => sent <+: bytes
  | _, _ => False

instance Output.Reaches.decidable : ∀ (o : Output) (i : Input), Decidable (o.Reaches i) := by
  intro o i
  cases o <;> cases i <;> unfold Output.Reaches <;> infer_instance

/-- A request fits the buffer that a session reads into. -/
def Output.Roomy : Output → Prop
  | .request bytes => bytes.length ≤ 8 + Session.buffSize
  | _ => True

instance Output.Roomy.decidable : ∀ o : Output, Decidable o.Roomy
  | .request _ => inferInstanceAs (Decidable (_ ≤ _))
  | .ping _ _ _ | .pong _ | .reply _ => inferInstanceAs (Decidable True)

/-- The input is bytes from another process. -/
def Input.Remote : Input → Bool
  | .datagram _ _ | .pong _ _ | .connection _ _ _ _ _ | .reply _ _ _ => true
  | _ => false

namespace Network

variable {ι : Type*} [DecidableEq ι]

/-- Processes as they are constructed, and nothing sent. -/
def start (data : ι → List UInt8) : Network ι where
  node i := .ok (.start (data i))
  wire := []

variable (fb : FlatBuffers) (env : ι → Env) (order : List NodeState → List NodeState)

/-- What the process `i` sends on an input. -/
def emitted (N : Network ι) (i : ι) (input : Input) : List Output :=
  match (N.node i).bind fun p => p.handle fb (env i) order input with
  | .ok (_, out) => out
  | .error _ => []

/-- What a step does: one process has one input. -/
def act (N : Network ι) (o : ι × Input) : Network ι where
  node := Function.update N.node o.1
    (attempt (Process.step fb (env o.1) order) (N.node o.1) o.2)
  wire := N.wire ++ N.emitted fb env order o.1 o.2

/-- The steps that may come next. -/
def Enabled (N : Network ι) (o : ι × Input) : Prop :=
  WhileUp (Process.Enabled · o.2) (N.node o.1) ∧
    (o.2.Remote = true → ∃ out ∈ N.wire, out.Reaches o.2)

instance Enabled.decidable (N : Network ι) (o : ι × Input) : Decidable (N.Enabled o) :=
  inferInstanceAs (Decidable (_ ∧ _))

/-- The requests that have been sent fit the buffer that a session reads into. -/
def Roomy (N : Network ι) : Prop := ∀ out ∈ N.wire, out.Roomy

instance Roomy.decidable (N : Network ι) : Decidable N.Roomy :=
  inferInstanceAs (Decidable (∀ out ∈ N.wire, _))

/-- The run of the steps has only such as may come, and its requests fit. -/
abbrev Valid (N : Network ι) (os : List (ι × Input)) : Prop :=
  Along (act fb env order) (fun N o => N.Enabled o ∧ N.Roomy) N os

variable {fb : FlatBuffers} {env : ι → Env}
  {order : List CppGossip.NodeState → List CppGossip.NodeState}
  {N : Network ι} {i : ι} {input : Input} {p p' : Process} {out : List Output} {f : Fault}

/-- Nothing happens at a process that is down. -/
theorem act_of_down (h : N.node i = .error f) : act fb env order N (i, input) = N := by
  have hnode : Function.update N.node i (.error f) = N.node := by rw [← h, Function.update_eq_self]
  simp [act, emitted, h, Except.bind, hnode]

/-- A call that fails takes the process down. -/
theorem act_of_fault (h : N.node i = .ok p) (hf : p.handle fb (env i) order input = .error f) :
    act fb env order N (i, input) = { N with node := Function.update N.node i (.error f) } := by
  simp [act, emitted, h, hf, Except.bind, Process.step, Except.map]

theorem act_of_ok (h : N.node i = .ok p)
    (hok : p.handle fb (env i) order input = .ok (p', out)) :
    act fb env order N (i, input) =
      { node := Function.update N.node i (.ok p'), wire := N.wire ++ out } := by
  simp [act, emitted, h, hok, Except.bind, Process.step, Except.map]

end Network

end CppGossip
