import CppGossip.Gossiper.Handlers
import CppGossip.Transition.Since

/-!
# Runs of a gossiper

`Event` lists what a gossiper handles, one at a time. The timer service and the
sockets decide the order. A probe timeout is bound to the record that was
probed and a conviction to the accusation that raised the suspicion, so
`Enabled` admits the former for the pings sent so far and the latter for the
suspicions created so far. Nothing else is asked of them: they may come late,
several times, and after the suspicion has been cleared.
-/

namespace CppGossip

open Transition

/-- What a gossiper handles. -/
inductive Event where
  | registerNotifier (join leave : Bool)
  | join
  /-- one record of a list given to `mergeStates` -/
  | message (state : NodeState) (needBc : Bool)
  | probe (cursor : ℕ)
  | probeTimeout (node : NodeState)
  | deadAlert (name : String) (state : Message.State) (dominant : UInt64)
  /-- the wait handler of a suspicion, on expiry or on cancellation -/
  | conviction (accusation : NodeState)
  | batch (n : ℕ) (applied : Bool)
deriving DecidableEq

namespace Gossiper

/-- The handling of one event. -/
def step (env : Env) (g : Gossiper) : Event → Gossiper
  | .registerNotifier join leave => g.registerNotifier join leave
  | .join => g.join env
  | .message state needBc => g.mergeState env needBc state
  | .probe cursor => g.probe env cursor
  | .probeTimeout node => g.suspectNode env node
  | .deadAlert name state dominant => g.deadAlert env name state dominant
  | .conviction accusation => g.convict env accusation
  | .batch n applied => g.batch n applied

/-- The events that may come next. -/
def Enabled (g : Gossiper) : Event → Prop
  | .probeTimeout node => node ∈ g.pings
  | .conviction accusation => accusation ∈ g.timers
  | _ => True

instance Enabled.decidable (g : Gossiper) : ∀ e, Decidable (g.Enabled e)
  | .probeTimeout node => inferInstanceAs (Decidable (node ∈ g.pings))
  | .conviction accusation => inferInstanceAs (Decidable (accusation ∈ g.timers))
  | .registerNotifier _ _ | .join | .message _ _ | .probe _ | .deadAlert _ _ _ | .batch _ _ =>
      inferInstanceAs (Decidable True)

/-- The run of `es` from `g` has only events that may come. -/
abbrev Valid (env : Env) (g : Gossiper) (es : List Event) : Prop :=
  Along (step env) Enabled g es

/-- `mergeStates` handles the records of its list one after the other. -/
theorem mergeStates_eq_some_iff (env : Env) (nss : List Message.NodeState) (needBc : Bool)
    (g g' : Gossiper) :
    g.mergeStates env nss needBc = some g' ↔
      ∃ states, nss.mapM convert = some states ∧
        g' = run (step env) g (states.map fun state => .message state needBc) := by
  induction nss generalizing g with
  | nil => simp [mergeStates, eq_comm]
  | cons ns nss ih =>
      cases h : convert ns with
      | none => simp [mergeStates, h]
      | some state =>
          have ih' := ih (g.mergeState env needBc state)
          simp only [mergeStates] at ih'
          simp only [mergeStates, List.foldlM_cons, List.mapM_cons, h, Option.map_some,
            Option.bind_eq_bind, Option.bind_some]
          rw [ih']
          cases hs : nss.mapM convert with
          | none => simp
          | some states => simp [step]

/-! ## A node to run examples on -/

/-- A node called `a:1`. -/
def sampleEnv : Env where
  conf := { name := "a:1", addr := "a", port := 1 }
  place := fun _ _ => 0
  grown := fun _ _ => none
  timestamp := 0
  ceilLog2Zero := 0

/-- News about `name` that `sender` spreads. -/
def news (name : String) (dominant : UInt64) (state : Message.State) (sender : String) :
    NodeState where
  name := name
  ip := "b"
  port := "1"
  dominant := dominant
  state := state
  from_ := sender
  timestamp := 0

end Gossiper

end CppGossip
