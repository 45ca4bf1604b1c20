import CppGossip.Broadcast.Message
import CppGossip.Membership.Table

/-!
# What an event brings

Eight kinds of events reach three handlers and the objection. `Handled` lists
the ways an event is handled: the node announces itself, hears that a node is
alive, suspect or dead, is told of its own death, or does nothing to the
membership (`Quiet`). A probe timeout is news of a suspect whose record still
says alive, and a conviction is news of a death.
-/

namespace CppGossip

open Collection Transition

namespace Gossiper

variable (env : Env) (g : Gossiper)

/-- `g'` differs from `g` in nothing but the probes sent, the notifiers and the
messages that have left the queue. -/
structure Quiet (g' : Gossiper) : Prop where
  dominant : g'.dominant = g.dominant
  isLeaving : g'.isLeaving = g.isLeaving
  nodeMap : g'.nodeMap = g.nodeMap
  nodes : g'.nodes = g.nodes
  nodeNum : g'.nodeNum = g.nodeNum
  suspicions : g'.suspicions = g.suspicions
  timers : g'.timers = g.timers
  trace : g'.trace = g.trace
  message : ∀ x m, g'.bcQueue.message x = some m → g.bcQueue.message x = some m

theorem Quiet.refl : Quiet g g := ⟨rfl, rfl, rfl, rfl, rfl, rfl, rfl, rfl, fun _ _ h => h⟩

/-- The state in which a node that joins merges its own announcement. -/
def announced : Gossiper :=
  ({ g with dominant := g.dominant + 1 } : Gossiper).record
    (.issue (selfState env (g.dominant + 1)) none)

/-- The events that bring no news of any node. -/
def Silent : Event → Prop
  | .registerNotifier _ _ | .probe _ | .batch _ _ => True
  | .message m _ => m.state ≠ .alive ∧ m.state ≠ .suspect ∧ m.state ≠ .dead
  | .deadAlert name state _ => ¬ (name = env.conf.name ∧ state = .dead)
  | .join | .probeTimeout _ | .conviction _ => False

/-- The ways an event is handled. -/
inductive Handled : Event → Gossiper → Prop
  | quiet {e : Event} {g' : Gossiper} (he : Silent env e) (h : Quiet g g') : Handled e g'
  | joined : Handled .join
      ((g.announced env).aliveNode env (selfState env (g.dominant + 1)) false)
  | alive (a : NodeState) (needBc : Bool) (ha : a.state = .alive) :
      Handled (.message a needBc) (g.aliveNode env a needBc)
  | suspect (s : NodeState) (needBc : Bool) (hs : s.state = .suspect) :
      Handled (.message s needBc) (g.suspectNode env s)
  | timeout (s : NodeState) (hs : s.state = .alive) (hother : s.name ≠ env.conf.name) :
      Handled (.probeTimeout s) (g.suspectNode env s)
  | dead (d : NodeState) (needBc : Bool) (hd : d.state = .dead) :
      Handled (.message d needBc) (g.deadNode env d)
  | convicted (s : NodeState) (hs : s ∈ g.timers) :
      Handled (.conviction s) (g.deadNode env s.killed)
  | alerted (n : UInt64) : Handled (.deadAlert env.conf.name .dead n) (g.fuckyou env n)

variable {env g}

theorem quiet_probe (cursor : ℕ) : Quiet g (g.probe env cursor) := by
  unfold Gossiper.probe
  split
  case h_1 => exact .refl g
  case h_2 =>
    split
    case h_1 => exact .refl g
    case h_2 =>
      split
      · exact ⟨rfl, rfl, rfl, rfl, rfl, rfl, rfl, rfl, fun _ _ h => h⟩
      · exact .refl g

theorem quiet_batch (n : ℕ) (applied : Bool) : Quiet g (g.batch n applied) := by
  refine ⟨rfl, rfl, rfl, rfl, rfl, rfl, rfl, rfl, ?_⟩
  intro x m hm
  unfold Gossiper.batch at hm
  cases applied with
  | false => simpa using hm
  | true => simpa using BroadcastQueue.message_applyPeek hm

theorem handled (h : Tabled env g) (e : Event) (he : g.Enabled e) :
    Handled env g e (g.step env e) := by
  cases e with
  | registerNotifier join leave =>
      exact .quiet trivial ⟨rfl, rfl, rfl, rfl, rfl, rfl, rfl, rfl, fun _ _ hm => hm⟩
  | join => exact .joined
  | message m needBc =>
      cases hm : m.state with
      | alive =>
          have heq : g.step env (.message m needBc) = g.aliveNode env m needBc := by
            simp only [Gossiper.step, mergeState, hm]
          exact heq ▸ .alive m needBc hm
      | suspect =>
          have heq : g.step env (.message m needBc) = g.suspectNode env m := by
            simp only [Gossiper.step, mergeState, hm]
          exact heq ▸ .suspect m needBc hm
      | dead =>
          have heq : g.step env (.message m needBc) = g.deadNode env m := by
            simp only [Gossiper.step, mergeState, hm]
          exact heq ▸ .dead m needBc hm
      | other raw hraw =>
          have heq : g.step env (.message m needBc) = g := by
            simp only [Gossiper.step, mergeState, hm]
          exact heq.symm ▸ .quiet (by simp [Silent, hm]) (.refl g)
  | probe cursor => exact .quiet trivial (quiet_probe cursor)
  | probeTimeout node => exact .timeout node (h.pinged node he).1 (h.pinged node he).2
  | deadAlert name state dominant =>
      by_cases haccused : name = env.conf.name ∧ state = .dead
      · obtain ⟨rfl, rfl⟩ := haccused
        have heq : g.step env (.deadAlert env.conf.name .dead dominant) =
            g.fuckyou env dominant := if_pos ⟨rfl, rfl⟩
        exact heq ▸ .alerted dominant
      · have heq : g.step env (.deadAlert name state dominant) = g := if_neg haccused
        exact heq.symm ▸ .quiet haccused (.refl g)
  | conviction s => exact .convicted s he
  | batch n applied => exact .quiet trivial (quiet_batch n applied)

/-! ## News brought to each handler -/

/-- The accusation of the open suspicion whose quorum `s` completes. -/
def quorum (g : Gossiper) (s : NodeState) : Option NodeState :=
  if g.Heeds s then
    (g.suspicions.lookup s.name).bind fun sus =>
      if (sus.confirm s.from_).1 then some sus.accusation else none
  else none

/-- The accusation whose callback an event runs: a wait handler runs its own, an
accuser that completes a quorum that of the open suspicion. -/
def callback (g : Gossiper) : Event → Option NodeState
  | .message m _ => if m.state = .suspect then g.quorum m else none
  | .probeTimeout node => g.quorum node
  | .conviction s => some s
  | _ => none

/-- The news of a death that an event brings to `deadNode`. -/
def deathNews (g : Gossiper) : Event → Option NodeState
  | .message m needBc =>
      if m.state = .dead then some m
      else (g.callback (.message m needBc)).map NodeState.killed
  | e => (g.callback e).map NodeState.killed

/-- The news that a node is alive which an event brings to `aliveNode`. -/
def aliveNews (env : Env) (g : Gossiper) : Event → Option NodeState
  | .join => some (selfState env (g.dominant + 1))
  | .message m _ => if m.state = .alive then some m else none
  | _ => none

theorem aliveNews_of_silent {e : Event} (he : Silent env e) : g.aliveNews env e = none := by
  cases e with
  | message m needBc => exact if_neg he.1
  | join => exact he.elim
  | _ => rfl

theorem callback_of_silent {e : Event} (he : Silent env e) : g.callback e = none := by
  cases e with
  | message m needBc => exact if_neg he.2.1
  | conviction s => exact he.elim
  | probeTimeout s => exact he.elim
  | _ => rfl

theorem deathNews_of_silent {e : Event} (he : Silent env e) : g.deathNews e = none := by
  have hcall := callback_of_silent (g := g) he
  cases e with
  | message m needBc =>
      rw [deathNews, if_neg he.2.2, hcall]
      rfl
  | conviction s => exact he.elim
  | probeTimeout s => exact he.elim
  | _ => rfl

theorem quorum_of_confirmed {s : NodeState} (h : g.Heeds s) {sus : Suspicion}
    (hsus : g.suspicions.lookup s.name = some sus) :
    g.quorum s = if (sus.confirm s.from_).1 then some sus.accusation else none := by
  rw [quorum, if_pos h, hsus]
  rfl

theorem quorum_of_not_heeds {s : NodeState} (h : ¬ g.Heeds s) : g.quorum s = none := if_neg h

theorem quorum_of_none {s : NodeState} (hsus : g.suspicions.lookup s.name = none) :
    g.quorum s = none := by
  rw [quorum, hsus]
  split
  · rfl
  · rfl

end Gossiper

end CppGossip
