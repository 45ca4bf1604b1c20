import CppGossip.Broadcast.Quota
import CppGossip.Gossiper.Outcome
import CppGossip.Transition.Simulation

/-!
# The queue of a gossiper

A handler reaches the queue through its calls alone: it pushes messages, or it
makes one batch. The queue of a gossiper is therefore in every run a queue that
has been called, and between two events it is settled.
-/

namespace CppGossip

open Transition

namespace Gossiper

/-- The calls on the queue that an event may make. -/
def Calls : Event → BroadcastQueue.Call → Prop
  | .batch n applied, c => c = .batch n applied
  | _, .push _ _ _ | _, .rehash _ => True
  | _, _ => False

variable {env : Env} {g g' : Gossiper}

/-- A push, or that the map grows by one. -/
def Pushes : BroadcastQueue.Call → Prop
  | .push _ _ _ | .rehash _ => True
  | _ => False

/-- The queue of `g'` is the queue of `g` after some pushes. -/
def Pushed (g g' : Gossiper) : Prop :=
  ∃ cs : List BroadcastQueue.Call, (∀ c ∈ cs, Pushes c) ∧
    g'.bcQueue = run BroadcastQueue.call g.bcQueue cs

theorem Pushed.of_eq (h : g'.bcQueue = g.bcQueue) : Pushed g g' :=
  ⟨[], List.forall_mem_nil _, h⟩

theorem Pushed.of_push {calls : ℕ} {msg : NodeState} {nodeNum : UInt32}
    (h : g'.bcQueue = env.push calls msg nodeNum g.bcQueue) : Pushed g g' := by
  have hpush : Pushes (.push (env.place g.bcQueue.m.keys msg.name) msg nodeNum) := trivial
  unfold Env.push at h
  dsimp only at h
  split at h
  case h_1 => exact ⟨[_], List.forall_mem_singleton.2 hpush, h⟩
  case h_2 m _ =>
    have hrehash : Pushes (.rehash m) := trivial
    exact ⟨[_, .rehash m], List.forall_mem_cons.2 ⟨hpush, List.forall_mem_singleton.2 hrehash⟩, h⟩

theorem pushed_fuckyou (n : UInt64) : Pushed g (g.fuckyou env n) := by
  rw [fuckyou_eq]
  exact .of_push rfl

theorem pushed_aliveNode (a : NodeState) (needBc : Bool) : Pushed g (g.aliveNode env a needBc) := by
  by_cases hacc : g.AliveAccepted env a
  · rw [aliveNode_of_accepted hacc]
    cases needBc with
    | true => exact .of_push rfl
    | false => exact .of_eq rfl
  · rw [aliveNode_of_not_accepted hacc]
    exact .of_eq rfl

theorem pushed_deadNode (d : NodeState) : Pushed g (g.deadNode env d) := by
  by_cases hheeds : g.Heeds d
  · by_cases hdown : g.Down d.name
    · rw [deadNode_of_down hheeds hdown]
      exact .of_eq rfl
    · by_cases hself : d.name = env.conf.name ∧ g.isLeaving = false
      · rw [deadNode_of_self hheeds hdown hself.1 hself.2]
        exact pushed_fuckyou (g := { g with
          suspicions := g.suspicions.erase d.name, nodeNum := g.nodeNum - 1 }) d.dominant
      · rw [deadNode_of_buried hheeds hdown hself]
        exact .of_push rfl
  · rw [deadNode_of_not_heeds hheeds]
    exact .of_eq rfl

theorem pushed_suspectNode (s : NodeState) : Pushed g (g.suspectNode env s) := by
  have hcases := suspected env g s
  generalize g.suspectNode env s = g' at hcases
  cases hcases with
  | stale _ => exact .of_eq rfl
  | convicted _ sus _ _ => exact pushed_deadNode (g := g.counted s sus) _
  | confirmed _ sus _ _ => exact .of_push rfl
  | ignored _ _ _ => exact .of_eq rfl
  | openedSelf _ _ _ _ => exact pushed_fuckyou s.dominant
  | opened _ _ _ _ => exact .of_push rfl

/-- An event that makes no batch pushes messages. -/
theorem pushed_step (e : Event) (he : ∀ n applied, e ≠ .batch n applied) :
    Pushed g (g.step env e) := by
  cases e with
  | registerNotifier join leave => exact .of_eq rfl
  | join =>
      exact pushed_aliveNode (g := ({ g with dominant := g.dominant + 1 } : Gossiper).record
        (.issue (selfState env (g.dominant + 1)) none)) _ false
  | message m needBc =>
      show Pushed g (g.mergeState env needBc m)
      unfold mergeState
      split
      · exact pushed_aliveNode m needBc
      · exact pushed_suspectNode m
      · exact pushed_deadNode m
      · exact .of_eq rfl
  | probe cursor =>
      show Pushed g (g.probe env cursor)
      unfold Gossiper.probe
      repeat' split
      all_goals exact .of_eq rfl
  | probeTimeout node => exact pushed_suspectNode node
  | deadAlert name state dominant =>
      show Pushed g (g.deadAlert env name state dominant)
      unfold deadAlert
      split
      · exact pushed_fuckyou dominant
      · exact .of_eq rfl
  | conviction s => exact pushed_deadNode _
  | batch n applied => exact absurd rfl (he n applied)

/-- A batch of a gossiper is one of its queue. -/
theorem bcQueue_batch (n : ℕ) (applied : Bool) :
    (g.batch n applied).bcQueue = g.bcQueue.call (.batch n applied) := by
  cases applied with
  | true => rfl
  | false => rfl

/-- What a gossiper does to its queue is done by calls. -/
theorem simulation_queue (env : Env) :
    Simulation (step env) (fun _ _ => True) BroadcastQueue.call (fun _ _ => True)
      (fun e cs => ∀ c ∈ cs, Calls e c) (fun g q => g.bcQueue = q) := by
  rintro g q e rfl -
  have hwhole (cs : List BroadcastQueue.Call) :
      Along BroadcastQueue.call (fun _ _ => True) g.bcQueue cs :=
    (along_iff_forall_mem _ _ cs).2 fun _ _ => trivial
  by_cases he : ∀ n applied, e ≠ .batch n applied
  · have hpushed : Pushed g (g.step env e) := pushed_step e he
    obtain ⟨cs, hcs, heq⟩ := hpushed
    refine ⟨cs, fun c hc => ?_, hwhole cs, heq⟩
    have hpushes := hcs c hc
    cases c with
    | push | rehash =>
        cases e with
        | batch n applied => exact absurd rfl (he n applied)
        | _ => trivial
    | _ => exact hpushes.elim
  · push Not at he
    obtain ⟨n, applied, rfl⟩ := he
    refine ⟨[.batch n applied], fun c hc => List.mem_singleton.1 hc, hwhole _, ?_⟩
    exact bcQueue_batch n applied

/-- Between events the queue is settled. -/
theorem settled_run (h : g.bcQueue.Settled) (es : List Event) :
    (run (step env) g es).bcQueue.Settled := by
  have halong : Along (step env) (fun _ _ => True) g es :=
    (along_iff_forall_mem _ _ es).2 fun _ _ => trivial
  have hcalls (cs : List BroadcastQueue.Call)
      (hcs : Along BroadcastQueue.call (fun _ _ => True) g.bcQueue cs) :
      (run BroadcastQueue.call g.bcQueue cs).Settled :=
    hcs.invariant (I := BroadcastQueue.Settled) (fun _ c hq _ => BroadcastQueue.settled_call hq c) h
  obtain ⟨q, rfl, hq⟩ := (simulation_queue env).invariant hcalls rfl halong
  exact hq

end Gossiper

end CppGossip
