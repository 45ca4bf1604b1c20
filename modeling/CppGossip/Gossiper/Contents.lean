import CppGossip.Broadcast.Message
import CppGossip.Gossiper.Outcome

/-!
# What a gossiper holds came to it

The records in the table, in the queue, in the suspicions and in the callbacks
are records that the gossiper received, made about itself, stamped with a time or
turned into news of a death. A property that these keep (`Passed`) is therefore
one of everything the gossiper holds as long as it is one of everything it
receives (`Every.step`).
-/

namespace CppGossip

open Collection

/-- A property that a record keeps in all that a gossiper does to it, and that
the records have which it makes itself. -/
structure NodeState.Passed (env : Env) (P : NodeState → Prop) : Prop where
  own : ∀ d, P (Gossiper.selfState env d)
  stamped : ∀ m, P m → P { m with timestamp := 0 }
  killed : ∀ m, P m → P m.killed

namespace Gossiper

/-- Every record that the gossiper holds has the property `P`. -/
structure Every (P : NodeState → Prop) (g : Gossiper) : Prop where
  recorded : ∀ x r, g.nodeMap.lookup x = some r → P r
  queued : ∀ x m, g.bcQueue.message x = some m → P m
  accused : ∀ x sus, g.suspicions.lookup x = some sus → P sus.accusation
  timed : ∀ s ∈ g.timers, P s
  pinged : ∀ node ∈ g.pings, P node

variable {env : Env} {g : Gossiper} {P : NodeState → Prop}

theorem every_fresh (P : NodeState → Prop) : Every P fresh where
  recorded _ _ h := by simp [fresh] at h
  queued _ _ h := by simp [fresh] at h
  accused _ _ h := by simp [fresh] at h
  timed _ h := by simp [fresh] at h
  pinged _ h := by simp [fresh] at h

theorem Every.queued_push (h : Every P g) {m : NodeState} (hm : P m) (calls : ℕ)
    (nodeNum : UInt32) :
    ∀ x q, (env.push calls m nodeNum g.bcQueue).message x = some q → P q := by
  intro x q hq
  rw [Gossiper.message_push] at hq
  split at hq
  case isTrue =>
    cases hq
    rcases BroadcastQueue.kept_eq_or m (g.bcQueue.message x) with heq | hold
    · rw [heq]
      exact hm
    · exact h.queued x _ hold
  case isFalse => exact h.queued x q hq

theorem Every.push (h : Every P g) {m : NodeState} (hm : P m) : Every P (g.push env m) :=
  ⟨h.recorded, h.queued_push hm _ _, h.accused, h.timed, h.pinged⟩

theorem Every.fuckyou (h : Every P g) (hP : NodeState.Passed env P) (n : UInt64) :
    Every P (g.fuckyou env n) := by
  rw [fuckyou_eq]
  have hissued : Every P ({ g with dominant := objection g.dominant n }.record
      (.issue (selfState env (objection g.dominant n)) (some n))) :=
    ⟨h.recorded, h.queued, h.accused, h.timed, h.pinged⟩
  exact hissued.push (hP.own _)

theorem Every.aliveNode (h : Every P g) (hP : NodeState.Passed env P) {a : NodeState} (ha : P a)
    (needBc : Bool) : Every P (g.aliveNode env a needBc) := by
  by_cases hacc : g.AliveAccepted env a
  · rw [aliveNode_of_accepted hacc]
    refine ⟨forall_lookup_insert h.recorded (hP.stamped a ha), ?_,
      forall_lookup_erase h.accused a.name, h.timed, h.pinged⟩
    cases needBc with
    | true => exact h.queued_push ha _ _
    | false => exact h.queued
  · rw [aliveNode_of_not_accepted hacc]
    exact h

theorem Every.deadNode (h : Every P g) (hP : NodeState.Passed env P) {d : NodeState} (hd : P d) :
    Every P (g.deadNode env d) := by
  by_cases hheeds : g.Heeds d
  · by_cases hdown : g.Down d.name
    · rw [deadNode_of_down hheeds hdown]
      exact ⟨h.recorded, h.queued, forall_lookup_erase h.accused d.name, h.timed, h.pinged⟩
    · by_cases hself : d.name = env.conf.name ∧ g.isLeaving = false
      · rw [deadNode_of_self hheeds hdown hself.1 hself.2]
        have herased : Every P { g with
            suspicions := g.suspicions.erase d.name, nodeNum := g.nodeNum - 1 } :=
          ⟨h.recorded, h.queued, forall_lookup_erase h.accused d.name, h.timed, h.pinged⟩
        exact herased.fuckyou hP d.dominant
      · rw [deadNode_of_buried hheeds hdown hself]
        exact ⟨forall_lookup_insert h.recorded (hP.stamped d hd), h.queued_push hd _ _,
          forall_lookup_erase h.accused d.name, h.timed, h.pinged⟩
  · rw [deadNode_of_not_heeds hheeds]
    exact h

theorem Every.counted (h : Every P g) {s : NodeState} {sus : Suspicion}
    (hsus : g.suspicions.lookup s.name = some sus) : Every P (g.counted s sus) := by
  have hsame : P (sus.confirm s.from_).2.accusation := by
    rw [Suspicion.confirm_accusation]
    exact h.accused s.name sus hsus
  exact ⟨h.recorded, h.queued, forall_lookup_insert h.accused hsame, h.timed, h.pinged⟩

/-- A suspicion is opened, and the accusation bound to its callback. -/
theorem Every.opened (h : Every P g) (hP : NodeState.Passed env P) {s : NodeState} (hs : P s)
    (nodeNum : UInt32) :
    Every P { g.updateNodeState s.name s with
      suspicions := g.suspicions.insert s.name (Suspicion.new env nodeNum s)
      timers := s :: g.timers } where
  recorded := forall_lookup_insert h.recorded (hP.stamped s hs)
  queued := h.queued
  accused := forall_lookup_insert h.accused hs
  timed t ht := by
    rcases List.mem_cons.1 ht with rfl | ht
    · exact hs
    · exact h.timed t ht
  pinged := h.pinged

theorem Every.suspectNode (h : Every P g) (hP : NodeState.Passed env P) {s : NodeState} (hs : P s) :
    Every P (g.suspectNode env s) := by
  have hcases := suspected env g s
  generalize g.suspectNode env s = g' at hcases
  cases hcases with
  | stale _ => exact h
  | convicted _ sus hsus _ =>
      exact (h.counted hsus).deadNode hP (hP.killed _ (h.accused s.name sus hsus))
  | confirmed _ sus hsus _ => exact (h.counted hsus).push hs
  | ignored _ _ _ => exact h
  | openedSelf _ _ _ _ =>
      have hopened := (h.fuckyou hP s.dominant).opened hP hs g.nodeNum
      rw [fuckyou_suspicions, fuckyou_timers] at hopened
      exact hopened
  | opened _ _ _ _ =>
      have hpushed : Every P (g.push env s) := h.push hs
      exact hpushed.opened hP hs g.nodeNum

theorem Every.probe (h : Every P g) (cursor : ℕ) : Every P (g.probe env cursor) := by
  unfold Gossiper.probe
  split
  case h_1 => exact h
  case h_2 candi _ _ =>
    cases hr : g.getNodeState candi with
    | none => exact h
    | some node =>
        dsimp only
        split
        case isTrue =>
          refine ⟨h.recorded, h.queued, h.accused, h.timed, fun n hn => ?_⟩
          rcases List.mem_cons.1 hn with rfl | hn
          · exact h.recorded candi n hr
          · exact h.pinged n hn
        case isFalse => exact h

theorem Every.batch (h : Every P g) (n : ℕ) (applied : Bool) : Every P (g.batch n applied) where
  recorded := h.recorded
  queued x m hm := by
    refine h.queued x m ?_
    cases applied with
    | true =>
        have hpeeked := BroadcastQueue.message_applyPeek hm
        rwa [BroadcastQueue.message_peekN] at hpeeked
    | false =>
        rw [← BroadcastQueue.message_peekN n g.bcQueue x]
        exact hm
  accused := h.accused
  timed := h.timed
  pinged := h.pinged

theorem Every.step (h : Every P g) (hP : NodeState.Passed env P) {e : Event} (he : g.Enabled e)
    (hreceived : ∀ m needBc, e = .message m needBc → P m) : Every P (g.step env e) := by
  cases e with
  | registerNotifier join leave => exact ⟨h.recorded, h.queued, h.accused, h.timed, h.pinged⟩
  | join =>
      have hnext : Every P (({ g with dominant := g.dominant + 1 } : Gossiper).record
          (.issue (selfState env (g.dominant + 1)) none)) :=
        ⟨h.recorded, h.queued, h.accused, h.timed, h.pinged⟩
      exact hnext.aliveNode hP (hP.own _) false
  | message m needBc =>
      have hm : P m := hreceived m needBc rfl
      show Every P (g.mergeState env needBc m)
      unfold mergeState
      split
      · exact h.aliveNode hP hm needBc
      · exact h.suspectNode hP hm
      · exact h.deadNode hP hm
      · exact h
  | probe cursor => exact h.probe cursor
  | probeTimeout node => exact h.suspectNode hP (h.pinged node he)
  | deadAlert name state dominant =>
      show Every P (g.deadAlert env name state dominant)
      unfold deadAlert
      split
      · exact h.fuckyou hP dominant
      · exact h
  | conviction s => exact h.deadNode hP (hP.killed s (h.timed s he))
  | batch n applied => exact h.batch n applied

theorem Every.run (h : Every P g) (hP : NodeState.Passed env P) {es : List Event}
    (hv : Valid env g es) (hreceived : ∀ m needBc, .message m needBc ∈ es → P m) :
    Every P (Transition.run (Gossiper.step env) g es) := by
  induction es generalizing g with
  | nil => exact h
  | cons e es ih =>
      have hfirst : ∀ m needBc, e = .message m needBc → P m := fun m needBc he =>
        hreceived m needBc (he ▸ List.mem_cons_self)
      refine ih (h.step hP hv.1 hfirst) hv.2 fun m needBc hm => ?_
      exact hreceived m needBc (List.mem_cons_of_mem e hm)

end Gossiper

end CppGossip
