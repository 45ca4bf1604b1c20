import CppGossip.Gossiper.Contents
import CppGossip.Gossiper.News

/-!
# Where accusations come from

`Every` follows one property through all that a gossiper holds. Here there are
two: what is held for a record has `Q`, and what a suspicion was raised with has
`A`. An accusation turns into news of a death in the callback of its suspicion and
nowhere else, so it is enough if there the one property gives the other
(`Admits.killed`). The calls in the trace are followed as well: a notification
goes back to a record.
-/

namespace CppGossip

open Collection

/-- The call goes back to a record with the property `Q`. -/
def Effect.Backed (Q : NodeState → Prop) : Effect → Prop
  | .push m | .issue m _ => Q m
  | .notifyJoin x => ∃ m, Q m ∧ m.name = x ∧ m.state = .alive
  | .notifyLeave x => ∃ m, Q m ∧ m.name = x ∧ m.state = .dead

/-- The accusation that an event brings. -/
def Event.accusation : Event → Option NodeState
  | .message m _ => if m.state = .suspect then some m else none
  | .probeTimeout node => some node
  | _ => none

namespace Gossiper

/-- Records and calls go back to `Q`, suspicions to `A`. -/
structure Founded (Q A : NodeState → Prop) (g : Gossiper) : Prop where
  recorded : ∀ x r, g.nodeMap.lookup x = some r → Q r
  queued : ∀ x m, g.bcQueue.message x = some m → Q m
  pinged : ∀ node ∈ g.pings, Q node
  accused : ∀ x sus, g.suspicions.lookup x = some sus → A sus.accusation
  timed : ∀ s ∈ g.timers, A s
  called : ∀ e ∈ g.trace, e.Backed Q

/-- What the handling of an event may rest on. -/
structure Admits (env : Env) (Q A : NodeState → Prop) (g : Gossiper) (e : Event) : Prop where
  stamped : ∀ m, Q m → Q { m with timestamp := 0 }
  own : ∀ d n, .issue (selfState env d) n ∈ (g.step env e).trace → Q (selfState env d)
  heard : ∀ m needBc, e = .message m needBc → Q m
  accused : ∀ s, e.accusation = some s → A s
  killed : ∀ s, g.callback e = some s → Q s.killed

variable {env : Env} {g : Gossiper} {Q A Q' A' : NodeState → Prop} {e : Event}

theorem founded_fresh (Q A : NodeState → Prop) : Founded Q A fresh where
  recorded _ _ h := by simp [fresh] at h
  queued _ _ h := by simp [fresh] at h
  pinged _ h := by simp [fresh] at h
  accused _ _ h := by simp [fresh] at h
  timed _ h := by simp [fresh] at h
  called _ h := by simp [fresh] at h

theorem Founded.mono (h : Founded Q A g) (hQ : ∀ m, Q m → Q' m) (hA : ∀ s, A s → A' s) :
    Founded Q' A' g where
  recorded x r hr := hQ r (h.recorded x r hr)
  queued x m hm := hQ m (h.queued x m hm)
  pinged node hnode := hQ node (h.pinged node hnode)
  accused x sus hsus := hA _ (h.accused x sus hsus)
  timed s hs := hA s (h.timed s hs)
  called e he := by
    have hbacked := h.called e he
    cases e with
    | push m => exact hQ m hbacked
    | issue m n => exact hQ m hbacked
    | notifyJoin x =>
        obtain ⟨m, hm, hrest⟩ := hbacked
        exact ⟨m, hQ m hm, hrest⟩
    | notifyLeave x =>
        obtain ⟨m, hm, hrest⟩ := hbacked
        exact ⟨m, hQ m hm, hrest⟩

/-- Where accusations are records, everything held is. -/
theorem Founded.every (h : Founded Q A g) (hA : ∀ s, A s → Q s) : Every Q g :=
  ⟨h.recorded, h.queued, fun x sus hsus => hA _ (h.accused x sus hsus),
    fun s hs => hA s (h.timed s hs), h.pinged⟩

theorem exists_of_quorum {s s' : NodeState} (h : g.quorum s = some s') :
    ∃ sus, g.suspicions.lookup s.name = some sus ∧ sus.accusation = s' := by
  rw [quorum, Option.ite_none_right_eq_some, Option.bind_eq_some_iff] at h
  obtain ⟨_, sus, hsus, hsame⟩ := h
  rw [Option.ite_none_right_eq_some] at hsame
  exact ⟨sus, hsus, Option.some.inj hsame.2⟩

/-- What a callback is run for is an accusation. -/
theorem Founded.of_callback (h : Founded Q A g) (he : g.Enabled e) {s : NodeState}
    (hs : g.callback e = some s) : A s := by
  have hquorum {m : NodeState} (hm : g.quorum m = some s) : A s := by
    obtain ⟨sus, hsus, rfl⟩ := exists_of_quorum hm
    exact h.accused m.name sus hsus
  cases e with
  | message m needBc =>
      rw [callback, Option.ite_none_right_eq_some] at hs
      exact hquorum hs.2
  | probeTimeout node => exact hquorum hs
  | conviction s' =>
      cases hs
      exact h.timed s he
  | registerNotifier | join | probe | deadAlert | batch => cases hs

/-! ## The trace -/

theorem trace_suffix_fuckyou (n : UInt64) : g.trace <:+ (g.fuckyou env n).trace := by
  rw [fuckyou_eq]
  exact (List.suffix_cons _ _).trans (List.suffix_cons _ _)

theorem trace_suffix_aliveNode (a : NodeState) (needBc : Bool) :
    g.trace <:+ (g.aliveNode env a needBc).trace := by
  by_cases hacc : g.AliveAccepted env a
  · rw [aliveNode_of_accepted hacc]
    exact List.suffix_append _ _
  · rw [aliveNode_of_not_accepted hacc]

theorem trace_suffix_deadNode (d : NodeState) : g.trace <:+ (g.deadNode env d).trace := by
  by_cases hheeds : g.Heeds d
  · by_cases hdown : g.Down d.name
    · rw [deadNode_of_down hheeds hdown]
    · by_cases hself : d.name = env.conf.name ∧ g.isLeaving = false
      · rw [deadNode_of_self hheeds hdown hself.1 hself.2]
        exact trace_suffix_fuckyou (g := { g with
          suspicions := g.suspicions.erase d.name, nodeNum := g.nodeNum - 1 }) d.dominant
      · rw [deadNode_of_buried hheeds hdown hself]
        exact (List.suffix_cons _ _).trans (List.suffix_append _ _)
  · rw [deadNode_of_not_heeds hheeds]

theorem trace_suffix_suspectNode (s : NodeState) : g.trace <:+ (g.suspectNode env s).trace := by
  have hcases := suspected env g s
  generalize g.suspectNode env s = g' at hcases
  cases hcases with
  | stale _ | ignored _ _ _ => exact List.suffix_refl _
  | convicted _ sus _ _ => exact trace_suffix_deadNode (g := g.counted s sus) _
  | confirmed _ _ _ _ | opened _ _ _ _ => exact List.suffix_cons _ _
  | openedSelf _ _ _ _ => exact trace_suffix_fuckyou s.dominant

/-- Calls are not taken back. -/
theorem trace_suffix_step (env : Env) (g : Gossiper) (e : Event) :
    g.trace <:+ (g.step env e).trace := by
  cases e with
  | registerNotifier | batch => exact List.suffix_refl _
  | join =>
      exact (List.suffix_cons _ _).trans
        (trace_suffix_aliveNode (g := g.announced env) (selfState env (g.dominant + 1)) false)
  | message m needBc =>
      show g.trace <:+ (g.mergeState env needBc m).trace
      unfold mergeState
      split
      · exact trace_suffix_aliveNode m needBc
      · exact trace_suffix_suspectNode m
      · exact trace_suffix_deadNode m
      · exact List.suffix_refl _
  | probe cursor =>
      show g.trace <:+ (g.probe env cursor).trace
      rw [(quiet_probe cursor).trace]
  | probeTimeout node => exact trace_suffix_suspectNode node
  | deadAlert name state dominant =>
      show g.trace <:+ (g.deadAlert env name state dominant).trace
      unfold deadAlert
      split
      · exact trace_suffix_fuckyou dominant
      · exact List.suffix_refl _
  | conviction s => exact trace_suffix_deadNode s.killed

/-! ## The handlers -/

theorem Founded.queued_push (h : Founded Q A g) {m : NodeState} (hm : Q m) (calls : ℕ)
    (nodeNum : UInt32) :
    ∀ x q, (env.push calls m nodeNum g.bcQueue).message x = some q → Q q := by
  intro x q hq
  rw [Gossiper.message_push] at hq
  split at hq
  case isTrue =>
    cases hq
    rcases BroadcastQueue.kept_eq_or m (g.bcQueue.message x) with heq | hold
    · rw [heq]
      exact hm
    · exact h.queued x _ hold
  case isFalse => exact h.queued x q hq

theorem Founded.push (h : Founded Q A g) {m : NodeState} (hm : Q m) :
    Founded Q A (g.push env m) :=
  ⟨h.recorded, h.queued_push hm _ _, h.pinged, h.accused, h.timed,
    List.forall_mem_cons.2 ⟨hm, h.called⟩⟩

theorem Founded.fuckyou (h : Founded Q A g) {n : UInt64}
    (hown : ∀ d n', .issue (selfState env d) n' ∈ (g.fuckyou env n).trace → Q (selfState env d)) :
    Founded Q A (g.fuckyou env n) := by
  rw [fuckyou_eq] at hown ⊢
  have ha : Q (selfState env (objection g.dominant n)) :=
    hown _ (some n) (List.mem_cons_of_mem _ List.mem_cons_self)
  have hissued : Founded Q A ({ g with dominant := objection g.dominant n }.record
      (.issue (selfState env (objection g.dominant n)) (some n))) :=
    ⟨h.recorded, h.queued, h.pinged, h.accused, h.timed, List.forall_mem_cons.2 ⟨ha, h.called⟩⟩
  exact hissued.push ha

theorem Founded.aliveNode (h : Founded Q A g) (hstamped : ∀ m, Q m → Q { m with timestamp := 0 })
    {a : NodeState} (ha : Q a) (halive : a.state = .alive) (needBc : Bool) :
    Founded Q A (g.aliveNode env a needBc) := by
  by_cases hacc : g.AliveAccepted env a
  · rw [aliveNode_of_accepted hacc]
    refine ⟨forall_lookup_insert h.recorded (hstamped a ha), ?_, h.pinged,
      forall_lookup_erase h.accused a.name, h.timed, ?_⟩
    · cases needBc with
      | true => exact h.queued_push ha _ _
      | false => exact h.queued
    · intro e he
      rw [List.mem_append, List.mem_append] at he
      rcases he with (hjoin | hpush) | hold
      · split at hjoin
        · cases List.mem_singleton.1 hjoin
          exact ⟨a, ha, rfl, halive⟩
        · cases hjoin
      · split at hpush
        · cases List.mem_singleton.1 hpush
          exact ha
        · cases hpush
      · exact h.called e hold
  · rw [aliveNode_of_not_accepted hacc]
    exact h

theorem Founded.deadNode (h : Founded Q A g) (hstamped : ∀ m, Q m → Q { m with timestamp := 0 })
    {d : NodeState} (hd : Q d) (hdead : d.state = .dead)
    (hown : ∀ d' n, .issue (selfState env d') n ∈ (g.deadNode env d).trace →
      Q (selfState env d')) :
    Founded Q A (g.deadNode env d) := by
  by_cases hheeds : g.Heeds d
  · by_cases hdown : g.Down d.name
    · rw [deadNode_of_down hheeds hdown]
      exact ⟨h.recorded, h.queued, h.pinged, forall_lookup_erase h.accused d.name, h.timed, h.called⟩
    · by_cases hself : d.name = env.conf.name ∧ g.isLeaving = false
      · rw [deadNode_of_self hheeds hdown hself.1 hself.2] at hown ⊢
        have herased : Founded Q A { g with
            suspicions := g.suspicions.erase d.name, nodeNum := g.nodeNum - 1 } :=
          ⟨h.recorded, h.queued, h.pinged, forall_lookup_erase h.accused d.name, h.timed, h.called⟩
        exact herased.fuckyou hown
      · rw [deadNode_of_buried hheeds hdown hself]
        refine ⟨forall_lookup_insert h.recorded (hstamped d hd), h.queued_push hd _ _, h.pinged,
          forall_lookup_erase h.accused d.name, h.timed, ?_⟩
        intro e he
        rcases List.mem_append.1 he with hleave | hrest
        · split at hleave
          · cases List.mem_singleton.1 hleave
            exact ⟨d, hd, rfl, hdead⟩
          · cases hleave
        · rcases List.mem_cons.1 hrest with rfl | hold
          · exact hd
          · exact h.called e hold
  · rw [deadNode_of_not_heeds hheeds]
    exact h

theorem Founded.counted (h : Founded Q A g) {s : NodeState} {sus : Suspicion}
    (hsus : g.suspicions.lookup s.name = some sus) : Founded Q A (g.counted s sus) := by
  have hsame : A (sus.confirm s.from_).2.accusation := by
    rw [Suspicion.confirm_accusation]
    exact h.accused s.name sus hsus
  exact ⟨h.recorded, h.queued, h.pinged, forall_lookup_insert h.accused hsame, h.timed, h.called⟩

/-- A suspicion is opened, and the accusation bound to its callback. -/
theorem Founded.opened (env : Env) (h : Founded Q A g)
    (hstamped : ∀ m, Q m → Q { m with timestamp := 0 }) {s : NodeState} (hs : Q s)
    (haccused : A s) (nodeNum : UInt32) :
    Founded Q A { g.updateNodeState s.name s with
      suspicions := g.suspicions.insert s.name (Suspicion.new env nodeNum s)
      timers := s :: g.timers } where
  recorded := forall_lookup_insert h.recorded (hstamped s hs)
  queued := h.queued
  pinged := h.pinged
  accused := forall_lookup_insert h.accused haccused
  timed := List.forall_mem_cons.2 ⟨haccused, h.timed⟩
  called := h.called

theorem Founded.suspectNode (h : Founded Q A g)
    (hstamped : ∀ m, Q m → Q { m with timestamp := 0 }) {s : NodeState} (hs : Q s) (haccused : A s)
    (hkilled : ∀ s', g.quorum s = some s' → Q s'.killed)
    (hown : ∀ d n, .issue (selfState env d) n ∈ (g.suspectNode env s).trace →
      Q (selfState env d)) :
    Founded Q A (g.suspectNode env s) := by
  have hcases := suspected env g s
  generalize g.suspectNode env s = g' at hcases hown
  cases hcases with
  | stale _ => exact h
  | convicted hheeds sus hsus hquorum =>
      have hcallback : g.quorum s = some sus.accusation := by
        rw [quorum_of_confirmed hheeds hsus, if_pos hquorum]
      exact (h.counted hsus).deadNode hstamped (hkilled _ hcallback) rfl hown
  | confirmed _ sus hsus _ => exact (h.counted hsus).push hs
  | ignored _ _ _ => exact h
  | openedSelf _ _ _ _ =>
      have hopened := (h.fuckyou hown).opened env hstamped hs haccused g.nodeNum
      rw [fuckyou_suspicions, fuckyou_timers] at hopened
      exact hopened
  | opened _ _ _ _ =>
      have hpushed : Founded Q A (g.push env s) := h.push hs
      exact hpushed.opened env hstamped hs haccused g.nodeNum

theorem Founded.probe (h : Founded Q A g) (cursor : ℕ) : Founded Q A (g.probe env cursor) := by
  unfold Gossiper.probe
  split
  case h_1 => exact h
  case h_2 candi _ _ =>
    cases hr : g.getNodeState candi with
    | none => exact h
    | some node =>
        dsimp only
        split
        case isTrue =>
          have hpinged : ∀ n ∈ node :: g.pings, Q n :=
            List.forall_mem_cons.2 ⟨h.recorded candi node hr, h.pinged⟩
          exact ⟨h.recorded, h.queued, hpinged, h.accused, h.timed, h.called⟩
        case isFalse => exact h

theorem Founded.batch (h : Founded Q A g) (n : ℕ) (applied : Bool) :
    Founded Q A (g.batch n applied) :=
  ⟨h.recorded, fun x m hm => h.queued x m ((quiet_batch n applied).message x m hm), h.pinged,
    h.accused, h.timed, h.called⟩

theorem Founded.step (h : Founded Q A g) (he : g.Enabled e) (hadmits : Admits env Q A g e) :
    Founded Q A (g.step env e) := by
  obtain ⟨hstamped, hown, hheard, haccused, hkilled⟩ := hadmits
  cases e with
  | registerNotifier join leave =>
      exact ⟨h.recorded, h.queued, h.pinged, h.accused, h.timed, h.called⟩
  | join =>
      have hself : Q (selfState env (g.dominant + 1)) :=
        hown _ none ((trace_suffix_aliveNode (g := g.announced env) _ false).mem List.mem_cons_self)
      have hannounced : Founded Q A (g.announced env) :=
        ⟨h.recorded, h.queued, h.pinged, h.accused, h.timed,
          List.forall_mem_cons.2 ⟨hself, h.called⟩⟩
      exact hannounced.aliveNode hstamped hself rfl false
  | message m needBc =>
      have hm : Q m := hheard m needBc rfl
      cases hstate : m.state with
      | alive =>
          have heq : g.step env (.message m needBc) = g.aliveNode env m needBc := by
            simp only [Gossiper.step, mergeState, hstate]
          exact heq ▸ h.aliveNode hstamped hm hstate needBc
      | suspect =>
          have heq : g.step env (.message m needBc) = g.suspectNode env m := by
            simp only [Gossiper.step, mergeState, hstate]
          rw [heq] at hown ⊢
          refine h.suspectNode hstamped hm (haccused m (if_pos hstate)) (fun s hs => ?_) hown
          exact hkilled s ((if_pos hstate).trans hs)
      | dead =>
          have heq : g.step env (.message m needBc) = g.deadNode env m := by
            simp only [Gossiper.step, mergeState, hstate]
          rw [heq] at hown ⊢
          exact h.deadNode hstamped hm hstate hown
      | other raw hraw =>
          have heq : g.step env (.message m needBc) = g := by
            simp only [Gossiper.step, mergeState, hstate]
          exact heq.symm ▸ h
  | probe cursor => exact h.probe cursor
  | probeTimeout node =>
      exact h.suspectNode hstamped (h.pinged node he) (haccused node rfl) hkilled hown
  | deadAlert name state dominant =>
      by_cases halerted : name = env.conf.name ∧ state = .dead
      · have heq : g.step env (.deadAlert name state dominant) = g.fuckyou env dominant :=
          if_pos halerted
        rw [heq] at hown ⊢
        exact h.fuckyou hown
      · have heq : g.step env (.deadAlert name state dominant) = g := if_neg halerted
        exact heq.symm ▸ h
  | conviction s => exact h.deadNode hstamped (hkilled s rfl) rfl hown
  | batch n applied => exact h.batch n applied

end Gossiper

end CppGossip
