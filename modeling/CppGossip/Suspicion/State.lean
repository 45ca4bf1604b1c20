import CppGossip.Membership.Record

/-!
# The open suspicion of a name

A suspicion is opened by writing its accusation into the record, and whatever
overwrites the record erases it (`Grounded`). `Watched` lists what a step may
make of the open suspicion of a name: it stays, it is erased, an accuser is
counted in it, or it is opened.
-/

namespace CppGossip

open Collection Transition

namespace Gossiper

variable {env : Env} {g : Gossiper} {e : Event} {x : String}

theorem suspicions_aliveNode (a : NodeState) (needBc : Bool) :
    (g.aliveNode env a needBc).suspicions =
      if g.AliveAccepted env a then g.suspicions.erase a.name else g.suspicions := by
  by_cases hacc : g.AliveAccepted env a
  · rw [aliveNode_of_accepted hacc, if_pos hacc]
  · rw [aliveNode_of_not_accepted hacc, if_neg hacc]

theorem suspicions_deadNode (d : NodeState) :
    (g.deadNode env d).suspicions =
      if g.Heeds d then g.suspicions.erase d.name else g.suspicions := by
  by_cases hheeds : g.Heeds d
  · rw [if_pos hheeds]
    by_cases hdown : g.Down d.name
    · rw [deadNode_of_down hheeds hdown]
    · by_cases hself : d.name = env.conf.name ∧ g.isLeaving = false
      · rw [deadNode_of_self hheeds hdown hself.1 hself.2, fuckyou_suspicions]
      · rw [deadNode_of_buried hheeds hdown hself]
  · rw [deadNode_of_not_heeds hheeds, if_neg hheeds]

theorem timers_aliveNode (a : NodeState) (needBc : Bool) :
    (g.aliveNode env a needBc).timers = g.timers := by
  by_cases hacc : g.AliveAccepted env a
  · rw [aliveNode_of_accepted hacc]
  · rw [aliveNode_of_not_accepted hacc]

theorem timers_deadNode (d : NodeState) : (g.deadNode env d).timers = g.timers := by
  by_cases hheeds : g.Heeds d
  · by_cases hdown : g.Down d.name
    · rw [deadNode_of_down hheeds hdown]
    · by_cases hself : d.name = env.conf.name ∧ g.isLeaving = false
      · rw [deadNode_of_self hheeds hdown hself.1 hself.2, fuckyou_timers]
      · rw [deadNode_of_buried hheeds hdown hself]
  · rw [deadNode_of_not_heeds hheeds]

/-- A suspicion of another node is opened by pushing its accusation. -/
theorem timers_suspectNode (env : Env) (g : Gossiper) (s : NodeState) :
    (g.suspectNode env s).timers = g.timers ∨
      (g.suspectNode env s).timers = s :: g.timers ∧
        (s.name ≠ env.conf.name → (g.suspectNode env s).trace = .push s :: g.trace) := by
  have hcases := suspected env g s
  generalize g.suspectNode env s = g' at hcases
  cases hcases with
  | stale _ => exact Or.inl rfl
  | convicted _ sus _ _ => exact Or.inl (timers_deadNode _)
  | confirmed _ _ _ _ => exact Or.inl rfl
  | ignored _ _ _ => exact Or.inl rfl
  | openedSelf _ _ _ hself => exact Or.inr ⟨rfl, fun hother => absurd hself hother⟩
  | opened _ _ _ _ => exact Or.inr ⟨rfl, fun _ => rfl⟩

/-- The record of a name under suspicion is the accusation. -/
def Grounded (g : Gossiper) : Prop :=
  ∀ x sus, g.suspicions.lookup x = some sus →
    g.getNodeState x = some { sus.accusation with timestamp := 0 }

theorem grounded_fresh : Grounded fresh := by
  intro x sus hsus
  simp [fresh] at hsus

theorem Grounded.aliveNode (h : Grounded g) (a : NodeState) (needBc : Bool) :
    Grounded (g.aliveNode env a needBc) := by
  intro x sus hsus
  rw [suspicions_aliveNode] at hsus
  rw [getNodeState_aliveNode]
  by_cases hacc : g.AliveAccepted env a
  · rw [if_pos hacc, Collection.lookup_erase] at hsus
    by_cases hname : a.name = x
    · rw [if_pos hname.symm] at hsus
      cases hsus
    · rw [if_neg (Ne.symm hname)] at hsus
      rw [if_neg fun hand => hname hand.2]
      exact h x sus hsus
  · rw [if_neg hacc] at hsus
    rw [if_neg fun hand => hacc hand.1]
    exact h x sus hsus

theorem Grounded.deadNode (h : Grounded g) (hstay : g.isLeaving = false) (d : NodeState) :
    Grounded (g.deadNode env d) := by
  intro x sus hsus
  rw [suspicions_deadNode] at hsus
  rw [getNodeState_deadNode hstay]
  by_cases hheeds : g.Heeds d
  · rw [if_pos hheeds, Collection.lookup_erase] at hsus
    by_cases hname : d.name = x
    · rw [if_pos hname.symm] at hsus
      cases hsus
    · rw [if_neg (Ne.symm hname)] at hsus
      rw [if_neg fun hand => hname hand.2.2.2]
      exact h x sus hsus
  · rw [if_neg hheeds] at hsus
    rw [if_neg fun hand => hheeds hand.1]
    exact h x sus hsus

theorem Grounded.counted (h : Grounded g) {s : NodeState} {sus : Suspicion}
    (hsus : g.suspicions.lookup s.name = some sus) : Grounded (g.counted s sus) := by
  have hnew : g.getNodeState s.name =
      some { (sus.confirm s.from_).2.accusation with timestamp := 0 } := by
    rw [Suspicion.confirm_accusation]
    exact h s.name sus hsus
  exact Collection.forall_lookup_insert h hnew

/-- The accusation whose suspicion is convicted is heeded as news of the death. -/
theorem Grounded.heeds_killed (h : Grounded g) (htable : Tabled env g) {s : NodeState}
    {sus : Suspicion} (hsus : g.suspicions.lookup s.name = some sus) :
    g.Heeds sus.accusation.killed := by
  have hname : sus.accusation.name = s.name := htable.accused s.name sus hsus
  exact (heeds_of_some ((congrArg g.getNodeState hname).trans (h s.name sus hsus))).2
    (UInt64.le_refl _)

theorem Grounded.suspectNode (h : Grounded g) (hstay : g.isLeaving = false) (s : NodeState) :
    Grounded (g.suspectNode env s) := by
  have hopen : ∀ x sus,
      (g.suspicions.insert s.name (Suspicion.new env g.nodeNum s)).lookup x = some sus →
        (g.nodeMap.insert s.name { s with timestamp := 0 }).lookup x =
          some { sus.accusation with timestamp := 0 } := by
    intro x sus hsus
    rw [Collection.lookup_insert] at hsus ⊢
    by_cases hx : x = s.name
    · rw [if_pos hx] at hsus ⊢
      cases hsus
      rfl
    · rw [if_neg hx] at hsus ⊢
      exact h x sus hsus
  have hcases := suspected env g s
  generalize g.suspectNode env s = g' at hcases
  cases hcases with
  | stale _ => exact h
  | convicted _ sus hsus _ => exact (h.counted hsus).deadNode hstay _
  | confirmed _ sus hsus _ => exact h.counted hsus
  | ignored _ _ _ => exact h
  | openedSelf _ _ _ _ =>
      intro x sus hsus
      simpa [getNodeState, updateNodeState] using hopen x sus hsus
  | opened _ _ _ _ => exact hopen

theorem Grounded.step (h : Grounded g) (htable : Tabled env g) (he : g.Enabled e) :
    Grounded (g.step env e) := by
  have hcases := handled htable e he
  generalize g.step env e = g' at hcases
  cases hcases with
  | quiet _ hquiet =>
      intro x sus hsus
      rw [getNodeState, hquiet.nodeMap]
      rw [hquiet.suspicions] at hsus
      exact h x sus hsus
  | joined =>
      have hannounced : Grounded (g.announced env) := h
      exact hannounced.aliveNode _ false
  | alive a needBc _ => exact h.aliveNode a needBc
  | suspect s _ _ => exact h.suspectNode htable.staying s
  | timeout s _ _ => exact h.suspectNode htable.staying s
  | dead d _ _ => exact h.deadNode htable.staying d
  | convicted s _ => exact h.deadNode htable.staying s.killed
  | alerted n =>
      intro x sus hsus
      simpa [getNodeState] using h x sus (by simpa using hsus)

theorem grounded_run {es : List Event} (hv : Valid env fresh es) :
    Grounded (run (Gossiper.step env) fresh es) :=
  (hv.invariant (I := fun g => Tabled env g ∧ Grounded g)
    (fun _ e h he => ⟨h.1.step e he, h.2.step h.1 he⟩) ⟨tabled_fresh, grounded_fresh⟩).2

/-! ## What a step makes of it -/

variable (env g e x)

/-- What a step may leave as the open suspicion of `x`. -/
inductive Watched : Option Suspicion → Prop
  | kept : Watched (g.suspicions.lookup x)
  | cleared : Watched none
  | counted (s : NodeState) (sus : Suspicion) (hnews : s ∈ suspectNews e) (hname : s.name = x)
      (hheeds : g.Heeds s) (hsus : g.suspicions.lookup x = some sus)
      (hquorum : (sus.confirm s.from_).1 = false) : Watched (some (sus.confirm s.from_).2)
  | opened (s : NodeState) (hnews : s ∈ suspectNews e) (hname : s.name = x)
      (hsus : g.suspicions.lookup x = none)
      (hopen : (g.step env e).timers = s :: g.timers) :
      Watched (some (Suspicion.new env g.nodeNum s))

variable {env g e x}

theorem watched_aliveNode (g₀ : Gossiper) (hmap : g₀.suspicions = g.suspicions) (a : NodeState)
    (needBc : Bool) : Watched env g e x ((g₀.aliveNode env a needBc).suspicions.lookup x) := by
  rw [suspicions_aliveNode, hmap]
  split
  · rw [Collection.lookup_erase]
    split
    · exact .cleared
    · exact .kept
  · exact .kept

theorem watched_deadNode (d : NodeState) :
    Watched env g e x ((g.deadNode env d).suspicions.lookup x) := by
  rw [suspicions_deadNode]
  split
  · rw [Collection.lookup_erase]
    split
    · exact .cleared
    · exact .kept
  · exact .kept

theorem watched_suspectNode (h : Tabled env g) (hground : Grounded g) {s : NodeState}
    (hnews : s ∈ suspectNews e) (hstep : g.step env e = g.suspectNode env s) :
    Watched env g e x ((g.suspectNode env s).suspicions.lookup x) := by
  rw [← hstep]
  have hcases := suspected env g s
  rw [← hstep] at hcases
  generalize hg' : g.step env e = g' at hcases
  cases hcases with
  | stale _ => exact .kept
  | convicted hheeds sus hsus hquorum =>
      have hname : sus.accusation.killed.name = s.name := h.accused s.name sus hsus
      have hkilled : (g.counted s sus).Heeds sus.accusation.killed := hground.heeds_killed h hsus
      rw [suspicions_deadNode, if_pos hkilled, hname, Collection.lookup_erase]
      split
      case isTrue => exact .cleared
      case isFalse hx =>
        simp only [Gossiper.counted, Collection.lookup_insert, if_neg hx]
        exact .kept
  | confirmed hheeds sus hsus hquorum =>
      simp only [push_suspicions, Gossiper.counted, Collection.lookup_insert]
      split
      case isTrue hx =>
        subst hx
        exact .counted s sus hnews rfl hheeds hsus hquorum
      case isFalse => exact .kept
  | ignored _ _ _ => exact .kept
  | openedSelf hheeds hsus _ _ =>
      simp only [Collection.lookup_insert]
      split
      case isTrue hx =>
        subst hx
        exact .opened s hnews rfl hsus (by rw [hg'])
      case isFalse => exact .kept
  | opened hheeds hsus _ _ =>
      simp only [Collection.lookup_insert]
      split
      case isTrue hx =>
        subst hx
        exact .opened s hnews rfl hsus (by rw [hg'])
      case isFalse => exact .kept

theorem watched_step (h : Tabled env g) (hground : Grounded g) (he : g.Enabled e) (x : String) :
    Watched env g e x ((g.step env e).suspicions.lookup x) := by
  have hcases := handled h e he
  generalize hg' : g.step env e = g' at hcases
  cases hcases with
  | quiet _ hquiet =>
      rw [hquiet.suspicions]
      exact .kept
  | joined =>
      have hmap : (g.announced env).suspicions = g.suspicions := rfl
      exact watched_aliveNode (g.announced env) hmap _ false
  | alive a needBc _ => exact watched_aliveNode g rfl a needBc
  | suspect s _ hs => exact watched_suspectNode h hground (if_pos hs) hg'
  | timeout s _ _ => exact watched_suspectNode h hground rfl hg'
  | dead d _ _ => exact watched_deadNode d
  | convicted s _ => exact watched_deadNode s.killed
  | alerted n =>
      rw [fuckyou_suspicions]
      exact .kept

/-! ## Records in the hands of the timer service -/

section Frame

variable (env g)

theorem pings_aliveNode (a : NodeState) (needBc : Bool) :
    (g.aliveNode env a needBc).pings = g.pings := by
  by_cases hacc : g.AliveAccepted env a
  · rw [aliveNode_of_accepted hacc]
  · rw [aliveNode_of_not_accepted hacc]

theorem pings_deadNode (d : NodeState) : (g.deadNode env d).pings = g.pings := by
  by_cases hheeds : g.Heeds d
  · by_cases hdown : g.Down d.name
    · rw [deadNode_of_down hheeds hdown]
    · by_cases hself : d.name = env.conf.name ∧ g.isLeaving = false
      · rw [deadNode_of_self hheeds hdown hself.1 hself.2, fuckyou_pings]
      · rw [deadNode_of_buried hheeds hdown hself]
  · rw [deadNode_of_not_heeds hheeds]

theorem pings_suspectNode (s : NodeState) : (g.suspectNode env s).pings = g.pings := by
  have hcases := suspected env g s
  generalize g.suspectNode env s = g' at hcases
  cases hcases with
  | stale _ => rfl
  | convicted _ sus _ _ => exact pings_deadNode env _ _
  | confirmed _ _ _ _ => rfl
  | ignored _ _ _ => rfl
  | openedSelf _ _ _ _ => exact fuckyou_pings env g s.dominant
  | opened _ _ _ _ => rfl

end Frame

/-- A ping is bound to a record as it stands. -/
theorem mem_pings_step (h : Tabled env g) {s : NodeState} (hs : s ∈ (g.step env e).pings) :
    s ∈ g.pings ∨ g.getNodeState s.name = some s ∧ ∃ cursor, e = .probe cursor := by
  cases e with
  | registerNotifier join leave => exact Or.inl hs
  | join => exact Or.inl (pings_aliveNode env (g.announced env) _ false ▸ hs)
  | message m needBc =>
      refine Or.inl ?_
      simp only [Gossiper.step, mergeState] at hs
      split at hs
      · rwa [pings_aliveNode] at hs
      · rwa [pings_suspectNode] at hs
      · rwa [pings_deadNode] at hs
      · exact hs
  | probe cursor =>
      simp only [Gossiper.step, Gossiper.probe] at hs
      split at hs
      case h_1 => exact Or.inl hs
      case h_2 candi _ _ =>
        split at hs
        case h_1 => exact Or.inl hs
        case h_2 node hr =>
          split at hs
          · rcases List.mem_cons.1 hs with rfl | hold
            · have hname : s.name = candi := h.keyed candi s hr
              exact Or.inr ⟨hname ▸ hr, cursor, rfl⟩
            · exact Or.inl hold
          · exact Or.inl hs
  | probeTimeout node => exact Or.inl (pings_suspectNode env g node ▸ hs)
  | deadAlert name state dominant =>
      refine Or.inl ?_
      simp only [Gossiper.step, deadAlert] at hs
      split at hs
      · rwa [fuckyou_pings] at hs
      · exact hs
  | conviction t => exact Or.inl (pings_deadNode env g t.killed ▸ hs)
  | batch n applied => exact Or.inl hs

/-- A suspicion is opened by making its accusation the record. -/
theorem recorded_of_mem_timers_step (h : Tabled env g) (he : g.Enabled e) {s : NodeState}
    (hs : s ∈ (g.step env e).timers) :
    s ∈ g.timers ∨
      s ∈ suspectNews e ∧ (g.step env e).getNodeState s.name = some { s with timestamp := 0 } := by
  have hsuspect : ∀ m, s ∈ (g.suspectNode env m).timers → m ∈ suspectNews e →
      s ∈ g.timers ∨ s ∈ suspectNews e ∧
        (g.suspectNode env m).getNodeState s.name = some { s with timestamp := 0 } := by
    intro m hs hnews
    have hcases := suspected env g m
    generalize g.suspectNode env m = g' at hcases hs
    cases hcases with
    | stale _ => exact Or.inl hs
    | convicted _ sus _ _ => exact Or.inl (by rwa [timers_deadNode] at hs)
    | confirmed _ _ _ _ => exact Or.inl hs
    | ignored _ _ _ => exact Or.inl hs
    | openedSelf _ _ _ _ =>
        rcases List.mem_cons.1 hs with rfl | hold
        · exact Or.inr ⟨hnews, by simp [getNodeState, updateNodeState]⟩
        · exact Or.inl hold
    | opened _ _ _ _ =>
        rcases List.mem_cons.1 hs with rfl | hold
        · exact Or.inr ⟨hnews, by simp [getNodeState, updateNodeState]⟩
        · exact Or.inl hold
  have hcases := handled h e he
  generalize g.step env e = g' at hcases hs
  cases hcases with
  | quiet _ hquiet => exact Or.inl (hquiet.timers ▸ hs)
  | joined => exact Or.inl (by rwa [timers_aliveNode] at hs)
  | alive a needBc _ => exact Or.inl (by rwa [timers_aliveNode] at hs)
  | suspect m _ hm => exact hsuspect m hs (if_pos hm)
  | timeout m _ _ => exact hsuspect m hs rfl
  | dead d _ _ => exact Or.inl (by rwa [timers_deadNode] at hs)
  | convicted m _ => exact Or.inl (by rwa [timers_deadNode] at hs)
  | alerted n => exact Or.inl (fuckyou_timers env g n ▸ hs)

/-- No record bound to a pending timeout or callback is ahead of the table. -/
structure Pending (g : Gossiper) : Prop where
  pings : ∀ s ∈ g.pings, s.dominant ≤ g.knownDominant s.name
  timers : ∀ s ∈ g.timers, s.dominant ≤ g.knownDominant s.name

theorem pending_fresh : Pending fresh where
  pings _ hs := by cases hs
  timers _ hs := by cases hs

theorem Pending.step (hp : Pending g) (h : Tabled env g) (he : g.Enabled e) :
    Pending (g.step env e) where
  pings s hs := by
    refine UInt64.le_trans ?_ (knownDominant_le_step h he s.name)
    rcases mem_pings_step h hs with hold | ⟨hr, _⟩
    · exact hp.pings s hold
    · rw [knownDominant_of_some hr]
      exact UInt64.le_refl _
  timers s hs := by
    rcases recorded_of_mem_timers_step h he hs with hold | ⟨_, hr⟩
    · exact UInt64.le_trans (hp.timers s hold) (knownDominant_le_step h he s.name)
    · rw [knownDominant_of_some hr]
      exact UInt64.le_refl _

theorem pending_run {es : List Event} (hv : Valid env fresh es) :
    Pending (run (Gossiper.step env) fresh es) :=
  (hv.invariant (I := fun g => Tabled env g ∧ Pending g)
    (fun _ e h he => ⟨h.1.step e he, h.2.step h.1 he⟩) ⟨tabled_fresh, pending_fresh⟩).2

/-- A callback is run for an open suspicion, or by a wait handler. -/
theorem open_or_conviction_of_callback {s : NodeState} (hcall : g.callback e = some s) :
    (∃ x sus, g.suspicions.lookup x = some sus ∧ sus.accusation = s) ∨ e = .conviction s := by
  have hquorum : ∀ m : NodeState, g.quorum m = some s →
      ∃ x sus, g.suspicions.lookup x = some sus ∧ sus.accusation = s := by
    intro m hm
    unfold quorum at hm
    split at hm
    case isTrue =>
      obtain ⟨sus, hsus, hfull⟩ := Option.bind_eq_some_iff.1 hm
      split at hfull
      case isTrue => exact ⟨m.name, sus, hsus, Option.some.inj hfull⟩
      case isFalse => cases hfull
    case isFalse => cases hm
  cases e with
  | message m needBc =>
      simp only [callback] at hcall
      split at hcall
      case isTrue => exact Or.inl (hquorum m hcall)
      case isFalse => cases hcall
  | probeTimeout m => exact Or.inl (hquorum m hcall)
  | conviction m => exact Or.inr (congrArg Event.conviction (Option.some.inj hcall))
  | registerNotifier join leave => cases hcall
  | join => cases hcall
  | probe cursor => cases hcall
  | deadAlert name state dominant => cases hcall
  | batch n applied => cases hcall

/-- No callback carries an accusation ahead of the table. -/
theorem dominant_le_of_callback (h : Tabled env g) (hground : Grounded g) (hp : Pending g)
    (he : g.Enabled e) {s : NodeState} (hcall : g.callback e = some s) :
    s.dominant ≤ g.knownDominant s.name := by
  rcases open_or_conviction_of_callback hcall with ⟨x, sus, hsus, rfl⟩ | rfl
  · have hname : sus.accusation.name = x := h.accused x sus hsus
    rw [hname, knownDominant_of_some (hground x sus hsus)]
    exact UInt64.le_refl _
  · exact hp.timers s he

end Gossiper

end CppGossip
