import CppGossip.Gossiper.News

/-!
# How a record is rewritten

Every writer of the table copies a whole message over the stored record, each
behind a test of its own. `Rewritten` lists what a step may do to the record of
a name, with the test that was passed: news that the node is alive is newer than
the record, an accusation finds it alive and news of a death finds it not dead,
neither older than the record. That no record is lost or moved back by stale
news is read off these cases.
-/

namespace CppGossip

open Collection Transition

namespace Gossiper

/-- The accusation that an event brings to `suspectNode`. -/
def suspectNews : Event → Option NodeState
  | .message m _ => if m.state = .suspect then some m else none
  | .probeTimeout s => some s
  | _ => none

variable {env : Env} {g : Gossiper} {e : Event} {x : String}

/-- The accusation whose quorum an event completes is news of a death. -/
theorem deathNews_of_quorum {s t : NodeState} (hnews : s ∈ suspectNews e)
    (hquorum : g.quorum s = some t) : t.killed ∈ g.deathNews e := by
  cases e with
  | message m needBc =>
      simp only [suspectNews] at hnews
      split at hnews
      case isTrue hm =>
        cases hnews
        simp [deathNews, callback, hm, hquorum]
      case isFalse => cases hnews
  | probeTimeout m =>
      cases hnews
      exact congrArg (Option.map NodeState.killed) hquorum
  | _ => cases hnews

theorem getNodeState_aliveNode (a : NodeState) (needBc : Bool) (x : String) :
    (g.aliveNode env a needBc).getNodeState x =
      if g.AliveAccepted env a ∧ a.name = x then some { a with timestamp := 0 }
      else g.getNodeState x := by
  by_cases hacc : g.AliveAccepted env a
  · rw [aliveNode_of_accepted hacc]
    simp [getNodeState, Collection.lookup_insert, hacc, eq_comm]
  · rw [aliveNode_of_not_accepted hacc, if_neg fun hand => hacc hand.1]

theorem getNodeState_deadNode (hstay : g.isLeaving = false) (d : NodeState) (x : String) :
    (g.deadNode env d).getNodeState x =
      if g.Heeds d ∧ ¬ g.Down d.name ∧ d.name ≠ env.conf.name ∧ d.name = x then
        some { d with timestamp := 0 }
      else g.getNodeState x := by
  by_cases hheeds : g.Heeds d
  · by_cases hdown : g.Down d.name
    · rw [deadNode_of_down hheeds hdown, if_neg fun hand => hand.2.1 hdown]
      rfl
    · by_cases hself : d.name = env.conf.name
      · rw [deadNode_of_self hheeds hdown hself hstay, if_neg fun hand => hand.2.2.1 hself]
        simp [getNodeState]
      · rw [deadNode_of_buried hheeds hdown fun hand => hself hand.1]
        simp [getNodeState, Collection.lookup_insert, hheeds, hdown, hself, eq_comm]
  · rw [deadNode_of_not_heeds hheeds, if_neg fun hand => hheeds hand.1]

variable (env g e x)

/-- What a step may leave as the record of `x`. -/
inductive Rewritten : Option NodeState → Prop
  | kept : Rewritten (g.getNodeState x)
  /-- the node is alive, which is newer than what is recorded -/
  | alive (a : NodeState) (hname : a.name = x) (hnews : a ∈ g.aliveNews env e)
      (ha : a.state = .alive) (hnewer : g.knownDominant x < a.dominant) :
      Rewritten (some { a with timestamp := 0 })
  /-- the node is accused for the first time since it was recorded alive -/
  | accused (s r : NodeState) (hname : s.name = x) (hnews : s ∈ suspectNews e)
      (hs : s.state = .alive ∨ s.state = .suspect) (hr : g.getNodeState x = some r)
      (halive : r.state = .alive) (hle : r.dominant ≤ s.dominant) :
      Rewritten (some { s with timestamp := 0 })
  /-- another node has died -/
  | buried (d r : NodeState) (hname : d.name = x) (hnews : d ∈ g.deathNews e)
      (hd : d.state = .dead) (hother : x ≠ env.conf.name) (hr : g.getNodeState x = some r)
      (hup : r.state ≠ .dead) (hle : r.dominant ≤ d.dominant) : Rewritten (some { d with timestamp := 0 })

variable {env g e x}

theorem rewritten_aliveNode (g₀ : Gossiper) (hmap : g₀.nodeMap = g.nodeMap) {a : NodeState}
    (needBc : Bool) (ha : a.state = .alive) (hnews : a ∈ g.aliveNews env e) :
    Rewritten env g e x ((g₀.aliveNode env a needBc).getNodeState x) := by
  have hknown : g₀.knownDominant x = g.knownDominant x := by
    rw [knownDominant, getNodeState, hmap]
    rfl
  rw [getNodeState_aliveNode]
  split
  case isTrue hacc =>
    obtain ⟨hacc, rfl⟩ := hacc
    exact .alive a rfl hnews ha (hknown ▸ hacc.2)
  case isFalse =>
    rw [getNodeState, hmap]
    exact .kept

theorem rewritten_deadNode (g₀ : Gossiper) (hmap : g₀.nodeMap = g.nodeMap)
    (hstay : g₀.isLeaving = false) {d : NodeState} (hd : d.state = .dead)
    (hnews : d ∈ g.deathNews e) :
    Rewritten env g e x ((g₀.deadNode env d).getNodeState x) := by
  rw [getNodeState_deadNode hstay]
  split
  case isTrue hbury =>
    obtain ⟨hheeds, hup, hother, rfl⟩ := hbury
    obtain ⟨r, hr, hle⟩ := hheeds.exists_record
    have hr' : g.getNodeState d.name = some r := by rwa [getNodeState, ← hmap]
    exact .buried d r rfl hnews hd hother hr' (fun hdead => hup ((down_of_some hr).2 hdead)) hle
  case isFalse =>
    rw [getNodeState, hmap]
    exact .kept

theorem rewritten_suspectNode (hstay : g.isLeaving = false) {s : NodeState}
    (hnews : s ∈ suspectNews e) (hs : s.state = .alive ∨ s.state = .suspect) :
    Rewritten env g e x ((g.suspectNode env s).getNodeState x) := by
  have hopen : g.Heeds s → (∀ r ∈ g.getNodeState s.name, r.state = .alive) →
      Rewritten env g e x
        ((g.nodeMap.insert s.name { s with timestamp := 0 }).lookup x) := by
    intro hheeds halive
    obtain ⟨r, hr, hle⟩ := hheeds.exists_record
    rw [Collection.lookup_insert]
    split
    case isTrue hname =>
      subst hname
      exact .accused s r rfl hnews hs hr (halive r hr) hle
    case isFalse => exact .kept
  have hcases := suspected env g s
  generalize g.suspectNode env s = g' at hcases
  cases hcases with
  | stale _ => exact .kept
  | convicted hheeds sus hsus hfull =>
      have hmap : (g.counted s sus).nodeMap = g.nodeMap := rfl
      have hquorum : g.quorum s = some sus.accusation := by
        rw [quorum_of_confirmed hheeds hsus, if_pos hfull]
      exact rewritten_deadNode (g.counted s sus) hmap hstay rfl (deathNews_of_quorum hnews hquorum)
  | confirmed _ _ _ _ => exact .kept
  | ignored _ _ _ => exact .kept
  | openedSelf hheeds _ halive _ => simpa [getNodeState, updateNodeState] using hopen hheeds halive
  | opened hheeds _ halive _ => exact hopen hheeds halive

/-- What a step does to a record is one of these. -/
theorem rewritten_step (h : Tabled env g) (he : g.Enabled e) (x : String) :
    Rewritten env g e x ((g.step env e).getNodeState x) := by
  have hcases := handled h e he
  generalize g.step env e = g' at hcases
  cases hcases with
  | quiet _ hquiet =>
      have heq : g'.getNodeState x = g.getNodeState x := by rw [getNodeState, hquiet.nodeMap]; rfl
      rw [heq]
      exact .kept
  | joined =>
      have hmap : (g.announced env).nodeMap = g.nodeMap := rfl
      have hnews : selfState env (g.dominant + 1) ∈ g.aliveNews env .join := rfl
      exact rewritten_aliveNode (g.announced env) hmap false rfl hnews
  | alive a needBc ha => exact rewritten_aliveNode g rfl needBc ha (if_pos ha)
  | suspect s needBc hs => exact rewritten_suspectNode h.staying (if_pos hs) (Or.inr hs)
  | timeout s hs _ => exact rewritten_suspectNode h.staying rfl (Or.inl hs)
  | dead d needBc hd => exact rewritten_deadNode g rfl h.staying hd (if_pos hd)
  | convicted s _ => exact rewritten_deadNode g rfl h.staying (d := s.killed) rfl rfl
  | alerted n =>
      have heq : (g.fuckyou env n).getNodeState x = g.getNodeState x := by simp [getNodeState]
      rw [heq]
      exact .kept

/-- The recorded dominant never falls. -/
theorem knownDominant_le_step (h : Tabled env g) (he : g.Enabled e) (x : String) :
    g.knownDominant x ≤ (g.step env e).knownDominant x := by
  have hcases := rewritten_step h he x
  unfold knownDominant
  generalize (g.step env e).getNodeState x = o at hcases
  cases hcases with
  | kept => exact UInt64.le_refl _
  | alive a _ _ _ hnewer => exact UInt64.le_of_lt hnewer
  | accused s r _ _ _ hr _ hle =>
      rw [hr]
      exact hle
  | buried d r _ _ _ _ hr _ hle =>
      rw [hr]
      exact hle

/-- A node's own record is never dead. -/
theorem up_own_step (h : Tabled env g) (he : g.Enabled e) (hup : ¬ g.Down env.conf.name) :
    ¬ (g.step env e).Down env.conf.name := by
  have hcases := rewritten_step h he env.conf.name
  unfold Down at hup ⊢
  generalize (g.step env e).getNodeState env.conf.name = o at hcases
  cases hcases with
  | kept => exact hup
  | alive a _ _ ha _ =>
      intro hdown
      have hdead : a.state = .dead := hdown { a with timestamp := 0 } rfl
      exact absurd (ha.symm.trans hdead) (by decide)
  | accused s r _ _ hs _ _ _ =>
      intro hdown
      have hdead : s.state = .dead := hdown { s with timestamp := 0 } rfl
      rcases hs with hs | hs
      · exact absurd (hs.symm.trans hdead) (by decide)
      · exact absurd (hs.symm.trans hdead) (by decide)
  | buried d r _ _ _ hother _ _ _ => exact absurd rfl hother

/-! ## Recorded states -/

/-- Every record has a named state and a dominant above zero. -/
def Recorded (g : Gossiper) : Prop :=
  ∀ x r, g.getNodeState x = some r → r.state.Named ∧ 0 < r.dominant

theorem recorded_fresh : Recorded fresh := by
  intro x r hr
  simp [fresh, getNodeState] at hr

theorem Recorded.step (hrec : Recorded g) (h : Tabled env g) (he : g.Enabled e) :
    Recorded (g.step env e) := by
  intro x r' hr'
  have hcases := rewritten_step h he x
  generalize (g.step env e).getNodeState x = o at hcases hr'
  cases hcases with
  | kept => exact hrec x r' hr'
  | alive a _ _ ha hnewer =>
      cases hr'
      exact ⟨Or.inl ha, UInt64.lt_of_le_of_lt UInt64.zero_le hnewer⟩
  | accused s r _ _ hs hr _ hle =>
      cases hr'
      exact ⟨hs.imp_right Or.inl, UInt64.lt_of_lt_of_le (hrec x r hr).2 hle⟩
  | buried d r _ _ hd _ hr _ hle =>
      cases hr'
      exact ⟨Or.inr (Or.inr hd), UInt64.lt_of_lt_of_le (hrec x r hr).2 hle⟩

theorem recorded_run {es : List Event} (hv : Valid env fresh es) :
    Recorded (run (Gossiper.step env) fresh es) :=
  (hv.invariant (I := fun g => Tabled env g ∧ Recorded g)
    (fun _ e h he => ⟨h.1.step e he, h.2.step h.1 he⟩) ⟨tabled_fresh, recorded_fresh⟩).2

/-! ## No resurrection -/

/-- The event brings news that `x` is alive, newer than the record `r`, which
becomes the record `r'`. -/
def RevivedBy (env : Env) (g : Gossiper) (x : String) (r r' : NodeState) (e : Event) : Prop :=
  ∃ a ∈ g.aliveNews env e,
    a.name = x ∧ a.state = .alive ∧ r.dominant < a.dominant ∧ r' = { a with timestamp := 0 }

/-- The step keeps every record, at no smaller a dominant, and only newer news
that the node is alive makes a record leave dead, or turns a suspect alive. -/
def NoResurrection (env : Env) (g : Gossiper) (e : Event) : Prop :=
  ∀ x r, g.getNodeState x = some r →
    ∃ r', (g.step env e).getNodeState x = some r' ∧ r.dominant ≤ r'.dominant ∧
      (r.state = .dead → r'.state ≠ .dead → r'.state = .alive ∧ RevivedBy env g x r r' e) ∧
      (r.state = .suspect → r'.state = .alive → RevivedBy env g x r r' e)

theorem noResurrection_step (h : Tabled env g) (he : g.Enabled e) : NoResurrection env g e := by
  intro x r hr
  have hcases := rewritten_step h he x
  generalize (g.step env e).getNodeState x = o at hcases
  cases hcases with
  | kept =>
      refine ⟨r, hr, UInt64.le_refl _, fun hdead hup => absurd hdead hup, ?_⟩
      intro hsuspect halive
      exact absurd (hsuspect.symm.trans halive) (by decide)
  | alive a hname hnews ha hnewer =>
      rw [knownDominant_of_some hr] at hnewer
      have hrevived : RevivedBy env g x r { a with timestamp := 0 } e :=
        ⟨a, hnews, hname, ha, hnewer, rfl⟩
      exact ⟨_, rfl, UInt64.le_of_lt hnewer, fun _ _ => ⟨ha, hrevived⟩, fun _ _ => hrevived⟩
  | accused s r₀ _ _ _ hr₀ halive hle =>
      cases hr.symm.trans hr₀
      refine ⟨_, rfl, hle, fun hdead => ?_, fun hsuspect => ?_⟩
      · exact absurd (halive.symm.trans hdead) (by decide)
      · exact absurd (halive.symm.trans hsuspect) (by decide)
  | buried d r₀ _ _ hd _ hr₀ hup hle =>
      cases hr.symm.trans hr₀
      refine ⟨_, rfl, hle, fun hdead => absurd hdead hup, fun _ halive => ?_⟩
      exact absurd (hd.symm.trans halive) (by decide)

/-- No step of a run loses a record, lowers its dominant or revives the node on
news that is not newer. -/
theorem noResurrection_along (env : Env) (es : List Event) (hv : Valid env fresh es) :
    Along (Gossiper.step env) (NoResurrection env) fresh es :=
  hv.of_invariant (I := Tabled env) (fun _ e h he => h.step e he)
    (fun _ _ h he => noResurrection_step h he) tabled_fresh

/-- A late timeout and old ALIVE news leave a suspect and a dead node as they are. -/
theorem noResurrection_of_stale :
    Along (Gossiper.step sampleEnv) (NoResurrection sampleEnv) fresh
      [.join, .message (news "b:1" 2 .alive "b:1") true, .probe 1,
        .message (news "b:1" 2 .suspect "c:1") true,
        .probeTimeout (news "b:1" 2 .alive "b:1"), .message (news "b:1" 2 .dead "c:1") true,
        .message (news "b:1" 1 .alive "b:1") true, .message (news "b:1" 3 .alive "b:1") true] :=
  noResurrection_along sampleEnv _ (by decide)

end Gossiper

end CppGossip
