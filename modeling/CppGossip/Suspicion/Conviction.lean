import CppGossip.Suspicion.Bookkeeping
import CppGossip.Suspicion.State

/-!
# Convictions

The wait handler of a suspicion runs whether its timer has expired or was
cancelled, and `Confirm` runs the same callback, so an accusation may be carried
out long after the suspicion it opened is gone. What stops it is the dominant:
an accusation is never ahead of the record, and `deadNode` wants it not to be
behind. Since the recorded dominant never falls, a conviction that succeeds finds
it where it stood when the suspicion was opened.
-/

namespace CppGossip

open Collection Transition

namespace Gossiper

variable {env : Env} {g : Gossiper} {e : Event} {s : NodeState} {x : String}

/-- The event opens a suspicion with the accusation `s`. -/
def Opens (env : Env) (g : Gossiper) (s : NodeState) (e : Event) : Prop :=
  (g.step env e).timers = s :: g.timers

instance (env : Env) (g : Gossiper) (s : NodeState) (e : Event) : Decidable (g.Opens env s e) :=
  inferInstanceAs (Decidable (_ = _))

/-- The event changes the record of `x` and leaves it dead. -/
def TurnsDead (env : Env) (g : Gossiper) (x : String) (e : Event) : Prop :=
  (g.step env e).getNodeState x ≠ g.getNodeState x ∧
    ∃ r ∈ (g.step env e).getNodeState x, r.state = .dead

instance (env : Env) (g : Gossiper) (x : String) (e : Event) : Decidable (g.TurnsDead env x e) :=
  inferInstanceAs (Decidable (_ ∧ ∃ r ∈ (g.step env e).getNodeState x, r.state = .dead))

/-- The calls made while the event is handled. -/
def calls (env : Env) (g : Gossiper) (e : Event) : List Effect :=
  (g.step env e).trace.take ((g.step env e).trace.length - g.trace.length)

theorem calls_of_trace {effects : List Effect} (h : (g.step env e).trace = effects ++ g.trace) :
    g.calls env e = effects := by
  rw [calls, h, List.length_append, Nat.add_sub_cancel, List.take_left]

/-! ## The callback -/

/-- A callback is `deadNode`, at most after the accuser has been counted. -/
theorem step_of_callback (h : Tabled env g) (he : g.Enabled e) (hcall : g.callback e = some s) :
    ∃ g₀ : Gossiper, g₀.nodeMap = g.nodeMap ∧ g₀.isLeaving = g.isLeaving ∧
      g.step env e = g₀.deadNode env s.killed := by
  have hquorum : ∀ m : NodeState, g.quorum m = some s →
      ∃ g₀ : Gossiper, g₀.nodeMap = g.nodeMap ∧ g₀.isLeaving = g.isLeaving ∧
        g.suspectNode env m = g₀.deadNode env s.killed := by
    intro m hm
    have hcases := suspected env g m
    generalize g.suspectNode env m = g' at hcases
    cases hcases with
    | stale hheeds => simp [quorum_of_not_heeds hheeds] at hm
    | convicted hheeds sus hsus hfull =>
        have hs : sus.accusation = s := by
          simpa [quorum_of_confirmed hheeds hsus, hfull] using hm
        exact ⟨g.counted m sus, rfl, rfl, by rw [hs]⟩
    | confirmed hheeds sus hsus hnot => simp [quorum_of_confirmed hheeds hsus, hnot] at hm
    | ignored _ hsus _ => simp [quorum_of_none hsus] at hm
    | openedSelf _ hsus _ _ => simp [quorum_of_none hsus] at hm
    | opened _ hsus _ _ => simp [quorum_of_none hsus] at hm
  have hcases := handled h e he
  generalize g.step env e = g' at hcases
  cases hcases with
  | quiet hsilent _ => simp [callback_of_silent hsilent] at hcall
  | joined => cases hcall
  | alive a needBc ha => simp [callback, ha] at hcall
  | suspect m needBc hm => exact hquorum m (by simpa [callback, hm] using hcall)
  | timeout m _ _ => exact hquorum m hcall
  | dead d needBc hd => simp [callback, hd] at hcall
  | convicted m _ =>
      rw [← Option.some.inj hcall]
      exact ⟨g, rfl, rfl, rfl⟩
  | alerted n => cases hcall

/-- A callback that turns a record dead carries an accusation of that node which
`deadNode` heeds. -/
theorem turnsDead_of_callback (h : Tabled env g) (he : g.Enabled e)
    (hcall : g.callback e = some s) (hdead : g.TurnsDead env x e) :
    s.name = x ∧ x ≠ env.conf.name ∧ g.Heeds s ∧ ¬ g.Down x := by
  obtain ⟨g₀, hmap, hleave, hstep⟩ := step_of_callback h he hcall
  have hrecords : ∀ y, g₀.getNodeState y = g.getNodeState y := by
    intro y
    rw [getNodeState, hmap]
    rfl
  have hchanged := hdead.1
  rw [hstep, getNodeState_deadNode (hleave.trans h.staying), ← hrecords x] at hchanged
  split at hchanged
  case isTrue hbury =>
    obtain ⟨hheeds, hup, hother, rfl⟩ := hbury
    refine ⟨rfl, hother, ?_, ?_⟩
    · rw [Heeds, ← hrecords]
      exact hheeds
    · rw [Down, ← hrecords]
      exact hup
  case isFalse => exact absurd rfl hchanged

theorem mem_timers_of_callback (h : Kept env g) (he : g.Enabled e) (hcall : g.callback e = some s)
    (hother : s.name ≠ env.conf.name) : s ∈ g.timers := by
  rcases open_or_conviction_of_callback hcall with ⟨x, sus, hsus, rfl⟩ | rfl
  · have hname : sus.accusation.name = x := h.accused x sus hsus
    have hpending := (h.sound x (hname ▸ hother)).pending sus hsus
    exact (List.mem_filter.1 hpending).1
  · exact he

/-! ## The accusations -/

/-- An accusation is never ahead of the record. -/
theorem dominant_le_knownDominant (h : Kept env g) (hs : s ∈ g.timers)
    (hother : s.name ≠ env.conf.name) : s.dominant ≤ g.knownDominant s.name := by
  have hmem : s ∈ (g.peer s.name).accusations := List.mem_filter.2 ⟨hs, by simp⟩
  exact (h.sound s.name hother).bounded s hmem

theorem timers_step (h : Tabled env g) (he : g.Enabled e) :
    (g.step env e).timers = g.timers ∨
      ∃ s, g.Opens env s e ∧ (s.name ≠ env.conf.name → .push s ∈ g.calls env e) := by
  have hsuspect : ∀ m, g.step env e = g.suspectNode env m →
      (g.step env e).timers = g.timers ∨
        ∃ s, g.Opens env s e ∧ (s.name ≠ env.conf.name → .push s ∈ g.calls env e) := by
    intro m hm
    rcases timers_suspectNode env g m with hsame | ⟨hnew, hpush⟩
    · exact Or.inl (hm ▸ hsame)
    · refine Or.inr ⟨m, ?_, ?_⟩
      · rw [Opens, hm]
        exact hnew
      · intro hother
        have htrace : (g.step env e).trace = [.push m] ++ g.trace := by
          rw [hm]
          exact hpush hother
        rw [calls_of_trace htrace]
        exact List.mem_singleton_self _
  have hcases := handled h e he
  generalize hstep : g.step env e = g' at hcases
  cases hcases with
  | quiet _ hquiet => exact Or.inl (hstep ▸ hquiet.timers)
  | joined => exact Or.inl (timers_aliveNode _ _)
  | alive a needBc _ => exact Or.inl (timers_aliveNode a needBc)
  | suspect m needBc _ => exact hstep ▸ hsuspect m hstep
  | timeout m _ _ => exact hstep ▸ hsuspect m hstep
  | dead d needBc _ => exact Or.inl (timers_deadNode d)
  | convicted m _ => exact Or.inl (timers_deadNode _)
  | alerted n => exact Or.inl (fuckyou_timers env g n)

theorem mem_timers_step (h : Tabled env g) (he : g.Enabled e)
    (hs : s ∈ (g.step env e).timers) :
    s ∈ g.timers ∨ g.Opens env s e ∧ (s.name ≠ env.conf.name → .push s ∈ g.calls env e) := by
  rcases timers_step h he with hsame | ⟨t, hopen, hpush⟩
  · exact Or.inl (hsame ▸ hs)
  · rw [hopen] at hs
    rcases List.mem_cons.1 hs with rfl | hold
    · exact Or.inr ⟨hopen, hpush⟩
    · exact Or.inl hold

/-- Every accusation has opened a suspicion. -/
theorem exists_opens_of_mem_timers {es : List Event} (hv : Valid env fresh es)
    (hs : s ∈ (run (Gossiper.step env) fresh es).timers) :
    ∃ es₁ e es₂, es = es₁ ++ e :: es₂ ∧
      (run (Gossiper.step env) fresh es₁).Opens env s e := by
  induction es using List.reverseRecOn with
  | nil => cases hs
  | append_singleton es e ih =>
      obtain ⟨hvalid, he⟩ := (along_append_singleton _ _ _ _).1 hv
      rw [run_append_singleton] at hs
      rcases mem_timers_step (tabled_run hvalid) he hs with hold | ⟨hopen, _⟩
      · obtain ⟨es₁, d, es₂, rfl, hopen⟩ := ih hvalid hold
        exact ⟨es₁, d, es₂ ++ [e], by simp, hopen⟩
      · exact ⟨es, e, [], rfl, hopen⟩

/-! ## No stale conviction -/

/-- The event brings no news that `x` is alive which `aliveNode` accepts. -/
def NotRevived (env : Env) (x : String) (g : Gossiper) (e : Event) : Prop :=
  ∀ a ∈ g.aliveNews env e, a.name = x → ¬ g.AliveAccepted env a

instance (env : Env) (x : String) (g : Gossiper) (e : Event) :
    Decidable (NotRevived env x g e) :=
  inferInstanceAs (Decidable (∀ a ∈ g.aliveNews env e, _))

/-- Accepted news that a node is alive raises the recorded dominant. -/
theorem knownDominant_lt_step (hx : x ≠ env.conf.name) (h : ¬ NotRevived env x g e) :
    g.knownDominant x < (g.step env e).knownDominant x := by
  simp only [NotRevived, not_forall, not_not] at h
  obtain ⟨a, ha, rfl, hacc⟩ := h
  cases e with
  | join =>
      have hself : a.name = env.conf.name := by
        rw [← Option.some.inj ha]
        rfl
      exact absurd hself hx
  | message m needBc =>
      simp only [aliveNews] at ha
      split at ha
      case isTrue hm =>
        cases ha
        have hstep : g.step env (.message a needBc) = g.aliveNode env a needBc := by
          simp only [Gossiper.step, mergeState, hm]
        rw [hstep, aliveNode_of_accepted hacc]
        simpa [knownDominant, getNodeState] using hacc.2
      case isFalse => cases ha
  | registerNotifier join leave => cases ha
  | probe cursor => cases ha
  | probeTimeout node => cases ha
  | deadAlert name state dominant => cases ha
  | conviction s => cases ha
  | batch n applied => cases ha

theorem notRevived_of_knownDominant_le {es : List Event} (hx : x ≠ env.conf.name)
    (h : Kept env g) (hv : Valid env g es)
    (hend : (run (Gossiper.step env) g es).knownDominant x ≤ g.knownDominant x) :
    Along (Gossiper.step env) (NotRevived env x) g es := by
  have hconst := Along.constant (I := Kept env) (m := fun g => (g.knownDominant x).toNat)
    (fun _ _ h he => h.step he) (fun _ _ h he => knownDominant_le_step h.toTabled he x) h hv hend
  refine hconst.1.mono fun g e heq => ?_
  by_contra hrevived
  have hlt : (g.knownDominant x).toNat < ((g.step env e).knownDominant x).toNat :=
    knownDominant_lt_step hx hrevived
  exact Nat.lt_irrefl _ (heq ▸ hlt)

/-- A callback that turns the record of a node dead carries the accusation of
that node that opened its suspicion, finds its dominant unchanged in the record,
and no news that the node is alive has been accepted since. -/
theorem conviction_not_stale (env : Env) (es : List Event) (e : Event) (s : NodeState)
    (x : String) (hv : Valid env fresh (es ++ [e]))
    (hcall : (run (Gossiper.step env) fresh es).callback e = some s)
    (hdead : (run (Gossiper.step env) fresh es).TurnsDead env x e) :
    s.name = x ∧ (run (Gossiper.step env) fresh es).knownDominant x = s.dominant ∧
      (∃ es₁ e₁ es₂, es = es₁ ++ e₁ :: es₂ ∧
        (run (Gossiper.step env) fresh es₁).Opens env s e₁) ∧
      ∀ es₁ e₁ es₂, es = es₁ ++ e₁ :: es₂ → (run (Gossiper.step env) fresh es₁).Opens env s e₁ →
        Along (Gossiper.step env) (NotRevived env x)
          ((run (Gossiper.step env) fresh es₁).step env e₁) es₂ := by
  obtain ⟨hvalid, he⟩ := (along_append_singleton _ _ _ _).1 hv
  have hkept := kept_run hvalid
  obtain ⟨rfl, hx, hheeds, _⟩ := turnsDead_of_callback hkept.toTabled he hcall hdead
  have hmem := mem_timers_of_callback hkept he hcall hx
  have heq := UInt64.le_antisymm hheeds.knownDominant_le (dominant_le_knownDominant hkept hmem hx)
  refine ⟨rfl, heq, exists_opens_of_mem_timers hvalid hmem, ?_⟩
  rintro es₁ e₁ es₂ rfl hopen
  obtain ⟨hvalid₁, hrest⟩ := (along_append _ _ _ _).1 hvalid
  have hkept₁ := (kept_run hvalid₁).step hrest.1
  apply notRevived_of_knownDominant_le hx hkept₁ hrest.2
  -- the record was at least at the accusation then, and is at it now
  have hmem₁ : s ∈ ((run (Gossiper.step env) fresh es₁).step env e₁).timers :=
    hopen ▸ List.mem_cons_self
  rw [run_append, run_cons] at heq
  rw [heq]
  exact dominant_le_knownDominant hkept₁ hmem₁ hx

/-- The timer of a suspicion expires after some gossip has been sent. -/
theorem conviction_not_stale_of_timer :
    let es : List Event :=
      [.join, .message (news "b:1" 1 .alive "b:1") true,
        .message (news "b:1" 1 .suspect "c:1") true, .batch 1 true]
    let s := news "b:1" 1 .suspect "c:1"
    (run (Gossiper.step sampleEnv) fresh es).knownDominant "b:1" = s.dominant ∧
      ∀ es₁ e₁ es₂, es = es₁ ++ e₁ :: es₂ →
        (run (Gossiper.step sampleEnv) fresh es₁).Opens sampleEnv s e₁ →
        Along (Gossiper.step sampleEnv) (NotRevived sampleEnv "b:1")
          ((run (Gossiper.step sampleEnv) fresh es₁).step sampleEnv e₁) es₂ :=
  (conviction_not_stale sampleEnv _ (.conviction (news "b:1" 1 .suspect "c:1")) _ "b:1"
    (by decide) rfl (by decide)).2.imp_right And.right

/-! ## Public accusations -/

/-- A call that makes public that `x` is suspect, at dominant `d` or later. -/
def Accusing (x : String) (d : UInt64) : Effect → Prop
  | .push m => m.name = x ∧ m.state = .suspect ∧ d ≤ m.dominant
  | _ => False

instance Accusing.decidable (x : String) (d : UInt64) : ∀ c, Decidable (Accusing x d c)
  | .push _ => inferInstanceAs (Decidable (_ ∧ _ ∧ _))
  | .issue _ _ | .notifyJoin _ | .notifyLeave _ => inferInstanceAs (Decidable False)

/-- A SUSPECT message about `x` of dominant `d` or more is pushed by the event. -/
def Accuses (env : Env) (x : String) (d : UInt64) (g : Gossiper) (e : Event) : Prop :=
  ∃ c ∈ g.calls env e, Accusing x d c

instance (env : Env) (x : String) (d : UInt64) (g : Gossiper) (e : Event) :
    Decidable (Accuses env x d g e) := inferInstanceAs (Decidable (∃ c ∈ _, _))

/-- `x` has been accused in public, and its recorded dominant has been `d` since. -/
abbrev AccusedSince (env : Env) (x : String) (d : UInt64) (es : List Event) : Prop :=
  Since (Gossiper.step env) (Accuses env x d) (fun g => g.knownDominant x = d) fresh es

/-- Whenever a callback turns the record of another node dead, that node had been
accused in public since the record took its dominant. -/
def Announced (env : Env) (es : List Event) : Prop :=
  ∀ es₁ e es₂, es = es₁ ++ e :: es₂ →
    ∀ s ∈ (run (Gossiper.step env) fresh es₁).callback e, ∀ x, x ≠ env.conf.name →
      (run (Gossiper.step env) fresh es₁).TurnsDead env x e →
      AccusedSince env x ((run (Gossiper.step env) fresh es₁).knownDominant x) es₁

/-- A callback that `deadNode` will carry out against another node is that of a
suspicion opened by a SUSPECT message. -/
def ConvictsOpenly (env : Env) (g : Gossiper) (e : Event) : Prop :=
  ∀ s ∈ g.callback e, s.name ≠ env.conf.name → g.Heeds s → ¬ g.Down s.name → s.state = .suspect

instance (env : Env) (g : Gossiper) (e : Event) : Decidable (g.ConvictsOpenly env e) :=
  inferInstanceAs (Decidable (∀ s ∈ g.callback e, _))

/-- A SUSPECT accusation that the record has not outgrown was pushed when the
record took its dominant. -/
theorem accusedSince_of_mem_timers {es : List Event} (hv : Valid env fresh es)
    (hmem : s ∈ (run (Gossiper.step env) fresh es).timers) (hs : s.state = .suspect)
    (hother : s.name ≠ env.conf.name)
    (hknown : (run (Gossiper.step env) fresh es).knownDominant s.name = s.dominant) :
    AccusedSince env s.name s.dominant es := by
  induction es using List.reverseRecOn with
  | nil => cases hmem
  | append_singleton es e ih =>
      obtain ⟨hvalid, he⟩ := (along_append_singleton _ _ _ _).1 hv
      have hkept := kept_run hvalid
      rw [run_append_singleton] at hmem hknown
      rcases mem_timers_step hkept.toTabled he hmem with hold | ⟨_, hpush⟩
      · have hle := knownDominant_le_step hkept.toTabled he s.name
        rw [hknown] at hle
        have heq := UInt64.le_antisymm hle (dominant_le_knownDominant hkept hold hother)
        exact (ih hvalid hold heq).extend hknown
      · have haccuses : Accuses env s.name s.dominant (run (Gossiper.step env) fresh es) e :=
          ⟨.push s, hpush hother, rfl, hs, UInt64.le_refl _⟩
        exact Since.of_last haccuses hknown

/-- In a run in which no suspicion opened by the timeout of a ping is carried to a
conviction, every conviction was announced. -/
theorem announced_of_convictsOpenly (env : Env) (es : List Event) (hv : Valid env fresh es)
    (hopenly : Along (Gossiper.step env) (ConvictsOpenly env) fresh es) : Announced env es := by
  rintro es₁ e es₂ rfl s hcall x hx hdead
  obtain ⟨hvalid, hrest⟩ := (along_append _ _ _ _).1 hv
  obtain ⟨_, hopen⟩ := (along_append _ _ _ _).1 hopenly
  have hkept := kept_run hvalid
  obtain ⟨rfl, _, hheeds, hup⟩ := turnsDead_of_callback hkept.toTabled hrest.1 hcall hdead
  have hmem := mem_timers_of_callback hkept hrest.1 hcall hx
  have hs : s.state = .suspect := hopen.1 s hcall hx hheeds hup
  have heq := UInt64.le_antisymm hheeds.knownDominant_le (dominant_le_knownDominant hkept hmem hx)
  rw [heq]
  exact accusedSince_of_mem_timers hvalid hmem hs hx heq

theorem announced_of_timer :
    Announced sampleEnv
      [.join, .message (news "b:1" 1 .alive "b:1") true,
        .message (news "b:1" 1 .suspect "c:1") true, .conviction (news "b:1" 1 .suspect "c:1")] :=
  announced_of_convictsOpenly sampleEnv _ (by decide) (by decide)

/-- A ping to `b:1` times out and `b:1` is convicted; what was pushed in between
says that it is alive. -/
theorem not_announced_of_probeTimeout :
    let es : List Event :=
      [.join, .message (news "b:1" 1 .alive "b:1") true, .probe 1,
        .probeTimeout (news "b:1" 1 .alive "b:1"), .conviction (news "b:1" 1 .alive "b:1")]
    Valid sampleEnv fresh es ∧ ¬ Announced sampleEnv es := by
  refine ⟨by decide, ?_⟩
  intro h
  have haccused := h
    [.join, .message (news "b:1" 1 .alive "b:1") true, .probe 1,
      .probeTimeout (news "b:1" 1 .alive "b:1")]
    (.conviction (news "b:1" 1 .alive "b:1")) [] rfl _ rfl "b:1" (by decide) (by decide)
  exact absurd haccused (by decide)

end Gossiper

end CppGossip
