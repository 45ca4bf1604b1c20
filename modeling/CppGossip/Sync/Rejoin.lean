import CppGossip.Suspicion.State
import CppGossip.Sync.Learn

/-!
# A node that comes back

A node that restarts announces itself at dominant 1, whatever the seed remembers
of its previous life. If the seed knew nothing it now records the announcement;
if it remembers the node alive, the reply carries its record and the node takes
the dominant over. If it remembers the node suspect or dead the reply is an
accusation, and the node objects with an ALIVE message of a greater dominant,
which the seed accepts unless newer news comes first.
-/

namespace CppGossip

open Collection Transition

namespace Gossiper

variable {env envX envY : Env} {g : Gossiper} {q : NodeState}

/-! ## The objection reaches the seed -/

/-- `a` is newer than what is recorded, and becomes the record. -/
def Adopts (env : Env) (g : Gossiper) (a : NodeState) (needBc : Bool) : Prop :=
  g.knownDominant a.name < a.dominant ∧
    (g.step env (.message a needBc)).getNodeState a.name = some { a with timestamp := 0 }

/-- The event is no message about the node called `q.name` that is newer than `q`,
nor does a node of that name join. -/
def NoNewer (env : Env) (q : NodeState) : Event → Prop
  | .message m _ => m.name = q.name → m.precedence ≤ q.precedence
  | .join => env.conf.name ≠ q.name
  | _ => True

theorem adopts_of_lt (h : Tabled env g) {a : NodeState} (ha : a.state = .alive)
    (hlt : g.knownDominant a.name < a.dominant) (needBc : Bool) : Adopts env g a needBc := by
  have hacc : g.AliveAccepted env a := ⟨h.not_leaving a, hlt⟩
  have hstep : g.step env (.message a needBc) = g.aliveNode env a needBc := by
    simp only [Gossiper.step, mergeState, ha]
  refine ⟨hlt, ?_⟩
  rw [hstep, getNodeState_aliveNode, if_pos ⟨hacc, rfl⟩]

/-- Of an accusation no newer than the ALIVE message `q` the dominant is smaller. -/
theorem dominant_lt_of_precedence_le {m : NodeState} (hq : q.state = .alive)
    (hm : m.state = .suspect ∨ m.state = .dead) (hle : m.precedence ≤ q.precedence) :
    m.dominant < q.dominant := by
  rcases (NodeState.precedence_le_iff m q).1 hle with hlt | ⟨_, hstate⟩
  · exact hlt
  · rw [hq] at hstate
    rcases hm with hm | hm
    · exact absurd (hm ▸ hstate) (by decide)
    · exact absurd (hm ▸ hstate) (by decide)

/-- News of a death is a message, or what a callback makes of its accusation. -/
theorem message_or_callback_of_deathNews {e : Event} {d : NodeState} (hnews : d ∈ g.deathNews e) :
    (∃ needBc, e = .message d needBc ∧ d.state = .dead) ∨
      ∃ s, g.callback e = some s ∧ s.killed = d := by
  cases e with
  | message m needBc =>
      simp only [deathNews] at hnews
      split at hnews
      case isTrue hm =>
        cases hnews
        exact Or.inl ⟨needBc, rfl, hm⟩
      case isFalse => exact Or.inr (Option.map_eq_some_iff.1 hnews)
  | _ => exact Or.inr (Option.map_eq_some_iff.1 hnews)

/-- What `g` records of the node called `q.name` is behind `q`. -/
structure Behind (env : Env) (q : NodeState) (g : Gossiper) : Prop extends Tabled env g where
  grounded : Grounded g
  pending : Pending g
  lt : g.knownDominant q.name < q.dominant

theorem Behind.lt_of_suspectNews (h : Behind env q g) (hq : q.state = .alive) {e : Event}
    (he : g.Enabled e) (hnone : NoNewer env q e) {s : NodeState} (hnews : s ∈ suspectNews e)
    (hname : s.name = q.name) : s.dominant < q.dominant := by
  cases e with
  | message m needBc =>
      simp only [suspectNews] at hnews
      split at hnews
      case isTrue hm =>
        cases hnews
        exact dominant_lt_of_precedence_le hq (Or.inl hm) (hnone hname)
      case isFalse => cases hnews
  | probeTimeout m =>
      cases hnews
      exact UInt64.lt_of_le_of_lt (hname ▸ h.pending.pings s he) h.lt
  | _ => cases hnews

theorem Behind.lt_of_deathNews (h : Behind env q g) (hq : q.state = .alive) {e : Event}
    (he : g.Enabled e) (hnone : NoNewer env q e) {d : NodeState} (hnews : d ∈ g.deathNews e)
    (hname : d.name = q.name) : d.dominant < q.dominant := by
  rcases message_or_callback_of_deathNews hnews with ⟨needBc, rfl, hd⟩ | ⟨s, hcall, rfl⟩
  · exact dominant_lt_of_precedence_le hq (Or.inr hd) (hnone hname)
  · have hsame : s.name = q.name := hname
    have hle : s.dominant ≤ g.knownDominant s.name :=
      dominant_le_of_callback h.toTabled h.grounded h.pending he hcall
    exact UInt64.lt_of_le_of_lt (hsame ▸ hle) h.lt

/-- A step that brings nothing newer than `q` leaves what is recorded behind `q`,
or adopts a message that the node is alive at that dominant. -/
theorem Behind.step_or_adopts (h : Behind env q g) (hq : q.state = .alive) {e : Event}
    (he : g.Enabled e) (hnone : NoNewer env q e) :
    Behind env q (g.step env e) ∨
      ∃ a needBc, e = .message a needBc ∧ a.name = q.name ∧ a.state = .alive ∧
        a.dominant = q.dominant ∧ Adopts env g a needBc := by
  have htable : Tabled env (g.step env e) := h.toTabled.step e he
  have hground : Grounded (g.step env e) := h.grounded.step h.toTabled he
  have hpending : Pending (g.step env e) := h.pending.step h.toTabled he
  have hkeep : (g.step env e).knownDominant q.name < q.dominant → Behind env q (g.step env e) :=
    fun hlt => ⟨htable, hground, hpending, hlt⟩
  have hcases := rewritten_step h.toTabled he q.name
  unfold knownDominant at hkeep
  generalize (g.step env e).getNodeState q.name = o at hcases hkeep
  cases hcases with
  | kept => exact Or.inl (hkeep h.lt)
  | alive a hname hnews ha hnewer =>
      cases e with
      | join =>
          cases hnews
          exact absurd hname hnone
      | message m needBc =>
          simp only [aliveNews] at hnews
          split at hnews
          case isTrue =>
            cases hnews
            have hle : a.dominant ≤ q.dominant :=
              NodeState.dominant_le_of_precedence_le (hnone hname)
            rcases UInt64.lt_or_eq_of_le hle with hlt | hsame
            · exact Or.inl (hkeep hlt)
            · have hadopts : Adopts env g a needBc :=
                adopts_of_lt h.toTabled ha (hname ▸ hnewer) needBc
              exact Or.inr ⟨a, needBc, rfl, hname, ha, hsame, hadopts⟩
          case isFalse => cases hnews
      | _ => cases hnews
  | accused s r hname hnews _ _ _ _ =>
      have hlt : s.dominant < q.dominant := h.lt_of_suspectNews hq he hnone hnews hname
      exact Or.inl (hkeep hlt)
  | buried d r hname hnews _ _ _ _ _ =>
      have hlt : d.dominant < q.dominant := h.lt_of_deathNews hq he hnone hnews hname
      exact Or.inl (hkeep hlt)

/-- Whenever `q` arrives before anything newer, a message that the node is alive
at its dominant has been adopted by then. -/
theorem Behind.exists_adopts (h : Behind env q g) (hq : q.state = .alive) {fs : List Event}
    (hv : Valid env g fs) (hnone : ∀ e ∈ fs, NoNewer env q e) (needBc : Bool) :
    ∃ fs₁ a b fs₂, fs ++ [.message q needBc] = fs₁ ++ .message a b :: fs₂ ∧ a.name = q.name ∧
      a.state = .alive ∧ a.dominant = q.dominant ∧
      Adopts env (run (Gossiper.step env) g fs₁) a b := by
  induction fs generalizing g with
  | nil =>
      have hadopts : Adopts env g q needBc := adopts_of_lt h.toTabled hq h.lt needBc
      exact ⟨[], q, needBc, [], rfl, rfl, hq, rfl, hadopts⟩
  | cons e fs ih =>
      rw [List.forall_mem_cons] at hnone
      rcases h.step_or_adopts hq hv.1 hnone.1 with hnext | hadopts
      · obtain ⟨fs₁, a, b, fs₂, hsplit, ha⟩ := ih hnext hv.2 hnone.2
        refine ⟨e :: fs₁, a, b, fs₂, ?_, ha⟩
        rw [List.cons_append, hsplit, List.cons_append]
      · obtain ⟨a, b, rfl, ha⟩ := hadopts
        exact ⟨[], a, b, fs ++ [.message q needBc], rfl, ha⟩

/-! ## The exchange -/

/-- After it has merged the announcement of `x` the seed records `x`, as it did
before or alive at dominant 1. -/
theorem record_of_request (h : Tabled envY g) (hrec : Recorded g) (onJoin onLeave : Bool)
    {request : List NodeState} (hreq : request.Perm (joined envX onJoin onLeave).localState) :
    ∃ r, (g.merge envY true request).getNodeState envX.conf.name = some r ∧ 0 < r.dominant ∧
      r.state.Named ∧ g.knownDominant envX.conf.name ≤ r.dominant ∧
      (r.state = .alive ∨ r.dominant = g.knownDominant envX.conf.name) := by
  have hx : Tabled envX (joined envX onJoin onLeave) := tabled_joined envX onJoin onLeave
  let a : NodeState := { selfState envX 1 with timestamp := 0 }
  have hown : (joined envX onJoin onLeave).getNodeState envX.conf.name = some a :=
    congrArg (fun o => o.peer.record) (own_joined_eq envX onJoin onLeave)
  have hmem : a ∈ request := hreq.mem_iff.2 ((mem_localState_iff hx).2 hown)
  have hnodup : (request.map NodeState.name).Nodup :=
    (hreq.map NodeState.name).nodup_iff.2 (nodup_localState hx)
  obtain ⟨g₁, hg₁, hbefore, hafter⟩ := held_merge_of_mem h true hnodup hmem
  have hbefore' : g₁.getNodeState envX.conf.name = g.getNodeState envX.conf.name :=
    getNodeState_of_held g₁ hbefore
  have hrecord : (g.merge envY true request).getNodeState envX.conf.name =
      if g₁.AliveAccepted envY a ∧ a.name = envX.conf.name then some { a with timestamp := 0 }
      else g₁.getNodeState envX.conf.name :=
    (getNodeState_of_held _ hafter).trans (getNodeState_aliveNode a true envX.conf.name)
  have hknown : g₁.knownDominant envX.conf.name = g.knownDominant envX.conf.name := by
    rw [knownDominant, hbefore']
    rfl
  have hone : (0 : UInt64) < 1 := by decide
  by_cases hlt : g₁.knownDominant a.name < a.dominant
  · rw [if_pos ⟨⟨hg₁.not_leaving a, hlt⟩, rfl⟩] at hrecord
    refine ⟨_, hrecord, hone, Or.inl rfl, ?_, Or.inl rfl⟩
    exact hknown ▸ UInt64.le_of_lt hlt
  · rw [if_neg fun hand => hlt hand.1.2, hbefore'] at hrecord
    cases hr : g.getNodeState envX.conf.name with
    | none =>
        have hzero : g₁.knownDominant a.name = 0 := hknown.trans (knownDominant_of_none hr)
        rw [hzero] at hlt
        exact absurd hone hlt
    | some r =>
        have hsame : g.knownDominant envX.conf.name = r.dominant := knownDominant_of_some hr
        obtain ⟨hnamed, hpos⟩ := hrec _ r hr
        exact ⟨r, hrecord.trans hr, hpos, hnamed, hsame ▸ UInt64.le_refl _, Or.inr hsame.symm⟩

/-- A node that takes itself for alive objects to every accusation it heeds. -/
theorem objects_of_heeds (env : Env) (nodeNum : UInt32) {o : Own} (h : o.Truthful)
    {m : NodeState} (hheeds : o.peer.Heeds m) :
    ((o.suspect env nodeNum m).dominant = objection o.dominant m.dominant ∧
      (o.suspect env nodeNum m).peer.queued = (o.object env m.dominant).peer.queued) ∧
    (o.dead env m).dominant = objection o.dominant m.dominant ∧
      (o.dead env m).peer.queued = (o.object env m.dominant).peer.queued := by
  have hup := h.not_down
  obtain ⟨⟨r, hr, halive, _⟩, hnone⟩ := h
  have hall : ∀ r' ∈ o.peer.record, r'.state = .alive := by
    intro r' hr'
    rwa [Option.some.inj (hr'.symm.trans hr)]
  constructor
  · rw [Own.suspect, if_pos hheeds]
    simp only [hnone, if_pos hall]
    exact ⟨rfl, rfl⟩
  · rw [Own.dead, if_pos hheeds]
    dsimp only
    rw [if_neg hup]
    exact ⟨rfl, rfl⟩

/-- The record of itself that a node receives back is taken over when it says
alive and objected to when it does not. -/
theorem own_of_reply (envX : Env) (onJoin onLeave : Bool) {reply : List NodeState}
    (hnodup : (reply.map NodeState.name).Nodup) {r : NodeState} (hr : r ∈ reply)
    (hname : r.name = envX.conf.name) (hpos : 0 < r.dominant) (hnamed : r.state.Named) :
    let x' := (joined envX onJoin onLeave).merge envX false reply
    (r.state = .alive ∧ x'.dominant = r.dominant) ∨
      r.state ≠ .alive ∧ x'.dominant = objection 1 r.dominant ∧
        x'.bcQueue.message envX.conf.name = some (selfState envX (objection 1 r.dominant)) := by
  intro x'
  have hx : Tabled envX (joined envX onJoin onLeave) := tabled_joined envX onJoin onLeave
  obtain ⟨g₁, hg₁, hbefore, hafter⟩ := held_merge_of_mem hx false hnodup hr
  have hown₁ : g₁.own envX = (joined envX onJoin onLeave).own envX := by
    simpa [held, hname] using congrArg Prod.snd hbefore
  have hown : x'.own envX = (g₁.mergeState envX false r).own envX := by
    simpa [held, hname] using congrArg Prod.snd hafter
  have htruth : (g₁.own envX).Truthful := hown₁ ▸ (own_joined envX onJoin onLeave).1
  have hstart : g₁.own envX = _ := hown₁.trans (own_joined_eq envX onJoin onLeave)
  have hheeds : (g₁.own envX).peer.Heeds r := by
    have hle : (1 : UInt64) ≤ r.dominant := by grind
    rw [hstart]
    exact ⟨_, rfl, hle⟩
  obtain ⟨hsuspect, hdead⟩ := objects_of_heeds envX g₁.nodeNum htruth hheeds
  have hdominant : x'.dominant = (x'.own envX).dominant := rfl
  have hqueued : x'.bcQueue.message envX.conf.name = (x'.own envX).peer.queued := rfl
  rw [hdominant, hqueued, hown]
  rcases hnamed with hs | hs | hs
  · left
    refine ⟨hs, ?_⟩
    simp only [mergeState, hs, own_aliveNode r false (hg₁.not_leaving r), if_pos hname, hstart]
    show (if (1 : UInt64) < r.dominant then r.dominant else 1) = r.dominant
    grind
  · right
    simp only [mergeState, hs, own_suspectNode hg₁, if_pos hname, hsuspect]
    rw [hstart]
    exact ⟨by decide, rfl, rfl⟩
  · right
    simp only [mergeState, hs, own_deadNode hg₁.staying, if_pos hname, hdead]
    rw [hstart]
    exact ⟨by decide, rfl, rfl⟩

/-- After the exchange with `y'`, which had remembered it at dominant `D`, the
node `x'` is no lower than `D`; the seed has it alive at its own dominant, or it
has queued an ALIVE message above `D` that the seed adopts whenever it arrives
before anything newer. -/
def RegainsPlace (envX envY : Env) (D : UInt64) (x' y' : Gossiper) : Prop :=
  D ≤ x'.dominant ∧
    ((∃ r, y'.getNodeState envX.conf.name = some r ∧ r.state = .alive ∧
        r.dominant = x'.dominant) ∨
      ∃ q, x'.bcQueue.message envX.conf.name = some q ∧ q.name = envX.conf.name ∧
        q.state = .alive ∧ D < q.dominant ∧
        ∀ fs, Valid envY y' fs → (∀ e ∈ fs, NoNewer envY q e) → ∀ needBc,
          ∃ fs₁ a b fs₂, fs ++ [.message q needBc] = fs₁ ++ .message a b :: fs₂ ∧
            a.name = q.name ∧ a.state = .alive ∧ a.dominant = q.dominant ∧
            Adopts envY (run (Gossiper.step envY) y' fs₁) a b)

/-- Whatever the seed remembers of it, a node that restarts regains its place. -/
theorem regainsPlace_exchange (envX envY : Env) (es : List Event) (hv : Valid envY fresh es)
    (hlast : (run (Gossiper.step envY) fresh es).knownDominant envX.conf.name ≠ lastDominant)
    (onJoin onLeave : Bool) (x' y' : Gossiper)
    (h : Exchange envX envY (joined envX onJoin onLeave) (run (Gossiper.step envY) fresh es) x' y') :
    RegainsPlace envX envY
      ((run (Gossiper.step envY) fresh es).knownDominant envX.conf.name) x' y' := by
  obtain ⟨request, reply, hreq, hy', hreply, rfl⟩ := h
  obtain ⟨r, hr, hpos, hnamed, hD, hkept⟩ :=
    record_of_request (tabled_run hv) (recorded_run hv) onJoin onLeave hreq
  rw [← hy'] at hr
  have hvalid := valid_messages hv true request
  have hrun : y' = run (Gossiper.step envY) fresh _ := hy'.trans (merge_run es request)
  have htable : Tabled envY y' := hrun ▸ tabled_run hvalid
  have hname : r.name = envX.conf.name := htable.keyed _ r hr
  have hmem : r ∈ reply := hreply.mem_iff.2 ((mem_localState_iff htable).2 (hname.symm ▸ hr))
  have hnodup : (reply.map NodeState.name).Nodup :=
    (hreply.map NodeState.name).nodup_iff.2 (nodup_localState htable)
  rcases own_of_reply envX onJoin onLeave hnodup hmem hname hpos hnamed with
    ⟨halive, hdominant⟩ | ⟨hnot, hdominant, hqueued⟩
  · rw [RegainsPlace, hdominant]
    exact ⟨hD, Or.inl ⟨r, hr, halive, rfl⟩⟩
  · have hsame := hkept.resolve_left hnot
    rw [← hsame] at hlast ⊢
    have hlt : r.dominant < objection 1 r.dominant := lt_objection hlast
    have hknown : y'.knownDominant envX.conf.name = r.dominant := knownDominant_of_some hr
    have hbehind : Behind envY (selfState envX (objection 1 r.dominant)) y' :=
      ⟨htable, hrun ▸ grounded_run hvalid, hrun ▸ pending_run hvalid, hknown.symm ▸ hlt⟩
    rw [RegainsPlace, hdominant]
    refine ⟨UInt64.le_of_lt hlt, Or.inr ⟨_, hqueued, rfl, rfl, hlt, ?_⟩⟩
    intro fs hvfs hnone needBc
    exact hbehind.exists_adopts rfl hvfs hnone needBc

/-- The seed has buried `x:1` at dominant 4. -/
theorem regainsPlace_of_dead :
    let es : List Event :=
      [.join, .message (news "x:1" 4 .alive "x:1") true, .message (news "x:1" 4 .dead "c:1") true]
    let x := joined joinerEnv false false
    let y := run (Gossiper.step sampleEnv) fresh es
    let y' := y.merge sampleEnv true x.localState
    RegainsPlace joinerEnv sampleEnv (y.knownDominant "x:1")
      (x.merge joinerEnv false y'.localState) y' :=
  regainsPlace_exchange joinerEnv sampleEnv _ (by decide) (by decide) false false _ _
    (exchange_localState joinerEnv sampleEnv _ _)

end Gossiper

end CppGossip
