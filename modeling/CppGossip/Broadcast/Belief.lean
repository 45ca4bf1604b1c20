import CppGossip.Peer.Invariant

/-!
# What is believed and what is spread

A message about another node is pushed when its record is changed, and the
record is then what the message says. The message pushed is the greatest one
the queue has seen about that node, since what was queued was no greater than
the record. Only an accusation counted in a suspicion that is already open is
pushed without the record being changed. Such an accusation may be greater than
the record, and it then stands in the way of what is pushed later.
-/

namespace CppGossip

open Collection Transition BroadcastQueue

namespace Peer

variable {p : Peer} {m s r : NodeState} {env : Env} {nodeNum : UInt32} {x : String}

/-- What is queued about the peer is no greater than its record. -/
def Backed (p : Peer) : Prop :=
  ∀ q, p.queued = some q → ∃ r, p.record = some r ∧ q.precedence ≤ r.precedence

/-- If the precedence of the record has changed, that is what is queued. -/
def Spread (p p' : Peer) : Prop :=
  p'.record.map NodeState.precedence ≠ p.record.map NodeState.precedence →
    ∃ r q, p'.record = some r ∧ p'.queued = some q ∧ q.precedence = r.precedence

theorem spread_of_record_eq {p p' : Peer} (h : p'.record = p.record) : p.Spread p' :=
  fun hne => absurd (congrArg (Option.map NodeState.precedence) h) hne

theorem precedence_le_of_heeds (hr : p.record = some r) (hheeds : p.Heeds m)
    (hstate : r.state ≤ m.state) : r.precedence ≤ m.precedence := by
  have hle : r.dominant ≤ m.dominant := by simpa [Heeds, hr] using hheeds
  rw [NodeState.precedence_le_iff]
  rcases UInt64.lt_or_eq_of_le hle with hlt | heq
  · exact Or.inl hlt
  · exact Or.inr ⟨heq, hstate⟩

/-- A message no less than the record is stored and pushed. -/
theorem Backed.push_store (h : p.Backed) (hr : ∀ r, p.record = some r → r.precedence ≤ m.precedence) :
    ((p.store m).push m).Backed := by
  intro q hq
  refine ⟨{ m with timestamp := 0 }, rfl, ?_⟩
  rw [← Option.some.inj hq]
  refine (precedence_kept_le_iff m p.queued m.precedence).2 ⟨le_rfl, ?_⟩
  intro old hold
  obtain ⟨r, hrecord, hle⟩ := h old hold
  exact hle.trans (hr r hrecord)

theorem Backed.spread_push_store (h : p.Backed)
    (hr : ∀ r, p.record = some r → r.precedence ≤ m.precedence) :
    p.Spread ((p.store m).push m) := by
  intro hne
  refine ⟨{ m with timestamp := 0 }, m, rfl, ?_, rfl⟩
  refine congrArg some (kept_eq_self ?_)
  intro old hold
  obtain ⟨r, hrecord, hle⟩ := h old hold
  refine lt_of_le_of_lt hle (lt_of_le_of_ne (hr r hrecord) ?_)
  intro heq
  apply hne
  rw [hrecord]
  exact congrArg some heq.symm

/-- A step keeps faith: what is queued is believed, and a new belief is queued. -/
def Faithful (p p' : Peer) : Prop := p'.Backed ∧ p.Spread p'

theorem Backed.faithful_self (h : p.Backed) : p.Faithful p := ⟨h, spread_of_record_eq rfl⟩

theorem Backed.faithful_alive (h : p.Backed) (a : NodeState) : p.Faithful (p.alive a true) := by
  unfold Peer.alive
  split
  case isTrue hlt =>
    have hle : ∀ r, p.record = some r → r.precedence ≤ a.precedence := by
      intro r hr
      have hknown : p.known = r.dominant := by simp [known, hr]
      exact (NodeState.precedence_le_iff r a).2 (Or.inl (hknown ▸ hlt))
    exact ⟨h.push_store hle, h.spread_push_store hle⟩
  case isFalse => exact h.faithful_self

theorem Backed.faithful_dead (h : p.Backed) (hsound : p.Sound) {d : NodeState}
    (hd : d.state = .dead) : p.Faithful (p.dead d) := by
  unfold Peer.dead
  split
  case isTrue hheeds =>
    dsimp only
    split
    case isTrue => exact ⟨h, spread_of_record_eq rfl⟩
    case isFalse =>
      have hle : ∀ r, p.record = some r → r.precedence ≤ d.precedence := by
        intro r hr
        apply precedence_le_of_heeds hr hheeds
        rw [hd]
        exact (hsound.named r hr).le_dead
      exact ⟨h.push_store hle, h.spread_push_store hle⟩
  case isFalse => exact h.faithful_self

/-- An accusation is passed on which the record is behind: it is counted in an
open suspicion and does not complete its quorum. -/
def Outrun (p : Peer) (s : NodeState) : Prop :=
  p.Heeds s ∧ (∃ sus, p.suspicion = some sus ∧ (sus.confirm s.from_).1 = false) ∧
    ∀ r ∈ p.record, r.precedence < s.precedence

/-- Passing an accusation on keeps faith unless the record is behind it. -/
theorem Backed.faithful_pass_iff (h : p.Backed) (hheeds : p.Heeds s) {sus : Suspicion}
    (hsus : p.suspicion = some sus) (hquorum : (sus.confirm s.from_).1 = false) :
    p.Faithful ((p.count s sus).push s) ↔ ¬ p.Outrun s := by
  have hspread : p.Spread ((p.count s sus).push s) := spread_of_record_eq rfl
  obtain ⟨r, hr, hle⟩ := hheeds
  have hout : p.Outrun s ↔ r.precedence < s.precedence := by
    constructor
    · exact fun hout => hout.2.2 r hr
    · intro hlt
      refine ⟨⟨r, hr, hle⟩, ⟨sus, hsus, hquorum⟩, ?_⟩
      intro r' hr'
      rwa [Option.some.inj (hr'.symm.trans hr)]
  have hold : ∀ q ∈ p.queued, q.precedence ≤ r.precedence := by
    intro q hq
    obtain ⟨r', hr', hle'⟩ := h q hq
    rwa [Option.some.inj (hr'.symm.trans hr)] at hle'
  rw [hout, not_lt]
  constructor
  · intro hfaithful
    obtain ⟨r', hr', hle'⟩ := hfaithful.1 _ rfl
    rw [Option.some.inj (hr'.symm.trans hr)] at hle'
    exact ((precedence_kept_le_iff s p.queued _).1 hle').1
  · intro hle'
    refine ⟨?_, hspread⟩
    intro q hq
    refine ⟨r, hr, ?_⟩
    rw [← Option.some.inj hq]
    exact (precedence_kept_le_iff s p.queued _).2 ⟨hle', hold⟩

theorem Backed.faithful_suspect_iff (h : p.Backed) (hsound : p.Sound) (hs : .alive ≤ s.state) :
    p.Faithful (p.suspect env nodeNum s) ↔ ¬ p.Outrun s := by
  unfold Peer.suspect
  by_cases hheeds : p.Heeds s
  · rw [if_pos hheeds]
    cases hsus : p.suspicion with
    | some sus =>
        dsimp only
        cases hquorum : (sus.confirm s.from_).1 with
        | true =>
            rw [if_pos rfl]
            apply iff_of_true
            · have hcount : (p.count s sus).Backed := h
              exact hcount.faithful_dead (hsound.count hsus s) rfl
            · rintro ⟨_, ⟨sus', hsus', hnot⟩, _⟩
              cases hsus.symm.trans hsus'
              cases hquorum.symm.trans hnot
        | false =>
            rw [if_neg Bool.false_ne_true]
            exact h.faithful_pass_iff hheeds hsus hquorum
    | none =>
        dsimp only
        apply iff_of_true
        · split
          case isTrue halive =>
            have hle : ∀ r, p.record = some r → r.precedence ≤ s.precedence := by
              intro r hr
              exact precedence_le_of_heeds hr hheeds ((halive r hr).le.trans hs)
            exact ⟨h.push_store hle, h.spread_push_store hle⟩
          case isFalse => exact h.faithful_self
        · rintro ⟨_, ⟨sus, hsus', _⟩, _⟩
          cases hsus.symm.trans hsus'
  · rw [if_neg hheeds]
    exact iff_of_true h.faithful_self fun hout => hheeds hout.1

/-- The event passes on an accusation of `x` that its record is behind. -/
def OutrunBy (x : String) (p : Peer) : Event → Prop
  | .message s _ => s.name = x ∧ s.state = .suspect ∧ p.Outrun s
  | .probeTimeout s => s.name = x ∧ p.Outrun s
  | _ => False

/-- The event merges its message with `need_bc` true. -/
def Broadcasts : Event → Prop
  | .message _ needBc => needBc = true
  | _ => True

instance Broadcasts.decidable : ∀ e, Decidable (Broadcasts e)
  | .message _ needBc => inferInstanceAs (Decidable (needBc = true))
  | .registerNotifier _ _ | .join | .probe _ | .probeTimeout _ | .deadAlert _ _ _ | .conviction _
  | .batch _ _ => inferInstanceAs (Decidable True)

theorem not_outrunBy_of_about_ne {e : Event} (h : about e ≠ some x) : ¬ OutrunBy x p e := by
  intro hout
  cases e with
  | message s needBc =>
      obtain ⟨hname, hs, _⟩ := hout
      exact h (by simp [about, hs, hname])
  | probeTimeout s => exact h (congrArg some hout.1)
  | _ => exact hout

theorem Backed.faithful_next_iff (h : p.Backed) (hsound : p.Sound) {e : Event}
    (he : ∀ s, e = .probeTimeout s → s.state = .alive) (hbc : Broadcasts e) {p' : Peer}
    (hnext : Next env x nodeNum p e p') : p.Faithful p' ↔ ¬ OutrunBy x p e := by
  cases hnext with
  | sent habout =>
      refine iff_of_true ?_ (not_outrunBy_of_about_ne (by simp [habout]))
      refine ⟨?_, spread_of_record_eq rfl⟩
      intro q hq
      cases hq
  | handled =>
      have hcases := brought env x nodeNum p e
      generalize p.step env x nodeNum e = p' at hcases
      cases hcases with
      | nothing e habout => exact iff_of_true h.faithful_self (not_outrunBy_of_about_ne habout)
      | alive a needBc _ ha =>
          have hneed : needBc = true := hbc
          refine iff_of_true (hneed ▸ h.faithful_alive a) ?_
          intro hout
          exact absurd (ha.symm.trans hout.2.1) (by decide)
      | suspect s needBc hname hs =>
          have hle : .alive ≤ s.state := by
            rw [hs]
            decide
          rw [h.faithful_suspect_iff hsound hle]
          exact not_congr ⟨fun hout => ⟨hname, hs, hout⟩, fun hout => hout.2.2⟩
      | timeout s hname =>
          rw [h.faithful_suspect_iff hsound (he s rfl).ge]
          exact not_congr ⟨fun hout => ⟨hname, hout⟩, And.right⟩
      | dead d needBc _ hd =>
          refine iff_of_true (h.faithful_dead hsound hd) ?_
          intro hout
          exact absurd (hd.symm.trans hout.2.1) (by decide)
      | convicted s _ => exact iff_of_true (h.faithful_dead hsound rfl) id

end Peer

namespace Gossiper

variable {env : Env} {g : Gossiper}

/-- After the step nothing is queued about another node that is greater than its
record, and where the step has changed the dominant or the state of a record
that is what is queued. -/
def SpreadsBelief (env : Env) (g : Gossiper) (e : Event) : Prop :=
  ∀ x, x ≠ env.conf.name →
    (∀ q, (g.step env e).bcQueue.message x = some q →
      ∃ r, (g.step env e).getNodeState x = some r ∧ q.precedence ≤ r.precedence) ∧
    (((g.step env e).getNodeState x).map NodeState.precedence ≠
        (g.getNodeState x).map NodeState.precedence →
      ∃ r q, (g.step env e).getNodeState x = some r ∧
        (g.step env e).bcQueue.message x = some q ∧ q.precedence = r.precedence)

/-- The accusation `s` is heeded and counted in the open suspicion of the node it
names, does not complete its quorum, and is greater than the record. -/
def Outruns (g : Gossiper) (s : NodeState) : Prop :=
  g.Heeds s ∧ (∃ sus ∈ g.suspicions.lookup s.name, (sus.confirm s.from_).1 = false) ∧
    ∀ r ∈ g.getNodeState s.name, r.precedence < s.precedence

instance (g : Gossiper) (s : NodeState) : Decidable (g.Outruns s) :=
  inferInstanceAs (Decidable (_ ∧ (∃ sus ∈ g.suspicions.lookup s.name, _) ∧
    ∀ r ∈ g.getNodeState s.name, _))

/-- The event passes on an accusation of another node greater than its record. -/
def OutrunBy (env : Env) (g : Gossiper) : Event → Prop
  | .message s _ => s.name ≠ env.conf.name ∧ s.state = .suspect ∧ g.Outruns s
  | .probeTimeout s => s.name ≠ env.conf.name ∧ g.Outruns s
  | _ => False

instance OutrunBy.decidable (env : Env) (g : Gossiper) : ∀ e, Decidable (g.OutrunBy env e)
  | .message _ _ | .probeTimeout _ => inferInstanceAs (Decidable (_ ∧ _))
  | .registerNotifier _ _ | .join | .probe _ | .deadAlert _ _ _ | .conviction _ | .batch _ _ =>
      inferInstanceAs (Decidable False)

theorem outrunBy_iff {e : Event} :
    g.OutrunBy env e ↔ ∃ x, x ≠ env.conf.name ∧ Peer.OutrunBy x (g.peer x) e := by
  cases e with
  | message s needBc =>
      constructor
      · rintro ⟨hother, hs, hout⟩
        exact ⟨s.name, hother, rfl, hs, hout⟩
      · rintro ⟨x, hother, rfl, hs, hout⟩
        exact ⟨hother, hs, hout⟩
  | probeTimeout s =>
      constructor
      · rintro ⟨hother, hout⟩
        exact ⟨s.name, hother, rfl, hout⟩
      · rintro ⟨x, hother, rfl, hout⟩
        exact ⟨hother, hout⟩
  | _ => exact iff_of_false id fun ⟨_, _, hfalse⟩ => hfalse

theorem spreadsBelief_iff_faithful {e : Event} :
    g.SpreadsBelief env e ↔
      ∀ x, x ≠ env.conf.name → (g.peer x).Faithful ((g.step env e).peer x) := Iff.rfl

theorem spreadsBelief_iff (h : Kept env g)
    (hbacked : ∀ x, x ≠ env.conf.name → (g.peer x).Backed) {e : Event} (he : g.Enabled e)
    (hbc : Peer.Broadcasts e) : g.SpreadsBelief env e ↔ ¬ g.OutrunBy env e := by
  have hpinged : ∀ s, e = .probeTimeout s → s.state = .alive := by
    rintro s rfl
    exact (h.pinged s he).1
  rw [spreadsBelief_iff_faithful, outrunBy_iff, not_exists]
  refine forall_congr' fun x => ?_
  rw [not_and]
  exact forall_congr' fun hx =>
    (hbacked x hx).faithful_next_iff (h.sound x hx) hpinged hbc (peer_step h.toTabled hx he)

/-- In a run that merges with `need_bc` true every step spreads what is believed
exactly when no step passes on an accusation greater than the record. -/
theorem spreadsBelief_along_iff (env : Env) (es : List Event) (hv : Valid env fresh es)
    (hbc : ∀ e ∈ es, Peer.Broadcasts e) :
    Along (Gossiper.step env) (SpreadsBelief env) fresh es ↔
      Along (Gossiper.step env) (fun g e => ¬ g.OutrunBy env e) fresh es := by
  have hfresh : ∀ x, x ≠ env.conf.name → (fresh.peer x).Backed := by
    intro x _ q hq
    cases hq
  have hboth := (along_and _ _ _ _).2 ⟨hv, (along_iff_forall_mem Peer.Broadcasts fresh es).2 hbc⟩
  refine along_iff_along
    (I := fun g => Kept env g ∧ ∀ x, x ≠ env.conf.name → (g.peer x).Backed)
    ?_ ?_ ⟨kept_fresh, hfresh⟩ hboth
  · intro g e h he hspreads
    exact ⟨h.1.step he.1, fun x hx => (hspreads x hx).1⟩
  · intro g e h he
    exact spreadsBelief_iff h.1 h.2 he.1 he.2

/-- A second accusation of `b:1`, at the dominant recorded, is passed on. -/
theorem spreadsBelief_of_suspect_suspect :
    Along (Gossiper.step sampleEnv) (SpreadsBelief sampleEnv) fresh
      [.join, .message (news "b:1" 1 .alive "b:1") true,
        .message (news "c:1" 1 .alive "c:1") true, .message (news "d:1" 1 .alive "d:1") true,
        .message (news "b:1" 1 .suspect "c:1") true, .message (news "b:1" 1 .suspect "d:1") true] :=
  (spreadsBelief_along_iff sampleEnv _ (by decide) (by decide)).2 (by decide)

/-- A second accusation of `b:1`, at a greater dominant, is queued and not
recorded, and the conviction at the dominant recorded is then rejected. -/
theorem not_spreadsBelief_of_suspect_suspect :
    let es : List Event :=
      [.join, .message (news "b:1" 1 .alive "b:1") true,
        .message (news "c:1" 1 .alive "c:1") true, .message (news "d:1" 1 .alive "d:1") true,
        .message (news "b:1" 1 .suspect "c:1") true, .message (news "b:1" 5 .suspect "d:1") true,
        .conviction (news "b:1" 1 .suspect "c:1")]
    let g := run (Gossiper.step sampleEnv) fresh es
    Valid sampleEnv fresh es ∧ (∀ e ∈ es, Peer.Broadcasts e) ∧
      (g.getNodeState "b:1").map NodeState.precedence = some (toLex (1, .dead)) ∧
      (g.bcQueue.message "b:1").map NodeState.precedence = some (toLex (5, .suspect)) ∧
      ¬ Along (Gossiper.step sampleEnv) (SpreadsBelief sampleEnv) fresh es := by
  refine ⟨by decide, by decide, by decide, by decide, ?_⟩
  intro h
  obtain ⟨r, hr, hle⟩ := (h.2.2.2.2.2.1 "b:1" (by decide)).1 _ rfl
  cases hr
  exact absurd hle (by decide)

end Gossiper

end CppGossip
