import CppGossip.Peer.Invariant

/-!
# Suspicions and suspect records

`suspectNode` says of a record it finds without a suspicion that it cannot be
suspect, and indeed a suspect record always has its suspicion. The converse
fails when the suspicion was opened by the timeout of a ping: the timeout is
bound to the record of the node probed, which says alive, and it is this record
that `suspectNode` writes back.
-/

namespace CppGossip

open Transition

namespace Peer

variable {p : Peer} {env : Env} {nodeNum : UInt32} {x : String}

/-- There is an open suspicion exactly when the record says suspect. -/
def Booked (p : Peer) : Prop :=
  p.suspicion.isSome ↔ ∃ r ∈ p.record, r.state = .suspect

instance (p : Peer) : Decidable p.Booked :=
  inferInstanceAs (Decidable (_ ↔ ∃ r ∈ p.record, r.state = .suspect))

/-- An accusation opens a suspicion. -/
def OpenedBy (p : Peer) (s : NodeState) : Prop :=
  p.Heeds s ∧ p.suspicion = none ∧ ∀ r ∈ p.record, r.state = .alive

instance (p : Peer) (s : NodeState) : Decidable (p.OpenedBy s) :=
  inferInstanceAs (Decidable (_ ∧ _ ∧ ∀ r ∈ p.record, r.state = .alive))

/-- The open suspicion, if there is one, was opened by a SUSPECT message. -/
def Openly (p : Peer) : Prop := ∀ sus, p.suspicion = some sus → sus.accusation.state = .suspect

theorem openly_of_none (h : p.suspicion = none) : p.Openly := by
  intro sus hsus
  rw [h] at hsus
  cases hsus

theorem Openly.alive (h : p.Openly) (a : NodeState) (needBc : Bool) :
    (p.alive a needBc).Openly := by
  unfold Peer.alive
  split
  case isTrue =>
    cases needBc with
    | false => exact openly_of_none rfl
    | true => exact openly_of_none rfl
  case isFalse => exact h

theorem Openly.dead (h : p.Openly) (d : NodeState) : (p.dead d).Openly := by
  unfold Peer.dead
  split
  case isTrue =>
    dsimp only
    split
    case isTrue => exact openly_of_none rfl
    case isFalse => exact openly_of_none rfl
  case isFalse => exact h

theorem Openly.count (h : p.Openly) {sus : Suspicion} (hsus : p.suspicion = some sus)
    (s : NodeState) : (p.count s sus).Openly := by
  intro sus' hsus'
  rw [← Option.some.inj hsus', Suspicion.confirm_accusation]
  exact h sus hsus

theorem openly_suspect_iff (h : p.Openly) (s : NodeState) :
    (p.suspect env nodeNum s).Openly ↔ (p.OpenedBy s → s.state = .suspect) := by
  unfold Peer.suspect
  by_cases hheeds : p.Heeds s
  · rw [if_pos hheeds]
    cases hsus : p.suspicion with
    | some sus =>
        have hkept : p.OpenedBy s → s.state = .suspect := by
          intro hopened
          have hnone : some sus = none := hsus.symm.trans hopened.2.1
          cases hnone
        refine iff_of_true ?_ hkept
        dsimp only
        split
        case isTrue => exact (h.count hsus s).dead _
        case isFalse => exact h.count hsus s
    | none =>
        by_cases halive : ∀ r ∈ p.record, r.state = .alive
        · have hopened : p.OpenedBy s := ⟨hheeds, hsus, halive⟩
          simp only [if_pos halive, hopened, true_imp_iff]
          constructor
          · intro hopenly
            exact hopenly _ rfl
          · intro hs sus' hsus'
            rw [← Option.some.inj hsus']
            exact hs
        · simp only [if_neg halive]
          exact iff_of_true h fun hopened => absurd hopened.2.2 halive
  · rw [if_neg hheeds]
    exact iff_of_true h fun hopened => absurd hopened.1 hheeds

/-- A ping times out and the suspicion it opens is not of a SUSPECT message. -/
def TimedOut (x : String) (p : Peer) : Event → Prop
  | .probeTimeout s => s.name = x ∧ p.OpenedBy s
  | _ => False

theorem openly_step_iff (h : p.Openly) {e : Event}
    (he : ∀ s, e = .probeTimeout s → s.state = .alive) :
    (p.step env x nodeNum e).Openly ↔ ¬ TimedOut x p e := by
  have hcases := brought env x nodeNum p e
  generalize p.step env x nodeNum e = p' at hcases
  cases hcases with
  | nothing e habout =>
      apply iff_of_true h
      cases e with
      | probeTimeout s => exact fun htimed => habout (congrArg some htimed.1)
      | _ => exact id
  | alive a needBc _ _ => exact iff_of_true (h.alive a needBc) id
  | suspect s needBc _ hs => exact iff_of_true ((openly_suspect_iff h s).2 fun _ => hs) id
  | timeout s hname =>
      have hs : s.state ≠ .suspect := by
        rw [he s rfl]
        decide
      rw [openly_suspect_iff h]
      constructor
      · intro himp htimed
        exact hs (himp htimed.2)
      · intro hnot hopened
        exact absurd ⟨hname, hopened⟩ hnot
  | dead d needBc _ _ => exact iff_of_true (h.dead d) id
  | convicted s _ => exact iff_of_true (h.dead _) id

theorem openly_next_iff (h : p.Openly) {e : Event}
    (he : ∀ s, e = .probeTimeout s → s.state = .alive) {p' : Peer}
    (hnext : Next env x nodeNum p e p') : p'.Openly ↔ ¬ TimedOut x p e := by
  cases hnext with
  | handled => exact openly_step_iff h he
  | sent habout =>
      apply iff_of_true h
      cases e with
      | probeTimeout s => cases habout
      | _ => exact id

theorem booked_iff_openly (h : p.Sound) : p.Booked ↔ p.Openly := by
  constructor
  · intro hbooked sus hsus
    obtain ⟨r, hr, hs⟩ := hbooked.1 (by simp [hsus])
    have heq : some r = some { sus.accusation with timestamp := 0 } :=
      hr.symm.trans (h.accused sus hsus)
    rw [Option.some.inj heq] at hs
    exact hs
  · intro hopenly
    constructor
    · intro hsome
      obtain ⟨sus, hsus⟩ := Option.isSome_iff_exists.1 hsome
      exact ⟨_, h.accused sus hsus, hopenly sus hsus⟩
    · rintro ⟨r, hr, hs⟩
      exact Option.isSome_iff_ne_none.2 (h.suspected r hr hs)

end Peer

namespace Gossiper

variable {env : Env} {g : Gossiper}

/-- Every suspicion of another node has its suspect record, and conversely. -/
def Booked (env : Env) (g : Gossiper) : Prop :=
  ∀ x, x ≠ env.conf.name →
    (x ∈ g.suspicions ↔ ∃ r, g.getNodeState x = some r ∧ r.state = .suspect)

/-- The timeout of a ping opens a suspicion: the node probed is still recorded
alive, at the same dominant, and no suspicion of it is open. -/
def TimeoutOpens (g : Gossiper) : Event → Prop
  | .probeTimeout s => g.Heeds s ∧ s.name ∉ g.suspicions ∧ ∀ r ∈ g.getNodeState s.name, r.state = .alive
  | _ => False

instance TimeoutOpens.decidable (g : Gossiper) : ∀ e, Decidable (g.TimeoutOpens e)
  | .probeTimeout s =>
      inferInstanceAs (Decidable (g.Heeds s ∧ s.name ∉ g.suspicions ∧
        ∀ r ∈ g.getNodeState s.name, r.state = .alive))
  | .registerNotifier _ _ | .join | .message _ _ | .probe _ | .deadAlert _ _ _ | .conviction _
  | .batch _ _ => inferInstanceAs (Decidable False)

theorem booked_iff_openly (h : Kept env g) :
    g.Booked env ↔ ∀ x, x ≠ env.conf.name → (g.peer x).Openly := by
  refine forall_congr' fun x => forall_congr' fun hx => ?_
  rw [← Peer.booked_iff_openly (h.sound x hx), ← AList.lookup_isSome]
  rfl

theorem timeoutOpens_iff (h : Kept env g) {e : Event} (he : g.Enabled e) :
    g.TimeoutOpens e ↔ ∃ x, x ≠ env.conf.name ∧ Peer.TimedOut x (g.peer x) e := by
  cases e with
  | probeTimeout s =>
      constructor
      · rintro ⟨hheeds, hnone, halive⟩
        have hopened : (g.peer s.name).OpenedBy s :=
          ⟨hheeds, AList.lookup_eq_none.2 hnone, halive⟩
        exact ⟨s.name, (h.pinged s he).2, rfl, hopened⟩
      · rintro ⟨x, _, rfl, hopened⟩
        exact ⟨hopened.1, AList.lookup_eq_none.1 hopened.2.1, hopened.2.2⟩
  | _ => exact iff_of_false id fun ⟨_, _, hfalse⟩ => hfalse

theorem booked_step_iff (h : Kept env g) (hbooked : g.Booked env) {e : Event}
    (he : g.Enabled e) : (g.step env e).Booked env ↔ ¬ g.TimeoutOpens e := by
  have hopenly := (booked_iff_openly h).1 hbooked
  have hpinged : ∀ s, e = .probeTimeout s → s.state = .alive := by
    rintro s rfl
    exact (h.pinged s he).1
  rw [booked_iff_openly (h.step he), timeoutOpens_iff h he, not_exists]
  refine forall_congr' fun x => ?_
  rw [not_and]
  exact forall_congr' fun hx =>
    Peer.openly_next_iff (hopenly x hx) hpinged (peer_step h.toTabled hx he)

/-- The books are kept in every state of a run exactly when no timeout of a ping
opens a suspicion. -/
theorem booked_throughout_iff (env : Env) (es : List Event) (hv : Valid env fresh es) :
    Throughout (Gossiper.step env) (Booked env) fresh es ↔
      Along (Gossiper.step env) (fun g e => ¬ g.TimeoutOpens e) fresh es := by
  have hfresh : Booked env fresh := by
    intro x _
    simp [fresh, getNodeState]
  exact throughout_iff_along (I := Kept env) (fun _ _ h he => h.step he)
    (fun _ _ h hbooked he => booked_step_iff h hbooked he) kept_fresh hfresh hv

theorem booked_of_suspect :
    Throughout (Gossiper.step sampleEnv) (Booked sampleEnv) fresh
      [.join, .message (news "b:1" 1 .alive "b:1") true,
        .message (news "b:1" 1 .suspect "c:1") true] :=
  (booked_throughout_iff sampleEnv _ (by decide)).2 (by decide)

/-- A ping to `b:1` times out: its suspicion is open and its record says alive. -/
theorem not_booked_of_probeTimeout :
    let es : List Event :=
      [.join, .message (news "b:1" 1 .alive "b:1") true, .probe 1,
        .probeTimeout (news "b:1" 1 .alive "b:1")]
    Valid sampleEnv fresh es ∧ ¬ Booked sampleEnv (run (Gossiper.step sampleEnv) fresh es) := by
  refine ⟨by decide, ?_⟩
  intro hbooked
  obtain ⟨r, hr, hs⟩ := (hbooked "b:1" (by decide)).1 (by decide)
  cases hr
  cases hs

end Gossiper

end CppGossip
