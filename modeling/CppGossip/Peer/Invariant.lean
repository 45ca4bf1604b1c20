import CppGossip.Peer.State

/-!
# What is always true of a peer

An open suspicion was opened by overwriting the record with the accusation, and
whatever overwrites the record afterwards closes it. So as long as a suspicion
is open the record is its accusation, and a record that says suspect has a
suspicion open. No accusation is ever ahead of the record.
-/

namespace CppGossip

open Transition

namespace Peer

/-- The record, the suspicion and the past accusations of a peer agree. -/
structure Sound (p : Peer) : Prop where
  accused : ∀ sus, p.suspicion = some sus → p.record = some { sus.accusation with timestamp := 0 }
  up : ∀ sus, p.suspicion = some sus → sus.accusation.state ≠ .dead
  pending : ∀ sus, p.suspicion = some sus → sus.accusation ∈ p.accusations
  suspected : ∀ r, p.record = some r → r.state = .suspect → p.suspicion ≠ none
  bounded : ∀ s ∈ p.accusations, s.dominant ≤ p.known
  named : ∀ r, p.record = some r → r.state.Named

variable {p : Peer} {env : Env} {nodeNum : UInt32} {x : String}

theorem Heeds.known_le {m : NodeState} (h : p.Heeds m) : p.known ≤ m.dominant := by
  obtain ⟨r, hr, hle⟩ := h
  rw [known, hr]
  exact hle

/-- A record whose dominant is raised is ahead of all that was accused before. -/
theorem Sound.bounded_of_le (h : p.Sound) {n : UInt64} (hn : p.known ≤ n) :
    ∀ s ∈ p.accusations, s.dominant ≤ n :=
  fun s hs => UInt64.le_trans (h.bounded s hs) hn

/-- What is queued has no part in it. -/
theorem Sound.queue (h : p.Sound) (q : Option NodeState) : Sound { p with queued := q } :=
  ⟨h.accused, h.up, h.pending, h.suspected, h.bounded, h.named⟩

theorem Sound.alive (h : p.Sound) {a : NodeState} (ha : a.state = .alive) (needBc : Bool) :
    (p.alive a needBc).Sound := by
  unfold Peer.alive
  split
  case isTrue hlt =>
    have hcleared : Sound { p.store a with suspicion := none } := by
      refine ⟨by simp, by simp, by simp, ?_, h.bounded_of_le (UInt64.le_of_lt hlt), ?_⟩
      · intro r hr hs
        rw [← Option.some.inj hr] at hs
        exact absurd (ha.symm.trans hs) (by decide)
      · intro r hr
        rw [← Option.some.inj hr]
        exact Or.inl ha
    cases needBc with
    | false => exact hcleared
    | true => exact hcleared.queue _
  case isFalse => exact h

theorem Sound.dead (h : p.Sound) {d : NodeState} (hd : d.state = .dead) : (p.dead d).Sound := by
  unfold Peer.dead
  split
  case isTrue hheeds =>
    dsimp only
    split
    case isTrue hdown =>
      refine ⟨by simp, by simp, by simp, ?_, h.bounded, h.named⟩
      intro r hr hs
      exact absurd (hs.symm.trans (hdown r hr)) (by decide)
    case isFalse =>
      refine ⟨by simp [push, store], by simp [push, store], by simp [push, store], ?_,
        h.bounded_of_le hheeds.known_le, ?_⟩
      · intro r hr hs
        rw [← Option.some.inj hr] at hs
        exact absurd (hd.symm.trans hs) (by decide)
      · intro r hr
        rw [← Option.some.inj hr]
        exact Or.inr (Or.inr hd)
  case isFalse => exact h

theorem Sound.count (h : p.Sound) {sus : Suspicion} (hsus : p.suspicion = some sus)
    (s : NodeState) : (p.count s sus).Sound where
  accused sus' hsus' := by
    rw [← Option.some.inj hsus', Suspicion.confirm_accusation]
    exact h.accused sus hsus
  up sus' hsus' := by
    rw [← Option.some.inj hsus', Suspicion.confirm_accusation]
    exact h.up sus hsus
  pending sus' hsus' := by
    rw [← Option.some.inj hsus', Suspicion.confirm_accusation]
    exact h.pending sus hsus
  suspected _ _ _ := Option.some_ne_none _
  bounded := h.bounded
  named := h.named

theorem Sound.suspect (h : p.Sound) {s : NodeState} (hs : s.state = .alive ∨ s.state = .suspect) :
    (p.suspect env nodeNum s).Sound := by
  unfold Peer.suspect
  split
  case isTrue hheeds =>
    cases hsus : p.suspicion with
    | some sus =>
        dsimp only
        split
        case isTrue => exact (h.count hsus s).dead rfl
        case isFalse => exact (h.count hsus s).queue _
    | none =>
        dsimp only
        split
        case isTrue =>
          refine ⟨?_, ?_, ?_, fun _ _ _ => Option.some_ne_none _, ?_, ?_⟩
          · intro sus hsus
            rw [← Option.some.inj hsus]
            rfl
          · intro sus hsus
            rw [← Option.some.inj hsus, Suspicion.new_accusation]
            rcases hs with hs | hs
            · rw [hs]
              decide
            · rw [hs]
              decide
          · intro sus hsus
            rw [← Option.some.inj hsus]
            exact List.mem_cons_self
          · intro t ht
            rcases List.mem_cons.1 ht with rfl | ht
            · exact UInt64.le_refl _
            · exact h.bounded_of_le hheeds.known_le t ht
          · intro r hr
            rw [← Option.some.inj hr]
            exact hs.imp_right Or.inl
        case isFalse => exact h
  case isFalse => exact h

theorem Sound.step (h : p.Sound) {e : Event} (he : ∀ s, e = .probeTimeout s → s.state = .alive) :
    (p.step env x nodeNum e).Sound := by
  have hcases := brought env x nodeNum p e
  generalize p.step env x nodeNum e = p' at hcases
  cases hcases with
  | nothing _ _ => exact h
  | alive a needBc _ ha => exact h.alive ha needBc
  | suspect s needBc _ hs => exact h.suspect (Or.inr hs)
  | timeout s _ => exact h.suspect (Or.inl (he s rfl))
  | dead d needBc _ hd => exact h.dead hd
  | convicted s _ => exact h.dead rfl

theorem Sound.next (h : p.Sound) {e : Event} (he : ∀ s, e = .probeTimeout s → s.state = .alive)
    {p' : Peer} (hnext : Next env x nodeNum p e p') : p'.Sound := by
  cases hnext with
  | handled => exact h.step he
  | sent => exact h.queue none

end Peer

namespace Gossiper

variable {env : Env} {g : Gossiper}

/-- The table is kept and every other node is soundly recorded. -/
structure Kept (env : Env) (g : Gossiper) : Prop extends Tabled env g where
  sound : ∀ x, x ≠ env.conf.name → (g.peer x).Sound

theorem kept_fresh : Kept env fresh where
  toTabled := tabled_fresh
  sound x _ := by
    refine ⟨?_, ?_, ?_, ?_, ?_, ?_⟩ <;> simp [peer, fresh, getNodeState]

theorem Kept.step (h : Kept env g) {e : Event} (he : g.Enabled e) : Kept env (g.step env e) where
  toTabled := h.toTabled.step e he
  sound x hx := by
    refine (h.sound x hx).next ?_ (peer_step h.toTabled hx he)
    rintro s rfl
    exact (h.pinged s he).1

theorem kept_run {es : List Event} (hv : Valid env fresh es) :
    Kept env (run (Gossiper.step env) fresh es) :=
  hv.invariant (fun _ _ h he => h.step he) kept_fresh

end Gossiper

end CppGossip
