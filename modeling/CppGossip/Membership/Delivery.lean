import CppGossip.Order.Register
import CppGossip.Peer.Invariant

/-!
# Delivery of news about another node

The record of another node is a register that hears ALIVE and DEAD messages,
ordered by precedence. It would be the greatest of what it has heard, in
whatever order, but for one thing: `deadNode` leaves a record that is dead as
it is, whatever the dominant of the report. The register that results is the
one of `Register.absorb` with the dead values closed.
-/

namespace CppGossip

open Collection Transition

/-- The precedence of a report of a death. -/
def Deadly (k : ℕ ×ₗ Message.State) : Prop := (ofLex k).2 = .dead

instance : DecidablePred Deadly := fun k => inferInstanceAs (Decidable ((ofLex k).2 = .dead))

namespace NodeState

theorem deadly_precedence (m : NodeState) : Deadly m.precedence ↔ m.state = .dead := Iff.rfl

end NodeState

namespace Peer

variable {p : Peer} {r m : NodeState} {env : Env} {nodeNum : UInt32}

/-- `p` has a record of precedence `k`, in a state that has a name. -/
def Records (p : Peer) (k : ℕ ×ₗ Message.State) : Prop :=
  ∃ r, p.record = some r ∧ r.precedence = k ∧ r.state.Named

theorem records_alive (hr : p.record = some r) (hnamed : r.state.Named) (hm : m.state = .alive)
    (needBc : Bool) :
    (p.alive m needBc).Records (Register.absorb Deadly r.precedence m.precedence) := by
  have habsorb : Register.absorb Deadly r.precedence m.precedence =
      max r.precedence m.precedence := by
    refine if_neg fun h => ?_
    exact absurd (hm.symm.trans h.2) (by decide)
  have hknown : p.known = r.dominant := by simp [known, hr]
  rw [habsorb, Peer.alive, hknown]
  split
  case isTrue hlt =>
    have hle : r.precedence ≤ m.precedence := (NodeState.precedence_le_iff r m).2 (Or.inl hlt)
    rw [max_eq_right hle]
    cases needBc with
    | false => exact ⟨_, rfl, rfl, Or.inl hm⟩
    | true => exact ⟨_, rfl, rfl, Or.inl hm⟩
  case isFalse hnot =>
    have hle : m.precedence ≤ r.precedence := by
      rw [NodeState.precedence_le_iff, hm]
      rcases UInt64.lt_or_eq_of_le (UInt64.not_lt.mp hnot) with hlt | heq
      · exact Or.inl hlt
      · exact Or.inr ⟨heq, hnamed.alive_le⟩
    rw [max_eq_left hle]
    exact ⟨r, hr, rfl, hnamed⟩

theorem records_dead (hr : p.record = some r) (hnamed : r.state.Named) (hm : m.state = .dead) :
    (p.dead m).Records (Register.absorb Deadly r.precedence m.precedence) := by
  have hheeds : p.Heeds m ↔ r.dominant ≤ m.dominant := by simp [Heeds, hr]
  have hdown : p.Down ↔ r.state = .dead := by simp [Down, hr]
  unfold Peer.dead
  split
  case isTrue hle =>
    rw [hheeds] at hle
    dsimp only
    split
    case isTrue hdead =>
      have habsorb : Register.absorb Deadly r.precedence m.precedence = r.precedence :=
        if_pos ⟨hdown.1 hdead, hm⟩
      rw [habsorb]
      exact ⟨r, hr, rfl, hnamed⟩
    case isFalse hup =>
      have hprec : r.precedence ≤ m.precedence := by
        rw [NodeState.precedence_le_iff, hm]
        rcases UInt64.lt_or_eq_of_le hle with hlt | heq
        · exact Or.inl hlt
        · exact Or.inr ⟨heq, hnamed.le_dead⟩
      have habsorb : Register.absorb Deadly r.precedence m.precedence = m.precedence := by
        rw [Register.absorb, if_neg fun h => hup (hdown.2 h.1)]
        exact max_eq_right hprec
      rw [habsorb]
      exact ⟨_, rfl, rfl, Or.inr (Or.inr hm)⟩
  case isFalse hnot =>
    have hlt : m.dominant < r.dominant := UInt64.not_le.mp fun hle => hnot (hheeds.2 hle)
    have hprec : m.precedence ≤ r.precedence := (NodeState.precedence_le_iff m r).2 (Or.inl hlt)
    have habsorb : Register.absorb Deadly r.precedence m.precedence = r.precedence := by
      unfold Register.absorb
      split
      · rfl
      · exact max_eq_left hprec
    rw [habsorb]
    exact ⟨r, hr, rfl, hnamed⟩

end Peer

namespace Gossiper

variable {env : Env} {g : Gossiper} {x : String}

/-- The messages handled one after the other, each with its `need_bc`. -/
def deliver (env : Env) (g : Gossiper) (ms : List (NodeState × Bool)) : Gossiper :=
  run (Gossiper.step env) g (ms.map fun m => .message m.1 m.2)

/-- The precedences of the messages. -/
def precedences (ms : List (NodeState × Bool)) : List (ℕ ×ₗ Message.State) :=
  ms.map fun m => m.1.precedence

/-- The messages are reports that `x` is alive or dead. -/
def Reports (x : String) (ms : List (NodeState × Bool)) : Prop :=
  ∀ m ∈ ms, m.1.name = x ∧ (m.1.state = .alive ∨ m.1.state = .dead)

instance (x : String) (ms : List (NodeState × Bool)) : Decidable (Reports x ms) :=
  inferInstanceAs (Decidable (∀ m ∈ ms, _))

theorem deliver_append_singleton (ms : List (NodeState × Bool)) (m : NodeState × Bool) :
    g.deliver env (ms ++ [m]) = (g.deliver env ms).mergeState env m.2 m.1 := by
  rw [deliver, List.map_append, List.map_singleton, run_append_singleton]
  rfl

theorem records_mergeState (hx : x ≠ env.conf.name) {k : ℕ ×ₗ Message.State}
    (hk : (g.peer x).Records k) {m : NodeState} (needBc : Bool) (hname : m.name = x)
    (hm : m.state = .alive ∨ m.state = .dead) :
    ((g.mergeState env needBc m).peer x).Records (Register.absorb Deadly k m.precedence) := by
  obtain ⟨r, hr, rfl, hnamed⟩ := hk
  rcases hm with hm | hm
  · have hstay : ¬ (g.isLeaving ∧ m.name = env.conf.name) := fun h => hx (hname.symm.trans h.2)
    simp only [mergeState, hm, peer_aliveNode needBc hstay, if_pos hname]
    exact Peer.records_alive hr hnamed hm needBc
  · simp only [mergeState, hm, peer_deadNode hx, if_pos hname]
    exact Peer.records_dead hr hnamed hm

/-- The record is the register that has heard the messages. -/
theorem records_deliver (hx : x ≠ env.conf.name) {r : NodeState}
    (hr : g.getNodeState x = some r) (hnamed : r.state.Named) {ms : List (NodeState × Bool)}
    (hms : Reports x ms) :
    ((g.deliver env ms).peer x).Records
      ((precedences ms).foldl (Register.absorb Deadly) r.precedence) := by
  induction ms using List.reverseRecOn with
  | nil => exact ⟨r, hr, rfl, hnamed⟩
  | append_singleton ms m ih =>
      have hlast := hms m (by simp)
      have hinit : Reports x ms := fun n hn => hms n (by simp [hn])
      rw [deliver_append_singleton, precedences, List.map_append, List.map_singleton,
        List.foldl_append, List.foldl_cons, List.foldl_nil]
      exact records_mergeState hx (ih hinit) m.2 hlast.1 hlast.2

/-- The greatest of the record `r` and the messages is `r`, or some copy of it
is handled when it and the record of `x` do not both say dead. -/
def Heard (env : Env) (g : Gossiper) (x : String) (r : NodeState)
    (ms : List (NodeState × Bool)) : Prop :=
  r.precedence = Register.merge r.precedence (precedences ms) ∨
    ∃ p m q, ms = p ++ m :: q ∧
      m.1.precedence = Register.merge r.precedence (precedences ms) ∧
      ¬ ((g.deliver env p).Down x ∧ m.1.state = .dead)

theorem down_deliver_iff (hx : x ≠ env.conf.name) {r : NodeState}
    (hr : g.getNodeState x = some r) (hnamed : r.state.Named) {ms : List (NodeState × Bool)}
    (hms : Reports x ms) :
    (g.deliver env ms).Down x ↔
      Deadly ((precedences ms).foldl (Register.absorb Deadly) r.precedence) := by
  obtain ⟨r', hr', hk, -⟩ := records_deliver hx hr hnamed hms
  rw [← hk, NodeState.deadly_precedence]
  exact down_of_some hr'

theorem heard_iff_taken (hx : x ≠ env.conf.name) {r : NodeState}
    (hr : g.getNodeState x = some r) (hnamed : r.state.Named) {ms : List (NodeState × Bool)}
    (hms : Reports x ms) :
    Heard env g x r ms ↔
      r.precedence = Register.merge r.precedence (precedences ms) ∨
        Register.Taken Deadly r.precedence (Register.merge r.precedence (precedences ms))
          (precedences ms) := by
  apply or_congr_right
  constructor
  · rintro ⟨p, m, q, rfl, htop, hopen⟩
    refine ⟨precedences p, precedences q, ?_, ?_⟩
    · rw [← htop]
      simp [precedences]
    · have hp : Reports x p := fun n hn => hms n (by simp [hn])
      rwa [← down_deliver_iff hx hr hnamed hp, ← htop, NodeState.deadly_precedence]
  · rintro ⟨l₁, l₂, hsplit, hopen⟩
    obtain ⟨p, mq, rfl, rfl, hmq⟩ := List.map_eq_append_iff.1 hsplit
    obtain ⟨m, q, rfl, htop, rfl⟩ := List.map_eq_cons_iff.1 hmq
    refine ⟨p, m, q, rfl, htop, ?_⟩
    have hp : Reports x p := fun n hn => hms n (by simp [hn])
    rwa [down_deliver_iff hx hr hnamed hp, ← NodeState.deadly_precedence, htop]

theorem deliver_greatest_iff (hx : x ≠ env.conf.name) {r : NodeState}
    (hr : g.getNodeState x = some r) (hnamed : r.state.Named) {ms : List (NodeState × Bool)}
    (hms : Reports x ms) :
    ((g.deliver env ms).getNodeState x).map NodeState.precedence =
        some (Register.merge r.precedence (precedences ms)) ↔ Heard env g x r ms := by
  obtain ⟨r', hr', hk, -⟩ := records_deliver hx hr hnamed hms
  have hrecord : (g.deliver env ms).getNodeState x = some r' := hr'
  rw [heard_iff_taken hx hr hnamed hms, ← Register.foldl_absorb_eq_merge_iff, hrecord, ← hk]
  simp

theorem Reports.perm {ms ms' : List (NodeState × Bool)} (h : Reports x ms)
    (hperm : (ms'.map Prod.fst).Perm (ms.map Prod.fst)) : Reports x ms' := by
  intro m hm
  have hmem : m.1 ∈ ms.map Prod.fst := hperm.mem_iff.1 (List.mem_map_of_mem hm)
  obtain ⟨n, hn, heq⟩ := List.mem_map.1 hmem
  exact heq ▸ h n hn

theorem precedences_perm {ms ms' : List (NodeState × Bool)}
    (hperm : (ms'.map Prod.fst).Perm (ms.map Prod.fst)) :
    (precedences ms').Perm (precedences ms) := by
  have hmap := hperm.map NodeState.precedence
  rwa [List.map_map, List.map_map] at hmap

/-- The record of `x` ends at the greatest of itself and the messages exactly
when that is heard, and two nodes that both hear it agree on `x` whatever the
order in which each got the messages. -/
theorem precedence_deliver_eq_merge_iff (env : Env) (g : Gossiper) {x : String}
    (hx : x ≠ env.conf.name) {r : NodeState} (hr : g.getNodeState x = some r)
    (hnamed : r.state.Named) (ms : List (NodeState × Bool)) (hms : Reports x ms) :
    (((g.deliver env ms).getNodeState x).map NodeState.precedence =
        some (Register.merge r.precedence (precedences ms)) ↔ Heard env g x r ms) ∧
      ∀ (env' : Env) (g' : Gossiper) (ms' : List (NodeState × Bool)), x ≠ env'.conf.name →
        g'.getNodeState x = some r → (ms'.map Prod.fst).Perm (ms.map Prod.fst) →
        Heard env g x r ms → Heard env' g' x r ms' →
        ((g'.deliver env' ms').getNodeState x).map NodeState.precedence =
          ((g.deliver env ms).getNodeState x).map NodeState.precedence := by
  refine ⟨deliver_greatest_iff hx hr hnamed hms, ?_⟩
  intro env' g' ms' hx' hr' hperm hheard hheard'
  rw [(deliver_greatest_iff hx hr hnamed hms).2 hheard,
    (deliver_greatest_iff hx' hr' hnamed (hms.perm hperm)).2 hheard',
    Register.merge_perm _ (precedences_perm hperm)]

/-- News of `b:1`, which is alive at dominant 1, in an order that is heard. -/
theorem precedence_deliver_of_dead_last :
    let g := run (Gossiper.step sampleEnv) fresh [.join, .message (news "b:1" 1 .alive "b:1") true]
    let ms := [(news "b:1" 3 .alive "b:1", true), (news "b:1" 5 .dead "c:1", false)]
    ((g.deliver sampleEnv ms).getNodeState "b:1").map NodeState.precedence =
      some (Register.merge (news "b:1" 1 .alive "b:1").precedence (precedences ms)) :=
  (precedence_deliver_eq_merge_iff sampleEnv _ (by decide) rfl (by decide) _ (by decide)).1.2
    (Or.inr ⟨[(news "b:1" 3 .alive "b:1", true)], (news "b:1" 5 .dead "c:1", false), [], rfl,
      by decide, by decide⟩)

/-- A report of a death at dominant 5 is lost on a node that knows of one at
dominant 1, and a message of dominant 3 revives the member. -/
theorem precedence_deliver_of_dead_dead_alive :
    let g := run (Gossiper.step sampleEnv) fresh [.join, .message (news "b:1" 1 .alive "b:1") true]
    let ms := [(news "b:1" 1 .dead "c:1", true), (news "b:1" 5 .dead "c:1", true),
      (news "b:1" 3 .alive "b:1", true)]
    g.getNodeState "b:1" = some (news "b:1" 1 .alive "b:1") ∧ "b:1" ∉ g.suspicions ∧
      Reports "b:1" ms ∧
      Register.merge (news "b:1" 1 .alive "b:1").precedence (precedences ms) = toLex (5, .dead) ∧
      ((g.deliver sampleEnv ms).getNodeState "b:1").map NodeState.precedence ≠
        some (Register.merge (news "b:1" 1 .alive "b:1").precedence (precedences ms)) := by
  decide

end Gossiper

end CppGossip
