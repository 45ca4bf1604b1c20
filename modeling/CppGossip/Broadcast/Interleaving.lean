import CppGossip.Broadcast.Cursor
import CppGossip.Gossiper.Step

/-!
# Gossip routines in parallel

Each call of the queue is made under its lock, but a batch is not: between the
peeks of one routine and its `ApplyPeek` another may push, and let the map grow,
peek, apply or reset. `Routines` is the queue shared by any number of routines, each
somewhere in `appendGossipMsg`, with the messages they have copied and not yet sent.
What the queue counts down should have been copied into a packet.
-/

namespace CppGossip

open Collection Transition

/-- Where a routine is in `appendGossipMsg`: outside of it, in the loop with
`left` messages to go, past the loop with `left` of them not used, or about to
shrink the number of messages in a batch. -/
inductive Phase where
  | idle
  | peeking (left : ℕ)
  | peeked (left : ℕ)
  | shrinking
deriving DecidableEq

/-- The head of the loop. -/
def Phase.looping (left : ℕ) : Phase := if left = 0 then .peeked 0 else .peeking left

/-- The routine is in the loop. -/
def Phase.InLoop : Phase → Prop
  | .peeking _ => True
  | _ => False

/-- The routine is past the loop and takes itself for having copied something. -/
def Phase.PastLoop (maxAppended : ℕ) : Phase → Prop
  | .peeked left => left ≠ maxAppended
  | _ => False

instance Phase.InLoop.decidable : ∀ p : Phase, Decidable p.InLoop
  | .peeking _ => inferInstanceAs (Decidable True)
  | .idle | .peeked _ | .shrinking => inferInstanceAs (Decidable False)

instance Phase.PastLoop.decidable (maxAppended : ℕ) :
    ∀ p : Phase, Decidable (p.PastLoop maxAppended)
  | .peeked left => inferInstanceAs (Decidable (left ≠ maxAppended))
  | .idle | .peeking _ | .shrinking => inferInstanceAs (Decidable False)

/-- The queue and the routines that use it. The messages that routines have
copied and not yet sent stand in `before` when they were copied before the last
`ApplyPeek`, and in `since` when after it. `opened` are those returned by peeks
since the last `ResetPeek` or `ApplyPeek`, `charged` those counted down so far,
`emitted` those sent in packets, and `granted` and `forfeited` the transmissions
that pushes have computed for a message and that it had left when it was
replaced. -/
structure Routines (ι : Type*) where
  queue : BroadcastQueue
  maxAppended : ℕ
  phase : ι → Phase
  before : List (ι × NodeState)
  since : List (ι × NodeState)
  opened : List NodeState
  charged : List NodeState
  emitted : List NodeState
  granted : NodeState → Int
  forfeited : NodeState → Int

/-- What may happen next: a message is pushed, which may also make the map grow and
be rehashed, or a routine takes a step. -/
inductive Act (ι : Type*) where
  | push (place : ℕ) (msg : NodeState) (nodeNum : UInt32)
  | rehash (m : HashMap String (NodeState × Int))
  | enter (i : ι)
  | peek (i : ι)
  /-- nothing is counted as copied -/
  | quit (i : ι)
  /-- the packet would be too large -/
  | giveUp (i : ι)
  | shrink (i : ι)
  | apply (i : ι)

namespace BroadcastQueue

/-- The transmissions left of a message. -/
def left (q : BroadcastQueue) (m : NodeState) : Int :=
  match q.m.lookup m.name with
  | some (old, t) => if old = m then t else 0
  | none => 0

variable {q : BroadcastQueue} {returned : List NodeState} {m : NodeState}

theorem left_of_message_ne (h : q.message m.name ≠ some m) : q.left m = 0 := by
  unfold left
  split
  case h_1 old t he =>
    refine if_neg fun heq => h ?_
    rw [← heq] at he ⊢
    exact message_of_lookup he
  case h_2 => rfl

theorem left_push (place : ℕ) (msg : NodeState) (nodeNum : UInt32) (q : BroadcastQueue)
    (m : NodeState) :
    (q.push place msg nodeNum).left m =
      if q.Accepts msg ∧ m.name = msg.name then (if m = msg then times nodeNum else 0)
      else q.left m := by
  by_cases hacc : q.Accepts msg
  · by_cases hname : m.name = msg.name
    · rw [if_pos ⟨hacc, hname⟩, left, lookup_push place nodeNum hacc, if_pos hname]
      exact if_congr eq_comm rfl rfl
    · rw [if_neg fun hand => hname hand.2, left, lookup_push place nodeNum hacc, if_neg hname]
      rfl
  · rw [if_neg fun hand => hacc hand.1, push_of_not_accepts place nodeNum hacc]

@[simp] theorem left_rehash (m : HashMap String (NodeState × Int)) (q : BroadcastQueue)
    (msg : NodeState) : (q.rehash m).left msg = q.left msg := by
  rw [left, lookup_rehash, left]

/-- What a batch that is applied takes off what is left. -/
theorem left_of_charges {q' : BroadcastQueue} (h : Charges returned q q')
    (hpos : ∀ x e, q.m.lookup x = some e → 1 ≤ e.2) (m : NodeState) :
    q'.left m = q.left m - returned.count m := by
  obtain ⟨hnodup, hqueued, hlookup⟩ := h
  have hm := hlookup m.name
  unfold left
  cases he : q.m.lookup m.name with
  | none =>
      have hnot : m ∉ returned := fun hmem => by
        have hmessage := hqueued m hmem
        rw [message, he] at hmessage
        cases hmessage
      rw [he] at hm
      simp [hm, List.count_eq_zero_of_not_mem hnot]
  | some e =>
      obtain ⟨old, t⟩ := e
      have ht : 1 ≤ t := hpos m.name (old, t) he
      rw [he, Option.bind_some] at hm
      by_cases hold : old = m
      · subst hold
        by_cases hmem : old ∈ returned
        · have hcount : returned.count old = 1 := List.count_eq_one_of_mem hnodup hmem
          rw [if_pos hmem, charge] at hm
          rcases Int.lt_or_le (t - 1) 1 with hlast | hmore
          · rw [if_pos hlast] at hm
            simp only [hm, hcount, if_true]
            omega
          · rw [if_neg (Int.not_lt.2 hmore)] at hm
            simp only [hm, hcount, if_true]
            omega
        · rw [if_neg hmem] at hm
          simp [hm, List.count_eq_zero_of_not_mem hmem]
      · have hnot : m ∉ returned := fun hmem => by
          have hmessage := hqueued m hmem
          rw [message_of_lookup he] at hmessage
          exact hold (Option.some.inj hmessage)
        rw [List.count_eq_zero_of_not_mem hnot]
        by_cases hmem : old ∈ returned
        · rw [if_pos hmem, charge] at hm
          rcases Int.lt_or_le (t - 1) 1 with hlast | hmore
          · rw [if_pos hlast] at hm
            simp [hm, hold]
          · rw [if_neg (Int.not_lt.2 hmore)] at hm
            simp [hm, hold]
        · rw [if_neg hmem] at hm
          simp [hm, hold]

theorem positive_of_charges {q' : BroadcastQueue} (h : Charges returned q q')
    (hpos : ∀ x e, q.m.lookup x = some e → 1 ≤ e.2) :
    ∀ x e, q'.m.lookup x = some e → 1 ≤ e.2 := by
  intro x e he
  rw [h.2.2 x] at he
  obtain ⟨e₀, he₀, hafter⟩ := Option.bind_eq_some_iff.1 he
  split at hafter
  case isTrue =>
    unfold charge at hafter
    split at hafter
    case isTrue => cases hafter
    case isFalse hmore =>
      cases hafter
      exact Int.not_lt.1 hmore
  case isFalse =>
    cases hafter
    exact hpos x e he₀

end BroadcastQueue

namespace Routines

variable {ι : Type*} [DecidableEq ι]

/-- A gossiper before any routine has run. -/
def start : Routines ι where
  queue := .empty
  maxAppended := 10
  phase := fun _ => .idle
  before := []
  since := []
  opened := []
  charged := []
  emitted := []
  granted := fun _ => 0
  forfeited := fun _ => 0

/-- The copies of the routine `i`. -/
def mine (i : ι) (copies : List (ι × NodeState)) : List (ι × NodeState) :=
  copies.filter fun c => c.1 = i

/-- The copies of the other routines. -/
def others (i : ι) (copies : List (ι × NodeState)) : List (ι × NodeState) :=
  copies.filter fun c => ¬ c.1 = i

/-- What a step does. -/
def act (s : Routines ι) : Act ι → Routines ι
  | .push place msg nodeNum =>
      { s with
        queue := s.queue.push place msg nodeNum
        granted := fun m =>
          s.granted m +
            if s.queue.Accepts msg ∧ m = msg then BroadcastQueue.times nodeNum else 0
        forfeited := fun m =>
          s.forfeited m +
            if s.queue.Accepts msg ∧ m.name = msg.name then s.queue.left m else 0 }
  | .rehash m => { s with queue := s.queue.rehash m }
  | .enter i => { s with phase := Function.update s.phase i (.looping s.maxAppended) }
  | .peek i =>
      match s.phase i with
      | .peeking left =>
          match s.queue.peek with
          | (none, queue) =>
              { s with queue := queue, phase := Function.update s.phase i (.peeked left) }
          | (some m, queue) =>
              { s with
                queue := queue
                phase := Function.update s.phase i (.looping (left - 1))
                since := s.since ++ [(i, m)]
                opened := s.opened ++ [m] }
      | _ => s
  | .quit i =>
      { s with
        phase := Function.update s.phase i .idle
        before := others i s.before
        since := others i s.since }
  | .giveUp i =>
      { s with
        queue := s.queue.resetPeek
        phase := Function.update s.phase i .shrinking
        before := others i s.before
        since := others i s.since
        opened := [] }
  | .shrink i =>
      { s with
        maxAppended := if s.maxAppended = 1 then s.maxAppended else s.maxAppended / 2
        phase := Function.update s.phase i .idle }
  | .apply i =>
      { s with
        queue := s.queue.applyPeek
        phase := Function.update s.phase i .idle
        before := others i (s.before ++ s.since)
        since := []
        opened := []
        charged := s.charged ++ BroadcastQueue.popped s.queue.peeked s.queue
        emitted := s.emitted ++ (mine i (s.before ++ s.since)).map Prod.snd }

/-- The steps that may come next. -/
def Enabled (s : Routines ι) : Act ι → Prop
  | .push _ _ _ | .rehash _ => True
  | .enter i => s.phase i = .idle
  | .peek i => (s.phase i).InLoop
  | .quit i => s.phase i = .peeked s.maxAppended
  | .giveUp i | .apply i => (s.phase i).PastLoop s.maxAppended
  | .shrink i => s.phase i = .shrinking

/-- Every message counted down matches a copy of it in a packet, sent or being
filled, and one that is queued no longer has been copied as often as its quota,
less what was left of it when it was replaced. -/
def NoLoss (s : Routines ι) : Prop :=
  ∀ m,
    s.charged.count m ≤ s.emitted.count m + ((s.before ++ s.since).map Prod.snd).count m ∧
      (s.queue.message m.name ≠ some m →
        s.granted m - s.forfeited m ≤
          s.emitted.count m + ((s.before ++ s.since).map Prod.snd).count m)

/-- No push and no rehash comes between the messages peeked, every peek stands as
many places after `cur` as there are messages peeked, a batch is given up only if
no other routine has applied one since its first peek, and no routine leaves with
copies that it neither sends nor gives up. -/
def Orderly (s : Routines ι) : Act ι → Prop
  | .push place msg nodeNum => s.queue.PushesApart place msg nodeNum
  | .rehash m => s.queue.RehashesApart m
  | .peek _ => s.queue.PeeksNext
  | .giveUp i => mine i s.before = []
  | .quit i => mine i (s.before ++ s.since) = []
  | _ => True

instance Enabled.decidable (s : Routines ι) : ∀ a, Decidable (s.Enabled a)
  | .push _ _ _ | .rehash _ => inferInstanceAs (Decidable True)
  | .enter _ | .quit _ | .shrink _ => inferInstanceAs (Decidable (_ = _))
  | .peek i => inferInstanceAs (Decidable (s.phase i).InLoop)
  | .giveUp i | .apply i => inferInstanceAs (Decidable ((s.phase i).PastLoop s.maxAppended))

instance Orderly.decidable (s : Routines ι) : ∀ a, Decidable (s.Orderly a)
  | .push place msg nodeNum => inferInstanceAs (Decidable (s.queue.PushesApart place msg nodeNum))
  | .rehash m => inferInstanceAs (Decidable (s.queue.RehashesApart m))
  | .peek _ => inferInstanceAs (Decidable s.queue.PeeksNext)
  | .giveUp _ | .quit _ => inferInstanceAs (Decidable (_ = _))
  | .enter _ | .shrink _ | .apply _ => inferInstanceAs (Decidable True)

variable {s : Routines ι} {i : ι} {m : NodeState}

theorem others_eq_self {copies : List (ι × NodeState)} (h : mine i copies = []) :
    others i copies = copies := by
  rw [mine, List.filter_eq_nil_iff] at h
  rw [others, List.filter_eq_self]
  intro c hc
  simpa using h c hc

/-- The copies of one routine and of the others are all copies. -/
theorem count_mine_add_others (i : ι) (copies : List (ι × NodeState)) (m : NodeState) :
    ((mine i copies).map Prod.snd).count m + ((others i copies).map Prod.snd).count m =
      (copies.map Prod.snd).count m := by
  induction copies with
  | nil => rfl
  | cons c copies ih =>
      by_cases hc : c.1 = i
      · simp only [mine, others, List.filter_cons, hc, decide_true, if_true, not_true,
          decide_false, List.map_cons, List.count_cons] at ih ⊢
        simp only [Bool.false_eq_true, if_false]
        omega
      · simp only [mine, others, List.filter_cons, hc, decide_false, not_false_iff,
          decide_true, if_true, List.map_cons, List.count_cons] at ih ⊢
        simp only [Bool.false_eq_true, if_false]
        omega

/-! ## What balances -/

/-- What was copied before the last `ApplyPeek` covers what has been counted
down, and the messages to be counted down by the next are the last ones copied
since. Every entry has a transmission left, and what was granted to a message
has been counted down, was forfeited or is left. -/
structure Balanced (s : Routines ι) : Prop where
  opened : BroadcastQueue.Open s.queue s.opened
  copied : s.opened <:+ s.since.map Prod.snd
  covered : ∀ m, s.charged.count m ≤ s.emitted.count m + (s.before.map Prod.snd).count m
  positive : ∀ x e, s.queue.m.lookup x = some e → 1 ≤ e.2
  granted : ∀ m, s.granted m = s.charged.count m + s.forfeited m + s.queue.left m

omit [DecidableEq ι] in
theorem balanced_start : Balanced (start : Routines ι) where
  opened := BroadcastQueue.open_empty
  copied := List.suffix_rfl
  covered _ := Nat.zero_le _
  positive x e he := by simp [start, BroadcastQueue.empty] at he
  granted m := by simp [start, BroadcastQueue.left, BroadcastQueue.empty]

theorem Balanced.push (h : Balanced s) {place : ℕ} {msg : NodeState} {nodeNum : UInt32}
    (hapart : s.queue.PushesApart place msg nodeNum) :
    Balanced (s.act (.push place msg nodeNum)) where
  opened := h.opened.push hapart
  copied := h.copied
  covered := h.covered
  positive x e he := by
    by_cases hacc : s.queue.Accepts msg
    · rw [act, BroadcastQueue.lookup_push place nodeNum hacc] at he
      split at he
      case isTrue =>
        cases he
        exact BroadcastQueue.one_le_times nodeNum
      case isFalse => exact h.positive x e he
    · rw [act, BroadcastQueue.push_of_not_accepts place nodeNum hacc] at he
      exact h.positive x e he
  granted m := by
    have hbefore := h.granted m
    simp only [act, BroadcastQueue.left_push]
    by_cases hacc : s.queue.Accepts msg ∧ m.name = msg.name
    · simp only [hacc, true_and, and_self, if_true]
      omega
    · have hne : ¬ (s.queue.Accepts msg ∧ m = msg) := by
        rintro ⟨haccepts, rfl⟩
        exact hacc ⟨haccepts, rfl⟩
      simp only [if_neg hacc, if_neg hne]
      omega

theorem Balanced.rehash (h : Balanced s) {m : HashMap String (NodeState × Int)}
    (hapart : s.queue.RehashesApart m) : Balanced (s.act (.rehash m)) where
  opened := h.opened.rehash hapart
  copied := h.copied
  covered := h.covered
  positive x e he := h.positive x e (by rwa [act, BroadcastQueue.lookup_rehash] at he)
  granted msg := by
    rw [act, BroadcastQueue.left_rehash]
    exact h.granted msg

/-- A peek moves the cursor and adds what it returns to the copies. -/
theorem Balanced.peek (h : Balanced s) (hnext : s.queue.PeeksNext) (i : ι) :
    Balanced (s.act (.peek i)) := by
  have hopen := h.opened.peek hnext
  have hm : s.queue.peek.2.m = s.queue.m := BroadcastQueue.m_peek s.queue
  cases hphase : s.phase i with
  | peeking left =>
      cases hpeek : s.queue.peek with
      | mk returned queue =>
          rw [hpeek] at hopen hm
          have hpositive : ∀ x e, queue.m.lookup x = some e → 1 ≤ e.2 := by
            rw [show queue.m = s.queue.m from hm]
            exact h.positive
          have hleft : ∀ m, queue.left m = s.queue.left m := fun m => by
            rw [BroadcastQueue.left, show queue.m = s.queue.m from hm]
            rfl
          cases returned with
          | none =>
              simp only [act, hphase, hpeek]
              refine ⟨?_, h.copied, h.covered, hpositive, fun m => ?_⟩
              · simpa using hopen
              · rw [hleft]
                exact h.granted m
          | some m =>
              simp only [act, hphase, hpeek]
              refine ⟨hopen, ?_, h.covered, hpositive, fun m => ?_⟩
              · rw [List.map_append]
                obtain ⟨front, hfront⟩ := h.copied
                exact ⟨front, by rw [← List.append_assoc, hfront]; rfl⟩
              · rw [hleft]
                exact h.granted m
  | idle => simpa [act, hphase] using h
  | peeked left => simpa [act, hphase] using h
  | shrinking => simpa [act, hphase] using h

theorem Balanced.quit (h : Balanced s) (hnone : mine i (s.before ++ s.since) = []) :
    Balanced (s.act (.quit i)) := by
  rw [mine, List.filter_append, List.append_eq_nil_iff] at hnone
  have hbefore : others i s.before = s.before := others_eq_self hnone.1
  have hsince : others i s.since = s.since := others_eq_self hnone.2
  simp only [act, hbefore, hsince]
  exact ⟨h.opened, h.copied, h.covered, h.positive, h.granted⟩

theorem Balanced.giveUp (h : Balanced s) (hnone : mine i s.before = []) :
    Balanced (s.act (.giveUp i)) := by
  have hbefore : others i s.before = s.before := others_eq_self hnone
  simp only [act, hbefore]
  exact ⟨h.opened.resetPeek, List.nil_suffix, h.covered, h.positive, h.granted⟩

theorem Balanced.apply (h : Balanced s) (i : ι) : Balanced (s.act (.apply i)) := by
  have hcharges := h.opened.charges
  have hpopped : BroadcastQueue.popped s.queue.peeked s.queue = s.opened := h.opened.popped_eq
  refine ⟨h.opened.applyPeek, List.nil_suffix, fun m => ?_,
    BroadcastQueue.positive_of_charges hcharges h.positive, fun m => ?_⟩
  · have hcovered := h.covered m
    have hopened : s.opened.count m ≤ (s.since.map Prod.snd).count m := h.copied.sublist.count_le m
    have hsplit := count_mine_add_others i (s.before ++ s.since) m
    rw [List.map_append, List.count_append] at hsplit
    simp only [act, hpopped, List.count_append]
    omega
  · have hgranted := h.granted m
    have hleft := BroadcastQueue.left_of_charges hcharges h.positive m
    simp only [act, hpopped, List.count_append, hleft]
    push_cast
    omega

theorem Balanced.step (h : Balanced s) {a : Act ι} (horder : s.Orderly a) :
    Balanced (s.act a) := by
  cases a with
  | push place msg nodeNum => exact h.push horder
  | rehash m => exact h.rehash horder
  | enter i => exact ⟨h.opened, h.copied, h.covered, h.positive, h.granted⟩
  | peek i => exact h.peek horder i
  | quit i => exact h.quit horder
  | giveUp i => exact h.giveUp horder
  | shrink i => exact ⟨h.opened, h.copied, h.covered, h.positive, h.granted⟩
  | apply i => exact h.apply i

omit [DecidableEq ι] in
theorem Balanced.noLoss (h : Balanced s) : NoLoss s := by
  intro m
  have hcovered := h.covered m
  rw [List.map_append, List.count_append]
  refine ⟨by omega, fun hgone => ?_⟩
  have hgranted := h.granted m
  rw [BroadcastQueue.left_of_message_ne hgone] at hgranted
  omega

/-- Whatever order the routines run in, no broadcast is lost as long as every
step is orderly. -/
theorem noLoss_of_orderly (acts : List (Act ι)) (horder : Along act Orderly start acts) :
    Throughout act NoLoss start acts := by
  have hbalanced : Throughout act Balanced start acts :=
    horder.throughout (fun s a h ha => h.step ha) balanced_start
  exact hbalanced.mono fun s h => h.noLoss

/-- Two routines share a batch, which the first applies while the second still
has to send its copy. The map is rehashed before the batch. -/
theorem noLoss_of_shared_batch :
    let b := Gossiper.news "b:1" 1 .alive "b:1"
    let c := Gossiper.news "c:1" 1 .alive "c:1"
    Throughout act NoLoss (start : Routines ℕ)
      [.push 0 b 2, .push 0 c 2, .rehash (assign 1 "c:1" (c, 3) (assign 0 "b:1" (b, 3) ∅)),
        .enter 1, .enter 2, .peek 1, .peek 2, .peek 1, .apply 1,
        .push 0 (Gossiper.news "b:1" 2 .alive "b:1") 2, .peek 2, .peek 2, .peek 2, .apply 2] :=
  noLoss_of_orderly _ (by decide)

/-- While the first routine holds a copy of a message a newer one replaces it,
and is counted down in its stead. In a second run the map grows while the routine
fills its packet, and a message that it has not copied is counted down. -/
theorem not_noLoss_of_push :
    let b := Gossiper.news "b:1" 1 .alive "b:1"
    let c := Gossiper.news "c:1" 1 .alive "c:1"
    let d := Gossiper.news "d:1" 1 .alive "d:1"
    let m := assign 0 "d:1" (d, 3) (assign 1 "c:1" (c, 3) (assign 0 "b:1" (b, 3) ∅))
    let replaced : List (Act ℕ) :=
      [.push 0 b 2, .enter 1, .peek 1, .peek 1, .push 0 (Gossiper.news "b:1" 2 .alive "b:1") 2,
        .apply 1]
    let grown : List (Act ℕ) :=
      [.push 0 b 2, .push 0 c 2, .enter 1, .peek 1, .push 2 d 2, .rehash m, .peek 1, .peek 1,
        .peek 1, .apply 1]
    (Along act Enabled start replaced ∧ ¬ Throughout act NoLoss start replaced) ∧
      Along act Enabled start grown ∧ ¬ Throughout act NoLoss start grown := by
  refine ⟨⟨by decide, ?_⟩, by decide, ?_⟩
  · intro hthroughout
    have hlast := (throughout_iff_run NoLoss start _).1 hthroughout _ (List.prefix_refl _)
    exact absurd (hlast (Gossiper.news "b:1" 2 .alive "b:1")).1 (by decide)
  · intro hthroughout
    have hlast := (throughout_iff_run NoLoss start _).1 hthroughout _ (List.prefix_refl _)
    exact absurd (hlast (Gossiper.news "d:1" 1 .alive "d:1")).1 (by decide)

end Routines

end CppGossip
