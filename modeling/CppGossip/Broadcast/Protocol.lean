import CppGossip.Broadcast.Cursor
import CppGossip.Gossiper.Step

/-!
# The protocol of the queue

The queue asks its callers to end a batch of peeks with `ResetPeek` or
`ApplyPeek` before they pop, and nothing more. That is not enough: a pop moves
`cur` and may erase the entry at which `peekIter` has been left, so that a later
peek reads an erased entry, or returns other messages than those that are popped
when the batch is applied; and a push that lets the map grow may leave other
messages after `cur` than were peeked. `Steady` says which calls keep the two in
step.
-/

namespace CppGossip

open Collection Transition

namespace BroadcastQueue

/-- The member functions of the queue. A `Push` that lets the map grow is a `push`
and a `rehash` after it. -/
inductive Op where
  | push (place : ℕ) (msg : NodeState) (nodeNum : UInt32)
  | rehash (m : HashMap String (NodeState × Int))
  | pop
  | peek
  | resetPeek
  | applyPeek

/-- A queue in use: `returned` are the messages that peeks have returned since
the last `ResetPeek` or `ApplyPeek`. -/
structure Session where
  queue : BroadcastQueue
  returned : List NodeState

namespace Session

/-- The queue as it is constructed. -/
def start : Session := ⟨empty, []⟩

/-- What a call does. -/
def op (s : Session) : Op → Session
  | .push place msg nodeNum => { s with queue := s.queue.push place msg nodeNum }
  | .rehash m => { s with queue := s.queue.rehash m }
  | .pop => { s with queue := s.queue.pop.2 }
  | .peek => ⟨s.queue.peek.2, s.returned ++ s.queue.peek.1.toList⟩
  | .resetPeek => ⟨s.queue.resetPeek, []⟩
  | .applyPeek => ⟨s.queue.applyPeek, []⟩

/-- The documented protocol: no pop while messages are peeked. -/
def Documented (s : Session) : Op → Prop
  | .pop => s.queue.peeked = 0
  | _ => True

/-- Both cursors are the end or refer to a key in the map. -/
def Safe (s : Session) : Prop :=
  Within s.queue.cur s.queue.m ∧ Within s.queue.peekIter s.queue.m

/-- When a batch is applied the messages returned in it are counted down. -/
def Applies (s : Session) : Op → Prop
  | .applyPeek => Charges s.returned s.queue s.queue.applyPeek
  | _ => True

/-- No pop is the last one of a message at which `peekIter` stands as well, every
peek stands as many places after `cur` as messages have been peeked, and no push
and no rehash comes between. -/
def Steady (s : Session) : Op → Prop
  | .push place msg nodeNum => s.queue.PushesApart place msg nodeNum
  | .rehash m => s.queue.RehashesApart m
  | .pop =>
      ∀ k ∈ s.queue.peekIter, stand s.queue.cur s.queue.m = some k →
        ∀ e ∈ s.queue.m.lookup k, 1 < e.2
  | .peek => s.queue.PeeksNext
  | _ => True

instance Documented.decidable (s : Session) : ∀ o, Decidable (s.Documented o)
  | .pop => inferInstanceAs (Decidable (_ = _))
  | .push _ _ _ | .rehash _ | .peek | .resetPeek | .applyPeek => inferInstanceAs (Decidable True)

instance Steady.decidable (s : Session) : ∀ o, Decidable (s.Steady o)
  | .push place msg nodeNum => inferInstanceAs (Decidable (s.queue.PushesApart place msg nodeNum))
  | .rehash m => inferInstanceAs (Decidable (s.queue.RehashesApart m))
  | .pop =>
      inferInstanceAs (Decidable (∀ k ∈ s.queue.peekIter, _ → ∀ e ∈ s.queue.m.lookup k, 1 < e.2))
  | .peek => inferInstanceAs (Decidable s.queue.PeeksNext)
  | .resetPeek | .applyPeek => inferInstanceAs (Decidable True)

end Session

variable {q : BroadcastQueue}

/-- A pop between batches, of a message that stays or at which `peekIter` does not
stand. -/
theorem Open.pop {returned : List NodeState} (h : Open q returned) (hpeeked : q.peeked = 0)
    (hapart : ∀ k ∈ q.peekIter, stand q.cur q.m = some k → ∀ e ∈ q.m.lookup k, 1 < e.2) :
    Open q.pop.2 returned := by
  have hnone : returned = [] := by
    rw [h.returned, hpeeked]
    rfl
  have hkeyed : q.pop.2.Keyed := fun x m hm => h.keyed x m (message_pop hm)
  have hpeekIter : Within q.pop.2.peekIter q.pop.2.m := by
    cases hk : stand q.cur q.m with
    | none =>
        rw [pop_of_none hk]
        exact h.peekIter
    | some k =>
        obtain ⟨e, he⟩ := exists_lookup (mem_of_stand h.cur hk)
        rw [(pop_of_stand hk he).2]
        cases hcharge : charge e with
        | none =>
            apply h.peekIter.erase
            intro hstand
            have hlt : 1 < e.2 := hapart k hstand hk e he
            rw [charge, if_neg (by omega)] at hcharge
            cases hcharge
        | some e' => exact h.peekIter.assign 0 k e'
  refine ⟨hkeyed, within_cur_pop h.cur, hpeekIter, ?_, ?_⟩
  · rw [peeked_pop, hpeeked]
    exact Nat.zero_le _
  · rw [hnone, peeked_pop, hpeeked]
    rfl

namespace Session

variable {s : Session} {o : Op}

theorem open_op (h : Open s.queue s.returned) (hdoc : s.Documented o) (hsteady : s.Steady o) :
    Open (s.op o).queue (s.op o).returned := by
  cases o with
  | push place msg nodeNum => exact h.push hsteady
  | rehash m => exact h.rehash hsteady
  | pop => exact h.pop hdoc hsteady
  | peek => exact h.peek hsteady
  | resetPeek => exact h.resetPeek
  | applyPeek => exact h.applyPeek

theorem applies_op (h : Open s.queue s.returned) : s.Applies o := by
  cases o with
  | applyPeek => exact h.charges
  | _ => trivial

/-- In a run that keeps to the protocol and is steady no cursor ever refers to an
erased key, and every batch that is applied counts down what it returned. -/
theorem safe_of_steady (os : List Op) (hdoc : Along op Documented start os)
    (hsteady : Along op Steady start os) :
    Throughout op Safe start os ∧ Along op Applies start os := by
  have hboth : Along op (fun s o => s.Documented o ∧ s.Steady o) start os :=
    (along_and Documented Steady start os).2 ⟨hdoc, hsteady⟩
  have hstep : ∀ s o, Open s.queue s.returned → s.Documented o ∧ s.Steady o →
      Open (op s o).queue (op s o).returned := fun s o h hand => open_op h hand.1 hand.2
  have hthroughout : Throughout op (fun s => Open s.queue s.returned) start os :=
    hboth.throughout hstep open_empty
  refine ⟨hthroughout.mono fun s h => ⟨h.cur, h.peekIter⟩, ?_⟩
  exact hboth.of_invariant hstep (fun s o h _ => applies_op h) open_empty

/-- The map is rehashed before the first batch. Two batches are applied with a pop
between them, and a third is given up. -/
theorem safe_of_batches :
    let b := Gossiper.news "b:1" 1 .alive "b:1"
    let c := Gossiper.news "c:1" 1 .alive "c:1"
    let d := Gossiper.news "d:1" 1 .alive "d:1"
    let os : List Op :=
      [.push 0 b 2, .push 0 c 2, .rehash (assign 1 "c:1" (c, 3) (assign 0 "b:1" (b, 3) ∅)),
        .peek, .peek, .applyPeek, .pop, .resetPeek, .peek, .push 2 d 2, .applyPeek, .peek,
        .resetPeek]
    Throughout op Safe start os ∧ Along op Applies start os :=
  safe_of_steady _ (by decide) (by decide)

/-- With `peekIter` left at `b:1` the message is popped for the last time and
erased. In a second run one message is popped and the next peek returns the same
one, but the batch counts down the other. In a third one the map grows after `c:1`
has been peeked, and the batch counts down the message that is first by then. -/
theorem not_safe_of_pop :
    let b := Gossiper.news "b:1" 1 .alive "b:1"
    let c := Gossiper.news "c:1" 1 .alive "c:1"
    let d := Gossiper.news "d:1" 1 .alive "d:1"
    let m := assign 0 "d:1" (d, 3) (assign 1 "c:1" (c, 3) (assign 0 "b:1" (b, 3) ∅))
    let erased : List Op :=
      [.push 0 b 2, .push 0 c 2, .pop, .resetPeek, .pop, .pop, .pop, .pop, .pop]
    let strayed : List Op := [.push 0 b 2, .push 0 c 2, .pop, .peek, .applyPeek]
    let grown : List Op := [.push 0 b 2, .push 0 c 2, .peek, .push 2 d 2, .rehash m, .applyPeek]
    (Along op Documented start erased ∧ ¬ Safe (run op start erased)) ∧
      (Along op Documented start strayed ∧ ¬ Along op Applies start strayed) ∧
      Along op Documented start grown ∧ ¬ Along op Applies start grown := by
  refine ⟨⟨by decide, ?_⟩, ⟨by decide, ?_⟩, by decide, ?_⟩
  · intro hsafe
    exact absurd (hsafe.2 "b:1" (by decide)) (by decide)
  · intro happlies
    simp only [along_cons] at happlies
    have hcharges := happlies.2.2.2.2.1
    exact absurd (hcharges.2.2 "c:1") (by decide)
  · intro happlies
    simp only [along_cons] at happlies
    have hcharges := happlies.2.2.2.2.2.1
    exact absurd (hcharges.2.2 "c:1") (by decide)

end Session

end BroadcastQueue

end CppGossip
