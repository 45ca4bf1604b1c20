import CppGossip.Broadcast.Queue

/-!
# What is queued about a name

`Push` keeps, for the name of the message pushed, the message of the greater
precedence, and touches no other name. Popping and peeking bring no message
into the queue: what is queued about a name after a batch was queued before it.
-/

namespace CppGossip

open Collection

namespace BroadcastQueue

theorem supersedes_iff (msg old : NodeState) :
    Supersedes msg old ↔ old.precedence < msg.precedence := by
  rw [NodeState.precedence_lt_iff, Supersedes, gt_iff_lt, gt_iff_lt, and_comm, eq_comm]

/-- The message that `Push` of `msg` leaves queued about its name. -/
def kept (msg : NodeState) : Option NodeState → NodeState
  | none => msg
  | some old => if Supersedes msg old then msg else old

theorem message_push_self (place : ℕ) (msg : NodeState) (n : UInt32) (q : BroadcastQueue) :
    (q.push place msg n).message msg.name = some (kept msg (q.message msg.name)) := by
  unfold push message
  cases h : q.m.lookup msg.name with
  | none => simp [kept, lookup_assign]
  | some e =>
      obtain ⟨old, t⟩ := e
      by_cases hs : Supersedes msg old
      · simp [kept, hs, lookup_assign]
      · simp [kept, hs, h]

theorem message_push_of_ne (place : ℕ) {msg : NodeState} {x : String} (hx : msg.name ≠ x)
    (n : UInt32) (q : BroadcastQueue) : (q.push place msg n).message x = q.message x := by
  unfold push message
  cases h : q.m.lookup msg.name with
  | none => simp [lookup_assign, hx.symm]
  | some e =>
      obtain ⟨old, t⟩ := e
      by_cases hs : Supersedes msg old
      · simp [hs, lookup_assign, hx.symm]
      · simp [hs]

theorem message_push (place : ℕ) (msg : NodeState) (n : UInt32) (q : BroadcastQueue) (x : String) :
    (q.push place msg n).message x =
      if msg.name = x then some (kept msg (q.message x)) else q.message x := by
  by_cases hx : msg.name = x
  · rw [if_pos hx, ← hx, message_push_self]
  · rw [if_neg hx, message_push_of_ne place hx]

@[simp] theorem lookup_rehash (m : HashMap String (NodeState × Int)) (q : BroadcastQueue)
    (x : String) : (q.rehash m).m.lookup x = q.m.lookup x := lookup_reorder m q.m x

@[simp] theorem message_rehash (m : HashMap String (NodeState × Int)) (q : BroadcastQueue)
    (x : String) : (q.rehash m).message x = q.message x := by
  rw [message, lookup_rehash, message]

theorem precedence_kept (msg : NodeState) (old : Option NodeState) :
    msg.precedence ≤ (kept msg old).precedence := by
  cases old with
  | none => exact le_rfl
  | some old =>
      by_cases hs : Supersedes msg old
      · simp [kept, hs]
      · have hle : msg.precedence ≤ old.precedence := by
          rw [supersedes_iff] at hs
          exact not_lt.mp hs
        simpa [kept, hs] using hle

/-- The message kept is the greater of the two. -/
theorem precedence_kept_le_iff (msg : NodeState) (old : Option NodeState)
    (b : ℕ ×ₗ Message.State) :
    (kept msg old).precedence ≤ b ↔ msg.precedence ≤ b ∧ ∀ q ∈ old, q.precedence ≤ b := by
  cases old with
  | none => simp [kept]
  | some old =>
      by_cases hs : Supersedes msg old
      · have hlt := (supersedes_iff msg old).1 hs
        simp only [kept, hs, if_true, Option.mem_some_iff, forall_eq']
        exact ⟨fun hle => ⟨hle, hlt.le.trans hle⟩, And.left⟩
      · have hle : msg.precedence ≤ old.precedence := by
          rw [supersedes_iff] at hs
          exact not_lt.mp hs
        simp only [kept, hs, if_false, Option.mem_some_iff, forall_eq']
        exact ⟨fun hb => ⟨hle.trans hb, hb⟩, And.right⟩

theorem kept_eq_self {msg : NodeState} {old : Option NodeState}
    (h : ∀ q ∈ old, q.precedence < msg.precedence) : kept msg old = msg := by
  cases old with
  | none => rfl
  | some old => exact if_pos ((supersedes_iff msg old).2 (h old rfl))

theorem kept_eq_old {msg old : NodeState} (h : msg.precedence ≤ old.precedence) :
    kept msg (some old) = old :=
  if_neg fun hs => not_lt.mpr h ((supersedes_iff msg old).1 hs)

theorem kept_eq_or (msg : NodeState) (old : Option NodeState) :
    kept msg old = msg ∨ old = some (kept msg old) := by
  cases old with
  | none => exact Or.inl rfl
  | some old =>
      by_cases hs : Supersedes msg old
      · simp [kept, hs]
      · simp [kept, hs]

theorem message_pop {q : BroadcastQueue} {x : String} {msg : NodeState}
    (h : q.pop.2.message x = some msg) : q.message x = some msg := by
  unfold pop at h
  split at h
  case h_1 => exact h
  case h_2 k _ =>
    cases hk : q.m.lookup k with
    | none => simpa only [hk] using h
    | some e =>
        obtain ⟨old, t⟩ := e
        simp only [hk] at h
        by_cases hx : x = k
        · subst hx
          by_cases ht : t - 1 < 1
          · simp [ht, message] at h
          · simpa [ht, message, lookup_assign, hk] using h
        · by_cases ht : t - 1 < 1
          · simpa [ht, message, AList.lookup_erase_ne hx] using h
          · simpa [ht, message, lookup_assign, hx] using h

theorem message_popN {n : ℕ} {q : BroadcastQueue} {x : String} {msg : NodeState}
    (h : (popN n q).message x = some msg) : q.message x = some msg := by
  induction n generalizing q with
  | zero => exact h
  | succ n ih => exact message_pop (ih h)

theorem message_applyPeek {q : BroadcastQueue} {x : String} {msg : NodeState}
    (h : q.applyPeek.message x = some msg) : q.message x = some msg :=
  message_popN (n := q.peeked) h

@[simp] theorem message_resetPeek (q : BroadcastQueue) (x : String) :
    q.resetPeek.message x = q.message x := rfl

@[simp] theorem message_peek (q : BroadcastQueue) (x : String) :
    q.peek.2.message x = q.message x := by
  unfold peek message
  split
  · rfl
  · split
    · rfl
    · rfl

@[simp] theorem message_peekN (n : ℕ) (q : BroadcastQueue) (x : String) :
    (peekN n q).message x = q.message x := by
  induction n generalizing q with
  | zero => rfl
  | succ n ih => rw [peekN, ih, message_peek]

@[simp] theorem message_empty (x : String) : empty.message x = none := rfl

end BroadcastQueue

end CppGossip
