import CppGossip.Broadcast.Message
import CppGossip.Collection.Cycle

/-!
# The two cursors of the queue

Popping goes round the map from `cur`, and peeking from `peekIter`. A pop counts
down the message at which `cur` stands, so `n` pops count down the first `n`
messages of its circle, each once, whatever is erased on the way. `Open` is what
a batch needs: the messages peeked in it are those that the pops will take.
-/

namespace CppGossip

open Collection

namespace BroadcastQueue

/-- What is left of an entry that has been sent once more. -/
def charge (e : NodeState × Int) : Option (NodeState × Int) :=
  if e.2 - 1 < 1 then none else some (e.1, e.2 - 1)

/-- Every message is queued under the name it is about. -/
def Keyed (q : BroadcastQueue) : Prop := ∀ x m, q.message x = some m → m.name = x

variable {q : BroadcastQueue} {k x : String} {e : NodeState × Int} {n : ℕ}

theorem keyed_empty : Keyed empty := by
  intro x m hm
  cases hm

theorem message_of_lookup (he : q.m.lookup x = some e) : q.message x = some e.1 := by
  rw [message, he]
  rfl

theorem exists_lookup (hk : k ∈ q.m) : ∃ e, q.m.lookup k = some e :=
  Option.isSome_iff_exists.1 (AList.lookup_isSome.2 hk)

/-! ## Pushing -/

theorem Keyed.push (h : q.Keyed) (place : ℕ) (msg : NodeState) (nodeNum : UInt32) :
    (q.push place msg nodeNum).Keyed := by
  intro x m hm
  rw [message_push] at hm
  split at hm
  case isTrue hx =>
    rcases kept_eq_or msg (q.message x) with hnew | hold
    · rw [← Option.some.inj hm, hnew]
      exact hx
    · exact h x m (hold.trans hm)
  case isFalse => exact h x m hm

/-- `Push` stores the message: none is queued about its name, or a lesser one. -/
def Accepts (msg : NodeState) (q : BroadcastQueue) : Prop :=
  ∀ old ∈ q.message msg.name, Supersedes msg old

instance (msg : NodeState) (q : BroadcastQueue) : Decidable (q.Accepts msg) :=
  inferInstanceAs (Decidable (∀ old ∈ q.message msg.name, _))

theorem push_of_accepts (place : ℕ) {msg : NodeState} (nodeNum : UInt32) (h : q.Accepts msg) :
    q.push place msg nodeNum =
      { q with m := assign place msg.name (msg, times nodeNum) q.m } := by
  unfold BroadcastQueue.push
  split
  case h_1 => rfl
  case h_2 old t he => exact if_pos (h old (message_of_lookup he))

theorem push_of_not_accepts (place : ℕ) {msg : NodeState} (nodeNum : UInt32)
    (h : ¬ q.Accepts msg) : q.push place msg nodeNum = q := by
  unfold BroadcastQueue.push
  split
  case h_1 he =>
    refine absurd (fun old hold => ?_) h
    rw [message, he] at hold
    cases hold
  case h_2 old t he =>
    refine if_neg fun hs => h fun old' hold => ?_
    rwa [← Option.some.inj ((message_of_lookup he).symm.trans hold)]

theorem lookup_push (place : ℕ) {msg : NodeState} (nodeNum : UInt32) (h : q.Accepts msg)
    (x : String) :
    (q.push place msg nodeNum).m.lookup x =
      if x = msg.name then some (msg, times nodeNum) else q.m.lookup x := by
  rw [push_of_accepts place nodeNum h, lookup_assign]

theorem one_le_times (nodeNum : UInt32) : 1 ≤ times nodeNum := by
  have hnum : 2 ≤ (if nodeNum ≤ 1 then 2 else nodeNum).toNat := by
    split
    case isTrue => decide
    case isFalse hlt =>
      rw [UInt32.not_le, UInt32.lt_iff_toNat_lt] at hlt
      exact hlt
  have hpos : 0 < Nat.clog 10 (if nodeNum ≤ 1 then 2 else nodeNum).toNat :=
    Nat.clog_pos (by decide) hnum
  unfold times broadcastMulti
  dsimp only
  omega

/-! ## Popping -/

theorem pop_of_none (hk : stand q.cur q.m = none) : q.pop = (none, q) := by
  have hstand : (if q.cur = none then first q.m else q.cur) = none := hk
  simp only [pop, hstand]

theorem pop_of_stand (hk : stand q.cur q.m = some k) (he : q.m.lookup k = some e) :
    q.pop.1 = some e.1 ∧
      q.pop.2 =
        { q with
          m := (charge e).elim (q.m.erase k) fun e' => assign 0 k e' q.m
          cur := next k q.m } := by
  have hstand : (if q.cur = none then first q.m else q.cur) = some k := hk
  obtain ⟨msg, t⟩ := e
  simp only [pop, hstand, he, charge]
  split
  · exact ⟨rfl, rfl⟩
  · exact ⟨rfl, rfl⟩

theorem lookup_pop (hk : stand q.cur q.m = some k) (he : q.m.lookup k = some e) (x : String) :
    q.pop.2.m.lookup x = if x = k then charge e else q.m.lookup x := by
  rw [(pop_of_stand hk he).2]
  cases charge e with
  | none => exact lookup_erase k x q.m
  | some e' => exact lookup_assign 0 k x e' q.m

theorem within_cur_pop (h : Within q.cur q.m) : Within q.pop.2.cur q.pop.2.m := by
  cases hk : stand q.cur q.m with
  | none =>
      rw [pop_of_none hk]
      exact h
  | some k =>
      obtain ⟨e, he⟩ := exists_lookup (mem_of_stand h hk)
      rw [(pop_of_stand hk he).2]
      cases charge e with
      | none => exact within_next_erase h hk
      | some e' => exact (within_next h hk).assign 0 k e'

/-- After a pop the circle goes on with what came next. -/
theorem cycle_cur_pop (h : Within q.cur q.m) :
    ∃ back, cycle q.pop.2.cur q.pop.2.m = (cycle q.cur q.m).tail ++ back := by
  cases hk : stand q.cur q.m with
  | none =>
      rw [pop_of_none hk]
      have hempty : cycle q.cur q.m = [] := by
        rw [← List.head?_eq_none_iff, head?_cycle h, hk]
      exact ⟨[], by rw [hempty]; rfl⟩
  | some k =>
      obtain ⟨e, he⟩ := exists_lookup (mem_of_stand h hk)
      rw [(pop_of_stand hk he).2]
      cases charge e with
      | none => exact ⟨[], by simp [cycle_next_erase h hk]⟩
      | some e' =>
          have hkeys := keys_assign_of_mem 0 e' (mem_of_stand h hk)
          obtain ⟨A, B, _, hcycle⟩ := exists_split_of_stand h hk
          refine ⟨[k], ?_⟩
          show cycle (next k q.m) (assign 0 k e' q.m) = _
          rw [cycle_congr hkeys, cycle_next h hk, hcycle]
          simp

@[simp] theorem peeked_pop (q : BroadcastQueue) : q.pop.2.peeked = q.peeked := by
  unfold pop
  split
  · rfl
  · split
    · rfl
    · split
      · rfl
      · rfl

theorem within_cur_popN (h : Within q.cur q.m) (n : ℕ) :
    Within (popN n q).cur (popN n q).m := by
  induction n generalizing q with
  | zero => exact h
  | succ n ih => exact ih (within_cur_pop h)

/-- A pop takes the head of the circle and goes on with the rest. -/
theorem pop_of_cycle (h : Within q.cur q.m) {rest : List String}
    (hcycle : cycle q.cur q.m = k :: rest) :
    ∃ e back, q.m.lookup k = some e ∧ q.pop.1 = some e.1 ∧
      (∀ x, q.pop.2.m.lookup x = if x = k then charge e else q.m.lookup x) ∧
      cycle q.pop.2.cur q.pop.2.m = rest ++ back := by
  have hk : stand q.cur q.m = some k := by
    rw [← head?_cycle h, hcycle]
    rfl
  obtain ⟨e, he⟩ := exists_lookup (mem_of_stand h hk)
  obtain ⟨back, hback⟩ := cycle_cur_pop h
  rw [hcycle, List.tail_cons] at hback
  exact ⟨e, back, he, (pop_of_stand hk he).1, lookup_pop hk he, hback⟩

/-- `n` pops count down the first `n` messages of the circle. -/
theorem lookup_popN (h : Within q.cur q.m) (hn : n ≤ (cycle q.cur q.m).length) (x : String) :
    (popN n q).m.lookup x =
      if x ∈ (cycle q.cur q.m).take n then (q.m.lookup x).bind charge else q.m.lookup x := by
  induction n generalizing q with
  | zero => simp [popN]
  | succ n ih =>
      cases hcycle : cycle q.cur q.m with
      | nil =>
          rw [hcycle] at hn
          cases hn
      | cons k rest =>
          obtain ⟨e, back, he, _, hlookup, hback⟩ := pop_of_cycle h hcycle
          have hlen : n ≤ rest.length := by simpa [hcycle] using hn
          have hnodup : (k :: rest).Nodup := hcycle ▸ nodup_cycle q.cur q.m
          rw [popN, ih (within_cur_pop h) (by rw [hback, List.length_append]; omega), hback,
            List.take_append_of_le_length hlen, hlookup, List.take_succ_cons]
          by_cases hx : x = k
          · subst hx
            have hnot : x ∉ rest.take n := fun hmem =>
              (List.nodup_cons.1 hnodup).1 (List.mem_of_mem_take hmem)
            simp [hnot, he]
          · simp [hx]

/-- The messages taken by `n` pops. -/
def popped : ℕ → BroadcastQueue → List NodeState
  | 0, _ => []
  | n + 1, q => q.pop.1.toList ++ popped n q.pop.2

theorem popped_eq (h : Within q.cur q.m) (hn : n ≤ (cycle q.cur q.m).length) :
    popped n q = ((cycle q.cur q.m).take n).filterMap q.message := by
  induction n generalizing q with
  | zero => rfl
  | succ n ih =>
      cases hcycle : cycle q.cur q.m with
      | nil =>
          rw [hcycle] at hn
          cases hn
      | cons k rest =>
          obtain ⟨e, back, he, hpop, hlookup, hback⟩ := pop_of_cycle h hcycle
          have hlen : n ≤ rest.length := by simpa [hcycle] using hn
          have hnodup : (k :: rest).Nodup := hcycle ▸ nodup_cycle q.cur q.m
          have hrest : (rest.take n).filterMap q.pop.2.message =
              (rest.take n).filterMap q.message := by
            apply List.filterMap_congr
            intro x hx
            have hne : x ≠ k := by
              rintro rfl
              exact (List.nodup_cons.1 hnodup).1 (List.mem_of_mem_take hx)
            rw [message, hlookup, if_neg hne]
            rfl
          rw [popped, ih (within_cur_pop h) (by rw [hback, List.length_append]; omega), hback,
            List.take_append_of_le_length hlen, hrest, hpop, List.take_succ_cons,
            List.filterMap_cons_some (message_of_lookup he)]
          rfl

/-! ## Peeking -/

/-- A peek that returns nothing only puts the cursor back from the end. -/
theorem peek_of_not (h : ¬ (stand q.peekIter q.m ≠ none ∧ q.peeked < q.m.keys.length)) :
    q.peek = (none, { q with peekIter := stand q.peekIter q.m }) := by
  have hstand : (if q.peekIter = none then first q.m else q.peekIter) = stand q.peekIter q.m := rfl
  simp only [peek, hstand]
  cases hk : stand q.peekIter q.m with
  | none => rfl
  | some k =>
      have hfull : q.peeked ≥ q.m.keys.length := by
        by_contra hroom
        exact h ⟨by simp [hk], Nat.not_le.1 hroom⟩
      exact if_pos hfull

theorem peek_of_stand (hk : stand q.peekIter q.m = some k) (hroom : q.peeked < q.m.keys.length) :
    q.peek = (q.message k, { q with peekIter := next k q.m, peeked := q.peeked + 1 }) := by
  have hstand : (if q.peekIter = none then first q.m else q.peekIter) = some k := hk
  simp only [peek, hstand]
  exact if_neg (Nat.not_le.2 hroom)

@[simp] theorem m_peek (q : BroadcastQueue) : q.peek.2.m = q.m := by
  unfold peek
  split
  · rfl
  · split
    · rfl
    · rfl

@[simp] theorem cur_peek (q : BroadcastQueue) : q.peek.2.cur = q.cur := by
  unfold peek
  split
  · rfl
  · split
    · rfl
    · rfl

@[simp] theorem m_peekN (n : ℕ) (q : BroadcastQueue) : (peekN n q).m = q.m := by
  induction n generalizing q with
  | zero => rfl
  | succ n ih => rw [peekN, ih, m_peek]

@[simp] theorem cur_peekN (n : ℕ) (q : BroadcastQueue) : (peekN n q).cur = q.cur := by
  induction n generalizing q with
  | zero => rfl
  | succ n ih => rw [peekN, ih, cur_peek]

/-- The messages returned by `n` peeks. -/
def peeks : ℕ → BroadcastQueue → List NodeState
  | 0, _ => []
  | n + 1, q => q.peek.1.toList ++ peeks n q.peek.2

theorem exists_message_of_peek {m : NodeState} (h : q.peek.1 = some m) :
    ∃ x, q.message x = some m := by
  unfold peek at h
  split at h
  case h_1 => cases h
  case h_2 k _ =>
    split at h
    case isTrue => cases h
    case isFalse => exact ⟨k, h⟩

/-- The messages returned are queued. -/
theorem exists_message_of_mem_peeks {m : NodeState} (h : m ∈ peeks n q) :
    ∃ x, q.message x = some m := by
  induction n generalizing q with
  | zero => cases h
  | succ n ih =>
      rcases List.mem_append.1 h with hfirst | hrest
      · exact exists_message_of_peek (Option.mem_toList.1 hfirst)
      · obtain ⟨x, hx⟩ := ih hrest
        exact ⟨x, by rwa [message_peek] at hx⟩

/-! ## Batches -/

/-- The counters of the messages in `returned` are counted down, each once, and
no others. -/
def Charges (returned : List NodeState) (q q' : BroadcastQueue) : Prop :=
  returned.Nodup ∧ (∀ m ∈ returned, q.message m.name = some m) ∧
    ∀ x, q'.m.lookup x =
      (q.m.lookup x).bind fun e => if e.1 ∈ returned then charge e else some e

/-- Both cursors are in the map, and the messages returned since the last batch
are those that will be popped when this one is applied. -/
structure Open (q : BroadcastQueue) (returned : List NodeState) : Prop where
  keyed : q.Keyed
  cur : Within q.cur q.m
  peekIter : Within q.peekIter q.m
  peeked_le : q.peeked ≤ (cycle q.cur q.m).length
  returned : returned = ((cycle q.cur q.m).take q.peeked).filterMap q.message

/-- A peek that is to return a message stands as many places after `cur` as there
are messages peeked. -/
def PeeksNext (q : BroadcastQueue) : Prop :=
  q.peeked < q.m.keys.length → stand q.peekIter q.m = (cycle q.cur q.m)[q.peeked]?

instance (q : BroadcastQueue) : Decidable q.PeeksNext := inferInstanceAs (Decidable (_ → _))

/-- A message that `Push` stores does not come among the messages peeked, by
replacing one of them or at a new key before one of them. -/
def PushesApart (place : ℕ) (msg : NodeState) (nodeNum : UInt32) (q : BroadcastQueue) : Prop :=
  q.Accepts msg → msg.name ∉ (cycle q.cur (q.push place msg nodeNum).m).take q.peeked

instance (place : ℕ) (msg : NodeState) (nodeNum : UInt32) (q : BroadcastQueue) :
    Decidable (q.PushesApart place msg nodeNum) := inferInstanceAs (Decidable (_ → _))

/-- A rehash leaves the messages peeked where they are, as far as `cur` is concerned. -/
def RehashesApart (m : HashMap String (NodeState × Int)) (q : BroadcastQueue) : Prop :=
  (cycle q.cur (q.rehash m).m).take q.peeked = (cycle q.cur q.m).take q.peeked

instance (m : HashMap String (NodeState × Int)) (q : BroadcastQueue) :
    Decidable (q.RehashesApart m) := inferInstanceAs (Decidable (_ = _))

variable {returned : List NodeState}

theorem open_empty : Open empty [] where
  keyed := keyed_empty
  cur := within_none _
  peekIter := within_none _
  peeked_le := Nat.zero_le _
  returned := rfl

theorem Open.mem_returned_iff (h : Open q returned) {m : NodeState} :
    m ∈ returned ↔ q.message m.name = some m ∧ m.name ∈ (cycle q.cur q.m).take q.peeked := by
  rw [h.returned, List.mem_filterMap]
  constructor
  · rintro ⟨k, hk, hm⟩
    obtain rfl : m.name = k := h.keyed k m hm
    exact ⟨hm, hk⟩
  · rintro ⟨hm, hk⟩
    exact ⟨m.name, hk, hm⟩

theorem Open.nodup_names (h : Open q returned) : (returned.map NodeState.name).Nodup := by
  have hnames : returned.map NodeState.name =
      ((cycle q.cur q.m).take q.peeked).filterMap fun k => (q.message k).map NodeState.name := by
    rw [h.returned, List.map_filterMap]
  rw [hnames]
  apply (List.Nodup.sublist (List.take_sublist _ _) (nodup_cycle q.cur q.m)).filterMap
  intro k₁ k₂ x h₁ h₂
  obtain ⟨m₁, hm₁, hx₁⟩ := Option.map_eq_some_iff.1 h₁
  obtain ⟨m₂, hm₂, hx₂⟩ := Option.map_eq_some_iff.1 h₂
  rw [← h.keyed k₁ m₁ hm₁, ← h.keyed k₂ m₂ hm₂, hx₁, hx₂]

/-- The message returned by such a peek is the one that one more pop will take. -/
theorem Open.peek (h : Open q returned) (hstand : q.PeeksNext) :
    Open q.peek.2 (returned ++ q.peek.1.toList) := by
  by_cases hreturn : stand q.peekIter q.m ≠ none ∧ q.peeked < q.m.keys.length
  · obtain ⟨hne, hroom⟩ := hreturn
    obtain ⟨k, hk⟩ := Option.ne_none_iff_exists'.1 hne
    obtain ⟨e, he⟩ := exists_lookup (mem_of_stand h.peekIter hk)
    have hget : (cycle q.cur q.m)[q.peeked]? = some k := (hstand hroom).symm.trans hk
    have hlen : q.peeked + 1 ≤ (cycle q.cur q.m).length := by rwa [length_cycle]
    have hmessage : q.message k = some e.1 := message_of_lookup he
    rw [peek_of_stand hk hroom]
    refine ⟨h.keyed, h.cur, within_next h.peekIter hk, hlen, ?_⟩
    show _ = ((cycle q.cur q.m).take (q.peeked + 1)).filterMap q.message
    rw [List.take_add_one, hget, List.filterMap_append, ← h.returned, hmessage]
    simp [hmessage]
  · rw [peek_of_not hreturn]
    exact ⟨h.keyed, h.cur, within_stand h.peekIter, h.peeked_le,
      (List.append_nil _).trans h.returned⟩

theorem Open.resetPeek (h : Open q returned) : Open q.resetPeek [] :=
  ⟨h.keyed, h.cur, h.cur, Nat.zero_le _, rfl⟩

theorem Open.applyPeek (h : Open q returned) : Open q.applyPeek [] where
  keyed x m hm := h.keyed x m (message_applyPeek hm)
  cur := within_cur_popN h.cur q.peeked
  peekIter := within_cur_popN h.cur q.peeked
  peeked_le := Nat.zero_le _
  returned := rfl

theorem Open.popped_eq (h : Open q returned) : popped q.peeked q = returned :=
  (BroadcastQueue.popped_eq h.cur h.peeked_le).trans h.returned.symm

/-- What is popped when a batch is applied are the messages returned in it. -/
theorem Open.charges (h : Open q returned) : Charges returned q q.applyPeek := by
  refine ⟨h.nodup_names.of_map _, fun m hm => (h.mem_returned_iff.1 hm).1, fun x => ?_⟩
  have hlookup : q.applyPeek.m.lookup x = (popN q.peeked q).m.lookup x := rfl
  rw [hlookup, lookup_popN h.cur h.peeked_le]
  cases he : q.m.lookup x with
  | none => simp
  | some e =>
      have hname : e.1.name = x := h.keyed x e.1 (message_of_lookup he)
      have hiff : e.1 ∈ returned ↔ x ∈ (cycle q.cur q.m).take q.peeked := by
        rw [h.mem_returned_iff, hname, and_iff_right (message_of_lookup he)]
      simp only [Option.bind_some, hiff]

theorem Open.push (h : Open q returned) {place : ℕ} {msg : NodeState} {nodeNum : UInt32}
    (hapart : q.PushesApart place msg nodeNum) :
    Open (q.push place msg nodeNum) returned := by
  have hkeyed : (q.push place msg nodeNum).Keyed := h.keyed.push place msg nodeNum
  by_cases hacc : q.Accepts msg
  · have hnot := hapart hacc
    have hmessage : ∀ x, x ≠ msg.name → (q.push place msg nodeNum).message x = q.message x :=
      fun x hx => message_push_of_ne place (Ne.symm hx) nodeNum q
    rw [push_of_accepts place nodeNum hacc] at hkeyed hnot hmessage ⊢
    obtain ⟨htake, hlen⟩ := take_cycle_assign h.cur h.peeked_le hnot
    refine ⟨hkeyed, h.cur.assign _ _ _, h.peekIter.assign _ _ _, hlen, ?_⟩
    rw [h.returned, ← htake]
    refine (List.filterMap_congr fun x hx => ?_).symm
    exact hmessage x fun heq => hnot (heq ▸ hx)
  · rw [push_of_not_accepts place nodeNum hacc]
    exact h

theorem Open.rehash (h : Open q returned) {m : HashMap String (NodeState × Int)}
    (hapart : q.RehashesApart m) : Open (q.rehash m) returned where
  keyed x msg hmsg := h.keyed x msg (by rwa [message_rehash] at hmsg)
  cur := h.cur.reorder m
  peekIter := h.peekIter.reorder m
  peeked_le := (length_cycle_reorder q.cur m q.m).symm ▸ h.peeked_le
  returned := by
    have htake : (cycle q.cur (q.rehash m).m).take (q.rehash m).peeked =
        (cycle q.cur q.m).take q.peeked := hapart
    show _ = ((cycle q.cur (q.rehash m).m).take (q.rehash m).peeked).filterMap (q.rehash m).message
    rw [htake, h.returned]
    exact List.filterMap_congr fun x _ => (message_rehash m q x).symm

/-- Nothing is peeked between batches, and so nothing can come between. -/
theorem rehashesApart_of_peeked (m : HashMap String (NodeState × Int)) (h : q.peeked = 0) :
    q.RehashesApart m := by
  rw [RehashesApart, h, List.take_zero, List.take_zero]

end BroadcastQueue

end CppGossip
