import CppGossip.Broadcast.Cursor
import CppGossip.Transition.Run

/-!
# The quota of a message

Between batches the two cursors of the queue stand together, so in a batch the
peeks go ahead of the pops by as many places as messages have been peeked, and
what an applied batch pops is what it has returned. A message is then counted
down once for each applied batch that returns it, and leaves the queue when the
count computed on its arrival is used up.
-/

namespace CppGossip

open Collection Transition

namespace BroadcastQueue

/-- The calls made on a queue by one thread: a message is pushed, which may also
leave the map in another order, or a batch is peeked and then applied or given up. -/
inductive Call where
  | push (place : ℕ) (msg : NodeState) (nodeNum : UInt32)
  | rehash (m : HashMap String (NodeState × Int))
  | batch (n : ℕ) (applied : Bool)

/-- What a call does. -/
def call (q : BroadcastQueue) : Call → BroadcastQueue
  | .push place msg nodeNum => q.push place msg nodeNum
  | .rehash m => q.rehash m
  | .batch n true => (peekN n q).applyPeek
  | .batch n false => (peekN n q).resetPeek

/-- The call is an applied batch in which `msg` is returned. -/
def Sends (msg : NodeState) (q : BroadcastQueue) : Call → Prop
  | .batch n true => msg ∈ peeks n q
  | _ => False

instance Sends.decidable (msg : NodeState) (q : BroadcastQueue) : ∀ c, Decidable (q.Sends msg c)
  | .batch n true => inferInstanceAs (Decidable (msg ∈ peeks n q))
  | .batch _ false | .push _ _ _ | .rehash _ => inferInstanceAs (Decidable False)

/-- The number of applied batches of a run that return `msg`. -/
def sent (msg : NodeState) : BroadcastQueue → List Call → ℕ
  | _, [] => 0
  | q, c :: cs => (if q.Sends msg c then 1 else 0) + sent msg (q.call c) cs

/-- The messages about `x` that are pushed. -/
def pushes (x : String) (cs : List Call) : List NodeState :=
  cs.filterMap fun
    | .push _ msg _ => if msg.name = x then some msg else none
    | _ => none

/-! ## In a batch -/

variable {q : BroadcastQueue} {returned : List NodeState} {x : String} {msg : NodeState}

/-- `peekIter` is ahead of `cur` by the number of messages peeked. -/
def InStep (q : BroadcastQueue) : Prop :=
  cycle q.peekIter q.m = (cycle q.cur q.m).rotate q.peeked

theorem InStep.peeksNext (h : InStep q) (hwithin : Within q.peekIter q.m) : q.PeeksNext := by
  intro hroom
  rw [← head?_cycle hwithin, h, List.head?_rotate (by rwa [length_cycle])]

theorem InStep.peek (h : InStep q) (hwithin : Within q.peekIter q.m) : InStep q.peek.2 := by
  by_cases hreturn : stand q.peekIter q.m ≠ none ∧ q.peeked < q.m.keys.length
  · obtain ⟨hne, hroom⟩ := hreturn
    obtain ⟨k, hk⟩ := Option.ne_none_iff_exists'.1 hne
    rw [peek_of_stand hk hroom]
    show cycle (next k q.m) q.m = (cycle q.cur q.m).rotate (q.peeked + 1)
    rw [cycle_next hwithin hk, h, List.rotate_rotate]
  · rw [peek_of_not hreturn]
    show cycle (stand q.peekIter q.m) q.m = (cycle q.cur q.m).rotate q.peeked
    rw [cycle_stand, h]

theorem Open.peekN (h : Open q returned) (hstep : InStep q) (n : ℕ) :
    Open (peekN n q) (returned ++ peeks n q) := by
  induction n generalizing q returned with
  | zero =>
      rw [peeks, List.append_nil]
      exact h
  | succ n ih =>
      have hnext := h.peek (hstep.peeksNext h.peekIter)
      have hrest := ih hnext (hstep.peek h.peekIter)
      rwa [List.append_assoc] at hrest

/-- Between batches: the cursors stand together and nothing is peeked. -/
structure Settled (q : BroadcastQueue) : Prop where
  open_nil : Open q []
  together : q.peekIter = q.cur
  peeked : q.peeked = 0

theorem settled_empty : Settled empty := ⟨open_empty, rfl, rfl⟩

theorem Settled.open_peekN (h : Settled q) (n : ℕ) : Open (peekN n q) (peeks n q) := by
  apply h.open_nil.peekN
  rw [InStep, h.together, h.peeked, List.rotate_zero]

/-- A batch that is given up leaves the queue as it was. -/
theorem Settled.call_reset (h : Settled q) (n : ℕ) : q.call (.batch n false) = q := by
  obtain ⟨m, cur, peekIter, peeked⟩ := q
  have htogether : peekIter = cur := h.together
  have hpeeked : peeked = 0 := h.peeked
  subst htogether hpeeked
  simp [call, resetPeek]

theorem settled_call (h : Settled q) (c : Call) : Settled (q.call c) := by
  cases c with
  | push place msg nodeNum =>
      have hopen : Open (q.push place msg nodeNum) [] := by
        apply h.open_nil.push
        rw [PushesApart, h.peeked]
        exact fun _ => List.not_mem_nil
      by_cases hacc : q.Accepts msg
      · rw [call]
        rw [push_of_accepts place nodeNum hacc] at hopen ⊢
        exact ⟨hopen, h.together, h.peeked⟩
      · rw [call, push_of_not_accepts place nodeNum hacc]
        exact h
  | rehash m =>
      exact ⟨h.open_nil.rehash (rehashesApart_of_peeked m h.peeked), h.together, h.peeked⟩
  | batch n applied =>
      cases applied with
      | true => exact ⟨(h.open_peekN n).applyPeek, rfl, rfl⟩
      | false =>
          rw [h.call_reset]
          exact h

theorem settled_run (cs : List Call) : Settled (run call empty cs) := by
  induction cs using List.reverseRecOn with
  | nil => exact settled_empty
  | append_singleton cs c ih =>
      rw [run_append_singleton]
      exact settled_call ih c

/-! ## What is queued about a name -/

/-- The message queued is of the greatest precedence among those pushed about the
name since it was last absent. -/
def Greatest (cs : List Call) (x : String) (msg : NodeState) : Prop :=
  ∃ cs₁ cs₂, cs = cs₁ ++ cs₂ ∧ (run call empty cs₁).message x = none ∧
    (∀ ds, ds <+: cs₂ → ds ≠ [] → (run call empty (cs₁ ++ ds)).message x ≠ none) ∧
    msg ∈ pushes x cs₂ ∧ ∀ m ∈ pushes x cs₂, m.precedence ≤ msg.precedence

theorem pushes_append_singleton (x : String) (cs : List Call) (c : Call) :
    pushes x (cs ++ [c]) = pushes x cs ++ pushes x [c] := List.filterMap_append

/-- What a call leaves queued about a name: the greatest of what was queued and
what is pushed, or nothing. -/
theorem message_call (q : BroadcastQueue) (c : Call) (hmsg : (q.call c).message x = some msg) :
    (q.message x = some msg ∧ ∀ m ∈ pushes x [c], m.precedence ≤ msg.precedence) ∨
      pushes x [c] = [msg] ∧ ∀ old ∈ q.message x, old.precedence ≤ msg.precedence := by
  cases c with
  | push place m nodeNum =>
      have hpushes : pushes x [.push place m nodeNum] = if m.name = x then [m] else [] := by
        by_cases hx : m.name = x
        · simp [pushes, hx]
        · simp [pushes, hx]
      rw [call, message_push] at hmsg
      rw [hpushes]
      split at hmsg
      case isTrue hx =>
        rw [if_pos hx]
        obtain ⟨hm, hold⟩ := (precedence_kept_le_iff m (q.message x) msg.precedence).1
          (by rw [Option.some.inj hmsg])
        rcases kept_eq_or m (q.message x) with hnew | hkept
        · right
          rw [← Option.some.inj hmsg, hnew]
          exact ⟨rfl, by rwa [← hnew, Option.some.inj hmsg]⟩
        · left
          refine ⟨hkept.trans hmsg, ?_⟩
          rintro m' hm'
          rwa [List.mem_singleton.1 hm']
      case isFalse hx =>
        rw [if_neg hx]
        exact Or.inl ⟨hmsg, fun m hm => absurd hm List.not_mem_nil⟩
  | rehash m =>
      refine Or.inl ⟨?_, fun m hm => absurd hm List.not_mem_nil⟩
      rwa [call, message_rehash] at hmsg
  | batch n applied =>
      refine Or.inl ⟨?_, fun m hm => absurd hm List.not_mem_nil⟩
      cases applied with
      | true => simpa using message_applyPeek hmsg
      | false => simpa [call] using hmsg

/-- The entry is the greatest of the messages pushed since the name was absent. -/
theorem greatest_run (cs : List Call) (hmsg : (run call empty cs).message x = some msg) :
    Greatest cs x msg := by
  induction cs using List.reverseRecOn generalizing msg with
  | nil => cases hmsg
  | append_singleton cs c ih =>
      rw [run_append_singleton] at hmsg
      have hlast : ∀ cs₁ cs₂, cs = cs₁ ++ cs₂ →
          (∀ ds, ds <+: cs₂ → ds ≠ [] → (run call empty (cs₁ ++ ds)).message x ≠ none) →
          ∀ ds, ds <+: cs₂ ++ [c] → ds ≠ [] → (run call empty (cs₁ ++ ds)).message x ≠ none := by
        intro cs₁ cs₂ hcs hpresent ds hds hne
        rcases List.prefix_concat_iff.1 hds with rfl | hbefore
        · rw [← List.append_assoc, ← hcs, run_append_singleton, hmsg]
          exact Option.some_ne_none _
        · exact hpresent ds hbefore hne
      rcases message_call _ c hmsg with ⟨hkept, hle⟩ | ⟨hnew, hle⟩
      · obtain ⟨cs₁, cs₂, hcs, habsent, hpresent, hmem, hmax⟩ := ih hkept
        refine ⟨cs₁, cs₂ ++ [c], by rw [hcs, List.append_assoc], habsent,
          hlast cs₁ cs₂ hcs hpresent, ?_, ?_⟩
        · rw [pushes_append_singleton]
          exact List.mem_append_left _ hmem
        · rw [pushes_append_singleton]
          intro m hm
          rcases List.mem_append.1 hm with hold | hm
          · exact hmax m hold
          · exact hle m hm
      · cases hbefore : (run call empty cs).message x with
        | none =>
            refine ⟨cs, [c], rfl, hbefore, hlast cs [] (List.append_nil cs).symm ?_, ?_, ?_⟩
            · intro ds hds hne
              exact absurd (List.prefix_nil.1 hds) hne
            · rw [hnew]
              exact List.mem_singleton_self msg
            · rw [hnew]
              intro m hm
              rw [List.mem_singleton.1 hm]
        | some old =>
            obtain ⟨cs₁, cs₂, hcs, habsent, hpresent, _, hmax⟩ := ih hbefore
            refine ⟨cs₁, cs₂ ++ [c], by rw [hcs, List.append_assoc], habsent,
              hlast cs₁ cs₂ hcs hpresent, ?_, ?_⟩
            · rw [pushes_append_singleton, hnew]
              simp
            · rw [pushes_append_singleton, hnew]
              intro m hm
              rcases List.mem_append.1 hm with hold | hm
              · exact (hmax m hold).trans (hle old hbefore)
              · rw [List.mem_singleton.1 hm]

/-! ## Every name once -/

theorem Settled.nodup_names (h : Settled q) :
    (q.m.entries.map fun entry => entry.2.1.name).Nodup := by
  have hkeys : (q.m.entries.map fun entry => entry.2.1.name) = q.m.keys := by
    apply List.map_congr_left
    intro entry hmem
    have he : q.m.lookup entry.1 = some entry.2 := AList.mem_lookup_iff.2 hmem
    exact h.open_nil.keyed entry.1 entry.2.1 (message_of_lookup he)
  rw [hkeys]
  exact q.m.keys_nodup

/-! ## The life of a message -/

/-- What a call makes of an entry: a greater message replaces it, an applied
batch that returns the message counts it down. -/
theorem lookup_call (h : Settled q) (c : Call) {t : Int} (he : q.m.lookup msg.name = some (msg, t)) :
    (∃ place m nodeNum, c = .push place m nodeNum ∧ m.name = msg.name ∧
        msg.precedence < m.precedence ∧
        (q.call c).m.lookup msg.name = some (m, times nodeNum)) ∨
      (q.call c).m.lookup msg.name = if q.Sends msg c then charge (msg, t) else some (msg, t) := by
  cases c with
  | push place m nodeNum =>
      by_cases hacc : q.Accepts m
      · have hlookup := lookup_push place nodeNum hacc msg.name
        rw [call, hlookup]
        by_cases hname : msg.name = m.name
        · left
          have hless : msg.precedence < m.precedence :=
            (supersedes_iff m msg).1 (hacc msg (hname ▸ message_of_lookup he))
          exact ⟨place, m, nodeNum, rfl, hname.symm, hless, if_pos hname⟩
        · right
          rw [if_neg hname]
          exact he
      · right
        have hpush : q.call (.push place m nodeNum) = q := push_of_not_accepts place nodeNum hacc
        rw [hpush]
        exact he
  | rehash m =>
      right
      rw [call, lookup_rehash]
      exact he
  | batch n applied =>
      right
      cases applied with
      | true =>
          have hcharges := (h.open_peekN n).charges.2.2 msg.name
          rw [m_peekN, he] at hcharges
          exact hcharges
      | false =>
          rw [h.call_reset]
          exact he

/-- Throughout the run of `cs` the message is queued, with as many transmissions
left of `t` as have not been made. -/
def Stored (msg : NodeState) (t : Int) (q : BroadcastQueue) (cs : List Call) : Prop :=
  ∀ ds, ds <+: cs → sent msg q ds < t ∧
    (run call q ds).m.lookup msg.name = some (msg, t - sent msg q ds)

/-- From `q` on the message is sent `t` times and then removed, unless a greater
one about the same name replaces it first. -/
def Spent (msg : NodeState) (t : Int) (q : BroadcastQueue) (cs : List Call) : Prop :=
  Stored msg t q cs ∨
    (∃ ds n es, cs = ds ++ .batch n true :: es ∧ Stored msg t q ds ∧
      msg ∈ peeks n (run call q ds) ∧ sent msg q (ds ++ [.batch n true]) = t ∧
      (run call q (ds ++ [.batch n true])).message msg.name = none) ∨
    ∃ ds place m nodeNum es, cs = ds ++ .push place m nodeNum :: es ∧ Stored msg t q ds ∧
      m.name = msg.name ∧ msg.precedence < m.precedence ∧
      (run call q (ds ++ [.push place m nodeNum])).m.lookup msg.name = some (m, times nodeNum)

theorem stored_nil {t : Int} (ht : 1 ≤ t) (he : q.m.lookup msg.name = some (msg, t)) :
    Stored msg t q [] := by
  intro ds hds
  obtain rfl := List.prefix_nil.1 hds
  refine ⟨?_, by simpa [sent] using he⟩
  rw [sent]
  omega

/-- A call that does not count the message down, or does so before the last time,
leaves it stored. -/
theorem Stored.cons {t : Int} {c : Call} {cs : List Call} (ht : 1 ≤ t)
    (he : q.m.lookup msg.name = some (msg, t))
    (h : Stored msg (t - (if q.Sends msg c then 1 else 0 : ℕ)) (q.call c) cs) :
    Stored msg t q (c :: cs) := by
  intro ds hds
  cases ds with
  | nil => exact stored_nil ht he [] List.nil_prefix
  | cons d ds =>
      obtain ⟨rfl, htail⟩ := List.cons_prefix_cons.1 hds
      obtain ⟨hlt, hlookup⟩ := h ds htail
      have hsent : sent msg q (d :: ds) =
          (if q.Sends msg d then 1 else 0) + sent msg (q.call d) ds := rfl
      rw [hsent, run_cons, hlookup]
      refine ⟨by push_cast at hlt ⊢; omega, ?_⟩
      congr 2
      push_cast
      omega

theorem Spent.cons {t : Int} {c : Call} {cs : List Call} (ht : 1 ≤ t)
    (he : q.m.lookup msg.name = some (msg, t))
    (h : Spent msg (t - (if q.Sends msg c then 1 else 0 : ℕ)) (q.call c) cs) :
    Spent msg t q (c :: cs) := by
  rcases h with hstored | ⟨ds, n, es, rfl, hstored, hmem, hsent, hgone⟩ |
    ⟨ds, place, m, nodeNum, es, rfl, hstored, hreplaced⟩
  · exact Or.inl (hstored.cons ht he)
  · refine Or.inr (Or.inl ⟨c :: ds, n, es, rfl, hstored.cons ht he, hmem, ?_, hgone⟩)
    rw [List.cons_append, sent]
    push_cast at hsent ⊢
    omega
  · exact Or.inr (Or.inr ⟨c :: ds, place, m, nodeNum, es, rfl, hstored.cons ht he, hreplaced⟩)

theorem spent_run (h : Settled q) {t : Int} (ht : 1 ≤ t)
    (he : q.m.lookup msg.name = some (msg, t)) (cs : List Call) : Spent msg t q cs := by
  induction cs generalizing q t with
  | nil => exact Or.inl (stored_nil ht he)
  | cons c cs ih =>
      rcases lookup_call h c he with ⟨place, m, nodeNum, rfl, hname, hlt, hnew⟩ | hnext
      · exact Or.inr (Or.inr ⟨[], place, m, nodeNum, cs, rfl, stored_nil ht he, hname, hlt, hnew⟩)
      · have hsettled : Settled (q.call c) := settled_call h c
        by_cases hsends : q.Sends msg c
        · rw [if_pos hsends, charge] at hnext
          rcases Int.lt_or_le (t - 1) 1 with hlast | hmore
          · -- this was the last time
            rw [if_pos hlast] at hnext
            obtain ⟨n, rfl⟩ : ∃ n, c = .batch n true := by
              cases c with
              | batch n applied =>
                  cases applied with
                  | true => exact ⟨n, rfl⟩
                  | false => exact hsends.elim
              | push place m nodeNum => exact hsends.elim
              | rehash m => exact hsends.elim
            refine Or.inr (Or.inl ⟨[], n, cs, rfl, stored_nil ht he, hsends, ?_, ?_⟩)
            · rw [List.nil_append, sent, if_pos hsends, sent]
              push_cast
              omega
            · show message (q.call (.batch n true)) msg.name = none
              rw [message, hnext]
              rfl
          · rw [if_neg (Int.not_lt.2 hmore)] at hnext
            apply Spent.cons ht he
            rw [if_pos hsends]
            exact ih hsettled hmore hnext
        · rw [if_neg hsends] at hnext
          apply Spent.cons ht he
          rw [if_neg hsends]
          simpa using ih hsettled ht hnext

/-- In every state the queue has one entry for each name, the greatest message
pushed since the name was absent; a batch returns no name twice, and changes
nothing when it is given up; and a message that is accepted is sent as often as
was computed then and is gone after that, unless a greater one replaces it. -/
theorem quota_run (cs : List Call) :
    let q := run call empty cs
    (q.m.entries.map fun entry => entry.2.1.name).Nodup ∧
      (∀ x msg, q.message x = some msg → Greatest cs x msg) ∧
      (∀ n, ((peeks n q).map NodeState.name).Nodup) ∧
      (∀ n, q.call (.batch n false) = q) ∧
      ∀ place msg nodeNum, q.Accepts msg →
        1 ≤ times nodeNum ∧ ∀ ds, Spent msg (times nodeNum) (q.call (.push place msg nodeNum)) ds := by
  intro q
  have hsettled : Settled q := settled_run cs
  refine ⟨hsettled.nodup_names, fun x msg hmsg => greatest_run cs hmsg,
    fun n => (hsettled.open_peekN n).nodup_names, hsettled.call_reset, ?_⟩
  intro place msg nodeNum hacc
  have hstored : (q.call (.push place msg nodeNum)).m.lookup msg.name =
      some (msg, times nodeNum) := by
    rw [call, lookup_push place nodeNum hacc, if_pos rfl]
  have ht := one_le_times nodeNum
  exact ⟨ht, spent_run (settled_call hsettled _) ht hstored⟩

end BroadcastQueue

end CppGossip
