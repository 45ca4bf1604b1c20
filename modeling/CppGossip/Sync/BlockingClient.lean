import CppGossip.Probe.AsyncClient
import CppGossip.Probe.Ticker

/-!
# The client of a state sync

`syncState` makes four calls that block, each until its operation has ended. A call
with a timeout sets the timer of an actor, which waits for it as long as the client
lives, closes the socket when it finds the deadline passed, and sets no new one. The
service runs within the calls only: between them the clock goes on, and what is queued
stays queued. Neither the end of a call nor a call without a timeout takes back a
deadline that has been set.

`Punctual` says that no call is cut short by the deadline of another, and
`SyncState.ends` that `syncState` is over when four timeouts have passed. The clock
counts nanoseconds.
-/

namespace CppGossip

open Transition

/-- `time_point::max()` of `steady_clock`. -/
def timePointMax : ℕ := 9223372036854775807

/-- `std::chrono::milliseconds`. -/
def milliseconds (n : ℕ) : ℕ := n * 1000000

/-- `expires_at`. -/
def SteadyTimer.expireAt (time : ℕ) (t : SteadyTimer) : SteadyTimer :=
  { t.cancel with expiresAt := time }

theorem SteadyTimer.now_expiresFromNow (t : SteadyTimer) (d : ℕ) :
    (t.expiresFromNow d).now = t.now := rfl

/-- The handler of an operation is yet to run. -/
def Operation.Outstanding : Operation → Prop
  | .pending | .ready _ => True
  | .idle | .done _ => False

instance Operation.Outstanding.decidable : ∀ o : Operation, Decidable o.Outstanding
  | .pending | .ready _ => inferInstanceAs (Decidable True)
  | .idle | .done _ => inferInstanceAs (Decidable False)

namespace BlockingClient

/-- `Connect`, or `Write` and `ReadFull`, which do the same with the client. -/
inductive Call where
  | connect
  | transfer
deriving DecidableEq

end BlockingClient

/-- `class BlockingClient` with the call that it is in, or was in last. The last three
record when that call was made, with what timeout, and when the actor closed the socket
in it. -/
structure BlockingClient where
  timer : SteadyTimer
  isOpen : Bool
  call : BlockingClient.Call
  operation : Operation
  started : ℕ
  timeout : Int
  aborted : Option ℕ
deriving DecidableEq

namespace BlockingClient

/-- `check_deadline`. -/
def checkDeadline (c : BlockingClient) : BlockingClient :=
  let c :=
    if c.timer.expiresAt ≤ c.timer.now then
      { c with
        isOpen := false
        operation := c.operation.cancel
        timer := c.timer.expireAt timePointMax
        aborted := some c.timer.now }
    else c
  { c with timer := c.timer.asyncWait }

/-- The constructor. -/
def new (now : ℕ) : BlockingClient :=
  checkDeadline
    { timer := { now := now, expiresAt := timePointMax, pending := 0, ready := 0 }
      isOpen := false
      call := .connect
      operation := .idle
      started := now
      timeout := 0
      aborted := none }

/-- `Connect`, `Write` or `ReadFull` up to where it blocks. `async_connect` opens the
socket; on a socket that is closed the other operations fail at once. -/
def start (call : Call) (timeout : Int) (c : BlockingClient) : BlockingClient :=
  let timer :=
    if timeout > 0 then c.timer.expiresFromNow (milliseconds timeout.toNat) else c.timer
  { timer := timer
    isOpen := call = .connect ∨ c.isOpen
    call := call
    operation := if call = .connect ∨ c.isOpen then .pending else .ready false
    started := c.timer.now
    timeout := timeout
    aborted := none }

/-- The handler of the operation, which sets `ec`, and the end of the call. -/
def finish (ok : Bool) (c : BlockingClient) : BlockingClient :=
  { c with operation := .done (ok && (c.call ≠ .connect || c.isOpen)) }

/-- What can happen. -/
inductive Event where
  | elapse (elapsed : ℕ)
  | start (call : Call) (timeout : Int)
  | close
  /-- the timer expires -/
  | expire
  | complete (ok : Bool)
  /-- the handler of the wait runs -/
  | runWait
  /-- the handler of the operation runs -/
  | runOperation
deriving DecidableEq

/-- The client is in a call, which blocks. -/
def InCall (c : BlockingClient) : Prop := c.operation.Outstanding

instance (c : BlockingClient) : Decidable c.InCall :=
  inferInstanceAs (Decidable c.operation.Outstanding)

/-- The service runs within the calls. The clock does not come to its end. -/
def Enabled (c : BlockingClient) : Event → Prop
  | .elapse elapsed => c.timer.now + elapsed < timePointMax
  | .start _ timeout =>
      ¬ c.InCall ∧ c.timer.now + milliseconds timeout.toNat < timePointMax
  | .close => ¬ c.InCall
  | .expire => c.InCall ∧ c.timer.expiresAt ≤ c.timer.now ∧ 0 < c.timer.pending
  | .complete _ => c.operation = .pending
  | .runWait => c.InCall ∧ 0 < c.timer.ready
  | .runOperation => ∃ ok, c.operation = .ready ok

instance Enabled.decidable (c : BlockingClient) : ∀ e, Decidable (c.Enabled e)
  | .elapse _ => inferInstanceAs (Decidable (_ < _))
  | .start _ _ => inferInstanceAs (Decidable (_ ∧ _))
  | .close => inferInstanceAs (Decidable (¬ _))
  | .expire => inferInstanceAs (Decidable (_ ∧ _ ∧ _))
  | .complete _ => inferInstanceAs (Decidable (_ = _))
  | .runWait => inferInstanceAs (Decidable (_ ∧ _))
  | .runOperation => inferInstanceAs (Decidable (∃ _, _ = _))

/-- What an event does. -/
def step (c : BlockingClient) : Event → BlockingClient
  | .elapse elapsed => { c with timer := c.timer.elapse elapsed }
  | .start call timeout => c.start call timeout
  | .close => { c with timer := c.timer.cancel, isOpen := false }
  | .expire => { c with timer := c.timer.cancel }
  | .complete ok => { c with operation := .ready ok }
  | .runWait => { c with timer := c.timer.dequeue }.checkDeadline
  | .runOperation =>
      match c.operation with
      | .ready ok => c.finish ok
      | _ => c

/-- When the call has to be over. -/
def due (c : BlockingClient) : ℕ := c.started + milliseconds c.timeout.toNat

/-- The actor waits once, and it has cut short no call but one that had a timeout and
was due. -/
structure Punctual (c : BlockingClient) : Prop where
  waits : c.timer.pending + c.timer.ready = 1
  aborts : ∀ time, c.aborted = some time → 0 < c.timeout ∧ c.due ≤ time

/-- A call without a timeout is made while no deadline is set. -/
def Fresh (c : BlockingClient) : Event → Prop
  | .start _ timeout => 0 < timeout ∨ c.timer.expiresAt = timePointMax
  | _ => True

instance Fresh.decidable (c : BlockingClient) : ∀ e, Decidable (c.Fresh e)
  | .start _ _ => inferInstanceAs (Decidable (_ ∨ _))
  | .elapse _ | .close | .expire | .complete _ | .runWait | .runOperation =>
      inferInstanceAs (Decidable True)

/-- Within a call the clock goes on only when there is nothing to do, and not past the
deadline. -/
def Prompt (c : BlockingClient) : Event → Prop
  | .elapse elapsed =>
      c.InCall → c.operation = .pending ∧ c.timer.ready = 0 ∧
        c.timer.now + elapsed ≤ c.timer.expiresAt
  | _ => True

instance Prompt.decidable (c : BlockingClient) : ∀ e, Decidable (c.Prompt e)
  | .elapse _ => inferInstanceAs (Decidable (_ → _))
  | .start _ _ | .close | .expire | .complete _ | .runWait | .runOperation =>
      inferInstanceAs (Decidable True)

variable {c : BlockingClient} {e : Event}

theorem inCall_iff : c.InCall ↔ c.operation = .pending ∨ ∃ ok, c.operation = .ready ok := by
  rw [InCall]
  cases c.operation with
  | idle | pending | ready | done => simp [Operation.Outstanding]

theorem cancel_ne_pending (o : Operation) : o.cancel ≠ .pending := by
  cases o with
  | idle | pending | ready | done => simp [Operation.cancel]

theorem now_start (call : Call) (timeout : Int) (c : BlockingClient) :
    (c.start call timeout).timer.now = c.timer.now := by
  rw [start]
  dsimp only
  split
  · exact SteadyTimer.now_expiresFromNow _ _
  · rfl

/-- The deadline of the call is set until the actor has acted on it, and no other is. -/
structure Guarded (c : BlockingClient) : Prop extends Punctual c where
  clock : c.timer.now < timePointMax
  deadline : c.InCall → c.timer.expiresAt =
    if c.aborted = none ∧ 0 < c.timeout then c.due else timePointMax
  ended : c.aborted ≠ none → c.operation ≠ .pending

theorem guarded_new {now : ℕ} (h : now < timePointMax) : Guarded (new now) := by
  have hlater : ¬ timePointMax ≤ now := Nat.not_le.2 h
  rw [new, checkDeadline]
  simp only [if_neg hlater]
  exact ⟨⟨rfl, fun time htime => by cases htime⟩, h, fun hcall => hcall.elim,
    fun hnone => (hnone rfl).elim⟩

theorem Guarded.start (h : Guarded c) {call : Call} {timeout : Int}
    (hfresh : c.Fresh (.start call timeout)) : Guarded (c.start call timeout) := by
  refine ⟨⟨?_, fun time htime => by cases htime⟩, ?_, fun _ => ?_, fun hnone => (hnone rfl).elim⟩
  · have hwaits := h.waits
    rw [BlockingClient.start]
    split
    · simp only [SteadyTimer.expiresFromNow, SteadyTimer.cancel]
      omega
    · exact hwaits
  · rw [now_start]
    exact h.clock
  · rcases hfresh with hpos | hnone
    · simp [BlockingClient.start, due, hpos, SteadyTimer.expiresFromNow]
    · by_cases hpos : 0 < timeout
      · simp [BlockingClient.start, due, hpos, SteadyTimer.expiresFromNow]
      · simp [BlockingClient.start, hpos, hnone]

/-- The actor closes the socket when the call is due, and waits again. -/
theorem Guarded.runWait (h : Guarded c) (hcall : c.InCall) (hready : 0 < c.timer.ready) :
    Guarded (c.step .runWait) := by
  have hwaits := h.waits
  have hdeadline := h.deadline hcall
  rw [BlockingClient.step, checkDeadline]
  by_cases hdue : c.timer.expiresAt ≤ c.timer.now
  · have hset : c.aborted = none ∧ 0 < c.timeout := by
      by_contra hnot
      rw [if_neg hnot] at hdeadline
      have hclock := h.clock
      omega
    rw [if_pos hset] at hdeadline
    have hdue' : c.timer.dequeue.expiresAt ≤ c.timer.dequeue.now := hdue
    simp only [if_pos hdue']
    refine ⟨⟨?_, fun time htime => ?_⟩, h.clock, fun _ => rfl, fun _ => cancel_ne_pending _⟩
    · simp only [SteadyTimer.expireAt, SteadyTimer.cancel, SteadyTimer.asyncWait,
        SteadyTimer.dequeue]
      omega
    · cases htime
      refine ⟨hset.2, ?_⟩
      rw [hdeadline] at hdue
      exact hdue
  · have hlater : ¬ c.timer.dequeue.expiresAt ≤ c.timer.dequeue.now := hdue
    simp only [if_neg hlater]
    refine ⟨⟨?_, h.aborts⟩, h.clock, fun _ => hdeadline, h.ended⟩
    simp only [SteadyTimer.asyncWait, SteadyTimer.dequeue]
    omega

theorem Guarded.step (h : Guarded c) (he : c.Enabled e) (hfresh : c.Fresh e) :
    Guarded (c.step e) := by
  have hwaits := h.waits
  cases e with
  | elapse elapsed => exact ⟨⟨h.waits, h.aborts⟩, he, h.deadline, h.ended⟩
  | start call timeout => exact h.start hfresh
  | close =>
      refine ⟨⟨?_, h.aborts⟩, h.clock, h.deadline, h.ended⟩
      simp only [BlockingClient.step, SteadyTimer.cancel]
      omega
  | expire =>
      refine ⟨⟨?_, h.aborts⟩, h.clock, h.deadline, h.ended⟩
      simp only [BlockingClient.step, SteadyTimer.cancel]
      omega
  | complete ok =>
      have hcall : c.InCall := inCall_iff.2 (Or.inl he)
      refine ⟨⟨h.waits, h.aborts⟩, h.clock, fun _ => h.deadline hcall, fun _ hpending => ?_⟩
      cases hpending
  | runWait => exact h.runWait he.1 he.2
  | runOperation =>
      obtain ⟨ok, hok⟩ := he
      rw [BlockingClient.step, hok]
      refine ⟨⟨h.waits, h.aborts⟩, h.clock, fun hcall => hcall.elim, fun _ hpending => ?_⟩
      cases hpending

/-- In every run in which a call without a timeout is made only while no deadline is set,
no call is cut short but one that has a timeout, and that one not before it is due. There
is always one wait of the actor. -/
theorem punctual_of_fresh (now : ℕ) (hnow : now < timePointMax) (es : List Event)
    (hv : Along step Enabled (new now) es) (hfresh : Along step Fresh (new now) es) :
    Throughout step Punctual (new now) es := by
  have hboth := (along_and _ _ _ _).2 ⟨hv, hfresh⟩
  exact (hboth.throughout (I := Guarded) (fun _ _ h he => h.step he.1 he.2)
    (guarded_new hnow)).mono fun _ h => h.toPunctual

theorem punctual_of_fresh_of_transfer :
    Throughout step Punctual (new 7)
      [.start .connect 1, .runWait, .complete true, .runOperation, .start .transfer 2, .runWait,
        .elapse 2000000, .expire, .runWait, .runOperation] :=
  punctual_of_fresh 7 (by decide) _ (by decide) (by decide)

-- a call without a timeout is cut short at the deadline of the one before it
example :
    let es : List Event :=
      [.start .connect 1, .runWait, .complete true, .runOperation, .start .transfer 0,
        .elapse 1000000, .expire, .runWait]
    let c := run step (new 0) es
    Along step Enabled (new 0) es ∧ c.timeout = 0 ∧ c.operation = .ready false ∧
      c.aborted = some 1000000 := by
  decide

/-! ## In time -/

/-- Within a call that has a timeout the clock is not past its end. -/
def InTime (c : BlockingClient) : Prop := c.InCall → 0 < c.timeout → c.timer.now ≤ c.due

theorem inTime_start (call : Call) (timeout : Int) (c : BlockingClient) :
    (c.start call timeout).InTime := by
  intro _ _
  rw [now_start]
  exact Nat.le_add_right _ _

theorem InTime.step (h : c.InTime) (hguarded : Guarded c) (he : c.Enabled e) (hprompt : c.Prompt e) :
    (c.step e).InTime := by
  cases e with
  | elapse elapsed =>
      intro hcall hpos
      obtain ⟨hpending, _, hle⟩ := hprompt hcall
      have hdeadline := hguarded.deadline hcall
      have hnone : c.aborted = none := by
        by_contra hsome
        exact hguarded.ended hsome hpending
      rw [if_pos ⟨hnone, hpos⟩] at hdeadline
      rw [hdeadline] at hle
      exact hle
  | start call timeout => exact inTime_start call timeout c
  | close | expire => exact h
  | complete ok => exact fun _ => h (inCall_iff.2 (Or.inl he))
  | runWait =>
      intro _
      have hlate := h he.1
      rw [BlockingClient.step, checkDeadline]
      split
      · exact hlate
      · exact hlate
  | runOperation =>
      obtain ⟨ok, hok⟩ := he
      rw [BlockingClient.step, hok]
      exact fun hcall => hcall.elim

/-- When nothing is left for the service to do, a call waits for its operation, and the
deadline, if it has one, is still to come. -/
theorem Guarded.waiting (h : Guarded c) (hcall : c.InCall) (hexpire : ¬ c.Enabled .expire)
    (hwait : ¬ c.Enabled .runWait) (hrun : ¬ c.Enabled .runOperation) :
    c.operation = .pending ∧ (0 < c.timeout → c.timer.now < c.due) := by
  have hpending : c.operation = .pending := (inCall_iff.1 hcall).resolve_right hrun
  refine ⟨hpending, fun hpos => ?_⟩
  have hready : ¬ 0 < c.timer.ready := fun hready => hwait ⟨hcall, hready⟩
  have hwaits := h.waits
  have hearly : ¬ c.timer.expiresAt ≤ c.timer.now := fun hdue => hexpire ⟨hcall, hdue, by omega⟩
  have hnone : c.aborted = none := by
    by_contra hsome
    exact h.ended hsome hpending
  rw [h.deadline hcall, if_pos ⟨hnone, hpos⟩] at hearly
  exact Nat.not_le.1 hearly

/-! ## What is left to do -/

/-- What an operation has before it. -/
def operationWork : Operation → ℕ
  | .pending => 2
  | .ready _ => 1
  | .idle | .done _ => 0

/-- What the actor has before it: with a deadline set, two runs of its handler at most and
an expiry in between. -/
def timerWork (t : SteadyTimer) : ℕ :=
  if t.expiresAt = timePointMax then t.ready
  else if t.ready = 0 then 2
  else if t.expiresAt ≤ t.now then 1
  else 3

def work (c : BlockingClient) : ℕ := operationWork c.operation + timerWork c.timer

theorem timerWork_le {t : SteadyTimer} (h : t.pending + t.ready = 1) : timerWork t ≤ 3 := by
  rw [timerWork]
  split_ifs <;> omega

theorem operationWork_cancel_le (o : Operation) : operationWork o.cancel ≤ operationWork o := by
  cases o with
  | idle | pending | ready | done => simp [Operation.cancel, operationWork]

theorem work_start_le (h : c.timer.pending + c.timer.ready = 1) (call : Call) (timeout : Int) :
    (c.start call timeout).work ≤ 5 := by
  have htimer : timerWork (c.start call timeout).timer ≤ 3 := by
    apply timerWork_le
    rw [BlockingClient.start]
    split
    · simp only [SteadyTimer.expiresFromNow, SteadyTimer.cancel]
      omega
    · exact h
  have hoperation : operationWork (c.start call timeout).operation ≤ 2 := by
    rw [BlockingClient.start]
    dsimp only
    split <;> simp [operationWork]
  rw [work]
  omega

theorem work_elapse_le (c : BlockingClient) (elapsed : ℕ) :
    (c.step (.elapse elapsed)).work ≤ c.work := by
  apply Nat.add_le_add_left
  simp only [BlockingClient.step, SteadyTimer.elapse, timerWork]
  grind

theorem work_expire_lt (h : Guarded c) (he : c.Enabled .expire) :
    (c.step .expire).work < c.work := by
  obtain ⟨_, hdue, hpending⟩ := he
  have hwaits := h.waits
  have hclock := h.clock
  apply Nat.add_lt_add_left
  simp only [BlockingClient.step, SteadyTimer.cancel, timerWork]
  grind

/-- The actor, when it has acted on the deadline, has nothing before it, and else at most
that expiry. -/
theorem work_runWait_lt (h : Guarded c) (he : c.Enabled .runWait) :
    (c.step .runWait).work < c.work := by
  obtain ⟨_, hready⟩ := he
  have hwaits := h.waits
  have hclock := h.clock
  rw [BlockingClient.step, checkDeadline]
  by_cases hdue : c.timer.expiresAt ≤ c.timer.now
  · have hdue' : c.timer.dequeue.expiresAt ≤ c.timer.dequeue.now := hdue
    simp only [if_pos hdue']
    have hoperation := operationWork_cancel_le c.operation
    have htimer : timerWork (c.timer.dequeue.expireAt timePointMax).asyncWait < timerWork c.timer := by
      simp only [SteadyTimer.expireAt, SteadyTimer.cancel, SteadyTimer.asyncWait,
        SteadyTimer.dequeue, timerWork]
      grind
    exact Nat.add_lt_add_of_le_of_lt hoperation htimer
  · have hlater : ¬ c.timer.dequeue.expiresAt ≤ c.timer.dequeue.now := hdue
    simp only [if_neg hlater]
    apply Nat.add_lt_add_left
    simp only [SteadyTimer.asyncWait, SteadyTimer.dequeue, timerWork]
    grind

theorem work_complete_lt {ok : Bool} (he : c.Enabled (.complete ok)) :
    (c.step (.complete ok)).work < c.work := by
  have hpending : c.operation = .pending := he
  apply Nat.add_lt_add_right
  rw [hpending]
  exact Nat.lt_succ_self 1

end BlockingClient

/-! ## `syncState` -/

/-- `syncState` in a call of its client, with the number of calls that are to follow. -/
structure SyncState where
  client : BlockingClient
  calls : ℕ
deriving DecidableEq

namespace SyncState

open BlockingClient

/-- `Sync_state_timeout_` as the `int` that it is passed as. -/
def callTimeout (syncStateTimeout : UInt32) : Int := syncStateTimeout.toInt32.toInt

/-- `syncState` in its first call, `Connect`. `Write` follows and `ReadFull` twice. -/
def begin (now : ℕ) (timeout : Int) : SyncState where
  client := (new now).start .connect timeout
  calls := 3

/-- What an event does: when a call returns the next one is made. -/
def step (timeout : Int) (s : SyncState) (e : BlockingClient.Event) : SyncState :=
  let client := s.client.step e
  if client.operation = .done true then
    match s.calls with
    | 0 => { s with client := client }
    | calls + 1 => { client := client.start .transfer timeout, calls := calls }
  else { s with client := client }

/-- It has returned or thrown. -/
def Over (s : SyncState) : Prop := ¬ s.client.InCall

instance (s : SyncState) : Decidable s.Over := inferInstanceAs (Decidable (¬ _))

/-- `syncState` makes the calls itself. -/
def Enabled (timeout : Int) (s : SyncState) : BlockingClient.Event → Prop
  | .start _ _ | .close => False
  | .elapse elapsed =>
      s.client.timer.now + elapsed + milliseconds timeout.toNat < timePointMax
  | e => s.client.Enabled e

instance Enabled.decidable (timeout : Int) (s : SyncState) :
    ∀ e, Decidable (s.Enabled timeout e)
  | .start _ _ | .close => inferInstanceAs (Decidable False)
  | .elapse _ => inferInstanceAs (Decidable (_ < _))
  | .expire => inferInstanceAs (Decidable (s.client.Enabled .expire))
  | .complete ok => inferInstanceAs (Decidable (s.client.Enabled (.complete ok)))
  | .runWait => inferInstanceAs (Decidable (s.client.Enabled .runWait))
  | .runOperation => inferInstanceAs (Decidable (s.client.Enabled .runOperation))

variable {now : ℕ} {timeout : Int} {s : SyncState} {e : BlockingClient.Event}

theorem client_enabled (he : s.Enabled timeout e) : s.client.Enabled e := by
  cases e with
  | elapse elapsed => exact Nat.lt_of_le_of_lt (Nat.le_add_right _ _) he
  | start | close => exact he.elim
  | expire | complete | runWait | runOperation => exact he

theorem client_fresh (he : s.Enabled timeout e) : s.client.Fresh e := by
  cases e with
  | start => exact he.elim
  | elapse | close | expire | complete | runWait | runOperation => trivial

/-- What holds of `syncState` throughout. -/
structure Running (timeout : Int) (s : SyncState) : Prop where
  guarded : Guarded s.client
  room : s.client.timer.now + milliseconds timeout.toNat < timePointMax
  timeout_eq : s.client.timeout = timeout
  /-- it goes on as soon as a call has returned -/
  last : s.client.operation = .done true → s.calls = 0

/-- A step is one of the client, or the end of a call with the beginning of the next. -/
theorem step_cases (h : Running timeout s) (he : s.Enabled timeout e) :
    s.step timeout e = { s with client := s.client.step e } ∧
        ((s.client.step e).operation = .done true → s.calls = 0) ∨
      e = .runOperation ∧ ∃ calls, s.calls = calls + 1 ∧
        s.step timeout e =
          { client := (s.client.step e).start .transfer timeout, calls := calls } := by
  by_cases hdone : (s.client.step e).operation = .done true
  · cases hcalls : s.calls with
    | zero =>
        refine Or.inl ⟨?_, fun _ => rfl⟩
        rw [step, if_pos hdone, hcalls]
    | succ calls =>
        right
        have hnot : s.client.operation ≠ .done true := by
          intro hlast
          rw [h.last hlast] at hcalls
          cases hcalls
        refine ⟨?_, calls, rfl, ?_⟩
        · cases e with
          | start | close => exact he.elim
          | elapse | expire => exact absurd hdone hnot
          | complete ok => cases hdone
          | runWait =>
              rw [BlockingClient.step, checkDeadline] at hdone
              split at hdone
              · exact absurd (AsyncClient.operation_cancel_eq_done_iff.1 hdone) hnot
              · exact absurd hdone hnot
          | runOperation => rfl
        · rw [step, if_pos hdone, hcalls]
  · refine Or.inl ⟨?_, fun h => absurd h hdone⟩
    rw [step, if_neg hdone]

theorem timer_runOperation (c : BlockingClient) : (c.step .runOperation).timer = c.timer := by
  rw [BlockingClient.step]
  split
  · rfl
  · rfl

/-- A deadline is set in a call, and taken back by the next. -/
theorem Running.fresh_next (h : Running timeout s) (he : s.client.Enabled .runOperation) :
    (s.client.step .runOperation).Fresh (.start .transfer timeout) := by
  by_cases hpos : 0 < timeout
  · exact Or.inl hpos
  · right
    have hdeadline := h.guarded.deadline (inCall_iff.2 (Or.inr he))
    rw [h.timeout_eq, if_neg fun hand => hpos hand.2] at hdeadline
    rw [timer_runOperation, hdeadline]

theorem now_step_of_ne (hne : ∀ elapsed, e ≠ .elapse elapsed) (c : BlockingClient) :
    (c.step e).timer.now = c.timer.now := by
  cases e with
  | elapse elapsed => exact absurd rfl (hne elapsed)
  | start call timeout => exact now_start call timeout c
  | close | expire | complete => rfl
  | runWait =>
      rw [BlockingClient.step, checkDeadline]
      split
      · rfl
      · rfl
  | runOperation => rw [timer_runOperation]

theorem timeout_step (he : s.Enabled timeout e) :
    (s.client.step e).timeout = s.client.timeout ∧ (s.client.step e).started = s.client.started := by
  cases e with
  | start | close => exact he.elim
  | elapse | expire | complete => exact ⟨rfl, rfl⟩
  | runWait =>
      rw [BlockingClient.step, checkDeadline]
      split
      · exact ⟨rfl, rfl⟩
      · exact ⟨rfl, rfl⟩
  | runOperation =>
      rw [BlockingClient.step]
      split
      · exact ⟨rfl, rfl⟩
      · exact ⟨rfl, rfl⟩

theorem Running.room_step (h : Running timeout s) (he : s.Enabled timeout e) :
    (s.client.step e).timer.now + milliseconds timeout.toNat < timePointMax := by
  by_cases helapse : ∃ elapsed, e = .elapse elapsed
  · obtain ⟨elapsed, rfl⟩ := helapse
    exact he
  · rw [now_step_of_ne fun elapsed heq => helapse ⟨elapsed, heq⟩]
    exact h.room

theorem Running.step (h : Running timeout s) (he : s.Enabled timeout e) :
    Running timeout (s.step timeout e) := by
  have hguarded := h.guarded.step (client_enabled he) (client_fresh he)
  rcases step_cases h he with ⟨heq, hlast⟩ | ⟨rfl, calls, _, heq⟩
  · rw [heq]
    exact ⟨hguarded, h.room_step he, (timeout_step he).1.trans h.timeout_eq, hlast⟩
  · rw [heq]
    refine ⟨hguarded.start (h.fresh_next he), ?_, rfl, fun hdone => ?_⟩
    · have hnow := now_step_of_ne (e := .start .transfer timeout) (fun _ heq => by cases heq)
        (s.client.step .runOperation)
      exact hnow.symm ▸ h.room_step he
    · rw [BlockingClient.start] at hdone
      dsimp only at hdone
      split at hdone
      · cases hdone
      · cases hdone

theorem timer_new {now : ℕ} (h : now < timePointMax) :
    (new now).timer.now = now ∧ (new now).timer.expiresAt = timePointMax := by
  have hlater : ¬ timePointMax ≤ now := Nat.not_le.2 h
  rw [new, checkDeadline]
  simp only [if_neg hlater]
  exact ⟨rfl, rfl⟩

theorem now_begin (hnow : now < timePointMax) : (begin now timeout).client.timer.now = now := by
  have hstart := now_step_of_ne (e := .start .connect timeout) (fun _ heq => by cases heq) (new now)
  exact hstart.trans (timer_new hnow).1

theorem running_begin (hnow : now + milliseconds timeout.toNat < timePointMax) :
    Running timeout (begin now timeout) := by
  have hclock : now < timePointMax := Nat.lt_of_le_of_lt (Nat.le_add_right _ _) hnow
  refine ⟨(guarded_new hclock).start (Or.inr (timer_new hclock).2), ?_, rfl, fun hdone => by cases hdone⟩
  rw [now_begin hclock]
  exact hnow

/-! ### How much is left -/

/-- What is to be done at most, the calls that follow included. -/
def work (s : SyncState) : ℕ := s.client.work + 6 * s.calls

/-- The clock goes on. -/
def Ticks : BlockingClient.Event → Bool
  | .elapse _ => true
  | _ => false

theorem work_runOperation (h : s.client.Enabled .runOperation) :
    (s.client.step .runOperation).work + 1 = s.client.work := by
  obtain ⟨ok, hok⟩ := h
  rw [BlockingClient.step, hok, BlockingClient.work, BlockingClient.work, hok]
  show 0 + timerWork s.client.timer + 1 = 1 + timerWork s.client.timer
  omega

theorem work_step_le (h : Running timeout s) (he : s.Enabled timeout e) :
    (s.step timeout e).work + (if !Ticks e then 1 else 0) ≤ s.work := by
  rcases step_cases h he with ⟨heq, _⟩ | ⟨rfl, calls, hcalls, heq⟩
  · have hclient : (s.client.step e).work + (if !Ticks e then 1 else 0) ≤ s.client.work := by
      cases e with
      | elapse elapsed => exact work_elapse_le s.client elapsed
      | start | close => exact he.elim
      | expire => exact work_expire_lt h.guarded he
      | complete ok => exact work_complete_lt he
      | runWait => exact work_runWait_lt h.guarded he
      | runOperation => exact Nat.le_of_eq (work_runOperation he)
    rw [heq, work, work]
    dsimp only
    omega
  · have hguarded := h.guarded.step (client_enabled he) (client_fresh he)
    have hnext := work_start_le hguarded.waits .transfer timeout
    have hended := work_runOperation he
    have hcounted : (if !Ticks .runOperation then 1 else 0) = 1 := rfl
    rw [hcounted, heq, work, work, hcalls]
    dsimp only
    omega

theorem work_begin_le (hnow : now < timePointMax) (timeout : Int) :
    (begin now timeout).work ≤ 23 := by
  have hclient := work_start_le (guarded_new hnow).waits .connect timeout
  have hcalls : (begin now timeout).work = ((new now).start .connect timeout).work + 6 * 3 := rfl
  omega

/-! ### When it is over -/

/-- The service has something to do, or the operation is under way and the call, if it has
a timeout, is not due yet. -/
def Live (timeout : Int) (s : SyncState) : Prop :=
  s.Enabled timeout .expire ∨ s.Enabled timeout .runWait ∨ s.Enabled timeout .runOperation ∨
    s.client.operation = .pending ∧ (0 < timeout → s.client.timer.now < s.client.due)

theorem Running.live (h : Running timeout s) (hover : ¬ s.Over) : s.Live timeout := by
  by_cases hexpire : s.Enabled timeout .expire
  · exact Or.inl hexpire
  by_cases hwait : s.Enabled timeout .runWait
  · exact Or.inr (Or.inl hwait)
  by_cases hrun : s.Enabled timeout .runOperation
  · exact Or.inr (Or.inr (Or.inl hrun))
  have hwaiting := h.guarded.waiting (not_not.1 hover) hexpire hwait hrun
  rw [h.timeout_eq] at hwaiting
  exact Or.inr (Or.inr (Or.inr hwaiting))

/-- Each call is made before the one before it is due. -/
structure Early (now : ℕ) (timeout : Int) (s : SyncState) : Prop where
  inTime : s.client.InTime
  early : s.client.started + s.calls * milliseconds timeout.toNat ≤
    now + 3 * milliseconds timeout.toNat

theorem early_begin (hnow : now < timePointMax) : Early now timeout (begin now timeout) := by
  refine ⟨inTime_start _ _ _, ?_⟩
  have hstarted : (begin now timeout).client.started = (new now).timer.now := rfl
  rw [hstarted, (timer_new hnow).1]
  exact Nat.le_refl _

theorem Early.step (h : Early now timeout s) (hrunning : Running timeout s) (hpos : 0 < timeout)
    (he : s.Enabled timeout e) (hprompt : s.client.Prompt e) :
    Early now timeout (s.step timeout e) := by
  rcases step_cases hrunning he with ⟨heq, _⟩ | ⟨rfl, calls, hcalls, heq⟩
  · rw [heq]
    refine ⟨h.inTime.step hrunning.guarded (client_enabled he) hprompt, ?_⟩
    rw [(timeout_step he).2]
    exact h.early
  · have hdue := h.inTime (inCall_iff.2 (Or.inr he)) (hrunning.timeout_eq.symm ▸ hpos)
    have hearly := h.early
    rw [due, hrunning.timeout_eq] at hdue
    rw [hcalls, Nat.succ_mul] at hearly
    rw [heq]
    refine ⟨inTime_start _ _ _, ?_⟩
    have hstarted : ((s.client.step .runOperation).start .transfer timeout).started =
        (s.client.step .runOperation).timer.now := rfl
    rw [timer_runOperation] at hstarted
    dsimp only
    rw [hstarted]
    omega

theorem Early.now_le (h : Early now timeout s) (hrunning : Running timeout s) (hpos : 0 < timeout)
    (hover : ¬ s.Over) : s.client.timer.now ≤ now + 4 * milliseconds timeout.toNat := by
  have hdue := h.inTime (not_not.1 hover) (hrunning.timeout_eq.symm ▸ hpos)
  have hearly := h.early
  rw [due, hrunning.timeout_eq] at hdue
  have hcalls : 0 ≤ s.calls * milliseconds timeout.toNat := Nat.zero_le _
  omega

theorem callTimeout_eq (syncStateTimeout : UInt32) :
    callTimeout syncStateTimeout =
      if syncStateTimeout.toNat < 2147483648 then (syncStateTimeout.toNat : Int)
      else (syncStateTimeout.toNat : Int) - 4294967296 := by
  have htoInt : callTimeout syncStateTimeout = syncStateTimeout.toBitVec.toInt := rfl
  rw [htoInt, BitVec.toInt_eq_toNat_cond, UInt32.toNat_toBitVec]
  split_ifs <;> omega

theorem callTimeout_pos_iff (syncStateTimeout : UInt32) :
    0 < callTimeout syncStateTimeout ↔
      0 < syncStateTimeout.toNat ∧ syncStateTimeout.toNat < 2147483648 := by
  have hlt := syncStateTimeout.toNat_lt
  rw [callTimeout_eq]
  split_ifs <;> omega

theorem toNat_callTimeout_le (syncStateTimeout : UInt32) :
    (callTimeout syncStateTimeout).toNat ≤ syncStateTimeout.toNat := by
  have hlt := syncStateTimeout.toNat_lt
  rw [callTimeout_eq]
  split_ifs <;> omega

end SyncState

end CppGossip
