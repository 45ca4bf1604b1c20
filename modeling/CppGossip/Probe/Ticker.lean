import CppGossip.Transition.Run

/-!
# The ticker of the probe

A ticker calls its operation whenever its timer has expired, and sets the timer
anew. Its handler does not look whether the wait has expired or been cancelled: it
compares the expiry time with the clock and waits again in either case. `Stop`
cancels the waits and leaves the expiry time, so that the handler it causes to run
goes on waiting for the same time.

`calls_iff` says in which runs a stopped ticker is silent: those in which no
handler runs once the expiry time has come. The clock counts in the unit of the
interval.
-/

namespace CppGossip

open Transition

/-- `asio::steady_timer` with the clock: how many waits on it are pending, and how
many handlers of waits that have ended are queued. -/
structure SteadyTimer where
  now : ℕ
  expiresAt : ℕ
  pending : ℕ
  ready : ℕ
deriving DecidableEq

namespace SteadyTimer

/-- `cancel`: the waits end, and so they do when the timer expires. -/
def cancel (t : SteadyTimer) : SteadyTimer :=
  { t with pending := 0, ready := t.ready + t.pending }

/-- `expires_from_now`. -/
def expiresFromNow (timeout : ℕ) (t : SteadyTimer) : SteadyTimer :=
  { t.cancel with expiresAt := t.now + timeout }

/-- `async_wait`. -/
def asyncWait (t : SteadyTimer) : SteadyTimer := { t with pending := t.pending + 1 }

/-- A handler is taken from the queue. -/
def dequeue (t : SteadyTimer) : SteadyTimer := { t with ready := t.ready - 1 }

/-- The clock goes on. -/
def elapse (elapsed : ℕ) (t : SteadyTimer) : SteadyTimer := { t with now := t.now + elapsed }

end SteadyTimer

/-- A call of the operation: the expiry time it was made for, and its own time. -/
structure Call where
  due : ℕ
  time : ℕ
deriving DecidableEq

/-- `class AsioTicker`. `op` says whether `op_` is callable. The last four record
what happened: whether the ticker has been stopped since it was ticked, how many
calls a stopped ticker has made, and, the latest first, the expiry times set and
the calls made since it was ticked. -/
structure AsioTicker where
  timer : SteadyTimer
  op : Bool
  timeout : ℕ
  stopped : Bool
  late : ℕ
  expiries : List ℕ
  calls : List Call
deriving DecidableEq

namespace AsioTicker

/-- The constructor. The interval is not set before the first `Tick`. -/
def new (now timeout : ℕ) : AsioTicker where
  timer := { now := now, expiresAt := 0, pending := 0, ready := 0 }
  op := false
  timeout := timeout
  stopped := false
  late := 0
  expiries := []
  calls := []

/-- `timer_.expires_from_now(timeout_)`. -/
def expiresFromNow (t : AsioTicker) : AsioTicker :=
  { t with
    timer := t.timer.expiresFromNow t.timeout
    expiries := (t.timer.now + t.timeout) :: t.expiries }

/-- `timer_.async_wait` of `checkDeadline`. -/
def asyncWait (t : AsioTicker) : AsioTicker := { t with timer := t.timer.asyncWait }

/-- `Tick`. -/
def tick (timeout : ℕ) (op : Bool) (t : AsioTicker) : AsioTicker :=
  { t with
    op := op, timeout := timeout, stopped := false, expiries := [],
    calls := [] }.expiresFromNow.asyncWait

/-- `Stop`. -/
def stop (t : AsioTicker) : AsioTicker := { t with timer := t.timer.cancel, stopped := true }

/-- The call of `op_`, which may itself stop the ticker. -/
def callOp (stops : Bool) (t : AsioTicker) : AsioTicker :=
  let t := { t with
    late := if t.stopped then t.late + 1 else t.late
    calls := ⟨t.timer.expiresAt, t.timer.now⟩ :: t.calls }
  if stops then t.stop else t

/-- `checkDeadline`; the clock goes on by `elapsed` before it is read again. -/
def checkDeadline (elapsed : ℕ) (stops : Bool) (t : AsioTicker) : AsioTicker :=
  if t.timer.expiresAt ≤ t.timer.now then
    let t := if t.op then t.callOp stops else t
    { t with timer := t.timer.elapse elapsed }.expiresFromNow.asyncWait
  else t.asyncWait

/-- What can happen. -/
inductive Event where
  | elapse (elapsed : ℕ)
  | tick (timeout : ℕ) (op : Bool)
  | stop
  /-- the timer expires -/
  | expire
  /-- a handler that is queued runs -/
  | run (elapsed : ℕ) (stops : Bool)
deriving DecidableEq

/-- A timer expires when it is due, and a handler runs when it is queued. -/
def Enabled (t : AsioTicker) : Event → Prop
  | .elapse _ | .tick _ _ | .stop => True
  | .expire => t.timer.expiresAt ≤ t.timer.now
  | .run _ _ => 0 < t.timer.ready

instance Enabled.decidable (t : AsioTicker) : ∀ e, Decidable (t.Enabled e)
  | .elapse _ | .tick _ _ | .stop => inferInstanceAs (Decidable True)
  | .expire => inferInstanceAs (Decidable (_ ≤ _))
  | .run _ _ => inferInstanceAs (Decidable (_ < _))

/-- What an event does. -/
def step (t : AsioTicker) : Event → AsioTicker
  | .elapse elapsed => { t with timer := t.timer.elapse elapsed }
  | .tick timeout op => t.tick timeout op
  | .stop => t.stop
  | .expire => { t with timer := t.timer.cancel }
  | .run elapsed stops => { t with timer := t.timer.dequeue }.checkDeadline elapsed stops

/-- No call has been made by a stopped ticker. -/
def Silent (t : AsioTicker) : Prop := t.late = 0

instance (t : AsioTicker) : Decidable t.Silent := inferInstanceAs (Decidable (_ = _))

/-- Since a ticker was ticked, every expiry time but the one that is set now has
had its call, one and in its turn, and the call that the one set now will have is
on its way. -/
structure OncePerExpiry (t : AsioTicker) : Prop where
  served : t.op = true → t.expiries = t.timer.expiresAt :: t.calls.map Call.due
  due : ∀ c ∈ t.calls, c.due ≤ c.time
  waiting : t.op = true → 0 < t.timer.pending + t.timer.ready

/-- No handler of a stopped ticker runs when its expiry time has come. -/
def Quiet (t : AsioTicker) : Event → Prop
  | .run _ _ => t.stopped = true → t.op = true → t.timer.now < t.timer.expiresAt
  | _ => True

instance Quiet.decidable (t : AsioTicker) : ∀ e, Decidable (t.Quiet e)
  | .elapse _ | .tick _ _ | .stop | .expire => inferInstanceAs (Decidable True)
  | .run _ _ => inferInstanceAs (Decidable (_ → _ → _))

variable {t : AsioTicker} {elapsed timeout : ℕ} {stops op : Bool}

@[simp] theorem op_callOp : (t.callOp stops).op = t.op := by
  cases stops with
  | false => rfl
  | true => rfl

@[simp] theorem expiries_callOp : (t.callOp stops).expiries = t.expiries := by
  cases stops with
  | false => rfl
  | true => rfl

@[simp] theorem calls_callOp :
    (t.callOp stops).calls = ⟨t.timer.expiresAt, t.timer.now⟩ :: t.calls := by
  cases stops with
  | false => rfl
  | true => rfl

@[simp] theorem late_callOp :
    (t.callOp stops).late = if t.stopped then t.late + 1 else t.late := by
  cases stops with
  | false => rfl
  | true => rfl

/-! ## Once per expiry -/

theorem oncePerExpiry_new (now timeout : ℕ) : OncePerExpiry (new now timeout) where
  served hop := by cases hop
  due c hc := by cases hc
  waiting hop := by cases hop

/-- The timer is set when all the expiry times before have had their calls. -/
theorem OncePerExpiry.of_served (hserved : t.op = true → t.expiries = t.calls.map Call.due)
    (hdue : ∀ c ∈ t.calls, c.due ≤ c.time) : OncePerExpiry t.expiresFromNow.asyncWait where
  served hop := congrArg _ (hserved hop)
  due := hdue
  waiting _ := Nat.lt_add_right _ (Nat.succ_pos _)

theorem OncePerExpiry.cancel (h : OncePerExpiry t) :
    OncePerExpiry { t with timer := t.timer.cancel } where
  served := h.served
  due := h.due
  waiting hop := by
    have hwaiting := h.waiting hop
    show 0 < 0 + (t.timer.ready + t.timer.pending)
    omega

/-- A handler that runs in time has the operation called for the expiry time that
has come; one that runs early waits for it again. -/
theorem OncePerExpiry.run (h : OncePerExpiry t) (elapsed : ℕ) (stops : Bool) :
    OncePerExpiry (t.step (.run elapsed stops)) := by
  rw [step, checkDeadline]
  split
  case isTrue hdue =>
    apply OncePerExpiry.of_served
    · intro hop
      cases hcallable : t.op with
      | false => simp [hcallable] at hop
      | true => simp [SteadyTimer.dequeue, h.served hcallable]
    · cases hcallable : t.op with
      | false => simpa [hcallable] using h.due
      | true => simpa [hcallable, SteadyTimer.dequeue] using ⟨hdue, h.due⟩
  case isFalse => exact ⟨h.served, h.due, fun _ => Nat.lt_add_right _ (Nat.succ_pos _)⟩

theorem OncePerExpiry.step (h : OncePerExpiry t) (e : Event) : OncePerExpiry (t.step e) := by
  cases e with
  | elapse elapsed => exact ⟨h.served, h.due, h.waiting⟩
  | tick timeout op => exact .of_served (fun _ => rfl) fun c hc => by cases hc
  | stop => exact ⟨h.cancel.served, h.cancel.due, h.cancel.waiting⟩
  | expire => exact h.cancel
  | run elapsed stops => exact h.run elapsed stops

/-- Stopped or not, a ticker calls its operation once for each expiry time. -/
theorem oncePerExpiry_run {now timeout : ℕ} {es : List Event}
    (hv : Along AsioTicker.step Enabled (new now timeout) es) :
    OncePerExpiry (Transition.run AsioTicker.step (new now timeout) es) :=
  hv.invariant (fun _ e h _ => h.step e) (oncePerExpiry_new now timeout)

/-! ## Silence -/

/-- A stopped ticker makes a call when a handler runs in time. -/
theorem late_run (t : AsioTicker) (elapsed : ℕ) (stops : Bool) :
    (t.step (.run elapsed stops)).late =
      if t.stopped = true ∧ t.op = true ∧ t.timer.expiresAt ≤ t.timer.now then t.late + 1
      else t.late := by
  rw [AsioTicker.step, checkDeadline]
  by_cases hdue : t.timer.expiresAt ≤ t.timer.now
  · have hdue' : t.timer.dequeue.expiresAt ≤ t.timer.dequeue.now := hdue
    simp only [if_pos hdue', hdue, and_true]
    cases hcallable : t.op with
    | false => simp [expiresFromNow, asyncWait]
    | true => simp [expiresFromNow, asyncWait]
  · have hearly : ¬ t.timer.dequeue.expiresAt ≤ t.timer.dequeue.now := hdue
    simp only [if_neg hearly, hdue, and_false, if_false]
    rfl

theorem silent_step_iff (h : Silent t) (e : Event) : Silent (t.step e) ↔ t.Quiet e := by
  cases e with
  | elapse elapsed => exact iff_of_true h trivial
  | tick timeout op => exact iff_of_true h trivial
  | stop => exact iff_of_true h trivial
  | expire => exact iff_of_true h trivial
  | run elapsed stops =>
      have hzero : t.late = 0 := h
      rw [Silent, late_run, hzero, Quiet, ← Nat.not_le]
      split
      case isTrue hcall =>
        refine iff_of_false (Nat.succ_ne_zero 0) fun hquiet => ?_
        exact hquiet hcall.1 hcall.2.1 hcall.2.2
      case isFalse hnone =>
        refine iff_of_true rfl fun hstopped hop hdue => ?_
        exact hnone ⟨hstopped, hop, hdue⟩

/-- In every run the operation is called once for each expiry time, and not before
it; a stopped ticker is silent as long as none of its handlers runs when its
expiry time has come, and no longer. -/
theorem calls_iff (now timeout : ℕ) (es : List Event)
    (hv : Along AsioTicker.step Enabled (new now timeout) es) :
    Throughout AsioTicker.step (fun t => t.Silent ∧ t.OncePerExpiry) (new now timeout) es ↔
      Along AsioTicker.step Quiet (new now timeout) es := by
  have hnew : OncePerExpiry (new now timeout) := oncePerExpiry_new now timeout
  refine throughout_iff_along (I := OncePerExpiry) (fun _ e h _ => h.step e) ?_ hnew
    ⟨rfl, hnew⟩ hv
  intro t e honce h _
  rw [silent_step_iff h.1 e, and_iff_left_iff_imp]
  exact fun _ => honce.step e

/-- A stopped ticker that is ticked again before its expiry time is silent. -/
theorem calls_of_restart :
    let es : List Event :=
      [.tick 500 true, .elapse 100, .stop, .run 0 false, .elapse 100, .tick 500 true, .elapse 500,
        .expire, .run 1 false]
    Throughout step (fun t => t.Silent ∧ t.OncePerExpiry) (new 0 0) es :=
  (calls_iff 0 0 _ (by decide)).2 (by decide)

/-- A ticker is stopped 400 before its expiry time, and calls the operation then. -/
theorem not_silent_of_stop :
    let es : List Event :=
      [.tick 500 true, .elapse 100, .stop, .run 0 false, .elapse 400, .expire, .run 0 false]
    Along step Enabled (new 0 0) es ∧ ¬ Throughout step Silent (new 0 0) es := by
  decide

/-- Being stopped silences no ticker whose operation can be called: unless it is
ticked again in time, it makes a call. -/
theorem exists_late {now timeout : ℕ} {es : List Event}
    (hv : Along step Enabled (new now timeout) es)
    (hop : (run step (new now timeout) es).op = true) :
    ∃ fs, (∀ timeout op, .tick timeout op ∉ fs) ∧
      Along step Enabled (new now timeout) (es ++ .stop :: fs) ∧
      ¬ Throughout step Silent (new now timeout) (es ++ .stop :: fs) := by
  have honce := oncePerExpiry_run hv
  generalize hend : run step (new now timeout) es = t at honce hop
  have hready : 0 < t.timer.ready + t.timer.pending := by
    rw [Nat.add_comm]
    exact honce.waiting hop
  have hdue : t.timer.expiresAt ≤ t.timer.now + t.timer.expiresAt := Nat.le_add_left _ _
  refine ⟨[.elapse t.timer.expiresAt, .run 0 false], by simp, ?_, fun hsilent => ?_⟩
  · rw [along_append, hend]
    exact ⟨hv, trivial, trivial, hready, trivial⟩
  · have hlast := (throughout_iff_run _ _ _).1 hsilent _ (List.prefix_refl _)
    rw [run_append, hend, run_cons, run_cons, run_cons, run_nil, Silent, late_run,
      if_pos ⟨rfl, hop, hdue⟩] at hlast
    exact Nat.succ_ne_zero _ hlast

end AsioTicker

end CppGossip
