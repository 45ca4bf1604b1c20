import CppGossip.Transition.Run
import CppGossip.Wire.Header

/-!
# The client of a probe

A probe sends a ping and waits for the pong, each under a deadline. One timer
serves both phases, and what a deadline means is decided by its handler alone: it
runs whether the wait has expired or been cancelled, does not look which, and
compares the timer's expiry with the clock as it runs. `Event` lists what can
happen on the thread of the service, in any order: the clock goes on, waits
expire, operations complete, handlers that are queued run.

`oneOutcome_iff` says in which runs the probe is finished or timed out, but not
both. The clock counts in the unit of the timeout.
-/

namespace CppGossip

open Transition

/-- A wait on the timer: not begun, pending, its handler queued, its handler run. -/
inductive Wait where
  | idle
  | pending
  | ready
  | done
deriving DecidableEq

/-- An operation on the socket; the flag says whether it succeeded. -/
inductive Operation where
  | idle
  | pending
  | ready (ok : Bool)
  | done (ok : Bool)
deriving DecidableEq

/-- A wait that is pending is queued. -/
def Wait.cancel : Wait → Wait
  | pending => ready
  | wait => wait

/-- An operation that is pending fails; one that has completed is left alone. -/
def Operation.cancel : Operation → Operation
  | pending => ready false
  | operation => operation

/-- `class AsyncClient` as `probeNode` uses it, with the clock and the numbers
of calls of the two callbacks. -/
structure AsyncClient where
  now : ℕ
  expiresAt : ℕ
  sendWait : Wait
  receiveWait : Wait
  send : Operation
  receive : Operation
  receiveFinish : ℕ
  receiveTimeout : ℕ
deriving DecidableEq

namespace AsyncClient

/-- `deadline_.cancel()`. -/
def cancelTimer (c : AsyncClient) : AsyncClient :=
  { c with sendWait := c.sendWait.cancel, receiveWait := c.receiveWait.cancel }

/-- `socket_.cancel()`. -/
def cancelSocket (c : AsyncClient) : AsyncClient :=
  { c with send := c.send.cancel, receive := c.receive.cancel }

/-- `deadline_.expires_from_now`. -/
def expiresFromNow (timeout : ℕ) (c : AsyncClient) : AsyncClient :=
  { c.cancelTimer with expiresAt := c.now + timeout }

/-- `checkDeadline`. -/
def checkDeadline (op : AsyncClient → AsyncClient) (c : AsyncClient) : AsyncClient :=
  if c.expiresAt ≤ c.now then op c else c

/-- `AsyncSendTo` at the time `now`; `address` says whether the host is one. -/
def asyncSendTo (timeout size : ℕ) (address : Bool) (now : ℕ) : AsyncClient :=
  let c : AsyncClient := ⟨now, 0, .idle, .idle, .idle, .idle, 0, 0⟩
  if size > mtu then c
  else
    let c := if timeout > 0 then { c.expiresFromNow timeout with sendWait := .pending } else c
    if address then { c with send := .pending } else c

/-- `AsyncReceiveFrom`. -/
def asyncReceiveFrom (timeout : ℕ) (c : AsyncClient) : AsyncClient :=
  let c := if timeout > 0 then { c.expiresFromNow timeout with receiveWait := .pending } else c
  { c with receive := .pending }

/-- What can happen. -/
inductive Event where
  | tick (elapsed : ℕ)
  /-- the waits that are pending expire -/
  | expire
  | sent (ok : Bool)
  | received (ok : Bool)
  | runSendWait
  | runReceiveWait
  | runSend
  | runReceive
deriving DecidableEq

/-- A timer expires when it is due, an operation completes when it is pending,
and a handler runs when it is queued. -/
def Enabled (c : AsyncClient) : Event → Prop
  | .tick _ => True
  | .expire => c.expiresAt ≤ c.now
  | .sent _ => c.send = .pending
  | .received _ => c.receive = .pending
  | .runSendWait => c.sendWait = .ready
  | .runReceiveWait => c.receiveWait = .ready
  | .runSend => ∃ ok, c.send = .ready ok
  | .runReceive => ∃ ok, c.receive = .ready ok

instance Enabled.decidable (c : AsyncClient) : ∀ e, Decidable (c.Enabled e)
  | .tick _ => inferInstanceAs (Decidable True)
  | .expire => inferInstanceAs (Decidable (_ ≤ _))
  | .sent _ | .received _ | .runSendWait | .runReceiveWait =>
      inferInstanceAs (Decidable (_ = _))
  | .runSend | .runReceive => inferInstanceAs (Decidable (∃ _, _ = _))

/-- The completion handler of `async_send_to`. -/
def handleSend (timeout : ℕ) (ok : Bool) (c : AsyncClient) : AsyncClient :=
  let c := { c with send := .done ok }
  let c := if timeout > 0 then c.cancelTimer else c
  if ok then c.asyncReceiveFrom timeout else c

/-- The completion handler of `async_receive_from`. -/
def handleReceive (timeout : ℕ) (ok : Bool) (c : AsyncClient) : AsyncClient :=
  let c := { c with receive := .done ok }
  let c := if timeout > 0 then c.cancelTimer else c
  if ok then { c with receiveFinish := c.receiveFinish + 1 } else c

/-- What an event does. The callback for a timeout of the sending is null. -/
def step (timeout : ℕ) (c : AsyncClient) : Event → AsyncClient
  | .tick elapsed => { c with now := c.now + elapsed }
  | .expire => c.cancelTimer
  | .sent ok => { c with send := .ready ok }
  | .received ok => { c with receive := .ready ok }
  | .runSendWait => { c with sendWait := .done }.checkDeadline cancelSocket
  | .runReceiveWait =>
      { c with receiveWait := .done }.checkDeadline fun c =>
        { c.cancelSocket with receiveTimeout := c.receiveTimeout + 1 }
  | .runSend =>
      match c.send with
      | .ready ok => c.handleSend timeout ok
      | _ => c
  | .runReceive =>
      match c.receive with
      | .ready ok => c.handleReceive timeout ok
      | _ => c

/-- At most one of the two callbacks is called, and at most once. -/
def OneOutcome (c : AsyncClient) : Prop := c.receiveFinish + c.receiveTimeout ≤ 1

instance (c : AsyncClient) : Decidable c.OneOutcome := inferInstanceAs (Decidable (_ ≤ _))

/-- A reply is not handled after the handler of the wait for it, and when it has
been handled that handler runs before the timer's expiry. -/
def Timely (c : AsyncClient) : Event → Prop
  | .runReceive => c.receive = .ready true → c.receiveWait ≠ .done
  | .runReceiveWait => c.receive = .done true → c.now < c.expiresAt
  | _ => True

instance Timely.decidable (c : AsyncClient) : ∀ e, Decidable (c.Timely e)
  | .runReceive | .runReceiveWait => inferInstanceAs (Decidable (_ → _))
  | .tick _ | .expire | .sent _ | .received _ | .runSendWait | .runSend =>
      inferInstanceAs (Decidable True)

/-! ## What holds throughout -/

/-- How far a probe is. -/
structure Ordered (c : AsyncClient) : Prop where
  /-- the second phase begins when the ping is sent -/
  idle : c.send ≠ .done true → c.receive = .idle ∧ c.receiveWait = .idle
  finish : c.receiveFinish = if c.receive = .done true then 1 else 0
  timeout : c.receiveWait ≠ .done → c.receiveTimeout = 0
  timeout_le : c.receiveTimeout ≤ 1
  /-- while no reply has been handled, the wait ends by expiry alone -/
  due : c.receiveWait = .ready → (∀ ok, c.receive ≠ .done ok) → c.expiresAt ≤ c.now
  fired : c.receiveWait = .done → (∀ ok, c.receive ≠ .done ok) → c.receiveTimeout = 1

theorem cancel_eq_idle_iff {w : Wait} : w.cancel = .idle ↔ w = .idle := by
  cases w with
  | idle | pending | ready | done => simp [Wait.cancel]

theorem cancel_eq_done_iff {w : Wait} : w.cancel = .done ↔ w = .done := by
  cases w with
  | idle | pending | ready | done => simp [Wait.cancel]

theorem operation_cancel_eq_idle_iff {o : Operation} : o.cancel = .idle ↔ o = .idle := by
  cases o with
  | idle | pending | ready | done => simp [Operation.cancel]

theorem operation_cancel_eq_done_iff {o : Operation} {ok : Bool} :
    o.cancel = .done ok ↔ o = .done ok := by
  cases o with
  | idle | pending | ready | done => simp [Operation.cancel]

variable {c : AsyncClient} {timeout : ℕ} {ok : Bool}

theorem ordered_asyncSendTo (timeout size : ℕ) (address : Bool) (now : ℕ) :
    Ordered (asyncSendTo timeout size address now) := by
  have hidle : ∀ c : AsyncClient, c.receive = .idle → c.receiveWait = .idle →
      c.receiveFinish = 0 → c.receiveTimeout = 0 → Ordered c := by
    intro c hreceive hwait hfinish htimeout
    refine ⟨fun _ => ⟨hreceive, hwait⟩, ?_, fun _ => htimeout, ?_, ?_, ?_⟩
    · rw [hfinish, hreceive, if_neg (by decide)]
    · omega
    · rw [hwait]
      exact fun hready => by cases hready
    · rw [hwait]
      exact fun hdone => by cases hdone
  rw [asyncSendTo]
  apply hidle
  all_goals
    dsimp only
    split_ifs <;> rfl

theorem send_asyncSendTo (timeout size : ℕ) (address : Bool) (now : ℕ) :
    (asyncSendTo timeout size address now).send ≠ .done true := by
  rw [asyncSendTo]
  dsimp only
  split_ifs <;> exact fun h => by cases h

/-- As long as the ping has not been sent, nothing of the second phase is there. -/
theorem Ordered.of_send (h : Ordered c) (hsend : c.send ≠ .done true) :
    c.receive = .idle ∧ c.receiveWait = .idle ∧ c.receiveFinish = 0 ∧ c.receiveTimeout = 0 := by
  obtain ⟨hreceive, hwait⟩ := h.idle hsend
  refine ⟨hreceive, hwait, ?_, h.timeout (by rw [hwait]; decide)⟩
  rw [h.finish, hreceive, if_neg (by decide)]

theorem Ordered.finish_eq_zero (h : Ordered c) (hreceive : c.receive ≠ .done true) :
    c.receiveFinish = 0 := by
  rw [h.finish, if_neg hreceive]

theorem Ordered.cancelTimer (h : Ordered c) (hdue : c.expiresAt ≤ c.now) :
    Ordered c.cancelTimer where
  idle hsend := ⟨(h.idle hsend).1, cancel_eq_idle_iff.2 (h.idle hsend).2⟩
  finish := h.finish
  timeout hwait := h.timeout fun hdone => hwait (cancel_eq_done_iff.2 hdone)
  timeout_le := h.timeout_le
  due _ _ := hdue
  fired hwait := h.fired (cancel_eq_done_iff.1 hwait)

theorem Ordered.cancelSocket (h : Ordered c) : Ordered c.cancelSocket where
  idle hsend := by
    obtain ⟨hreceive, hwait⟩ := h.idle fun hdone => hsend (operation_cancel_eq_done_iff.2 hdone)
    exact ⟨operation_cancel_eq_idle_iff.2 hreceive, hwait⟩
  finish := by
    show c.receiveFinish = if c.receive.cancel = .done true then 1 else 0
    simp only [operation_cancel_eq_done_iff]
    exact h.finish
  timeout := h.timeout
  timeout_le := h.timeout_le
  due hwait hreceive := h.due hwait fun ok hdone => hreceive ok (operation_cancel_eq_done_iff.2 hdone)
  fired hwait hreceive :=
    h.fired hwait fun ok hdone => hreceive ok (operation_cancel_eq_done_iff.2 hdone)

/-- The second phase begins when the ping has been sent. -/
theorem Ordered.handleSend (h : Ordered c) (htimeout : 0 < timeout) (hready : c.send = .ready ok) :
    Ordered (c.handleSend timeout ok) := by
  have hsend : c.send ≠ .done true := by
    rw [hready]
    exact fun h => by cases h
  obtain ⟨hreceive, hwait, hfinish, hzero⟩ := h.of_send hsend
  rw [AsyncClient.handleSend]
  simp only [gt_iff_lt, if_pos htimeout]
  cases ok with
  | true =>
      simp only [if_true, asyncReceiveFrom, gt_iff_lt, if_pos htimeout]
      refine ⟨fun hnot => absurd rfl hnot, ?_, fun _ => hzero, h.timeout_le, ?_, ?_⟩
      · show c.receiveFinish = if Operation.pending = .done true then 1 else 0
        rw [hfinish, if_neg (by decide)]
      · exact fun hready => by cases hready
      · exact fun hdone => by cases hdone
  | false =>
      simp only [Bool.false_eq_true, if_false]
      refine ⟨fun _ => ⟨hreceive, cancel_eq_idle_iff.2 hwait⟩, h.finish, fun _ => hzero,
        h.timeout_le, fun hready => ?_, fun hdone => ?_⟩
      · have hidle : c.receiveWait.cancel = .ready := hready
        rw [hwait] at hidle
        cases hidle
      · have hidle : c.receiveWait.cancel = .done := hdone
        rw [hwait] at hidle
        cases hidle

/-- A reply that is handled cancels the wait for it. -/
theorem Ordered.handleReceive (h : Ordered c) (htimeout : 0 < timeout)
    (hready : c.receive = .ready ok) : Ordered (c.handleReceive timeout ok) := by
  have hnot : c.receive ≠ .done true := by
    rw [hready]
    exact fun h => by cases h
  have hfinish := h.finish_eq_zero hnot
  have hsend : c.send = .done true := by
    by_contra hsend
    rw [(h.idle hsend).1] at hready
    cases hready
  have hwait : c.receiveWait.cancel ≠ .done → c.receiveTimeout = 0 := fun hnot =>
    h.timeout fun hdone => hnot (cancel_eq_done_iff.2 hdone)
  rw [AsyncClient.handleReceive]
  simp only [gt_iff_lt, if_pos htimeout]
  cases ok with
  | true =>
      refine ⟨fun hnot => absurd hsend hnot, ?_, hwait, h.timeout_le,
        fun _ hreceive => absurd rfl (hreceive true), fun _ hreceive => absurd rfl (hreceive true)⟩
      show c.receiveFinish + 1 = 1
      rw [hfinish]
  | false =>
      exact ⟨fun hnot => absurd hsend hnot, hfinish, hwait, h.timeout_le,
        fun _ hreceive => absurd rfl (hreceive false), fun _ hreceive => absurd rfl (hreceive false)⟩

/-- The handler of the wait for the ping to be sent. -/
theorem Ordered.runSendWait (h : Ordered c) (timeout : ℕ) :
    Ordered (c.step timeout .runSendWait) := by
  have hdone : Ordered { c with sendWait := .done } :=
    ⟨h.idle, h.finish, h.timeout, h.timeout_le, h.due, h.fired⟩
  rw [AsyncClient.step, checkDeadline]
  split
  · exact hdone.cancelSocket
  · exact hdone

/-- The handler of the wait for the reply, queued by expiry or with the reply handled. -/
theorem Ordered.runReceiveWait (h : Ordered c) (timeout : ℕ) (hready : c.receiveWait = .ready) :
    Ordered (c.step timeout .runReceiveWait) := by
  have hzero := h.timeout (by rw [hready]; decide)
  have hsend : c.send = .done true := by
    by_contra hsend
    rw [(h.idle hsend).2] at hready
    cases hready
  rw [AsyncClient.step, checkDeadline]
  split
  case isTrue hdue =>
    have hcancelled : c.send.cancel = .done true := operation_cancel_eq_done_iff.2 hsend
    refine ⟨fun hnot => absurd hcancelled hnot, ?_, fun hnot => absurd rfl hnot, ?_,
      fun hready => (by cases hready), fun _ _ => ?_⟩
    · exact h.cancelSocket.finish
    · show c.receiveTimeout + 1 ≤ 1
      omega
    · show c.receiveTimeout + 1 = 1
      omega
  case isFalse hearly =>
    exact ⟨fun hnot => absurd hsend hnot, h.finish, fun hnot => absurd rfl hnot, h.timeout_le,
      fun hready => (by cases hready), fun _ hreceive => absurd (h.due hready hreceive) hearly⟩

theorem Ordered.step (h : Ordered c) (htimeout : 0 < timeout) {e : Event} (he : c.Enabled e) :
    Ordered (c.step timeout e) := by
  cases e with
  | tick elapsed =>
      exact ⟨h.idle, h.finish, h.timeout, h.timeout_le,
        fun hwait hreceive => Nat.le_add_right_of_le (h.due hwait hreceive), h.fired⟩
  | expire => exact h.cancelTimer he
  | sent ok =>
      have hsend : c.send = .pending := he
      obtain ⟨hreceive, hwait, _, _⟩ := h.of_send (by rw [hsend]; exact fun h => by cases h)
      exact ⟨fun _ => ⟨hreceive, hwait⟩, h.finish, h.timeout, h.timeout_le, h.due, h.fired⟩
  | received ok =>
      have hpending : c.receive = .pending := he
      have hnot : ∀ ok, c.receive ≠ .done ok := fun ok hdone => by
        rw [hpending] at hdone
        cases hdone
      have hsend : c.send = .done true := by
        by_contra hsend
        rw [(h.idle hsend).1] at hpending
        cases hpending
      exact ⟨fun hnot => absurd hsend hnot, h.finish_eq_zero (hnot true), h.timeout, h.timeout_le,
        fun hwait _ => h.due hwait hnot, fun hwait _ => h.fired hwait hnot⟩
  | runSendWait => exact h.runSendWait timeout
  | runReceiveWait => exact h.runReceiveWait timeout he
  | runSend =>
      obtain ⟨ok, hready⟩ := he
      simp only [AsyncClient.step, hready]
      exact h.handleSend htimeout hready
  | runReceive =>
      obtain ⟨ok, hready⟩ := he
      simp only [AsyncClient.step, hready]
      exact h.handleReceive htimeout hready

/-! ## One outcome -/

theorem receiveFinish_handleSend (timeout : ℕ) (ok : Bool) :
    (c.handleSend timeout ok).receiveFinish = c.receiveFinish := by
  simp only [handleSend, asyncReceiveFrom, expiresFromNow, cancelTimer]
  split_ifs <;> rfl

theorem receiveTimeout_handleSend (timeout : ℕ) (ok : Bool) :
    (c.handleSend timeout ok).receiveTimeout = c.receiveTimeout := by
  simp only [handleSend, asyncReceiveFrom, expiresFromNow, cancelTimer]
  split_ifs <;> rfl

theorem receiveFinish_handleReceive (timeout : ℕ) (ok : Bool) :
    (c.handleReceive timeout ok).receiveFinish = c.receiveFinish + if ok then 1 else 0 := by
  simp only [handleReceive, cancelTimer]
  split_ifs <;> rfl

theorem receiveTimeout_handleReceive (timeout : ℕ) (ok : Bool) :
    (c.handleReceive timeout ok).receiveTimeout = c.receiveTimeout := by
  simp only [handleReceive, cancelTimer]
  split_ifs <;> rfl

/-- The handler of the receive wait gives a second outcome when a reply has been
handled and the timer's expiry is past. -/
theorem oneOutcome_runReceiveWait_iff (h : Ordered c) (hone : c.OneOutcome)
    (hready : c.receiveWait = .ready) :
    (c.step timeout .runReceiveWait).OneOutcome ↔ c.Timely .runReceiveWait := by
  have hzero := h.timeout (by rw [hready]; decide)
  have hfinish := h.finish
  rw [AsyncClient.step, checkDeadline]
  split
  case isTrue hdue =>
    have hdue' : ¬ c.now < c.expiresAt := Nat.not_lt.2 hdue
    show c.receiveFinish + (c.receiveTimeout + 1) ≤ 1 ↔ (c.receive = .done true → c.now < c.expiresAt)
    by_cases hdone : c.receive = .done true
    · rw [if_pos hdone] at hfinish
      simp only [hdone, hdue', true_implies, iff_false]
      omega
    · rw [if_neg hdone] at hfinish
      simp only [hdone, false_implies, iff_true]
      omega
  case isFalse hearly => exact iff_of_true hone fun _ => Nat.not_le.1 hearly

/-- A successful reply gives a second outcome when the wait for it has timed out. -/
theorem oneOutcome_runReceive_iff (h : Ordered c) (hready : c.receive = .ready ok) :
    (c.step timeout .runReceive).OneOutcome ↔ c.Timely .runReceive := by
  have hnot : ∀ ok', c.receive ≠ .done ok' := fun ok' hdone => by
    rw [hready] at hdone
    cases hdone
  have hfinish := h.finish_eq_zero (hnot true)
  simp only [AsyncClient.step, Timely, hready]
  rw [OneOutcome, receiveFinish_handleReceive, receiveTimeout_handleReceive, hfinish]
  cases ok with
  | false =>
      refine iff_of_true ?_ fun hok => (by cases hok)
      have hle := h.timeout_le
      simpa using hle
  | true =>
      simp only [if_true, true_implies]
      constructor
      · intro hle hdone
        have hfired := h.fired hdone hnot
        omega
      · intro hwait
        have hzero := h.timeout hwait
        omega

/-- A step gives the probe a second outcome when it is not timely. -/
theorem oneOutcome_step_iff (h : Ordered c) (hone : c.OneOutcome) {e : Event} (he : c.Enabled e) :
    (c.step timeout e).OneOutcome ↔ c.Timely e := by
  cases e with
  | tick elapsed => exact iff_of_true hone trivial
  | expire => exact iff_of_true hone trivial
  | sent ok => exact iff_of_true hone trivial
  | received ok => exact iff_of_true hone trivial
  | runSendWait =>
      refine iff_of_true ?_ trivial
      rw [AsyncClient.step, checkDeadline]
      split
      · exact hone
      · exact hone
  | runReceiveWait => exact oneOutcome_runReceiveWait_iff h hone he
  | runSend =>
      obtain ⟨ok, hready⟩ := he
      refine iff_of_true ?_ trivial
      simp only [AsyncClient.step, hready]
      rw [OneOutcome, receiveFinish_handleSend, receiveTimeout_handleSend]
      exact hone
  | runReceive =>
      obtain ⟨ok, hready⟩ := he
      exact oneOutcome_runReceive_iff h hready

/-- A probe has one outcome at most, as long as its handlers are timely, and no longer. -/
theorem oneOutcome_iff (timeout size now : ℕ) (address : Bool) (htimeout : 0 < timeout)
    (es : List Event)
    (hv : Along (step timeout) Enabled (asyncSendTo timeout size address now) es) :
    Throughout (step timeout) OneOutcome (asyncSendTo timeout size address now) es ↔
      Along (step timeout) Timely (asyncSendTo timeout size address now) es := by
  have hstart : Ordered (asyncSendTo timeout size address now) := ordered_asyncSendTo _ _ _ _
  obtain ⟨_, _, hfinish, hzero⟩ := hstart.of_send (send_asyncSendTo _ _ _ _)
  have hone : OneOutcome (asyncSendTo timeout size address now) := by
    rw [OneOutcome, hfinish, hzero]
    exact Nat.zero_le _
  exact throughout_iff_along (fun _ _ h he => h.step htimeout he)
    (fun _ _ h hone he => oneOutcome_step_iff h hone he) hstart hone hv

/-- The reply comes at once, and the wait for it is over before its deadline. -/
theorem oneOutcome_of_prompt :
    let c := asyncSendTo 500 100 true 0
    let es : List Event :=
      [.sent true, .runSend, .runSendWait, .tick 1, .received true, .runReceive, .runReceiveWait]
    Throughout (step 500) OneOutcome c es :=
  (oneOutcome_iff 500 100 0 true (by decide) _ (by decide)).2 (by decide)

/-- The reply comes in time, but the deadline passes before the handler of the
wait that it cancels runs. -/
theorem not_oneOutcome_of_late :
    let c := asyncSendTo 500 100 true 0
    let es : List Event :=
      [.sent true, .runSend, .runSendWait, .tick 499, .received true, .runReceive, .tick 1,
        .runReceiveWait]
    Along (step 500) Enabled c es ∧ ¬ Throughout (step 500) OneOutcome c es := by
  decide

end AsyncClient

end CppGossip
