import Iqrf.Connector.Tcp.TcpConnector

/-!
# The deadline against the read

Both handlers of a call write its locals and the result is chosen from them after
both have run. `CallInv` follows the two operations through a call: where the
deadline has expired the call returns nothing, whatever the read took. So the bytes
of a call are lost exactly if the deadline expires and data arrives before either
handler could cancel the other operation (`losesNothing_iff`).
-/

namespace Iqrf.Connector.Tcp

open Runs TcpReceiver

/-- Whether the deadline of the current call has expired, and what its read took. -/
structure CallHistory where
  expired : Bool := false
  arrived : Bytes := []
  deriving DecidableEq

def CallHistory.update (h : CallHistory) : TcpAction → CallHistory
  | .receive => {}
  | .expire => { h with expired := true }
  | .arrive data => { h with arrived := data }
  | _ => h

/-- The connector with the history of its call. -/
abbrev historyStep : TcpReceiver × CallHistory → TcpAction →
    Option (TcpReceiver × CallHistory) :=
  withGhost TcpReceiver.step fun _ action _ h => h.update action

/-- Reads complete without an error of their own. -/
def Sound (action : TcpAction) : Prop := ∀ error, action ≠ .fail error

/-- Between two calls, what was returned is what was consumed. -/
def LosesNothing (s : TcpReceiver × CallHistory) : Prop :=
  s.1.call = none → s.1.returned.flatten = s.1.consumed.flatten

/-- A call in which the deadline has expired has read nothing when it returns. -/
def NoRace (s : TcpReceiver × CallHistory) (action : TcpAction) : Prop :=
  action = .return_ → s.2.expired = true → s.2.arrived = []

/-! ## One call -/

/-- The deadline's operation: its handler sets `timeout` exactly if it has expired. -/
def DeadlineInv (timeout expired : Bool) : Operation ErrorCode → Prop
  | .pending => timeout = false ∧ expired = false
  | .queued error => timeout = false ∧ (error = .success ↔ expired = true)
  | .ran => timeout = expired

/-- A completed read has put the data in front of the buffer, or was cancelled by the
deadline before any came. -/
def Completed (buffer arrived : Bytes) (timeout : Bool) (error : ErrorCode) (length : Nat) : Prop :=
  (error = .success ∧ buffer.take length = arrived) ∨ (timeout = true ∧ arrived = [])

/-- The read's operation. -/
def ReadInv (r : Receive) (arrived : Bytes) : Operation (ErrorCode × Nat) → Prop
  | .pending => arrived = []
  | .queued (error, length) => Completed r.buffer arrived r.timeout error length
  | .ran => Completed r.buffer arrived r.timeout r.ec r.bytesRead

/-- What holds throughout a call. -/
structure CallInv (r : Receive) (h : CallHistory) : Prop where
  deadline : DeadlineInv r.timeout h.expired r.deadline
  read : ReadInv r h.arrived r.read

section Call

variable {r r' : Receive} {h : CallHistory}

theorem callInv_init : CallInv {} {} := ⟨⟨rfl, rfl⟩, rfl⟩

theorem CallInv.expire (inv : CallInv r h) (expires : r.expire = some r') :
    CallInv r' { h with expired := true } := by
  obtain ⟨deadline, read⟩ := inv
  unfold Receive.expire at expires
  split at expires
  · rename_i pending
    cases expires
    rw [pending] at deadline
    exact ⟨⟨deadline.1, by simp⟩, read⟩
  · cases expires

theorem CallInv.arrive {data : Bytes} (inv : CallInv r h) (arrives : r.arrive data = some r') :
    CallInv r' { h with arrived := data } := by
  obtain ⟨deadline, read⟩ := inv
  unfold Receive.arrive at arrives
  split at arrives
  · split at arrives
    · cases arrives
      exact ⟨deadline, Or.inl ⟨rfl, List.take_left⟩⟩
    · cases arrives
  · cases arrives

/-- A read completes once in a call. -/
theorem CallInv.arrived_of_arrive {data : Bytes} (inv : CallInv r h)
    (arrives : r.arrive data = some r') : h.arrived = [] := by
  have read := inv.read
  unfold Receive.arrive at arrives
  split at arrives
  · rename_i pending
    rw [pending] at read
    exact read
  · cases arrives

theorem Completed.of_timeout {buffer arrived : Bytes} {timeout : Bool} {error : ErrorCode}
    {length : Nat} (completed : Completed buffer arrived timeout error length) :
    Completed buffer arrived true error length :=
  completed.imp_right fun ⟨_, empty⟩ => ⟨rfl, empty⟩

/-- The timer's handler sets `timeout`, and a read that it cancels has taken nothing. -/
theorem CallInv.runTimer (inv : CallInv r h) (runs : r.runTimer = some r') : CallInv r' h := by
  obtain ⟨deadline, read⟩ := inv
  unfold Receive.runTimer Receive.timerHandler at runs
  split at runs
  · rename_i error queued
    rw [queued] at deadline
    obtain ⟨timeout, success_iff⟩ := deadline
    split at runs
    · rename_i success
      cases runs
      refine ⟨(success_iff.mp success).symm, ?_⟩
      dsimp only
      rcases at_ : r.read with _ | ⟨error', length⟩ | _ <;> rw [at_] at read
      · exact Or.inr ⟨rfl, read⟩
      · exact Completed.of_timeout read
      · exact Completed.of_timeout read
    · rename_i failure
      cases runs
      have notExpired : h.expired = false := Bool.eq_false_iff.mpr (failure ∘ success_iff.mpr)
      exact ⟨timeout.trans notExpired.symm, read⟩
  · cases runs

/-- The read's handler keeps its outcome, and a deadline that it cancels has not expired. -/
theorem CallInv.runRead (inv : CallInv r h) (runs : r.runRead = some r') : CallInv r' h := by
  obtain ⟨deadline, read⟩ := inv
  unfold Receive.runRead Receive.readHandler at runs
  split at runs
  · rename_i error length queued
    rw [queued] at read
    cases runs
    refine ⟨?_, read⟩
    dsimp only
    rcases at_ : r.deadline with _ | error' | _ <;> rw [at_] at deadline
    · exact ⟨deadline.1, by simp [deadline.2]⟩
    · exact deadline
    · exact deadline
  · cases runs

/-- A call returns what its read took, unless the deadline has expired. -/
theorem CallInv.result (inv : CallInv r h) (deadlineRan : r.deadline = .ran)
    (readRan : r.read = .ran) : r.result.1 = if h.expired then [] else h.arrived := by
  obtain ⟨deadline, read⟩ := inv
  rw [deadlineRan] at deadline
  rw [readRan] at read
  have same : r.timeout = h.expired := deadline
  cases expired : h.expired with
  | true => simp [Receive.result, same, expired]
  | false =>
    rw [expired] at same
    rcases read with ⟨success, data⟩ | ⟨timeout, -⟩
    · simp [Receive.result, same, success, data]
    · cases same.symm.trans timeout

end Call

/-! ## Runs -/

/-- Between calls nothing is lost, and within a call nothing but what it has read is
still to be returned. -/
def Inv (s : TcpReceiver × CallHistory) : Prop :=
  match s.1.call with
  | none => s.1.returned.flatten = s.1.consumed.flatten
  | some r =>
    CallInv r s.2 ∧ s.1.consumed.flatten = s.1.returned.flatten ++ s.2.arrived

variable {s s' : TcpReceiver} {h : CallHistory} {action : TcpAction}

theorem LosesNothing.of_inv (inv : Inv (s, h)) : LosesNothing (s, h) := by
  intro between
  dsimp only at between
  rw [Inv, between] at inv
  exact inv

/-- A step within a call keeps the invariant. -/
theorem Inv.of_step (inv : Inv (s, h)) (taken : TcpReceiver.step s action = some s')
    (sound : Sound action) (within : action ≠ .return_) : Inv (s', h.update action) := by
  rcases s with ⟨isOpen, _ | r, raised, returned, consumed, reconnects⟩
  · cases action with
    | receive =>
      have account : returned.flatten = consumed.flatten := inv
      cases isOpen <;> cases taken
      · exact account
      · exact ⟨callInv_init, by simp [CallHistory.update, account]⟩
    | _ => cases taken
  · obtain ⟨callInv, account⟩ := inv
    cases action with
    | receive => cases taken
    | expire =>
      obtain ⟨r', expires, same⟩ := Option.map_eq_some_iff.mp taken
      subst same
      exact ⟨callInv.expire expires, account⟩
    | arrive data =>
      obtain ⟨r', arrives, same⟩ := Option.map_eq_some_iff.mp taken
      subst same
      refine ⟨callInv.arrive arrives, ?_⟩
      have empty := callInv.arrived_of_arrive arrives
      dsimp only at account empty ⊢
      rw [List.flatten_append, account, empty]
      simp [CallHistory.update]
    | fail error => exact absurd rfl (sound error)
    | runTimer =>
      obtain ⟨r', runs, same⟩ := Option.map_eq_some_iff.mp taken
      subst same
      exact ⟨callInv.runTimer runs, account⟩
    | runRead =>
      obtain ⟨r', runs, same⟩ := Option.map_eq_some_iff.mp taken
      subst same
      exact ⟨callInv.runRead runs, account⟩
    | return_ => exact absurd rfl within

/-- A call returns all that it has read exactly if its deadline did not expire over
data. -/
theorem losesNothing_return_iff (inv : Inv (s, h))
    (taken : TcpReceiver.step s .return_ = some s') :
    (LosesNothing (s', h) ↔ NoRace (s, h) .return_) ∧ (LosesNothing (s', h) → Inv (s', h)) := by
  rcases s with ⟨isOpen, _ | r, raised, returned, consumed, reconnects⟩
  · cases taken
  · obtain ⟨callInv, account⟩ := inv
    unfold TcpReceiver.step at taken
    dsimp only at taken
    split at taken <;> cases taken
    rename_i ran
    refine ⟨?_, fun loses => loses rfl⟩
    have result := callInv.result ran.1 ran.2
    dsimp only at account
    rw [LosesNothing, NoRace]
    dsimp only
    rw [result, account, List.flatten_append]
    cases h.expired <;> simp

/-- In a state that has lost nothing, a step loses nothing exactly if it is not the
return of a call whose deadline expired over data. -/
theorem losesNothing_iff_noRace {s s' : TcpReceiver × CallHistory} (sound : Sound action)
    (inv : Inv s) (taken : historyStep s action = some s') :
    (LosesNothing s' ↔ NoRace s action) ∧ (LosesNothing s' → Inv s') := by
  rcases s' with ⟨s', h'⟩
  obtain ⟨step_, ghost⟩ := withGhost_eq_some taken
  dsimp only at step_ ghost
  subst ghost
  by_cases returns : action = .return_
  · subst returns
    exact losesNothing_return_iff inv step_
  · have inv' := Inv.of_step inv step_ sound returns
    exact ⟨⟨fun _ return_ => absurd return_ returns, fun _ => .of_inv inv'⟩, fun _ => inv'⟩

/-- Over any number of calls and in every order of completions and handlers, the
buffers returned are the bytes consumed exactly if in no call the deadline expires and
data arrives before one of the two handlers has run. -/
theorem losesNothing_iff (actions : List TcpAction) (sound : ∀ action ∈ actions, Sound action) :
    Always historyStep (fun _ _ s' => LosesNothing s') ({}, {}) actions ↔
      Always historyStep (fun s action _ => NoRace s action) ({}, {}) actions :=
  always_iff_of_invariant_on
    (fun _ _ _ sound inv taken => (losesNothing_iff_noRace sound inv taken).1)
    (fun _ _ _ sound inv taken => (losesNothing_iff_noRace sound inv taken).2) rfl sound

/-- A call that reads two bytes, and one that times out. -/
def calmCalls : List TcpAction :=
  [.receive, .arrive [1, 2], .runRead, .runTimer, .return_,
    .receive, .expire, .runTimer, .runRead, .return_]

theorem losesNothing_calmCalls :
    Always historyStep (fun _ _ s' => LosesNothing s') ({}, {}) calmCalls ↔
      Always historyStep (fun s action _ => NoRace s action) ({}, {}) calmCalls :=
  losesNothing_iff calmCalls (by simp [calmCalls, Sound])

/-- A call in which data arrives as the deadline expires. -/
def race (data : Bytes) : List TcpAction :=
  [.receive, .arrive data, .expire, .runRead, .runTimer, .return_]

/-- Such a call takes the data and returns nothing. -/
theorem run_race {data : Bytes} (short : data.length ≤ 1024) :
    run TcpReceiver.step {} (race data) =
      some { returned := [[]], consumed := [data] } := by
  simp [-List.reduceReplicate, race, run_cons, TcpReceiver.step, Receive.arrive,
    Receive.expire, Receive.runRead, Receive.readHandler, Receive.runTimer,
    Receive.timerHandler, Receive.result, Operation.cancel, short]

theorem not_losesNothing :
    ¬ ∀ actions : List TcpAction, (∀ action ∈ actions, Sound action) →
      Always historyStep (fun _ _ s' => LosesNothing s') ({}, {}) actions := by
  intro never
  obtain ⟨⟨s, h⟩, reached, rfl⟩ :=
    Option.map_eq_some_iff.mp (run_withGhost.trans (@run_race [1] (by decide)))
  have loses := (never (race [1]) (by simp [race, Sound])).invariant_run
    (I := LosesNothing) (fun _ _ _ _ _ next => next) (fun _ => rfl) reached
  have lost : ([] : Bytes) = [1] := loses rfl
  exact absurd lost (by decide)

end Iqrf.Connector.Tcp
