import Iqrf.Connector.IConnector

/-!
# A sniffer among the other clients

`Shared.step` is one connector under everything that can happen to it: calls of
`registerResponseHandler`, the two-argument `send` and `unregisterResponseHandler`,
and the pieces of its listening thread. A handler may call the connector back
while the loop holds the lock, so the call of a handler is a piece of its own here
and the calls of clients may come in between; `run_loopStep` says that the pieces
without any call in between are those of `loopStep`. A token bears its level only,
so a call names the token and not the registration it came from.

`Shared.unsniffed` is what the normal and exclusive clients see. A step changes it
by what it was before, and the registrations of sniffers do not change it at all.
-/

namespace Iqrf.Connector

open Runs

variable {H : Type*}

/-- Where the listening thread stands, with the call of a handler open while it is
`calling`. -/
inductive SharedPc
  | checking
  | receiving
  | dispatching (recvBuffer : Bytes)
  | calling (recvBuffer : Bytes)
  | sniffing (recvBuffer : Bytes)
  | caught
  | finished
  deriving DecidableEq, Repr

/-- A call by some client, or a piece of the listening thread. -/
inductive SharedAction (H : Type*)
  | registerResponseHandler (handler : ResponseHandler H) (access : AccessType)
  | unregisterResponseHandler (token : AccessToken)
  | send (data : Bytes) (token : AccessToken)
  | check
  | receive (result : Option Bytes)
  | call
  | callEnds (returned : Bool)
  | sniff (returned : Bool)
  | catchAll

/-- The connector and its listening thread, with all that was delivered, and how each
registration and each `send` ended. -/
structure Shared (H : Type*) where
  connector : IConnector H
  loop : SharedPc := .checking
  delivered : List (Delivery H) := []
  registered : List (AccessType × Except RuntimeError AccessToken) := []
  sent : List (AccessToken × Except RuntimeError Bytes) := []

/-- The access type whose handler the loop calls first. -/
def IConnector.served (c : IConnector H) : AccessType :=
  if c.hasExclusiveAccess then .exclusive else .normal

namespace Shared

def step (s : Shared H) (action : SharedAction H) : Option (Shared H) :=
  match action, s.loop with
  | .registerResponseHandler handler access, _ =>
    let result := s.connector.registerResponseHandler handler access
    some { s with connector := result.1, registered := s.registered ++ [(access, result.2)] }
  | .unregisterResponseHandler token, _ =>
    some { s with connector := s.connector.unregisterResponseHandler token }
  | .send data token, _ => some { s with sent := s.sent ++ [(token, s.connector.send data token)] }
  | .check, .checking =>
    some { s with loop := if s.connector.listening then .receiving else .finished }
  | .receive (some recvBuffer), .receiving =>
    some { s with loop := if recvBuffer.isEmpty then .checking else .dispatching recvBuffer }
  | .receive none, .receiving => some { s with loop := .caught }
  | .call, .dispatching recvBuffer =>
    -- calling an empty `std::function` throws
    match s.connector.slot s.connector.served with
    | some handler =>
      some { s with
        loop := .calling recvBuffer
        delivered := s.delivered ++ [⟨s.connector.served, handler, recvBuffer⟩] }
    | none => some { s with loop := .caught }
  | .callEnds returned, .calling recvBuffer =>
    some { s with loop := if returned then .sniffing recvBuffer else .caught }
  | .sniff returned, .sniffing recvBuffer =>
    match s.connector.snifferResponseHandler with
    | some handler =>
      some { s with
        loop := if returned then .checking else .caught
        delivered := s.delivered ++ [⟨.sniffer, handler, recvBuffer⟩] }
    | none => some { s with loop := .checking }
  | .catchAll, .caught =>
    some { s with loop := .finished, connector := { s.connector with listening := false } }
  | _, _ => none

/-! ## The pieces of the loop -/

/-- Where the thread of `loopStep` stands. -/
def pc : LoopPc → SharedPc
  | .checking => .checking
  | .receiving => .receiving
  | .dispatching recvBuffer => .dispatching recvBuffer
  | .caught => .caught
  | .finished => .finished

/-- What a dispatch does, by the slot it calls first. -/
theorem dispatch_of_none {c : IConnector H} (empty : c.slot c.served = none)
    (returns : Delivery H → Bool) (recvBuffer : Bytes) :
    c.dispatch returns recvBuffer = ([], false) := by
  rcases c with ⟨normal, _ | exclusive, sniffer, listening, thread⟩
  · have normal : normal = none := empty
    subst normal
    rfl
  · cases empty

theorem dispatch_of_some {c : IConnector H} {handler : H} (filled : c.slot c.served = some handler)
    (returns : Delivery H → Bool) (recvBuffer : Bytes) :
    c.dispatch returns recvBuffer =
      if returns ⟨c.served, handler, recvBuffer⟩ then
        match c.snifferResponseHandler with
        | some sniffer => ([⟨c.served, handler, recvBuffer⟩, ⟨.sniffer, sniffer, recvBuffer⟩],
            returns ⟨.sniffer, sniffer, recvBuffer⟩)
        | none => ([⟨c.served, handler, recvBuffer⟩], true)
      else ([⟨c.served, handler, recvBuffer⟩], false) := by
  rcases c with ⟨normal, exclusive, sniffer, listening, thread⟩
  rcases exclusive with _ | exclusive
  · have normal : normal = some handler := filled
    subst normal
    cases returned : returns ⟨.normal, handler, recvBuffer⟩ <;> rcases sniffer with _ | sniffer <;>
      simp [IConnector.dispatch, IConnector.served, IConnector.hasExclusiveAccess,
        ResponseHandler.call, returned]
  · have same : exclusive = handler := Option.some.inj filled
    subst same
    cases returned : returns ⟨.exclusive, exclusive, recvBuffer⟩ <;>
      rcases sniffer with _ | sniffer <;>
      simp [IConnector.dispatch, IConnector.served, IConnector.hasExclusiveAccess,
        ResponseHandler.call, returned]

/-- A piece of the listening thread. -/
def ofLoop : SharedAction H → Bool
  | .registerResponseHandler _ _ | .unregisterResponseHandler _ | .send _ _ => false
  | _ => true

section Pieces

variable {c c' : IConnector H} (delivered : List (Delivery H))
  (registered : List (AccessType × Except RuntimeError AccessToken))
  (sent : List (AccessToken × Except RuntimeError Bytes))

/-- Without a call in between, the pieces of a dispatch are `dispatch`. -/
theorem run_dispatch (returns : Delivery H → Bool) (c : IConnector H) (recvBuffer : Bytes) :
    ∃ actions, actions.all ofLoop = true ∧
      run step ⟨c, .dispatching recvBuffer, delivered, registered, sent⟩ actions =
        some ⟨c, if (c.dispatch returns recvBuffer).2 then .checking else .caught,
          delivered ++ (c.dispatch returns recvBuffer).1, registered, sent⟩ := by
  rcases first : c.slot c.served with _ | handler
  · rw [dispatch_of_none first]
    exact ⟨[.call], rfl, by simp [run_cons, step, first]⟩
  · rw [dispatch_of_some first]
    cases returned : returns ⟨c.served, handler, recvBuffer⟩ with
    | false => exact ⟨[.call, .callEnds false], rfl, by simp [run_cons, step, first]⟩
    | true =>
      rcases sniffed : c.snifferResponseHandler with _ | sniffer
      · exact ⟨[.call, .callEnds true, .sniff true], rfl,
          by simp [run_cons, step, first, sniffed]⟩
      · refine ⟨[.call, .callEnds true, .sniff (returns ⟨.sniffer, sniffer, recvBuffer⟩)], rfl, ?_⟩
        simp [run_cons, step, first, sniffed]

/-- Each piece of `loopStep` is a run of these pieces. -/
theorem run_loopStep {before after : LoopPc} {event : LoopEvent H} {calls : List (Delivery H)}
    (taken : loopStep c before event = some (c', after, calls)) :
    ∃ actions, actions.all ofLoop = true ∧
      run step ⟨c, pc before, delivered, registered, sent⟩ actions =
        some ⟨c', pc after, delivered ++ calls, registered, sent⟩ := by
  cases loopStep_eq_some_iff.mp taken with
  | again listening => exact ⟨[.check], rfl, by simp [run_cons, step, pc, listening]⟩
  | leave stopped => exact ⟨[.check], rfl, by simp [run_cons, step, pc, stopped]⟩
  | nothing => exact ⟨[.receive (some [])], rfl, by simp [run_cons, step, pc]⟩
  | @received recvBuffer nonempty =>
    exact ⟨[.receive (some recvBuffer)], rfl, by simp [run_cons, step, pc, nonempty]⟩
  | receiveThrew => exact ⟨[.receive none], rfl, by simp [run_cons, step, pc]⟩
  | @dispatched recvBuffer returns returned =>
    have pieces := run_dispatch delivered registered sent returns c recvBuffer
    rwa [returned] at pieces
  | @dispatchThrew recvBuffer returns threw =>
    have pieces := run_dispatch delivered registered sent returns c recvBuffer
    rwa [threw] at pieces
  | ended => exact ⟨[.catchAll], rfl, by simp [run_cons, step, pc]⟩

end Pieces

/-! ## What the other clients see -/

/-- What the normal and exclusive clients see: all but the sniffer's slot, the calls
of the sniffer and how its registrations ended. -/
def unsniffed (s : Shared H) : Shared H :=
  { s with
    connector := { s.connector with snifferResponseHandler := none }
    delivered := s.delivered.filter (·.access ≠ .sniffer)
    registered := s.registered.filter (·.1 ≠ .sniffer) }

/-- Anything but a registration or an unregistration of a sniffer. -/
def unsniffing : SharedAction H → Bool
  | .registerResponseHandler _ access => access ≠ .sniffer
  | .unregisterResponseHandler token => token.accessType ≠ .sniffer
  | _ => true

/-- A sniffer's handler returns. -/
def SnifferReturns (action : SharedAction H) : Prop := action ≠ .sniff false

/-- The registrations of sniffers are not seen. -/
theorem unsniffed_of_sniffing (s : Shared H) (action : SharedAction H)
    (sniffing : unsniffing action = false) :
    (step s action).map unsniffed = some (unsniffed s) := by
  cases action with
  | registerResponseHandler handler access =>
    have access : access = .sniffer := by simpa [unsniffing] using sniffing
    subst access
    simp [step, unsniffed, IConnector.registerResponseHandler]
  | unregisterResponseHandler token =>
    rcases token with ⟨access⟩
    have access : access = .sniffer := by simpa [unsniffing] using sniffing
    subst access
    simp [step, unsniffed, IConnector.unregisterResponseHandler]
  | send data token => cases sniffing
  | check => cases sniffing
  | receive result => cases sniffing
  | call => cases sniffing
  | callEnds returned => cases sniffing
  | sniff returned => cases sniffing
  | catchAll => cases sniffing

/-- A registration of another client does not depend on the sniffer's slot. -/
theorem registerResponseHandler_unsniffed (c : IConnector H) (handler : ResponseHandler H)
    {access : AccessType} (other : access ≠ .sniffer) :
    let hidden := { c with snifferResponseHandler := none }.registerResponseHandler handler access
    hidden.1 =
        { (c.registerResponseHandler handler access).1 with snifferResponseHandler := none } ∧
      hidden.2 = (c.registerResponseHandler handler access).2 := by
  cases access with
  | normal => exact ⟨rfl, rfl⟩
  | exclusive =>
    rcases c with ⟨normal, _ | exclusive, sniffer, listening, thread⟩
    · exact ⟨rfl, rfl⟩
    · exact ⟨rfl, rfl⟩
  | sniffer => exact absurd rfl other

/-- What a step does to the view depends on the view only. -/
theorem step_unsniffed (s : Shared H) (action : SharedAction H)
    (visible : unsniffing action = true) (returns : SnifferReturns action) :
    (step s action).map unsniffed = (step (unsniffed s) action).map unsniffed := by
  rcases s with ⟨c, loop, delivered, registered, sent⟩
  cases action with
  | registerResponseHandler handler access =>
    have other : access ≠ .sniffer := by simpa [unsniffing] using visible
    obtain ⟨connector, outcome⟩ := registerResponseHandler_unsniffed c handler other
    simp [step, unsniffed, connector, outcome, other]
  | unregisterResponseHandler token =>
    rcases token with ⟨access⟩
    cases access <;> simp [step, unsniffed, IConnector.unregisterResponseHandler]
  | send data token =>
    have outcome : { c with snifferResponseHandler := none }.send data token = c.send data token :=
      rfl
    simp [step, unsniffed, outcome]
  | check => cases loop <;> simp [step, unsniffed]
  | receive result => cases loop <;> rcases result with _ | recvBuffer <;> simp [step, unsniffed]
  | call =>
    cases loop with
    | dispatching recvBuffer =>
      rcases c with ⟨normal, _ | exclusive, sniffer, listening, thread⟩
      · rcases normal with _ | normal <;>
          simp [step, unsniffed, IConnector.served, IConnector.slot, IConnector.hasExclusiveAccess]
      · simp [step, unsniffed, IConnector.served, IConnector.slot, IConnector.hasExclusiveAccess]
    | _ => rfl
  | callEnds returned => cases loop <;> simp [step, unsniffed]
  | sniff returned =>
    have returned : returned = true := by
      cases returned with
      | true => rfl
      | false => exact absurd rfl returns
    subst returned
    cases loop with
    | sniffing recvBuffer =>
      -- the call of the sniffer is not seen
      rcases c with ⟨normal, exclusive, _ | sniffer, listening, thread⟩ <;> simp [step, unsniffed]
    | _ => rfl
  | catchAll => cases loop <;> simp [step, unsniffed]

theorem step_consistent (s t : Shared H) (action : SharedAction H)
    (visible : unsniffing action = true) (returns : SnifferReturns action)
    (same : unsniffed s = unsniffed t) :
    (step s action).map unsniffed = (step t action).map unsniffed := by
  rw [step_unsniffed s action visible returns, same, step_unsniffed t action visible returns]

/-! ## Passive sniffers -/

/-- No `send` with a sniffer's token reached the transport. -/
def SnifferSilent (s : Shared H) : Prop :=
  ∀ attempt ∈ s.sent, attempt.1.accessType = .sniffer →
    attempt.2 = .error .snifferTokenDoesNotAllowSending

/-- A step notes at most one attempt to send, and how it ended. -/
theorem sent_step {s s' : Shared H} {action : SharedAction H} (taken : step s action = some s') :
    s'.sent = s.sent ∨
      ∃ data token, s'.sent = s.sent ++ [(token, s.connector.send data token)] := by
  rcases s with ⟨c, loop, delivered, registered, sent⟩
  cases action with
  | send data token =>
    cases taken
    exact Or.inr ⟨data, token, rfl⟩
  | registerResponseHandler handler access =>
    cases taken
    exact Or.inl rfl
  | unregisterResponseHandler token =>
    cases taken
    exact Or.inl rfl
  | check =>
    cases loop <;> cases taken
    exact Or.inl rfl
  | receive result =>
    rcases result with _ | recvBuffer
    · cases loop <;> cases taken
      exact Or.inl rfl
    · cases loop <;> cases taken
      exact Or.inl rfl
  | call =>
    cases loop with
    | dispatching recvBuffer =>
      rcases first : c.slot c.served with _ | handler
      · simp only [step, first, Option.some.injEq] at taken
        subst taken
        exact Or.inl rfl
      · simp only [step, first, Option.some.injEq] at taken
        subst taken
        exact Or.inl rfl
    | _ => cases taken
  | callEnds returned =>
    cases loop <;> cases taken
    exact Or.inl rfl
  | sniff returned =>
    cases loop with
    | sniffing recvBuffer =>
      rcases sniffed : c.snifferResponseHandler with _ | sniffer
      · simp only [step, sniffed, Option.some.injEq] at taken
        subst taken
        exact Or.inl rfl
      · simp only [step, sniffed, Option.some.injEq] at taken
        subst taken
        exact Or.inl rfl
    | _ => cases taken
  | catchAll =>
    cases loop <;> cases taken
    exact Or.inl rfl

theorem SnifferSilent.step {s s' : Shared H} {action : SharedAction H} (silent : SnifferSilent s)
    (taken : Shared.step s action = some s') : SnifferSilent s' := by
  intro attempt member sniffer
  rcases sent_step taken with same | ⟨data, token, noted⟩
  · rw [same] at member
    exact silent attempt member sniffer
  · rw [noted] at member
    rcases List.mem_append.mp member with member | member
    · exact silent attempt member sniffer
    · have attempt_ := List.mem_singleton.mp member
      subst attempt_
      rcases token with ⟨access⟩
      have access : access = .sniffer := sniffer
      subst access
      rfl

theorem SnifferSilent.run {s s' : Shared H} {actions : List (SharedAction H)}
    (silent : SnifferSilent s) (reached : Runs.run Shared.step s actions = some s') :
    SnifferSilent s' := by
  induction actions generalizing s with
  | nil => cases reached; exact silent
  | cons action actions ih =>
    obtain ⟨t, taken, rest⟩ := Option.bind_eq_some_iff.mp reached
    exact ih (silent.step taken) rest

/-- **A sniffer is passive.** Two runs of a connector that differ only in the
registrations and unregistrations of sniffers, whose handlers return, go equally far,
and what the other clients see of them is the same; no `send` with a sniffer's token
reaches the transport. -/
theorem sniffer_passive (c : IConnector H) (as bs : List (SharedAction H))
    (agree : as.filter unsniffing = bs.filter unsniffing)
    (returnsA : ∀ action ∈ as, SnifferReturns action)
    (returnsB : ∀ action ∈ bs, SnifferReturns action) :
    (run step { connector := c } as).map unsniffed =
        (run step { connector := c } bs).map unsniffed ∧
      (∀ s, run step { connector := c } as = some s → SnifferSilent s) ∧
      ∀ s, run step { connector := c } bs = some s → SnifferSilent s := by
  have fresh : SnifferSilent { connector := c } := fun _ member => absurd member List.not_mem_nil
  refine ⟨?_, fun s reached => fresh.run reached, fun s reached => fresh.run reached⟩
  exact run_eq_of_filter_eq unsniffed_of_sniffing step_consistent rfl returnsA returnsB agree

/-- A message is delivered while a client sends, and a sniffer comes and goes. -/
def sniffedRun : List (SharedAction Nat) :=
  [.registerResponseHandler (some 1) .normal, .check, .registerResponseHandler (some 7) .sniffer,
    .receive (some [1]), .call, .send [2] ⟨.normal⟩, .callEnds true, .sniff true,
    .send [3] ⟨.sniffer⟩, .unregisterResponseHandler ⟨.sniffer⟩, .check]

theorem sniffer_passive_sniffedRun :
    (run step { connector := { listening := true } } sniffedRun).map unsniffed =
        (run step { connector := { listening := true } } (sniffedRun.filter unsniffing)).map
          unsniffed ∧
      (∀ s, run step { connector := { listening := true } } sniffedRun = some s →
        SnifferSilent s) ∧
      ∀ s, run step { connector := { listening := true } } (sniffedRun.filter unsniffing) =
        some s → SnifferSilent s :=
  sniffer_passive { listening := true } sniffedRun (sniffedRun.filter unsniffing) rfl
    (by simp [sniffedRun, SnifferReturns]) (by simp [sniffedRun, SnifferReturns, unsniffing])

end Shared

end Iqrf.Connector
