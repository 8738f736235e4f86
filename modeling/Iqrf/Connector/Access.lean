import Iqrf.Connector.IConnector

/-!
# Clients of one connector

Any number of clients call `registerResponseHandler`, the two-argument `send` and
`unregisterResponseHandler`; each call is atomic, so an interleaving is one list
of calls. A token is an enum value, so a call names it by its place in the order
of issue: that place is the identity the code does not store.

Two history variables say what the calls were meant to do. `sessions` are the
exclusive registrations whose token was not yet given back, `owner` is the
registration that should be in effect for each access type. The connector agrees
with them as long as no stale token is used and no empty handler takes exclusive
access; the theorems say exactly where it stops to.
-/

namespace Iqrf.Connector

open Runs

variable {H : Type*}

/-- A call by some client. -/
inductive Call (H : Type*)
  | registerResponseHandler (handler : ResponseHandler H) (access : AccessType)
  | send (data : Bytes) (token : Nat)
  | unregisterResponseHandler (token : Nat)

/-- The connector and the tokens it has issued, in order. -/
structure Clients (H : Type*) where
  connector : IConnector H := {}
  issued : List AccessToken := []

namespace Clients

/-- One call; a token that was not issued cannot be used. -/
def step (s : Clients H) : Call H → Option (Clients H)
  | .registerResponseHandler handler access =>
    match s.connector.registerResponseHandler handler access with
    | (connector, .ok token) => some ⟨connector, s.issued ++ [token]⟩
    | (connector, .error _) => some ⟨connector, s.issued⟩
  | .send _ i => s.issued[i]?.map fun _ => s
  | .unregisterResponseHandler i =>
    s.issued[i]?.map fun token => ⟨s.connector.unregisterResponseHandler token, s.issued⟩

/-- A registration that is refused. -/
def Refused (s : Clients H) (handler : ResponseHandler H) (access : AccessType) : Prop :=
  ∃ e, (s.connector.registerResponseHandler handler access).2 = .error e

/-- What a call can do. -/
theorem step_cases {s s' : Clients H} {call : Call H} (taken : s.step call = some s') :
    (∃ handler, call = .registerResponseHandler handler .exclusive ∧
      s.connector.hasExclusiveAccess = true ∧ s.Refused handler .exclusive ∧ s' = s) ∨
    (∃ handler access, call = .registerResponseHandler handler access ∧
      (access = .exclusive → s.connector.hasExclusiveAccess = false) ∧
      ¬ s.Refused handler access ∧ s'.issued = s.issued ++ [⟨access⟩] ∧
      ∀ other, s'.connector.slot other =
        if other = access then handler else s.connector.slot other) ∨
    (∃ data i token, call = .send data i ∧ s.issued[i]? = some token ∧ s' = s) ∨
    ∃ i token, call = .unregisterResponseHandler i ∧ s.issued[i]? = some token ∧
      s'.issued = s.issued ∧ ∀ other, s'.connector.slot other =
        if other = token.accessType then none else s.connector.slot other := by
  cases call with
  | registerResponseHandler handler access =>
    rcases s.connector.registerResponseHandler_cases handler access with
      ⟨rfl, active, refused⟩ | ⟨free, accepted, slots⟩
    · simp only [step, refused, Option.some.injEq] at taken
      exact Or.inl ⟨handler, rfl, active, ⟨_, by rw [refused]⟩, taken.symm⟩
    · refine Or.inr (Or.inl ⟨handler, access, rfl, free, ?_, ?_⟩)
      · intro given
        rcases given with ⟨e, refused⟩
        rw [accepted] at refused
        cases refused
      · rcases result : s.connector.registerResponseHandler handler access with ⟨c, outcome⟩
        rw [result] at accepted slots
        dsimp only at accepted
        subst accepted
        simp only [step, result, Option.some.injEq] at taken
        subst taken
        exact ⟨rfl, slots⟩
  | send data i =>
    obtain ⟨token, issued, same⟩ := Option.map_eq_some_iff.mp taken
    subst same
    exact Or.inr (Or.inr (Or.inl ⟨data, i, token, rfl, issued, rfl⟩))
  | unregisterResponseHandler i =>
    obtain ⟨token, issued, same⟩ := Option.map_eq_some_iff.mp taken
    subst same
    exact Or.inr (Or.inr (Or.inr ⟨i, token, rfl, issued, rfl,
      s.connector.slot_unregisterResponseHandler token⟩))

/-! ## Exclusive access -/

/-- The exclusive registrations whose token was not yet unregistered. -/
def updateSessions (s : Clients H) (call : Call H) (_ : Clients H) (sessions : List Nat) :
    List Nat :=
  match call with
  | .registerResponseHandler handler access =>
    match access, (s.connector.registerResponseHandler handler access).2 with
    | .exclusive, .ok _ => s.issued.length :: sessions
    | _, _ => sessions
  | .send _ _ => sessions
  | .unregisterResponseHandler i => sessions.filter (· ≠ i)

/-- The clients together with the open sessions. -/
abbrev sessionStep : Clients H × List Nat → Call H → Option (Clients H × List Nat) :=
  withGhost step updateSessions

/-- What exclusive access promises of one call: while a session is open every other
exclusive registration throws and changes nothing, a `send` reaches the transport
exactly if it is made with the token of the session, and after the call the
connector reports exclusive access if a session is open. -/
structure KeepsExclusive (s : Clients H × List Nat) (call : Call H) (s' : Clients H × List Nat) :
    Prop where
  refuses : ∀ handler, call = .registerResponseHandler handler .exclusive → s.2 ≠ [] →
    s.1.Refused handler .exclusive ∧ s'.1 = s.1
  sends : ∀ data i token, call = .send data i → s.1.issued[i]? = some token →
    ∀ t ∈ s.2, (∃ sent, s.1.connector.send data token = .ok sent) ↔ i = t
  reports : s'.2 ≠ [] → s'.1.connector.hasExclusiveAccess = true

/-- No empty handler takes exclusive access, and during a session no exclusive token
is used but the one of the session. -/
def NoStaleExclusive (s : Clients H × List Nat) : Call H → Prop
  | .registerResponseHandler handler access =>
    access = .exclusive → s.1.connector.hasExclusiveAccess = false → handler ≠ none
  | .send _ i => s.2 ≠ [] → s.1.issued[i]? = some ⟨.exclusive⟩ → i ∈ s.2
  | .unregisterResponseHandler i => s.2 ≠ [] → s.1.issued[i]? = some ⟨.exclusive⟩ → i ∈ s.2

/-- No session and an empty slot, or one session and its handler in the slot. -/
inductive SessionInv : Clients H × List Nat → Prop
  | closed {s : Clients H} (free : s.connector.hasExclusiveAccess = false) : SessionInv (s, [])
  | open_ {s : Clients H} {t : Nat} (active : s.connector.hasExclusiveAccess = true)
    (owned : s.issued[t]? = some ⟨.exclusive⟩) : SessionInv (s, [t])

variable {s s' : Clients H} {sessions : List Nat} {handler : ResponseHandler H}
  {access : AccessType} {i : Nat} {token : AccessToken} {data : Bytes}

theorem SessionInv.active {s : Clients H × List Nat} (inv : SessionInv s) (session : s.2 ≠ []) :
    s.1.connector.hasExclusiveAccess = true := by
  cases inv with
  | closed free => exact absurd rfl session
  | open_ active owned => exact active

theorem SessionInv.none_of_free (inv : SessionInv (s, sessions))
    (free : s.connector.hasExclusiveAccess = false) : sessions = [] := by
  cases inv with
  | closed free => rfl
  | open_ active owned =>
    rw [free] at active
    cases active

/-- A change outside the exclusive slot that keeps the issued tokens keeps the invariant. -/
theorem SessionInv.frame (inv : SessionInv (s, sessions))
    (slot : s'.connector.slot .exclusive = s.connector.slot .exclusive)
    (issued : ∃ more, s'.issued = s.issued ++ more) : SessionInv (s', sessions) := by
  have same : s'.connector.hasExclusiveAccess = s.connector.hasExclusiveAccess :=
    congrArg Option.isSome slot
  obtain ⟨more, issued⟩ := issued
  cases inv with
  | closed free => exact .closed (same.trans free)
  | open_ active owned =>
    refine .open_ (same.trans active) ?_
    rw [issued, List.getElem?_append_left (List.getElem?_eq_some_iff.mp owned).1, owned]

/-- While a session is open, an exclusive token is what reaches the transport. -/
theorem SessionInv.reaches_iff (inv : SessionInv (s, sessions)) (session : sessions ≠ []) :
    (∃ sent, s.connector.send data token = .ok sent) ↔ token = ⟨.exclusive⟩ := by
  apply Iff.intro
  · intro given
    rcases given with ⟨sent, reaches⟩
    rcases token with ⟨access⟩
    have same : access = .exclusive := IConnector.send_of_exclusive (inv.active session) reaches
    subst same
    rfl
  · intro eq
    subst eq
    exact ⟨data, rfl⟩

/-- A `send` keeps the promise exactly when it uses no stale token. -/
theorem SessionInv.send_iff (inv : SessionInv (s, sessions))
    (issued : s.issued[i]? = some token) :
    NoStaleExclusive (s, sessions) (.send data i) ↔
      ∀ t ∈ sessions, (∃ sent, s.connector.send data token = .ok sent) ↔ i = t := by
  cases inv with
  | closed free =>
    exact ⟨fun _ t member => absurd member List.not_mem_nil, fun _ session => absurd rfl session⟩
  | @open_ _ t active owned =>
    have reaches : (∃ sent, s.connector.send data token = .ok sent) ↔ token = ⟨.exclusive⟩ :=
      (SessionInv.open_ active owned).reaches_iff (List.cons_ne_nil _ _)
    apply Iff.intro
    · intro careful t' member
      have same := List.mem_singleton.mp member
      subst same
      rw [reaches]
      apply Iff.intro
      · intro eq
        subst eq
        exact List.mem_singleton.mp (careful (List.cons_ne_nil _ _) issued)
      · intro eq
        subst eq
        exact Option.some.inj (issued.symm.trans owned)
    · intro sends _ stale
      have exclusive := Option.some.inj (issued.symm.trans stale)
      rw [(sends t List.mem_cons_self).mp (reaches.mpr exclusive)]
      exact List.mem_cons_self

/-- Giving back an exclusive token is harmless exactly when it closes every session. -/
theorem SessionInv.unregister_iff (inv : SessionInv (s, sessions))
    (issued : s.issued[i]? = some ⟨.exclusive⟩) :
    NoStaleExclusive (s, sessions) (.unregisterResponseHandler i) ↔
      sessions.filter (· ≠ i) = [] := by
  cases inv with
  | closed free => exact ⟨fun _ => rfl, fun _ session => absurd rfl session⟩
  | @open_ _ t active owned =>
    apply Iff.intro
    · intro careful
      simp [List.mem_singleton.mp (careful (List.cons_ne_nil _ _) issued)]
    · intro closed _ _
      have same : t = i := by
        simpa using List.filter_eq_nil_iff.mp closed t List.mem_cons_self
      exact same ▸ List.mem_cons_self

/-- A token of another type is not the token of a session. -/
theorem SessionInv.filter_eq (inv : SessionInv (s, sessions)) (issued : s.issued[i]? = some token)
    (other : token.accessType ≠ .exclusive) : sessions.filter (· ≠ i) = sessions := by
  refine List.filter_eq_self.mpr fun t member => ?_
  cases inv with
  | closed free => exact absurd member List.not_mem_nil
  | open_ active owned =>
    have eq := List.mem_singleton.mp member
    subst eq
    refine decide_eq_true fun same => other ?_
    subst same
    rw [Option.some.inj (issued.symm.trans owned)]

/-- What one call does to the promise: in a state of the invariant it is kept exactly
by a careful call, and a careful call keeps the invariant. -/
def Settles (s : Clients H × List Nat) (call : Call H) (s' : Clients H × List Nat) : Prop :=
  (NoStaleExclusive s call ↔ KeepsExclusive s call s') ∧ (NoStaleExclusive s call → SessionInv s')

/-- A call that is always careful settles the promise once it keeps the invariant. -/
theorem Settles.of_careful {call : Call H} {s s' : Clients H × List Nat}
    (careful : NoStaleExclusive s call) (inv' : SessionInv s')
    (refuses : ∀ handler, call = .registerResponseHandler handler .exclusive → s.2 ≠ [] →
      s.1.Refused handler .exclusive ∧ s'.1 = s.1)
    (sends : ∀ data i, call ≠ .send data i) : Settles s call s' :=
  ⟨⟨fun _ => ⟨refuses, fun data i _ eq => absurd eq (sends data i), inv'.active⟩, fun _ => careful⟩,
    fun _ => inv'⟩

theorem settles_refused (inv : SessionInv (s, sessions))
    (active : s.connector.hasExclusiveAccess = true) (refused : s.Refused handler .exclusive) :
    Settles (s, sessions) (.registerResponseHandler handler .exclusive) (s, sessions) := by
  refine .of_careful (fun _ free => ?_) inv (fun h eq _ => ?_) nofun
  · rw [active] at free
    cases free
  · cases eq
    exact ⟨refused, rfl⟩

/-- Exclusive access that is granted opens the only session. -/
theorem settles_granted_exclusive (inv : SessionInv (s, sessions))
    (free : s.connector.hasExclusiveAccess = false)
    (issued : s'.issued = s.issued ++ [⟨.exclusive⟩])
    (slot : s'.connector.slot .exclusive = handler) :
    Settles (s, sessions) (.registerResponseHandler handler .exclusive)
      (s', s.issued.length :: sessions) := by
  have same := inv.none_of_free free
  subst same
  have reported : s'.connector.hasExclusiveAccess = true ↔ handler ≠ none := by
    rw [IConnector.hasExclusiveAccess_eq, slot, Option.isSome_iff_ne_none]
  refine ⟨⟨fun careful => ⟨fun _ _ session => absurd rfl session, nofun, fun _ => ?_⟩,
    fun keeps _ _ => ?_⟩, fun careful => .open_ (reported.mpr (careful rfl free)) ?_⟩
  · exact reported.mpr (careful rfl free)
  · exact reported.mp (keeps.reports (List.cons_ne_nil _ _))
  · rw [issued, List.getElem?_concat_length]

theorem settles_granted_other (inv : SessionInv (s, sessions)) (other : access ≠ .exclusive)
    (issued : s'.issued = s.issued ++ [⟨access⟩])
    (slot : s'.connector.slot .exclusive = s.connector.slot .exclusive) :
    Settles (s, sessions) (.registerResponseHandler handler access) (s', sessions) := by
  refine .of_careful (fun exclusive => absurd exclusive other) (inv.frame slot ⟨_, issued⟩)
    (fun h eq _ => ?_) nofun
  cases eq
  exact absurd rfl other

theorem settles_send (inv : SessionInv (s, sessions)) (issued : s.issued[i]? = some token) :
    Settles (s, sessions) (.send data i) (s, sessions) := by
  refine ⟨⟨fun careful => ⟨nofun, ?_, inv.active⟩, fun keeps => ?_⟩, fun _ => inv⟩
  · intro data' i' token' eq issued'
    cases eq
    exact (inv.send_iff issued').mp careful
  · exact (inv.send_iff issued).mpr (keeps.sends data i token rfl issued)

/-- Giving back an exclusive token empties the slot, so it has to close the session. -/
theorem settles_unregister_exclusive (inv : SessionInv (s, sessions))
    (issued : s.issued[i]? = some ⟨.exclusive⟩) (slot : s'.connector.slot .exclusive = none) :
    Settles (s, sessions) (.unregisterResponseHandler i) (s', sessions.filter (· ≠ i)) := by
  have emptied : s'.connector.hasExclusiveAccess = false := congrArg Option.isSome slot
  rw [Settles, inv.unregister_iff issued]
  refine ⟨⟨fun closed => ⟨nofun, nofun, fun session => absurd closed session⟩, fun keeps => ?_⟩,
    fun closed => ?_⟩
  · by_contra session
    have reported := keeps.reports session
    rw [emptied] at reported
    cases reported
  · rw [closed]
    exact .closed emptied

theorem settles_unregister_other (inv : SessionInv (s, sessions))
    (issued : s.issued[i]? = some token) (other : token.accessType ≠ .exclusive)
    (same : s'.issued = s.issued)
    (slot : s'.connector.slot .exclusive = s.connector.slot .exclusive) :
    Settles (s, sessions) (.unregisterResponseHandler i) (s', sessions.filter (· ≠ i)) := by
  rw [inv.filter_eq issued other]
  refine .of_careful (fun _ stale => ?_) (inv.frame slot ⟨[], by rw [same, List.append_nil]⟩)
    nofun nofun
  rw [Option.some.inj (issued.symm.trans stale)] at other
  exact absurd rfl other

/-- One call, in a state of the invariant. -/
theorem settles {s s' : Clients H × List Nat} {call : Call H} (inv : SessionInv s)
    (taken : sessionStep s call = some s') : Settles s call s' := by
  rcases s with ⟨s, sessions⟩
  rcases s' with ⟨s', sessions'⟩
  obtain ⟨step_, ghost⟩ := withGhost_eq_some taken
  dsimp only at step_ ghost
  subst ghost
  rcases step_cases step_ with ⟨handler, rfl, active, refused, rfl⟩ |
      ⟨handler, access, rfl, free, accepted, issued, slots⟩ |
      ⟨data, i, token, rfl, issued, rfl⟩ | ⟨i, token, rfl, issued, same, slots⟩
  · have ghost : updateSessions s' (.registerResponseHandler handler .exclusive) s' sessions =
        sessions := by
      obtain ⟨e, refused⟩ := refused
      simp only [updateSessions, refused]
    rw [ghost]
    exact settles_refused inv active refused
  · by_cases exclusive : access = .exclusive
    · subst exclusive
      have ghost : updateSessions s (.registerResponseHandler handler .exclusive) s' sessions =
          s.issued.length :: sessions := by
        rcases outcome : (s.connector.registerResponseHandler handler .exclusive).2 with e | token
        · exact absurd ⟨e, outcome⟩ accepted
        · simp only [updateSessions, outcome]
      rw [ghost]
      exact settles_granted_exclusive inv (free rfl) issued ((slots .exclusive).trans (if_pos rfl))
    · have ghost : updateSessions s (.registerResponseHandler handler access) s' sessions =
          sessions := by
        cases access <;> first | rfl | exact absurd rfl exclusive
      rw [ghost]
      exact settles_granted_other inv exclusive issued
        ((slots .exclusive).trans (if_neg (Ne.symm exclusive)))
  · exact settles_send inv issued
  · by_cases exclusive : token.accessType = .exclusive
    · have eq : token = ⟨.exclusive⟩ := by rcases token with ⟨access⟩; cases exclusive; rfl
      subst eq
      exact settles_unregister_exclusive inv issued ((slots .exclusive).trans (if_pos rfl))
    · exact settles_unregister_other inv issued exclusive same
        ((slots .exclusive).trans (if_neg (Ne.symm exclusive)))

/-- **When exclusive access is exclusive.** Over every interleaving of calls, each
call keeps the promise of exclusive access exactly when no empty handler takes it
and no stale exclusive token is used during a session. -/
theorem keepsExclusive_iff (calls : List (Call H)) :
    Always sessionStep (fun s call s' => KeepsExclusive s call s') ({}, []) calls ↔
      Always sessionStep (fun s call _ => NoStaleExclusive s call) ({}, []) calls :=
  (always_iff_of_invariant (I := SessionInv) (fun _ _ _ inv taken => (settles inv taken).1)
    (fun _ _ _ inv taken => (settles inv taken).2) (.closed rfl)).symm

/-- A client whose session is over sends with its old token through the session of
another, and an empty handler takes exclusive access without anyone noticing. -/
theorem not_keepsExclusive :
    ¬ Always (sessionStep (H := Nat)) (fun s call s' => KeepsExclusive s call s') ({}, [])
        [.registerResponseHandler (some 1) .exclusive, .unregisterResponseHandler 0,
          .registerResponseHandler (some 2) .exclusive, .send [0x01] 0] ∧
      ¬ Always (sessionStep (H := Nat)) (fun s call s' => KeepsExclusive s call s') ({}, [])
        [.registerResponseHandler none .exclusive,
          .registerResponseHandler (some 1) .exclusive] := by
  constructor
  · intro always
    have last := (((always _ rfl).2 _ rfl).2 _ rfl).2 _ rfl
    have same := (last.1.sends [0x01] 0 ⟨.exclusive⟩ rfl rfl 1 List.mem_cons_self).mp ⟨_, rfl⟩
    cases same
  · intro always
    have first := (always _ rfl).1.reports (List.cons_ne_nil _ _)
    cases first

/-! ## Ownership of a registration -/

/-- The tokens already given back, and for each access type the registration that
should be in effect: its token and its handler. -/
structure Ownership (H : Type*) where
  used : List Nat := []
  owner : AccessType → Option (Nat × H) := fun _ => none

/-- A registration that succeeds owns its slot until its own token is given back. -/
def updateOwnership (s : Clients H) (call : Call H) (_ : Clients H) (o : Ownership H) :
    Ownership H :=
  match call with
  | .registerResponseHandler handler access =>
    match handler, (s.connector.registerResponseHandler handler access).2 with
    | some h, .ok _ =>
      { o with owner := fun a => if a = access then some (s.issued.length, h) else o.owner a }
    | _, _ => o
  | .send _ _ => o
  | .unregisterResponseHandler i =>
    { used := i :: o.used
      owner := fun a => (o.owner a).filter fun registration => registration.1 ≠ i }

/-- Clients register handlers that are not empty and give a token back once. -/
def Disciplined (s : Clients H × Ownership H) : Call H → Prop
  | .registerResponseHandler handler _ => handler.isSome
  | .send _ _ => True
  | .unregisterResponseHandler i => i ∉ s.2.used

instance (s : Clients H × Ownership H) (call : Call H) : Decidable (Disciplined s call) := by
  cases call <;> unfold Disciplined <;> infer_instance

/-- The clients with their ownership, as far as they are disciplined. -/
abbrev ownerStep : Clients H × Ownership H → Call H → Option (Clients H × Ownership H) :=
  guarded (withGhost step updateOwnership) Disciplined

/-- The handler of the registration that should be in effect is in its slot. -/
def OwnerInEffect (s : Clients H × Ownership H) : Prop :=
  ∀ access i h, s.2.owner access = some (i, h) → s.1.connector.slot access = some h

/-- No normal or sniffer token is given back while a later registration of its type
is in effect. -/
def NoReplacedToken (s : Clients H × Ownership H) (call : Call H) : Prop :=
  ∀ i token j h, call = .unregisterResponseHandler i → s.1.issued[i]? = some token →
    token.accessType ≠ .exclusive → s.2.owner token.accessType = some (j, h) → i = j

/-- Owners are in effect and hold tokens of their type, and the only exclusive token
that is still to be given back is the one of the exclusive owner. -/
structure OwnerInv (s : Clients H × Ownership H) : Prop where
  effect : OwnerInEffect s
  issued : ∀ access i h, s.2.owner access = some (i, h) → s.1.issued[i]? = some ⟨access⟩
  exclusive : ∀ i, s.1.issued[i]? = some ⟨.exclusive⟩ → i ∉ s.2.used →
    ∃ h, s.2.owner .exclusive = some (i, h)

theorem OwnerInv.none_of_free {s : Clients H × Ownership H} (inv : OwnerInv s)
    (free : s.1.connector.hasExclusiveAccess = false) : s.2.owner .exclusive = none := by
  rcases owner : s.2.owner .exclusive with _ | ⟨i, h⟩
  · rfl
  · have slot := inv.effect .exclusive i h owner
    rw [IConnector.hasExclusiveAccess_eq, slot] at free
    cases free

/-- A registration that succeeds becomes the owner of its type. -/
theorem OwnerInv.registered {o : Ownership H} {h : H} (inv : OwnerInv (s, o))
    (free : access = .exclusive → s.connector.hasExclusiveAccess = false)
    (issued : s'.issued = s.issued ++ [⟨access⟩])
    (slots : ∀ other, s'.connector.slot other =
      if other = access then some h else s.connector.slot other) :
    OwnerInv (s', { o with
      owner := fun a => if a = access then some (s.issued.length, h) else o.owner a }) := by
  refine ⟨fun a i h' owner => ?_, fun a i h' owner => ?_, fun i token fresh => ?_⟩
  · dsimp only at owner ⊢
    rw [slots]
    split at owner
    · cases owner
      exact if_pos ‹_›
    · rw [if_neg ‹_›]
      exact inv.effect a i h' owner
  · dsimp only at owner ⊢
    rw [issued]
    split at owner
    · rename_i same
      cases owner
      rw [List.getElem?_concat_length, same]
    · have old := inv.issued a i h' owner
      dsimp only at old
      rw [List.getElem?_append_left (List.getElem?_eq_some_iff.mp old).1, old]
  · dsimp only at token fresh ⊢
    rw [issued] at token
    by_cases new : i < s.issued.length
    · rw [List.getElem?_append_left new] at token
      obtain ⟨h', owner⟩ := inv.exclusive i token fresh
      dsimp only at owner
      have other : AccessType.exclusive ≠ access := by
        intro eq
        subst eq
        have none_ := inv.none_of_free (free rfl)
        dsimp only at none_
        rw [none_] at owner
        cases owner
      exact ⟨h', by rw [if_neg other, owner]⟩
    · have last : i = s.issued.length := by
        have := (List.getElem?_eq_some_iff.mp token).1
        rw [List.length_append, List.length_singleton] at this
        omega
      subst last
      rw [List.getElem?_concat_length] at token
      have agree : access = .exclusive := congrArg AccessToken.accessType (Option.some.inj token)
      subst agree
      exact ⟨h, if_pos rfl⟩

/-- After a token is given back, the owners are in effect exactly if no other owner
of its type was left. -/
theorem OwnerInv.unregistered_effect_iff {o : Ownership H} (inv : OwnerInv (s, o))
    (slots : ∀ other, s'.connector.slot other =
      if other = token.accessType then none else s.connector.slot other) :
    OwnerInEffect (s', updateOwnership s (.unregisterResponseHandler i) s' o) ↔
      ∀ j h, o.owner token.accessType = some (j, h) → i = j := by
  apply Iff.intro
  · intro effect j h owner
    by_contra other
    have kept := effect token.accessType j h (by
      simp only [updateOwnership, owner, Option.filter_some, ne_eq, decide_not,
        Ne.symm other, decide_false, Bool.not_false, if_true])
    dsimp only at kept
    rw [slots, if_pos rfl] at kept
    cases kept
  · intro only a j h owner
    obtain ⟨owner, ne⟩ := Option.filter_eq_some_iff.mp owner
    dsimp only
    rw [slots]
    split
    · rename_i same
      subst same
      exact absurd (only j h owner).symm (by simpa using ne)
    · exact inv.effect a j h owner

/-- Giving back a token keeps the rest of the invariant. -/
theorem OwnerInv.unregistered {o : Ownership H} (inv : OwnerInv (s, o))
    (same : s'.issued = s.issued)
    (effect : OwnerInEffect (s', updateOwnership s (.unregisterResponseHandler i) s' o)) :
    OwnerInv (s', updateOwnership s (.unregisterResponseHandler i) s' o) := by
  refine ⟨effect, fun a j h owner => ?_, fun j exclusive fresh => ?_⟩
  · obtain ⟨owner, -⟩ := Option.filter_eq_some_iff.mp owner
    exact same ▸ inv.issued a j h owner
  · obtain ⟨ne, fresh⟩ := not_or.mp (fun h => fresh (List.mem_cons.mpr h))
    obtain ⟨h, owner⟩ := inv.exclusive j (same ▸ exclusive) fresh
    exact ⟨h, Option.filter_eq_some_iff.mpr ⟨owner, by simpa using ne⟩⟩

/-- One disciplined call, in a state of the invariant: the owners stay in effect
exactly if no replaced token is given back, and then the invariant stays. -/
theorem ownerInEffect_iff {s s' : Clients H × Ownership H} {call : Call H} (inv : OwnerInv s)
    (taken : ownerStep s call = some s') :
    (NoReplacedToken s call ↔ OwnerInEffect s') ∧ (NoReplacedToken s call → OwnerInv s') := by
  rcases s with ⟨s, o⟩
  rcases s' with ⟨s', o'⟩
  obtain ⟨disciplined, taken⟩ := guarded_eq_some taken
  obtain ⟨step_, ghost⟩ := withGhost_eq_some taken
  dsimp only at step_ ghost
  subst ghost
  have settled : ∀ {s' : Clients H × Ownership H} {call : Call H},
      (∀ i, call ≠ .unregisterResponseHandler i) → OwnerInv s' →
      (NoReplacedToken (s, o) call ↔ OwnerInEffect s') ∧
        (NoReplacedToken (s, o) call → OwnerInv s') := fun other inv' =>
    ⟨⟨fun _ => inv'.effect, fun _ i _ _ _ eq => absurd eq (other i)⟩, fun _ => inv'⟩
  rcases step_cases step_ with ⟨handler, rfl, active, ⟨e, refused⟩, rfl⟩ |
      ⟨handler, access, rfl, free, accepted, issued, slots⟩ |
      ⟨data, i, token, rfl, issued, rfl⟩ | ⟨i, token, rfl, issued, same, slots⟩
  · obtain ⟨h, agree⟩ := Option.isSome_iff_exists.mp disciplined
    subst agree
    have ghost : updateOwnership s' (.registerResponseHandler (some h) .exclusive) s' o = o := by
      simp only [updateOwnership, refused]
    rw [ghost]
    exact settled nofun inv
  · obtain ⟨h, agree⟩ := Option.isSome_iff_exists.mp disciplined
    subst agree
    rcases outcome : (s.connector.registerResponseHandler (some h) access).2 with e | token
    · exact absurd ⟨e, outcome⟩ accepted
    · have ghost : updateOwnership s (.registerResponseHandler (some h) access) s' o =
          { o with
            owner := fun a => if a = access then some (s.issued.length, h) else o.owner a } := by
        simp only [updateOwnership, outcome]
      rw [ghost]
      exact settled nofun (inv.registered free issued slots)
  · exact settled nofun inv
  · have effect := inv.unregistered_effect_iff (i := i) slots
    have careful : NoReplacedToken (s, o) (.unregisterResponseHandler i) ↔
        ∀ j h, o.owner token.accessType = some (j, h) → i = j := by
      apply Iff.intro
      · intro careful j h owner
        by_cases exclusive : token.accessType = .exclusive
        · -- the discipline alone protects the exclusive owner
          have agree : token = ⟨.exclusive⟩ := by rcases token with ⟨access⟩; cases exclusive; rfl
          subst agree
          obtain ⟨h', owner'⟩ := inv.exclusive i issued disciplined
          dsimp only at owner owner'
          rw [owner] at owner'
          exact (Prod.mk.inj (Option.some.inj owner')).1.symm
        · exact careful i token j h rfl issued exclusive owner
      · intro only i' token' j h eq issued' _ owner
        cases eq
        have agree := Option.some.inj (issued.symm.trans issued')
        subst agree
        exact only j h owner
    rw [careful, ← effect]
    exact ⟨Iff.rfl, inv.unregistered same⟩

/-- **When a registration stays in effect.** Over every interleaving of clients that
register non-empty handlers and use a token once, the handlers in effect are those
of the registrations that should be, after every call, exactly when no normal or
sniffer token is given back after its registration was replaced. -/
theorem ownerInEffect_run_iff (calls : List (Call H)) :
    Always ownerStep (fun _ _ s' => OwnerInEffect s') ({}, {}) calls ↔
      Always ownerStep (fun s call _ => NoReplacedToken s call) ({}, {}) calls :=
  (always_iff_of_invariant (I := OwnerInv) (fun _ _ _ inv taken => (ownerInEffect_iff inv taken).1)
    (fun _ _ _ inv taken => (ownerInEffect_iff inv taken).2)
    ⟨nofun, nofun, fun i token => by simp at token⟩).symm

/-- The first client leaves with a token that the second one's registration replaced,
and the handler of the second one is gone. -/
theorem not_ownerInEffect_run :
    ¬ Always (ownerStep (H := Nat)) (fun _ _ s' => OwnerInEffect s') ({}, {})
      [.registerResponseHandler (some 1) .normal, .registerResponseHandler (some 2) .normal,
        .unregisterResponseHandler 0] := by
  intro always
  have last := (((always _ rfl).2 _ rfl).2 _ rfl).1
  have kept := last .normal 1 2 rfl
  cases kept

end Clients

end Iqrf.Connector
