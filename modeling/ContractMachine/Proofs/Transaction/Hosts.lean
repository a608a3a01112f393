import ContractMachine.Proofs.Ledger.Writes
import ContractMachine.Proofs.Transaction.Atomicity

/-!
# Frames on a host that refuses

A ledger may refuse any request, in the middle of a payment, of the entering of
a frame or of a deposit.  As long as it does not refuse to close snapshots, a
frame that cannot be entered takes its own snapshot back, and so does one that
cannot be left; the states of the other snapshots are left alone.

The one write to which this does not apply is the count of the creator's nonce
that a creation begins with: it is made before there is a snapshot.
-/

namespace ContractMachine.Transaction

open Actions LayeredLedger

/-- A layered ledger that may refuse requests. -/
abbrev Host := RefusingLedger LayeredLedger

/-- Whether requests to close snapshots and to delete accounts are passed on. -/
structure ClosesFreely (refusal : LedgerRequest → Option String) : Prop where
  commit : ∀ depth, refusal (.commit depth) = none
  rollback : ∀ depth, refusal (.rollback depth) = none
  deleteAccount : ∀ a, refusal (.access .deleteAccount a) = none

variable {config : Config} {host after : Host}

/-! ## Requests -/

section Requests

variable {α : Type} {request : LedgerRequest}
  {write : EStateM LedgerError LayeredLedger α}

theorem attempt_of_none (h : host.refusal request = none) {a : α}
    {inner : LayeredLedger} (hwrite : write host.inner = .ok a inner) :
    RefusingLedger.attempt request write host = .ok a { host with inner } := by
  rw [RefusingLedger.attempt, h]
  dsimp only
  rw [hwrite]

theorem attempt_eq_ok {a : α}
    (h : RefusingLedger.attempt request write host = .ok a after) :
    after.refusal = host.refusal ∧ write host.inner = .ok a after.inner := by
  rw [RefusingLedger.attempt] at h
  cases hrefusal : host.refusal request with
  | some reason =>
    rw [hrefusal] at h
    cases h
  | none =>
    rw [hrefusal] at h
    dsimp only at h
    cases hwrite : write host.inner with
    | ok result inner =>
      rw [hwrite] at h
      cases h
      exact ⟨rfl, rfl⟩
    | error cause inner =>
      rw [hwrite] at h
      cases h

/-- Nothing has changed for whoever asks the host. -/
structure Restored (before after : Host) : Prop where
  refusal : after.refusal = before.refusal
  states : after.inner.states = before.inner.states

/-- The states of open snapshots have not changed. -/
def Above : Host → Host → Prop :=
  Respects.Behind fun before after => after.states.below = before.states.below

theorem respects_above : Respects Above := respects_below.behind

theorem Restored.above (h : Restored host after) : Above host after :=
  ⟨h.refusal, congrArg StateStack.below h.states⟩

theorem Above.depth_eq (h : Above host after) :
    after.inner.depth = host.inner.depth :=
  depth_eq_of_below h.2

/-- A nonce has been counted up, and nothing else has changed. -/
structure Counted (a : Address) (before after : Host) : Prop where
  refusal : after.refusal = before.refusal
  states : after.inner.states = raised a before.inner.states

theorem Counted.above {a : Address} (h : Counted a host after) :
    Above host after :=
  ⟨h.refusal, (congrArg StateStack.below h.states).trans rfl⟩

/-- A nonce that is not counted up stays as it is. -/
theorem bumpNonce_cases (a : Address) (host : Host) :
    (∃ cause after, Ledger.bumpNonce a host = .error cause after ∧
      Restored host after) ∨
    ∃ n bumped, Ledger.bumpNonce a host = .ok n bumped ∧
      Counted a host bumped := by
  cases hbump : Ledger.bumpNonce a host with
  | ok n bumped =>
    obtain ⟨hrefusal, hinner⟩ := attempt_eq_ok hbump
    exact .inr ⟨n, bumped, rfl, ⟨hrefusal, states_of_bumpNonce hinner⟩⟩
  | error cause after =>
    refine .inl ⟨cause, after, rfl, ?_⟩
    have hattempt : RefusingLedger.attempt (.access .bumpNonce a)
        (Ledger.bumpNonce a) host =
        .error cause after := hbump
    rw [RefusingLedger.attempt] at hattempt
    split at hattempt
    · cases hattempt
      exact ⟨rfl, rfl⟩
    · by_cases hlt : (host.inner.states.top.held a).nonce < Saturating.limit
      · rw [bumpNonce_of_lt hlt] at hattempt
        cases hattempt
      · rw [bumpNonce_of_not_lt hlt] at hattempt
        cases hattempt
        exact ⟨rfl, rfl⟩

end Requests

/-! ## Snapshots -/

section Snapshots

variable {depth : Nat} {beneath : FlatState} {rest : List FlatState}

theorem depth_pos_of_below (h : host.inner.states.below = beneath :: rest) :
    0 < host.inner.depth := by
  rw [← depth_states, StateStack.depth, h]
  exact Nat.succ_pos _

/-- The innermost snapshot can be rolled back. -/
theorem exists_rollback (hfree : ClosesFreely host.refusal)
    (hdepth : depth = host.inner.depth)
    (hbelow : host.inner.states.below = beneath :: rest) :
    ∃ after, Ledger.rollback depth host = .ok () after ∧
      after.refusal = host.refusal ∧
      after.inner.states = ⟨beneath, rest⟩ := by
  obtain ⟨inner, hclose⟩ :=
    exists_closeSnapshot (depth_pos_of_below hbelow) fun _ beneath => beneath
  rw [← hdepth] at hclose
  have hrollback : Ledger.rollback depth host.inner = .ok () inner := hclose
  refine ⟨{ host with inner }, attempt_of_none (hfree.rollback depth) hrollback,
    rfl, ?_⟩
  obtain ⟨_, _, hfound, hstates⟩ := states_of_rollback hrollback
  rw [hbelow] at hfound
  cases hfound
  exact hstates

/-- The innermost snapshot can be committed. -/
theorem exists_commit (hfree : ClosesFreely host.refusal)
    (hdepth : depth = host.inner.depth)
    (hbelow : host.inner.states.below = beneath :: rest) :
    ∃ after, Ledger.commit depth host = .ok () after ∧
      after.refusal = host.refusal ∧
      after.inner.states.below = rest := by
  obtain ⟨inner, hclose⟩ :=
    exists_closeSnapshot (depth_pos_of_below hbelow) fun layer beneath =>
      beneath.merge layer
  rw [← hdepth] at hclose
  have hcommit : Ledger.commit depth host.inner = .ok () inner := hclose
  refine ⟨{ host with inner }, attempt_of_none (hfree.commit depth) hcommit,
    rfl, ?_⟩
  obtain ⟨_, _, hfound, hstates⟩ := states_of_commit hcommit
  rw [hbelow] at hfound
  cases hfound
  rw [hstates]

end Snapshots

/-! ## Entering -/

/-- How an attempt to enter a frame ends: within a snapshot of its own, or with
everything as it was. -/
def EntersOrRestores (host : Host) :
    EStateM.Result LedgerError Host Activation → Prop
  | .ok child after =>
    child.snapshot = host.inner.depth + 1 ∧ after.refusal = host.refusal ∧
      after.inner.states.below = host.inner.states.levels
  | .error _ after => Restored host after

theorem EntersOrRestores.bind_pure {α : Type}
    {enter : EStateM LedgerError Host Activation}
    (h : EntersOrRestores host (enter host)) (f : Activation → α) :
    (∃ child after, (enter >>= fun child => pure (f child)) host =
      .ok (f child) after ∧
      EntersOrRestores host (.ok child after)) ∨
    ∃ cause after, (enter >>= fun child => pure (f child)) host =
      .error cause after ∧
      Restored host after := by
  cases henter : enter host with
  | ok child after =>
    rw [henter] at h
    exact .inl ⟨child, after, bind_of_ok henter, h⟩
  | error cause after =>
    rw [henter] at h
    exact .inr ⟨cause, after, bind_of_error henter, h⟩

theorem enter_cases {α : Type} {prepare : EStateM LedgerError Host α}
    (hprepare : ∀ host, Above host (left (prepare host)))
    (hfree : ClosesFreely host.refusal) :
    (∃ a after, enter prepare host = .ok (host.inner.depth + 1, a) after ∧
      after.refusal = host.refusal ∧
      after.inner.states.below = host.inner.states.levels) ∨
    ∃ cause after, enter prepare host = .error cause after ∧
      Restored host after := by
  have hopened : (Ledger.openSnapshot host).2.inner.states.below =
      host.inner.states.levels :=
    congrArg StateStack.below (states_openSnapshot host.inner)
  obtain ⟨hrefusal, hbelow⟩ := hprepare (Ledger.openSnapshot host).2
  have hbelow := hbelow.trans hopened
  rw [enter]
  dsimp only
  cases hresult : prepare (Ledger.openSnapshot host).2 with
  | ok a after =>
    rw [hresult] at hrefusal hbelow
    exact .inl ⟨a, after, rfl, hrefusal, hbelow⟩
  | error cause reached =>
    rw [hresult] at hrefusal hbelow
    have hdepth : (Ledger.openSnapshot host).1 = reached.inner.depth :=
      (depth_of_below_cons hbelow).symm
    have hcloses : ClosesFreely reached.refusal := by
      rw [show reached.refusal = _ from hrefusal]
      exact hfree
    obtain ⟨after, hrollback, hkept, hstates⟩ :=
      exists_rollback hcloses hdepth hbelow
    dsimp only
    rw [hrollback]
    exact .inr ⟨cause, after, rfl, hkept.trans hrefusal, hstates⟩

theorem entersOrRestores_enterCall (hfree : ClosesFreely host.refusal)
    (context : Context) (moves : Bool) (source target : Address) (gas : Nat)
    (window : Range) :
    EntersOrRestores host
      (enterCall context moves source target gas window host) := by
  obtain ⟨code, after, henter, hentered⟩ | ⟨cause, after, henter, hrestored⟩ :=
    enter_cases (respects_above.prepareEntry context moves source target) hfree
  · have hcall : enterCall context moves source target gas window host = .ok
        ⟨Frame.start code context gas, host.inner.depth + 1,
         .call window⟩ after :=
      bind_of_ok henter
    rw [hcall]
    exact ⟨rfl, hentered⟩
  · have hcall : enterCall context moves source target gas window host =
        .error cause after :=
      bind_of_error henter
    rw [hcall]
    exact hrestored

theorem entersOrRestores_enterCreation (hfree : ClosesFreely host.refusal)
    (creator address : Address) (value : Word) (initCode : Bytes)
    (gas depth : Nat) :
    EntersOrRestores host
      (enterCreation creator address value initCode gas depth host) := by
  obtain ⟨_, after, henter, hentered⟩ | ⟨cause, after, henter, hrestored⟩ :=
    enter_cases (respects_above.prepareAccount creator address value) hfree
  · have hcreation : enterCreation creator address value initCode gas depth
        host = .ok
        ⟨Frame.start initCode { address, caller := creator, value, depth } gas,
          host.inner.depth + 1, .creation address⟩ after :=
      bind_of_ok henter
    rw [hcreation]
    exact ⟨rfl, hentered⟩
  · have hcreation : enterCreation creator address value initCode gas
        depth host =
        .error cause after := bind_of_error henter
    rw [hcreation]
    exact hrestored

/-! ## Requests of frames -/

section Reads

variable {α β : Type}

/-- An action that leaves the host alone, whether it succeeds or fails. -/
def IsRead (action : EStateM LedgerError Host α) : Prop :=
  ∀ host, left (action host) = host

theorem isRead_query (read : Host → Except LedgerError α) :
    IsRead (query read) := by
  intro host
  rw [query]
  cases read host <;> rfl

theorem query_of_ok {read : Host → Except LedgerError α} {a : α}
    (h : read host = .ok a) :
    query read host = .ok a host := by
  rw [query, h]

/-- A read fails, or what follows it goes on with its answer. -/
theorem IsRead.bind_cases {read : EStateM LedgerError Host α}
    (hread : IsRead read) (f : α → EStateM LedgerError Host β) (host : Host) :
    (∃ cause, read host = .error cause host ∧
      (read >>= f) host = .error cause host) ∨
    ∃ a, read host = .ok a host ∧ (read >>= f) host = f a host := by
  have hleft := hread host
  cases hresult : read host with
  | ok a reached =>
    rw [hresult] at hleft
    obtain rfl : reached = host := hleft
    exact .inr ⟨a, rfl, bind_of_ok hresult⟩
  | error cause reached =>
    rw [hresult] at hleft
    obtain rfl : reached = host := hleft
    exact .inl ⟨cause, rfl, bind_of_error hresult⟩

theorem IsRead.bind {read : EStateM LedgerError Host α}
    {f : α → EStateM LedgerError Host β} (hread : IsRead read)
    (hf : ∀ a, IsRead (f a)) : IsRead (read >>= f) := by
  intro host
  obtain ⟨cause, _, hfails⟩ | ⟨a, _, hends⟩ := hread.bind_cases f host
  · rw [hfails]
    rfl
  · rw [hends]
    exact hf a host

theorem isRead_lacks (address : Address) (value : Word) :
    IsRead (lacks address value) :=
  (isRead_query _).bind fun _ _ => rfl

theorem isRead_isTaken (address : Address) : IsRead (isTaken address) := by
  refine (isRead_query _).bind fun nonce => ?_
  by_cases hnonce : nonce ≠ 0
  · rw [if_pos hnonce]
    exact fun _ => rfl
  · rw [if_neg hnonce]
    exact (isRead_query _).bind fun _ _ => rfl

end Reads

/-- How a creation ends that has passed the first checks: its nonce is not
counted up and everything stays as it is, or it is, and all else that is done
for it succeeds or is taken back. -/
theorem proceedToCreate_cases {α : Type} (hfree : ClosesFreely host.refusal)
    (creator address : Address) (value : Word) (initCode : Bytes)
    (gas depth : Nat) (collided : α) (entered : Activation → α) :
    (∃ cause after, Ledger.bumpNonce creator host = .error cause after ∧
      proceedToCreate creator address value initCode gas depth collided
        entered host =
        .error cause after ∧ Restored host after) ∨
    ∃ n bumped, Ledger.bumpNonce creator host = .ok n bumped ∧
      Counted creator host bumped ∧
      match proceedToCreate creator address value initCode gas depth collided
        entered host with
      | .error _ after => Restored bumped after
      | .ok a after => a = collided ∧ after = bumped ∨
          ∃ child, a = entered child ∧
            EntersOrRestores bumped (.ok child after) := by
  obtain ⟨cause, after, hbump, hrestored⟩ | ⟨n, bumped, hbump, hcounted⟩ :=
    bumpNonce_cases creator host
  · exact .inl ⟨cause, after, hbump, bind_of_error hbump, hrestored⟩
  refine .inr ⟨n, bumped, hbump, hcounted, ?_⟩
  rw [proceedToCreate, bind_of_ok hbump]
  obtain ⟨cause, _, hfails⟩ | ⟨taken, _, hends⟩ :=
    (isRead_isTaken address).bind_cases
    (fun taken => if taken then pure collided else do
      return entered (← enterCreation creator address value initCode gas depth))
        bumped
  · rw [hfails]
    exact ⟨rfl, rfl⟩
  rw [hends]
  cases taken with
  | true => exact .inl ⟨rfl, rfl⟩
  | false =>
    rw [← hcounted.refusal] at hfree
    have henters := entersOrRestores_enterCreation hfree creator address value
      initCode gas depth
    rw [if_neg Bool.false_ne_true]
    obtain ⟨child, after, hchild, hentered⟩ | ⟨cause, after, hfails,
        hrestored⟩ :=
      henters.bind_pure entered
    · rw [hchild]
      exact .inr ⟨child, rfl, hentered⟩
    · rw [hfails]
      exact hrestored

/-- How a request of a frame is met: a frame is entered above the states of open
snapshots and one more, or these are left alone. -/
def MeetsAbove (host : Host) : EStateM.Result LedgerError Host Response → Prop
  | .ok (.entered child) after => child.snapshot = host.inner.depth + 1 ∧
      after.refusal = host.refusal ∧
      ∃ mid, after.inner.states.below = mid :: host.inner.states.below
  | .ok _ after | .error _ after => Above host after

theorem meetsAbove_meetCall (hfree : ClosesFreely host.refusal)
    (caller : Context) (request : CallRequest) :
    MeetsAbove host (meetCall config caller request host) := by
  rw [meetCall]
  by_cases hdepth : config.maxCallDepth < (calleeContext caller request).depth
  · rw [if_pos hdepth]
    exact respects_above.refl host
  rw [if_neg hdepth]
  have hrest : ∀ isShort : Bool, MeetsAbove host
      ((if isShort = true then pure .refused else do
        let child ← enterCall (calleeContext caller request)
          request.kind.takesValue
          caller.address request.target request.gas request.window
        pure (.entered child) : EStateM LedgerError Host Response) host) := by
    intro isShort
    cases isShort with
    | true => exact respects_above.refl host
    | false =>
      have henters :=
        entersOrRestores_enterCall hfree (calleeContext caller request)
        request.kind.takesValue caller.address request.target request.gas
          request.window
      rw [if_neg Bool.false_ne_true]
      obtain ⟨child, after, hchild, hentered⟩ | ⟨cause, after, hfails,
          hrestored⟩ :=
        henters.bind_pure Response.entered
      · obtain ⟨hsnapshot, hrefusal, hbelow⟩ := hentered
        rw [hchild]
        exact ⟨hsnapshot, hrefusal, _, hbelow⟩
      · rw [hfails]
        exact hrestored.above
  by_cases htakes : request.kind.takesValue = true
  · rw [if_pos htakes]
    obtain ⟨cause, _, hfails⟩ | ⟨isShort, _, hends⟩ :=
      (isRead_lacks caller.address
        (calleeContext caller request).value).bind_cases _ host
    · rw [hfails]
      exact respects_above.refl host
    · rw [hends]
      exact hrest isShort
  · rw [if_neg htakes]
    exact hrest false

theorem meetsAbove_proceedToCreate (hfree : ClosesFreely host.refusal)
    (creator address : Address) (value : Word) (initCode : Bytes)
    (gas depth : Nat) :
    MeetsAbove host (proceedToCreate creator address value initCode gas depth
      .collided .entered host) := by
  obtain ⟨cause, after, _, hfails, hrestored⟩ | ⟨n, bumped, _, hcounted,
      hrest⟩ :=
    proceedToCreate_cases hfree creator address value initCode gas depth
      Response.collided Response.entered
  · rw [hfails]
    exact hrestored.above
  have habove := hcounted.above
  cases hresult : proceedToCreate creator address value initCode gas depth
      Response.collided Response.entered host with
  | error cause after =>
    rw [hresult] at hrest
    exact respects_above.trans habove hrest.above
  | ok response after =>
    rw [hresult] at hrest
    obtain ⟨rfl, rfl⟩ | ⟨child, rfl, hsnapshot, hkept, hbelow⟩ := hrest
    · exact habove
    · refine ⟨hsnapshot.trans (congrArg (· + 1) habove.depth_eq),
        hkept.trans hcounted.refusal, ?_⟩
      rw [hbelow, StateStack.levels, habove.2]
      exact ⟨_, rfl⟩

theorem meetsAbove_meetCreation (hfree : ClosesFreely host.refusal)
    (creator : Context) (request : CreateRequest) :
    MeetsAbove host (meetCreation config creator request host) := by
  rw [meetCreation]
  by_cases hdepth : config.maxCallDepth < creator.depth + 1
  · rw [if_pos hdepth]
    exact respects_above.refl host
  rw [if_neg hdepth]
  obtain ⟨cause, _, hfails⟩ | ⟨isShort, _, hends⟩ :=
    (isRead_lacks creator.address request.value).bind_cases _ host
  · rw [hfails]
    exact respects_above.refl host
  rw [hends]
  cases isShort with
  | true => exact respects_above.refl host
  | false =>
    rw [if_neg Bool.false_ne_true]
    obtain ⟨cause, _, hfails⟩ | ⟨nonce, _, hends⟩ :=
      (isRead_query (Ledger.nonce · creator.address)).bind_cases _ host
    · rw [hfails]
      exact respects_above.refl host
    rw [hends]
    by_cases hlimit : nonce = Saturating.limit
    · rw [if_pos hlimit]
      exact respects_above.refl host
    rw [if_neg hlimit]
    exact meetsAbove_proceedToCreate hfree ..

/-! ## Leaving -/

/-- How a frame is left: its snapshot is closed, and if that is because of a
failure, the state at its opening is back. -/
def LeavesAbove (host : Host) : EStateM.Result LedgerError Host Exit → Prop
  | .ok _ after => after.refusal = host.refusal ∧
      ∃ beneath, host.inner.states.below = beneath :: after.inner.states.below
  | .error _ after => after.refusal = host.refusal ∧
      host.inner.states.below = after.inner.states.levels

section Leaving

variable {activation : Activation} {beneath : FlatState} {rest : List FlatState}
  {written : Host}

theorem leavesAbove_succeed (hfree : ClosesFreely host.refusal)
    (hsnapshot : activation.snapshot = host.inner.depth)
    (hbelow : host.inner.states.below = beneath :: rest)
    (habove : Above host written) (frame : Frame) (output : Bytes) :
    LeavesAbove host (succeed activation.snapshot frame output written) := by
  obtain ⟨after, hcommit, hrefusal, hafter⟩ := exists_commit (habove.1 ▸ hfree)
    (hsnapshot.trans habove.depth_eq.symm) (habove.2.trans hbelow)
  rw [succeed, bind_of_ok hcommit]
  exact ⟨hrefusal.trans habove.1, beneath, hafter ▸ hbelow⟩

theorem leavesAbove_fail (hfree : ClosesFreely host.refusal)
    (hsnapshot : activation.snapshot = host.inner.depth)
    (hbelow : host.inner.states.below = beneath :: rest)
    (habove : Above host written) (gasLeft : Nat) (outcome : Outcome)
    (output : Bytes) :
    LeavesAbove host (fail activation.snapshot gasLeft outcome output
      written) := by
  obtain ⟨after, hrollback, hrefusal, hstates⟩ :=
    exists_rollback (habove.1 ▸ hfree)
    (hsnapshot.trans habove.depth_eq.symm) (habove.2.trans hbelow)
  rw [fail, bind_of_ok hrollback]
  refine ⟨hrefusal.trans habove.1, beneath, ?_⟩
  rw [hstates]
  exact hbelow

theorem leavesAbove_leave (hfree : ClosesFreely host.refusal)
    (hsnapshot : activation.snapshot = host.inner.depth)
    (hbelow : host.inner.states.below = beneath :: rest) (outcome : Outcome)
    (output : Bytes) :
    LeavesAbove host (leave config activation outcome output host) := by
  have hhost := respects_above.refl host
  cases outcome with
  | revert | halt cause =>
    exact leavesAbove_fail hfree hsnapshot hbelow hhost _ _ _
  | success =>
    cases hrole : activation.role with
    | call window =>
      simp only [leave, hrole]
      exact leavesAbove_succeed hfree hsnapshot hbelow hhost _ _
    | creation address =>
      simp only [leave, hrole]
      have hdeposited :=
        respects_above.depositCode config address output
          ⟨activation.frame, host⟩
      cases hdeposit : depositCode config address output
        ⟨activation.frame, host⟩ with
      | ok _ live =>
        rw [hdeposit] at hdeposited
        exact leavesAbove_succeed hfree hsnapshot hbelow hdeposited _ _
      | error cause live =>
        rw [hdeposit] at hdeposited
        cases cause with
        | halt cause =>
          exact leavesAbove_fail hfree hsnapshot hbelow hdeposited _ _ _
        | ledger cause =>
          have habove : Above host live.ledger := hdeposited
          obtain ⟨after, hrollback, hrefusal, hstates⟩ :=
            exists_rollback (habove.1 ▸ hfree)
            (hsnapshot.trans habove.depth_eq.symm) (habove.2.trans hbelow)
          dsimp only
          rw [hrollback]
          refine ⟨hrefusal.trans habove.1, ?_⟩
          rw [hstates]
          exact hbelow

end Leaving

end ContractMachine.Transaction
