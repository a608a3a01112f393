import ContractMachine.Proofs.Transaction.Hosts
import ContractMachine.Proofs.Transaction.NoFailure

/-!
# Failures of the host

Whatever a ledger refuses, other than to close snapshots, what a transaction has
written is taken back whole.  The snapshots of its unfinished frames are always
the innermost ones of the ledger, in order, and beneath them is what was there
when the first frame was entered.  A frame that could not be entered or left is
not among the unfinished, and its snapshot is closed already.
-/

namespace ContractMachine.Transaction

open Actions LayeredLedger

variable {config : Config} {env : Environment} {host after : Host}

/-! ## Runs -/

/-- The snapshots of unfinished frames are the innermost ones, and beneath them
are the states in which the first of these frames was entered. -/
structure OpenAbove (refusal : LedgerRequest → Option String)
    (stack : StateStack) (frames : List Activation) (host : Host) : Prop where
  refusal_eq : host.refusal = refusal
  nested : Nested host.inner.depth frames
  levels : host.inner.states.levels.drop frames.length = stack.levels

section Runs

variable {refusal : LedgerRequest → Option String} {stack : StateStack}
  {top : Activation} {waiting : List Activation}

namespace OpenAbove

theorem above (h : OpenAbove refusal stack (top :: waiting) host)
    (habove : Above host after) (frame : Frame) :
    OpenAbove refusal stack ({ top with frame } :: waiting) after where
  refusal_eq := habove.1.trans h.refusal_eq
  nested := by
    rw [habove.depth_eq]
    exact h.nested.with_frame frame
  levels := by
    have hlevels := h.levels
    rw [StateStack.levels, List.length_cons, List.drop_succ_cons] at hlevels ⊢
    rw [habove.2]
    exact hlevels

theorem push (h : OpenAbove refusal stack (top :: waiting) host)
    {child : Activation} {mid : FlatState}
    (hsnapshot : child.snapshot = host.inner.depth + 1)
    (hrefusal : after.refusal = host.refusal)
    (hbelow : after.inner.states.below = mid :: host.inner.states.below) :
    OpenAbove refusal stack (child :: top :: waiting) after where
  refusal_eq := hrefusal.trans h.refusal_eq
  nested := by
    have hdepth := depth_of_below_cons hbelow
    refine nested_cons.2 ⟨hsnapshot.trans hdepth.symm, ?_, ?_⟩
    · rw [hdepth]
      exact Nat.succ_pos _
    · rw [hdepth]
      exact h.nested
  levels := by
    have hlevels := h.levels
    rw [StateStack.levels, List.length_cons, List.drop_succ_cons] at hlevels
    rw [StateStack.levels, hbelow, List.length_cons, List.drop_succ_cons,
      List.length_cons, List.drop_succ_cons]
    exact hlevels

theorem exists_below (h : OpenAbove refusal stack (top :: waiting) host) :
    top.snapshot = host.inner.depth ∧
      ∃ beneath rest, host.inner.states.below = beneath :: rest := by
  obtain ⟨hsnapshot, hopen, _⟩ := nested_cons.1 h.nested
  refine ⟨hsnapshot, List.exists_cons_of_length_pos ?_⟩
  rw [← depth_states] at hopen
  exact hopen

/-- The frame on top has gone with its snapshot, and the state at its opening is
back. -/
theorem restored (h : OpenAbove refusal stack (top :: waiting) host)
    (hrefusal : after.refusal = host.refusal)
    (hbelow : host.inner.states.below = after.inner.states.levels) :
    OpenAbove refusal stack waiting after where
  refusal_eq := hrefusal.trans h.refusal_eq
  nested := by
    obtain ⟨_, _, hrest⟩ := nested_cons.1 h.nested
    rw [depth_of_below_cons hbelow] at hrest
    exact hrest
  levels := by
    have hlevels := h.levels
    rw [StateStack.levels, List.length_cons, List.drop_succ_cons,
      hbelow] at hlevels
    exact hlevels

/-- The frame on top has gone with its snapshot, and another frame waits for
it. -/
theorem pop {parent : Activation}
    (h : OpenAbove refusal stack (top :: parent :: waiting) host)
    {beneath : FlatState} (hrefusal : after.refusal = host.refusal)
    (hbelow : host.inner.states.below = beneath :: after.inner.states.below) :
    OpenAbove refusal stack (parent :: waiting) after where
  refusal_eq := hrefusal.trans h.refusal_eq
  nested := by
    obtain ⟨_, _, hrest⟩ := nested_cons.1 h.nested
    rw [depth_of_below_cons hbelow] at hrest
    exact hrest
  levels := by
    have hlevels := h.levels
    rw [StateStack.levels, List.length_cons, List.drop_succ_cons, hbelow,
      List.length_cons, List.drop_succ_cons] at hlevels
    exact hlevels

end OpenAbove

/-- What a turn of the topmost activation makes of the frames that are then
unfinished. -/
def TurnsAbove (refusal : LedgerRequest → Option String) (stack : StateStack)
    (top : Activation) (waiting : List Activation) : Turn Host → Prop
  | .continues frame after =>
    OpenAbove refusal stack ({ top with frame } :: waiting) after
  | .enters frame child after =>
    OpenAbove refusal stack (child :: { top with frame } :: waiting) after
  | .concludes (.finished _ after) => after.refusal = refusal ∧
      ∀ parent below, waiting = parent :: below →
        OpenAbove refusal stack waiting after
  | .concludes (.failed _ unfinished after) =>
    OpenAbove refusal stack (unfinished ++ waiting) after

theorem turnsAbove_ofAnswer (h : OpenAbove refusal stack (top :: waiting) host)
    (answer : Except Halt Frame) :
    TurnsAbove refusal stack top waiting (.ofAnswer top host answer) := by
  cases answer with
  | ok frame => exact h.above (respects_above.refl host) frame
  | error cause => exact h

theorem turnsAbove_ofResponse
    (h : OpenAbove refusal stack (top :: waiting) host) (gas : Nat)
    {result : EStateM.Result LedgerError Host Response}
    (hmeets : MeetsAbove host result) :
    TurnsAbove refusal stack top waiting (.ofResponse top gas result) := by
  cases result with
  | error cause after => exact h.above hmeets top.frame
  | ok response after =>
    cases response with
    | entered child =>
      obtain ⟨hsnapshot, hrefusal, mid, hbelow⟩ := hmeets
      exact h.push hsnapshot hrefusal hbelow
    | refused | collided =>
      exact turnsAbove_ofAnswer (h.above hmeets top.frame) _

theorem turnsAbove_ofLeaving (h : OpenAbove refusal stack (top :: waiting) host)
    {result : EStateM.Result LedgerError Host Exit}
    (hleaves : LeavesAbove host result) :
    TurnsAbove refusal stack top waiting (.ofLeaving result) := by
  cases result with
  | error cause after => exact h.restored hleaves.1 hleaves.2
  | ok exit after =>
    obtain ⟨hrefusal, beneath, hbelow⟩ := hleaves
    refine ⟨hrefusal.trans h.refusal_eq, ?_⟩
    rintro parent below rfl
    exact h.pop hrefusal hbelow

/-- Whatever the host refuses at the next instruction, the frames that are then
unfinished are open above the same states. -/
theorem turnsAbove_turn (config : Config) (env : Environment)
    (hfree : ClosesFreely refusal)
    (h : OpenAbove refusal stack (top :: waiting) host) :
    TurnsAbove refusal stack top waiting (turn config env top host) := by
  have hstepped := respects_above.step config env ⟨top.frame, host⟩
  rw [turn]
  cases hstep : Execution.step config env ⟨top.frame, host⟩ with
  | error failure live =>
    rw [hstep] at hstepped
    have hlive := h.above hstepped live.frame
    rw [← hlive.refusal_eq] at hfree
    obtain ⟨hsnapshot, beneath, rest, hbelow⟩ := hlive.exists_below
    cases failure with
    | ledger cause => exact hlive
    | halt cause =>
      exact turnsAbove_ofLeaving hlive
        (leavesAbove_leave hfree hsnapshot hbelow _ _)
  | ok signal live =>
    rw [hstep] at hstepped
    have hlive := h.above hstepped live.frame
    rw [← hlive.refusal_eq] at hfree
    obtain ⟨hsnapshot, beneath, rest, hbelow⟩ := hlive.exists_below
    cases signal with
    | none => exact hlive
    | some signal =>
      cases signal with
      | call request =>
        exact turnsAbove_ofResponse hlive _ (meetsAbove_meetCall hfree _ _)
      | create request =>
        exact turnsAbove_ofResponse hlive _ (meetsAbove_meetCreation hfree _ _)
      | «return» output | revert output =>
        exact turnsAbove_ofLeaving hlive
          (leavesAbove_leave hfree hsnapshot hbelow _ _)

/-- What one instruction makes of the frames that are then unfinished. -/
theorem openAbove_of_advance (config : Config) (env : Environment)
    (hfree : ClosesFreely refusal) {state : Running Host}
    (h : OpenAbove refusal stack (state.top :: state.waiting) state.ledger) :
    match advance config env state with
    | .running next =>
      OpenAbove refusal stack (next.top :: next.waiting) next.ledger
    | .concluded (.failed _ unfinished after) =>
      OpenAbove refusal stack unfinished after
    | .concluded (.finished _ after) => after.refusal = refusal := by
  have hturns := turnsAbove_turn config env hfree h
  rw [advance_eq_progressOf]
  cases hturn : turn config env state.top state.ledger with
  | continues frame after | enters frame child after =>
    rw [hturn] at hturns
    exact hturns
  | concludes conclusion =>
    rw [hturn] at hturns
    cases conclusion with
    | failed cause unfinished after => exact hturns
    | finished exit after =>
      obtain ⟨hrefusal, hturns⟩ := hturns
      cases hwaiting : state.waiting with
      | nil => exact hrefusal
      | cons parent below =>
        have hopen := hturns parent below hwaiting
        rw [hwaiting] at hopen
        rw [progressOf, deliver]
        cases parent.frame.resume state.top.role exit with
        | ok frame => exact hopen.above (respects_above.refl after) frame
        | error cause => exact hopen

theorem openAbove_of_reaches (hfree : ClosesFreely refusal)
    {state reached : Running Host}
    (h : OpenAbove refusal stack (state.top :: state.waiting) state.ledger)
    (hreaches : Reaches config env state reached) :
    OpenAbove refusal stack (reached.top :: reached.waiting)
      reached.ledger := by
  induction hreaches with
  | refl => exact h
  | tail _ hadvance ih =>
    have hnext := openAbove_of_advance config env hfree ih
    rw [hadvance] at hnext
    exact hnext

/-- Rolling back what is unfinished brings back the states beneath. -/
theorem states_abandon (hfree : ClosesFreely refusal)
    {unfinished : List Activation}
    (h : OpenAbove refusal stack unfinished host) :
    (abandon unfinished host).refusal = refusal ∧
      (abandon unfinished host).inner.states = stack := by
  induction unfinished generalizing host with
  | nil =>
    have hlevels := h.levels
    rw [List.length_nil, List.drop_zero, StateStack.levels, StateStack.levels,
      List.cons.injEq] at hlevels
    exact ⟨h.refusal_eq, StateStack.ext hlevels.1 hlevels.2⟩
  | cons activation rest ih =>
    obtain ⟨hsnapshot, beneath, below, hbelow⟩ := h.exists_below
    rw [← h.refusal_eq] at hfree
    obtain ⟨after, hrollback, hrefusal, hstates⟩ :=
      exists_rollback hfree hsnapshot hbelow
    rw [h.refusal_eq] at hfree
    have hrest : host.inner.states.below = after.inner.states.levels := by
      rw [hstates]
      exact hbelow
    rw [abandon, List.foldl_cons, hrollback]
    exact ih (h.restored hrefusal hrest)

end Runs

/-! ## Whole transactions -/

theorem exists_deleteAccount (a : Address) (host : Host)
    (hfree : ClosesFreely host.refusal) :
    ∃ after, Ledger.deleteAccount a host = .ok () after ∧
      ClosesFreely after.refusal := by
  have hdelete : Ledger.deleteAccount a host = .ok () { host with
      inner := host.inner.delete a } :=
    attempt_of_none (hfree.deleteAccount a) rfl
  exact ⟨_, hdelete, hfree⟩

/-- A transaction that fails once its first frame has been entered takes
everything back. -/
theorem restored_of_failed_run {entered : Host} {root : Activation}
    {created : Option Address} {fuel gas : Nat} {cause : Failure}
    (hfree : ClosesFreely host.refusal)
    (hentered : EntersOrRestores host (.ok root entered))
    (h : (drive config env fuel ⟨root, [], entered⟩).map
      (close config gas created) =
      some (.error cause after)) : Restored host after := by
  obtain ⟨hsnapshot, hrefusal, hbelow⟩ := hentered
  have hdepth := depth_of_below_cons hbelow
  have hroot : OpenAbove host.refusal host.inner.states [root] entered := by
    refine ⟨hrefusal,
      nested_cons.2 ⟨hsnapshot.trans hdepth.symm, ?_, nested_nil _⟩, hbelow⟩
    rw [hdepth]
    exact Nat.succ_pos _
  obtain ⟨conclusion, hdrive, hclose⟩ := Option.map_eq_some_iff.1 h
  obtain ⟨last, hreaches, hconcluded⟩ := exists_concluded_of_drive hdrive
  have hlast := openAbove_of_reaches hfree hroot hreaches
  have hends := openAbove_of_advance config env hfree hlast
  rw [hconcluded] at hends
  cases conclusion with
  | failed failure unfinished reached =>
    obtain ⟨hkept, hstates⟩ := states_abandon hfree hends
    cases hclose
    exact ⟨hkept, hstates⟩
  | finished exit reached =>
    have hcloses : ClosesFreely reached.refusal := by
      rw [show reached.refusal = _ from hends]
      exact hfree
    obtain ⟨receipt, settled, hsettle⟩ :=
      exists_settle_of_deletes exists_deleteAccount config gas created
        exit hcloses
    rw [close, hsettle] at hclose
    cases hclose

theorem transact_eq_error {opening : EStateM LedgerError Host Opening}
    {fuel gas : Nat} {cause : Failure}
    (h : transact config env fuel gas opening host =
      some (.error cause after)) :
    (∃ reason, opening host = .error reason after) ∨
    ∃ root created entered, opening host = .ok (.entered root created) entered ∧
      (drive config env fuel ⟨root, [], entered⟩).map
        (close config gas created) =
        some (.error cause after) := by
  cases hopening : opening host with
  | error reason reached =>
    rw [transact, hopening] at h
    cases h
    exact .inl ⟨reason, rfl⟩
  | ok opened reached =>
    cases opened with
    | settled receipt =>
      rw [transact, hopening] at h
      cases h
    | entered root created =>
      rw [transact_of_entered hopening] at h
      exact .inr ⟨root, created, reached, rfl, h⟩

/-- How a call begins: it is turned down, or its first frame is entered, or all
is as it was. -/
theorem openCall_cases (hfree : ClosesFreely host.refusal)
    (message : CallMessage) :
    match openCall message host with
    | .ok (.settled _) _ => True
    | .ok (.entered root _) after => EntersOrRestores host (.ok root after)
    | .error _ after => Restored host after := by
  rw [openCall]
  obtain ⟨cause, _, hfails⟩ | ⟨isShort, _, hends⟩ :=
    (isRead_lacks message.caller message.value).bind_cases _ host
  · rw [hfails]
    exact ⟨rfl, rfl⟩
  rw [hends]
  cases isShort with
  | true => trivial
  | false =>
    rw [if_neg Bool.false_ne_true]
    have henters := entersOrRestores_enterCall hfree
      { address := message.target, caller := message.caller,
        value := message.value,
        data := message.data } true message.caller message.target message.gas {}
    obtain ⟨root, after, hroot, hentered⟩ | ⟨cause, after, hfails, hrestored⟩ :=
      henters.bind_pure fun root => Opening.entered root none
    · rw [hroot]
      exact hentered
    · rw [hfails]
      exact hrestored

/-- Whether a creation gets to count the caller's nonce up, and does so: its
code is not too long, the reads before the count are answered and the value is
covered, and the count itself succeeds. -/
def CountsUp (config : Config) (message : CreateMessage) (host : Host) : Prop :=
  message.initCode.size ≤ config.maxInitCodeSize ∧
    Covers host message.caller message.value ∧
    (∃ n, Ledger.nonce host message.caller = .ok n) ∧
    ∃ n bumped, Ledger.bumpNonce message.caller host = .ok n bumped

/-- How a creation begins.  Once the caller's nonce has been counted up, all
else that is done is done within a snapshot. -/
def OpensAbove (config : Config) (message : CreateMessage) (host : Host) :
    EStateM.Result LedgerError Host Opening → Prop
  | .ok (.settled _) _ => True
  | .ok (.entered root _) after => CountsUp config message host ∧
      ∃ bumped, Counted message.caller host bumped ∧
      EntersOrRestores bumped (.ok root after)
  | .error _ after => ¬ CountsUp config message host ∧ Restored host after ∨
      CountsUp config message host ∧
        ∃ bumped, Counted message.caller host bumped ∧ Restored bumped after

theorem opensAbove_proceedToCreate {message : CreateMessage}
    (hfree : ClosesFreely host.refusal)
    (hpasses : ∀ n bumped, Ledger.bumpNonce message.caller host = .ok n bumped →
      CountsUp config message host) (address : Address) :
    OpensAbove config message host
      (proceedToCreate message.caller address message.value
      message.initCode message.gas 0 (.rejected .createCollision message.gas)
      (.entered · (some address)) host) := by
  obtain ⟨cause, after, hbump, hfails, hrestored⟩ | ⟨n, bumped, hbump, hcounted,
      hrest⟩ :=
    proceedToCreate_cases hfree message.caller address message.value
      message.initCode message.gas
      0 (Opening.rejected .createCollision message.gas)
        (Opening.entered · (some address))
  · rw [hfails]
    refine .inl ⟨?_, hrestored⟩
    rintro ⟨_, _, _, n, bumped, hcounts⟩
    rw [hbump] at hcounts
    cases hcounts
  have hcounts := hpasses n bumped hbump
  cases hresult : proceedToCreate message.caller address message.value
    message.initCode
      message.gas 0 (Opening.rejected .createCollision message.gas)
      (Opening.entered · (some address)) host with
  | error cause after =>
    rw [hresult] at hrest
    exact .inr ⟨hcounts, bumped, hcounted, hrest⟩
  | ok opening after =>
    rw [hresult] at hrest
    obtain ⟨rfl, rfl⟩ | ⟨root, rfl, hentered⟩ := hrest
    · trivial
    · exact ⟨hcounts, bumped, hcounted, hentered⟩

theorem opensAbove_openCreation (hfree : ClosesFreely host.refusal)
    (config : Config) (message : CreateMessage) :
    OpensAbove config message host (openCreation config message host) := by
  rw [openCreation]
  by_cases hsize : config.maxInitCodeSize < message.initCode.size
  · rw [if_pos hsize]
    trivial
  rw [if_neg hsize]
  obtain ⟨cause, hlacks, hfails⟩ | ⟨isShort, hlacks, hends⟩ :=
    (isRead_lacks message.caller message.value).bind_cases _ host
  · rw [hfails]
    refine .inl ⟨?_, ⟨rfl, rfl⟩⟩
    rintro ⟨_, ⟨balance, hbalance, _⟩, _⟩
    rw [lacks, bind_of_ok (query_of_ok hbalance)] at hlacks
    cases hlacks
  rw [hends]
  cases isShort with
  | true => trivial
  | false =>
    rw [if_neg Bool.false_ne_true]
    obtain ⟨cause, hquery, hfails⟩ | ⟨nonce, hquery, hends⟩ :=
      (isRead_query (Ledger.nonce · message.caller)).bind_cases _ host
    · rw [hfails]
      refine .inl ⟨?_, ⟨rfl, rfl⟩⟩
      rintro ⟨_, _, ⟨n, hn⟩, _⟩
      rw [query_of_ok hn] at hquery
      cases hquery
    rw [hends]
    refine opensAbove_proceedToCreate hfree (fun n bumped hbump => ?_) _
    exact ⟨Nat.not_lt.1 hsize, (covers_iff_of_lacks hlacks).2 rfl,
      ⟨nonce, (query_eq_ok hquery).1⟩, n, bumped, hbump⟩

theorem restored_of_failed_call {fuel : Nat} {message : CallMessage}
    {cause : Failure} (hfree : ClosesFreely host.refusal)
    (h : call config env fuel message host = some (.error cause after)) :
    Restored host after := by
  have hends := openCall_cases hfree message
  obtain ⟨reason, hopening⟩ | ⟨root, created, entered, hopening, hrun⟩ :=
    transact_eq_error h
  · rw [hopening] at hends
    exact hends
  · rw [hopening] at hends
    exact restored_of_failed_run hfree hends hrun

theorem states_of_failed_create {fuel : Nat} {message : CreateMessage}
    {cause : Failure} (hfree : ClosesFreely host.refusal)
    (h : create config env fuel message host = some (.error cause after)) :
    after.refusal = host.refusal ∧
      (¬ CountsUp config message host ∧ after.inner.states = host.inner.states ∨
        CountsUp config message host ∧
          after.inner.states = raised message.caller host.inner.states) := by
  have hends := opensAbove_openCreation hfree config message
  obtain ⟨reason, hopening⟩ | ⟨root, created, entered, hopening, hrun⟩ :=
    transact_eq_error h
  · rw [hopening] at hends
    obtain ⟨hnot, hrestored⟩ | ⟨hcounts, bumped, hcounted, hrestored⟩ := hends
    · exact ⟨hrestored.refusal, .inl ⟨hnot, hrestored.states⟩⟩
    · exact ⟨hrestored.refusal.trans hcounted.refusal,
        .inr ⟨hcounts, hrestored.states.trans hcounted.states⟩⟩
  · rw [hopening] at hends
    obtain ⟨hcounts, bumped, hcounted, hentered⟩ := hends
    have hrestored :=
      restored_of_failed_run (hcounted.refusal ▸ hfree) hentered hrun
    exact ⟨hrestored.refusal.trans hcounted.refusal,
      .inr ⟨hcounts, hrestored.states.trans hcounted.states⟩⟩

/-- Failures of the host abort a transaction cleanly.  Whatever requests it
refuses, other than to close snapshots and to delete accounts, a call that fails
leaves everything that can be read as it was.  So does a creation that fails,
unless it has counted up the caller's nonce: then this is all that has
changed. -/
theorem host_failures_abort_cleanly {host : Host}
    (hfree : ClosesFreely host.refusal) (config : Config) (env : Environment) :
    (∀ fuel message cause after,
      call config env fuel message host = some (.error cause after) →
      after.refusal = host.refusal ∧ SameReads host.inner after.inner) ∧
    ∀ fuel message cause after,
      create config env fuel message host = some (.error cause after) →
      after.refusal = host.refusal ∧
      (CountsUp config message host →
        NonceRaised message.caller host.inner after.inner) ∧
      (¬ CountsUp config message host → SameReads host.inner after.inner) := by
  refine ⟨fun fuel message cause after h => ?_,
    fun fuel message cause after h => ?_⟩
  · have hrestored := restored_of_failed_call hfree h
    exact ⟨hrestored.refusal, sameReads_of_states_eq hrestored.states⟩
  · obtain ⟨hrefusal, ⟨hnot, hstates⟩ | ⟨hcounts, hstates⟩⟩ :=
      states_of_failed_create hfree h
    · exact ⟨hrefusal, fun hcounts => absurd hcounts hnot,
        fun _ => sameReads_of_states_eq hstates⟩
    · exact ⟨hrefusal, fun _ => nonceRaised_of_states_eq hstates,
        fun hnot => absurd hcounts hnot⟩

/-- A host with a contract that leaves all it holds to the account at 3, which
cannot be credited. -/
def refusingCredit : Host where
  inner := (({} : LayeredLedger).install 1 { balance := 10 }).install 2
    (({ balance := 5 } : Account).withCode #[0x60, 3, 0xff])
  refusal request := if request = .access .credit 3 then some "down" else none

/-- The payment to the contract and its debit are both taken back. -/
theorem refused_bequest_is_taken_back :
    ∃ after, call {} {} 2
      { caller := 1, target := 2, gas := 100000, value := 1 } refusingCredit =
        some (.error (.ledger (.backend "down")) after) ∧
      SameReads refusingCredit.inner after.inner := by
  obtain ⟨after, hfails⟩ : ∃ after, call {} {} 2
      { caller := 1, target := 2, gas := 100000, value := 1 } refusingCredit =
        some (.error (.ledger (.backend "down")) after) := ⟨_, rfl⟩
  have hfree : ClosesFreely refusingCredit.refusal := ⟨fun _ => rfl,
    fun _ => rfl, fun _ => rfl⟩
  obtain ⟨_, hreads⟩ :=
    (host_failures_abort_cleanly hfree {} {}).1 _ _ _ _ hfails
  exact ⟨after, hfails, hreads⟩

end ContractMachine.Transaction
