import ContractMachine.Proofs.Transaction.Answers
import ContractMachine.Proofs.Transaction.Preservation
import ContractMachine.Proofs.Transaction.Success

/-!
# Transactions on a layered ledger do not fail

Three things could make a transaction fail although the ledger itself answers
everything: a nonce that is no count, a snapshot closed out of order, and a
stack without room for an answer.  In a healthy transaction the nonces are
counts wherever it may come back to, the snapshots of its frames are the
innermost ones of the ledger, in order, and every frame that waits has room.
Healthy transactions do not fail at the next instruction, and stay healthy.

All this is about transactions that end.  One that pays for memory beyond its
capacity breaks off instead; `not_breaksOff_of_reaches` tells how much gas that
takes.
-/

namespace ContractMachine.Transaction

open Actions LayeredLedger

variable {config : Config} {env : Environment} {ledger after : LayeredLedger}

/-- The snapshots of these frames, the topmost first, are the innermost ones of
a ledger that has so many open. -/
def Nested : Nat → List Activation → Prop
  | _, [] => True
  | 0, _ :: _ => False
  | depth + 1, activation :: rest =>
    activation.snapshot = depth + 1 ∧ Nested depth rest

theorem nested_nil (depth : Nat) : Nested depth [] := by
  rw [Nested]
  trivial

theorem nested_cons {depth : Nat} {activation : Activation}
    {rest : List Activation} :
    Nested depth (activation :: rest) ↔
      activation.snapshot = depth ∧ 0 < depth ∧ Nested (depth - 1) rest := by
  cases depth with
  | zero => simp [Nested]
  | succ depth => simp [Nested]

theorem Nested.with_frame {depth : Nat} {activation : Activation}
    {rest : List Activation} (h : Nested depth (activation :: rest))
    (frame : Frame) :
    Nested depth ({ activation with frame } :: rest) := by
  obtain ⟨hsnapshot, hopen, hrest⟩ := nested_cons.1 h
  exact nested_cons.2 ⟨hsnapshot, hopen, hrest⟩

/-- A transaction that does not fail. -/
structure Healthy (state : Running LayeredLedger) : Prop where
  nonces : AtAllLevels FlatState.NoncesCount state
  nested : Nested state.ledger.depth (state.top :: state.waiting)
  room : ∀ parent ∈ state.waiting, parent.frame.stack.length < Stack.limit

/-! ## Progress -/

section Progress

variable {top : Activation} {cause : Failure} {unfinished : List Activation}

theorem ofAnswer_ne_failed {frame : Frame} {answer : Except Halt Frame}
    (h : answer = .ok frame) :
    Turn.ofAnswer top ledger answer ≠
      .concludes (.failed cause unfinished after) := by
  rw [h]
  rintro ⟨⟩

/-- A frame with room on its stack takes up any response. -/
theorem ofResponse_ne_failed {gas : Nat} {response : Response}
    (hroom : top.frame.stack.length < Stack.limit) :
    Turn.ofResponse top gas (.ok response ledger) ≠
      .concludes (.failed cause unfinished after) := by
  cases response with
  | entered child => rintro ⟨⟩
  | refused => exact ofAnswer_ne_failed (Frame.refuse_eq_ok_iff.2 ⟨hroom, rfl⟩)
  | collided => exact ofAnswer_ne_failed (Frame.answer_eq_ok_iff.2 ⟨hroom, rfl⟩)

/-- A frame whose snapshot is the innermost leaves without a failure. -/
theorem ofLeaving_ne_failed (hsnapshot : top.snapshot = ledger.depth)
    (hopen : 0 < ledger.depth) (frame : Frame) (outcome : Outcome)
    (output : Bytes) :
    Turn.ofLeaving (leave config { top with frame } outcome output ledger) ≠
      .concludes (.failed cause unfinished after) := by
  have hinnermost : { top with frame }.snapshot = ledger.depth := hsnapshot
  obtain ⟨exit, left, hleave⟩ :=
    exists_leave hinnermost hopen config outcome output
  rw [hleave]
  rintro ⟨⟩

theorem turn_ne_failed (hnonces : ledger.states.top.NoncesCount)
    (hsnapshot : top.snapshot = ledger.depth) (hopen : 0 < ledger.depth) :
    turn config env top ledger ≠
      .concludes (.failed cause unfinished after) := by
  have hdepth :
      (left (Execution.step config env ⟨top.frame, ledger⟩)).ledger.depth =
      ledger.depth := depth_eq_of_below (below_of_step ⟨top.frame, ledger⟩)
  have hwrites : FlatState.Writes ledger.states.top
      (left (Execution.step config env
        ⟨top.frame, ledger⟩)).ledger.states.top :=
    (acts_of_step ⟨top.frame, ledger⟩).writes
  rw [turn]
  cases hstep : Execution.step config env ⟨top.frame, ledger⟩ with
  | error failure live =>
    rw [hstep, left] at hdepth
    obtain ⟨reason, rfl⟩ := Execution.isHalt_of_step hstep
    exact ofLeaving_ne_failed (hsnapshot.trans hdepth.symm)
      (hdepth ▸ hopen) _ _ _
  | ok signal live =>
    rw [hstep, left] at hdepth hwrites
    cases signal with
    | none =>
      dsimp only
      rintro ⟨⟩
    | some signal =>
      cases signal with
      | «return» output | revert output =>
        exact ofLeaving_ne_failed (hsnapshot.trans hdepth.symm)
          (hdepth ▸ hopen) _ _ _
      | call request =>
        obtain ⟨response, met, hmeet⟩ :=
          exists_meetCall config live.frame.context request live.ledger
        dsimp only
        rw [hmeet]
        exact ofResponse_ne_failed (Execution.room_of_step hstep trivial)
      | create request =>
        have hcounts : live.ledger.states.top.NoncesCount :=
          hwrites.preserves FlatState.NoncesCount.write hnonces
        obtain ⟨response, met, hmeet⟩ :=
          exists_meetCreation config live.frame.context request hcounts
        dsimp only
        rw [hmeet]
        exact ofResponse_ne_failed (Execution.room_of_step hstep trivial)

/-- A healthy transaction does not fail at the next instruction. -/
theorem Healthy.advance_ne_failed {state : Running LayeredLedger}
    (h : Healthy state) :
    advance config env state ≠ .concluded (.failed cause unfinished after) := by
  obtain ⟨hsnapshot, hopen, _⟩ := nested_cons.1 h.nested
  rw [advance_eq_progressOf]
  cases hturn : turn config env state.top state.ledger with
  | continues frame left | enters frame child left => rintro ⟨⟩
  | concludes conclusion =>
    cases conclusion with
    | failed => exact absurd hturn (turn_ne_failed h.nonces.top hsnapshot hopen)
    | finished exit left =>
      rw [progressOf]
      cases hwaiting : state.waiting with
      | nil => rintro ⟨⟩
      | cons parent below =>
        obtain ⟨resumed, hresume⟩ := Frame.exists_resume
          (h.room parent (hwaiting ▸ List.mem_cons_self)) state.top.role exit
        rw [deliver, hresume]
        rintro ⟨⟩

end Progress

/-! ## Preservation -/

theorem snapshot_of_enterCall {context : Context} {moves : Bool}
    {source target : Address} {gas : Nat} {window : Range} {child : Activation}
    (h : enterCall context moves source target gas window ledger =
      .ok child after) :
    child.snapshot = ledger.depth + 1 := by
  obtain ⟨code, _, _, hprepare⟩ := enterCall_eq_ok h
  rw [enterCall_of_ok gas window hprepare] at h
  cases h
  rfl

theorem snapshot_of_enterCreation {creator address : Address} {value : Word}
    {initCode : Bytes} {gas depth : Nat} {child : Activation}
    (h : enterCreation creator address value initCode gas depth ledger =
      .ok child after) :
    child.snapshot = ledger.depth + 1 := by
  obtain ⟨_, _, hprepare⟩ := enterCreation_eq_ok h
  rw [enterCreation_of_ok initCode gas depth hprepare] at h
  cases h
  rfl

theorem depth_of_bumpNonce {a : Address} {n : Nat} {bumped : LayeredLedger}
    (h : Ledger.bumpNonce a ledger = .ok n bumped) :
    bumped.depth = ledger.depth := by
  apply depth_eq_of_below
  rw [states_of_bumpNonce h]
  rfl

theorem snapshot_of_meets {live : Live LayeredLedger} {signal : Signal}
    {child : Activation} (h : Meets config live signal (.entered child) after) :
    child.snapshot = live.ledger.depth + 1 := by
  obtain ⟨_, _, henter⟩ | ⟨_, _, _, _, _, hbump, henter⟩ := enters_of_meets h
  · exact snapshot_of_enterCall henter
  · rw [snapshot_of_enterCreation henter, depth_of_bumpNonce hbump]

theorem snapshot_of_enters {top child : Activation} {frame : Frame}
    (h : turn config env top ledger = .enters frame child after) :
    child.snapshot = ledger.depth + 1 := by
  have hdepth :
      (left (Execution.step config env ⟨top.frame, ledger⟩)).ledger.depth =
      ledger.depth := depth_eq_of_below (below_of_step ⟨top.frame, ledger⟩)
  obtain ⟨signal, live, hstep, _, hmeets⟩ := turn_eq_enters h
  rw [hstep, left] at hdepth
  rw [snapshot_of_meets hmeets, hdepth]

/-- A frame that begins to wait has room for the answer. -/
theorem room_of_enters {top child : Activation} {frame : Frame}
    (h : turn config env top ledger = .enters frame child after) :
    frame.stack.length < Stack.limit := by
  obtain ⟨signal, live, hstep, rfl, hmeets⟩ := turn_eq_enters h
  exact Execution.room_of_step hstep (isRequest_of_meets hmeets)

theorem nested_of_advance {state next : Running LayeredLedger}
    (hstate : Nested state.ledger.depth (state.top :: state.waiting))
    (h : advance config env state = .running next) :
    Nested next.ledger.depth (next.top :: next.waiting) := by
  cases advances_of_advance h with
  | continues hturn =>
    rw [depth_eq_of_below (below_of_continues hturn)]
    exact hstate.with_frame _
  | enters hturn =>
    obtain ⟨_, _, _, hkept⟩ := writes_of_enters hturn
    have hdepth := depth_of_below_cons hkept
    refine nested_cons.2 ⟨(snapshot_of_enters hturn).trans hdepth.symm, ?_, ?_⟩
    · rw [hdepth]
      exact Nat.succ_pos _
    · rw [hdepth]
      exact hstate.with_frame _
  | resumes hturn _ =>
    obtain ⟨_, hdropped, _⟩ := below_of_finished hturn
    obtain ⟨_, _, hrest⟩ := nested_cons.1 hstate
    rw [depth_of_below_cons hdropped] at hrest
    exact hrest.with_frame _

theorem room_of_advance {state next : Running LayeredLedger}
    (hstate : ∀ parent ∈ state.waiting, parent.frame.stack.length < Stack.limit)
    (h : advance config env state = .running next) :
    ∀ parent ∈ next.waiting, parent.frame.stack.length < Stack.limit := by
  cases advances_of_advance h with
  | continues hturn => exact hstate
  | enters hturn => exact List.forall_mem_cons.2 ⟨room_of_enters hturn, hstate⟩
  | resumes hturn _ => exact (List.forall_mem_cons.1 hstate).2

theorem healthy_of_advance {state next : Running LayeredLedger}
    (hstate : Healthy state) (h : advance config env state = .running next) :
    Healthy next where
  nonces := atAllLevels_of_advance FlatState.NoncesCount.write hstate.nonces h
  nested := nested_of_advance hstate.nested h
  room := room_of_advance hstate.room h

theorem healthy_of_reaches {state next : Running LayeredLedger}
    (hstate : Healthy state) (h : Reaches config env state next) :
    Healthy next := by
  induction h with
  | refl => exact hstate
  | tail _ hadvance ih => exact healthy_of_advance ih hadvance

/-! ## Openings -/

theorem snapshot_of_opens {gas : Nat}
    {opening : EStateM LedgerError LayeredLedger Opening} {root : Activation}
    {created : Option Address} (hopens : Opens config gas opening)
    (h : opening ledger = .ok (.entered root created) after) :
    root.snapshot = ledger.depth + 1 := by
  obtain ⟨_, _, _, henter⟩ | ⟨_, _, _, _, _, _, hbump, henter⟩ :=
    enters_of_opens hopens h
  · exact snapshot_of_enterCall henter
  · rw [snapshot_of_enterCreation henter, depth_of_bumpNonce hbump]

theorem healthy_root {gas : Nat}
    {opening : EStateM LedgerError LayeredLedger Opening} {root : Activation}
    {created : Option Address} (hopens : Opens config gas opening)
    (h : opening ledger = .ok (.entered root created) after)
    (hnonces : ledger.states.top.NoncesCount) : Healthy ⟨root, [], after⟩ := by
  obtain ⟨_, _, _, hkept⟩ := writes_of_opens hopens h
  have hdepth := depth_of_below_cons (hkept root created rfl)
  refine ⟨atAllLevels_of_opens FlatState.NoncesCount.write hopens h hnonces, ?_,
    by simp⟩
  refine nested_cons.2 ⟨(snapshot_of_opens hopens h).trans hdepth.symm, ?_,
    nested_nil _⟩
  rw [hdepth]
  exact Nat.succ_pos _

/-! ## Halts -/

/-- What the topmost frame runs into at its next instruction: a failure of the
instruction, or of the deposit of what a creation returns. -/
inductive Raises (config : Config) (env : Environment) (top : Activation)
    (ledger : LayeredLedger) : Failure → Prop where
  | byStep {failure : Failure} {live : Live LayeredLedger}
      (hstep : Execution.step config env ⟨top.frame, ledger⟩ =
        .error failure live) :
      Raises config env top ledger failure
  | byDeposit {failure : Failure} {live last : Live LayeredLedger}
      {output : Bytes}
      {address : Address}
      (hstep : Execution.step config env ⟨top.frame, ledger⟩ =
        .ok (some (.return output)) live)
      (hrole : top.role = .creation address)
      (hdeposit : depositCode config address output live =
        .error failure last) :
      Raises config env top ledger failure

theorem isHalt_of_raises {top : Activation} {failure : Failure}
    (h : Raises config env top ledger failure) : failure.IsHalt := by
  cases h with
  | byStep hstep => exact Execution.isHalt_of_step hstep
  | byDeposit _ _ hdeposit => exact failsOnly_depositCode _ _ _ _ _ _ hdeposit

/-- A frame is left with the outcome that it had, unless it is a creation whose
code cannot be deposited. -/
theorem outcome_of_leave {activation : Activation} {outcome : Outcome}
    {output : Bytes} {exit : Exit}
    (h : leave config activation outcome output ledger = .ok exit after) :
    exit.outcome = outcome ∨
    outcome = .success ∧ ∃ address cause last,
      activation.role = .creation address ∧
      depositCode config address output ⟨activation.frame, ledger⟩ =
        .error (.halt cause) last ∧
      exit.outcome = .halt cause := by
  have hcloses :
      ∀ {close : EStateM LedgerError LayeredLedger Unit} {ending : Exit}
      {reached : LayeredLedger},
      (do close; return ending) reached = .ok exit after →
        exit = ending := by
    intro close ending reached hclose
    obtain ⟨_, _, _, hpure⟩ := bind_eq_ok_iff.1 hclose
    exact (pure_eq_ok_iff.1 hpure).1.symm
  cases outcome with
  | revert | halt cause => exact .inl (congrArg Exit.outcome (hcloses h))
  | success =>
    cases hrole : activation.role with
    | call window =>
      simp only [leave, hrole] at h
      exact .inl (congrArg Exit.outcome (hcloses h))
    | creation address =>
      simp only [leave, hrole] at h
      cases hdeposit : depositCode config address output
        ⟨activation.frame, ledger⟩ with
      | ok _ live =>
        rw [hdeposit] at h
        exact .inl (congrArg Exit.outcome (hcloses h))
      | error failure live =>
        obtain ⟨cause, rfl⟩ := failsOnly_depositCode _ _ _ _ _ _ hdeposit
        rw [hdeposit] at h
        exact .inr ⟨rfl, address, cause, live, rfl, hdeposit,
          congrArg Exit.outcome (hcloses h)⟩

/-- A frame ends with a halt only if it has run into it. -/
theorem raises_of_finished {top : Activation} {exit : Exit} {cause : Halt}
    (h : turn config env top ledger = .concludes (.finished exit after))
    (hhalt : exit.outcome = .halt cause) :
    Raises config env top ledger (.halt cause) := by
  rw [turn] at h
  cases hstep : Execution.step config env ⟨top.frame, ledger⟩ with
  | error failure live =>
    obtain ⟨reason, rfl⟩ := Execution.isHalt_of_step hstep
    rw [hstep] at h
    obtain houtcome | ⟨hsuccess, _⟩ :=
      outcome_of_leave (ofLeaving_eq_finished h)
    · cases houtcome.symm.trans hhalt
      exact .byStep hstep
    · cases hsuccess
  | ok signal live =>
    rw [hstep] at h
    cases signal with
    | none => cases h
    | some signal =>
      cases signal with
      | call request | create request => exact absurd h ofResponse_ne_finished
      | revert output =>
        obtain houtcome | ⟨hsuccess, _⟩ :=
          outcome_of_leave (ofLeaving_eq_finished h)
        · cases houtcome.symm.trans hhalt
        · cases hsuccess
      | «return» output =>
        obtain houtcome | ⟨_, address, reason, last, hrole, hdeposit,
            houtcome⟩ :=
          outcome_of_leave (ofLeaving_eq_finished h)
        · cases houtcome.symm.trans hhalt
        · cases houtcome.symm.trans hhalt
          exact .byDeposit hstep hrole hdeposit

/-! ## Whole transactions -/

/-- What goes right at the next instruction of a running transaction: it does
not fail, what the topmost frame runs into is a halt and nothing else, a frame
that ends with a halt has run into that one, and every frame that waits can take
up what the one above it may leave. -/
structure Untroubled (config : Config) (env : Environment)
    (state : Running LayeredLedger) :
    Prop where
  not_failed : ∀ cause unfinished after,
    advance config env state ≠ .concluded (.failed cause unfinished after)
  isHalt : ∀ failure, Raises config env state.top state.ledger failure →
    failure.IsHalt
  raises : ∀ exit after cause,
    turn config env state.top state.ledger = .concludes (.finished exit after) →
    exit.outcome = .halt cause →
    Raises config env state.top state.ledger (.halt cause)
  resumes : ∀ parent ∈ state.waiting, ∀ role exit,
    ∃ resumed, parent.frame.resume role exit = .ok resumed

theorem Healthy.untroubled {state : Running LayeredLedger} (h : Healthy state) :
    Untroubled config env state where
  not_failed _ _ _ := h.advance_ne_failed
  isHalt _ hraises := isHalt_of_raises hraises
  raises _ _ _ hends hhalt := raises_of_finished hends hhalt
  resumes parent hparent := Frame.exists_resume (h.room parent hparent)

theorem exists_receipt_of_transact {fuel gas : Nat}
    {opening : EStateM LedgerError LayeredLedger Opening} {opened : Opening}
    {result : EStateM.Result Failure LayeredLedger Receipt}
    (hopens : Opens config gas opening)
    (hnonces : ledger.states.top.NoncesCount)
    (hopening : opening ledger = .ok opened after)
    (h : transact config env fuel gas opening ledger = some result) :
    ∃ receipt last, result = .ok receipt last := by
  cases opened with
  | settled receipt =>
    rw [transact, hopening] at h
    cases h
    exact ⟨receipt, after, rfl⟩
  | entered root created =>
    rw [transact_of_entered hopening] at h
    obtain ⟨conclusion, hdrive, rfl⟩ := Option.map_eq_some_iff.1 h
    obtain ⟨last, hreaches, hconcluded⟩ := exists_concluded_of_drive hdrive
    have hhealthy := healthy_of_reaches (healthy_root hopens hopening hnonces)
      hreaches
    cases conclusion with
    | failed cause unfinished left =>
      exact absurd hconcluded hhealthy.advance_ne_failed
    | finished exit left =>
      obtain ⟨receipt, settled, hsettle⟩ :=
        exists_settle config gas created exit left
      rw [close, hsettle]
      exact ⟨receipt, settled, rfl⟩

/-- On a ledger that operations have left, with any number of snapshots open, a
transaction that ends, and does not break off for want of memory, has a receipt.
The one exception is a creation with code that is not too long, by an account
that can pay the value and whose nonce is the largest: it fails for that reason,
at once and without a trace.  While a transaction runs, the ledger turns nothing
down, and no answer overflows the stack that it is put on. -/
theorem transactions_do_not_fail {ledger : LayeredLedger}
    (hreachable : ledger.Reachable) (config : Config) (env : Environment) :
    (∀ fuel message result, call config env fuel message ledger = some result →
      ∃ receipt after, result = .ok receipt after) ∧
    (∀ fuel message, Overflows config message ledger →
      create config env fuel message ledger =
        some (.error (.ledger (.nonceOverflow message.caller)) ledger)) ∧
    (∀ fuel message result, ¬ Overflows config message ledger →
      create config env fuel message ledger = some result →
        ∃ receipt after, result = .ok receipt after) ∧
    ∀ gas opening root created entered state, Opens config gas opening →
      opening ledger = .ok (.entered root created) entered →
      Reaches config env ⟨root, [], entered⟩ state →
      Untroubled config env state := by
  have hnonces := hreachable.noncesCount
  refine ⟨?_, ?_, ?_, ?_⟩
  · intro fuel message result hcall
    obtain ⟨opened, after, hopening⟩ := exists_openCall message ledger
    exact exists_receipt_of_transact (.inl ⟨message, rfl, rfl⟩) hnonces
      hopening hcall
  · intro fuel message hoverflows
    rw [create, transact, openCreation_of_overflows hoverflows]
  · intro fuel message result hcounts hcreate
    obtain ⟨opened, after, hopening⟩ := exists_openCreation hnonces hcounts
    exact exists_receipt_of_transact (.inr ⟨message, rfl, rfl⟩) hnonces
      hopening hcreate
  · intro gas opening root created entered state hopens hopening hreaches
    exact (healthy_of_reaches (healthy_root hopens hopening hnonces)
      hreaches).untroubled

/-- A history that leaves an account with the largest nonce, and a snapshot
open. -/
def usingUpNonce : List Operation :=
  [.install 1 { balance := 10, nonce := Saturating.limit }, .openSnapshot]

/-- The account with the largest nonce can pay, but no longer create. -/
theorem largest_nonce_prevents_creations_only :
    create {} {} 1 { caller := 1, gas := 100, value := 3 }
      (serve perform {} usingUpNonce).2 =
      some (.error (.ledger (.nonceOverflow 1))
        (serve perform {} usingUpNonce).2) ∧
    ∃ receipt after,
      call {} {} 1 { caller := 1, target := 2, gas := 100, value := 3 }
      (serve perform {} usingUpNonce).2 = some (.ok receipt after) := by
  have hreachable : (serve perform {} usingUpNonce).2.Reachable := by
    refine ⟨usingUpNonce, _, serves_serve usingUpNonce, ?_⟩
    simp [usingUpNonce, Operation.Counts]
  obtain ⟨hcalls, hoverflow, _⟩ := transactions_do_not_fail hreachable {} {}
  refine ⟨hoverflow 1 _ ⟨by decide, ⟨10, rfl, by decide⟩, rfl⟩, ?_⟩
  obtain ⟨result, hends⟩ : ∃ result, call {} {} 1
      { caller := 1, target := 2, gas := 100,
        value := 3 } (serve perform {} usingUpNonce).2 =
        some result := ⟨_, rfl⟩
  obtain ⟨receipt, after, rfl⟩ := hcalls _ _ _ hends
  exact ⟨receipt, after, hends⟩

end ContractMachine.Transaction
