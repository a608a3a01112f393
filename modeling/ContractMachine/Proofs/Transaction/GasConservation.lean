import ContractMachine.Ledger.Layered
import ContractMachine.Proofs.Transaction.Answers
import ContractMachine.Proofs.Transaction.Entering
import ContractMachine.Proofs.Transaction.Recursion

/-!
# Gas is never created

Gas moves between frames when one is entered, refused or left.  A frame that
waits has put aside the whole limit of the frame above it, so what comes back
fits under its own limit; from frame to frame down the stack, all live frames
together have no more gas than the transaction began with.

Sums of gas are cut off at the largest count.  Since nothing exceeds the gas of
the transaction, which is a count, they never are.
-/

namespace ContractMachine.Transaction

open Actions

variable {σ : Type} [Ledger σ] {config : Config} {env : Environment}

/-- The gas of all live frames. -/
def liveGas (state : Running σ) : Nat :=
  state.top.frame.gas + (state.waiting.map (·.frame.gas)).sum

/-- Waiting frames have put aside the limit of the frame above them, down to the
gas of the transaction. -/
def Backs (gas : Nat) : Nat → List Activation → Prop
  | limit, [] => limit ≤ gas
  | limit, parent :: below =>
    parent.frame.gas + limit ≤ parent.frame.gasLimit ∧
    Backs gas parent.frame.gasLimit below

/-- The topmost frame has no more than its limit, and the others back it. -/
structure Funded (gas : Nat) (state : Running σ) : Prop where
  gas_le : state.top.frame.gas ≤ state.top.frame.gasLimit
  backs : Backs gas state.top.frame.gasLimit state.waiting

theorem Backs.add_sum_le {gas limit : Nat} {waiting : List Activation}
    (h : Backs gas limit waiting) :
    limit + (waiting.map (·.frame.gas)).sum ≤ gas := by
  induction waiting generalizing limit with
  | nil => exact h
  | cons parent below ih =>
    have hbelow := ih h.2
    have hparent := h.1
    rw [List.map_cons, List.sum_cons]
    omega

theorem Backs.gas_le {gas limit : Nat} {waiting : List Activation}
    (h : Backs gas limit waiting) :
    ∀ activation ∈ waiting,
      activation.frame.gas ≤ activation.frame.gasLimit := by
  induction waiting generalizing limit with
  | nil => simp
  | cons parent below ih =>
    intro activation hmem
    obtain rfl | hbelow := List.mem_cons.1 hmem
    · exact Nat.le_of_add_right_le h.1
    · exact ih h.2 activation hbelow

omit [Ledger σ] in
theorem Funded.liveGas_le {gas : Nat} {state : Running σ}
    (h : Funded gas state) :
    liveGas state ≤ gas :=
  (Nat.add_le_add_right h.gas_le _).trans h.backs.add_sum_le

/-! ## Answers -/

theorem returnGas_gas_le (frame : Frame) (amount : Nat) :
    (frame.returnGas amount).gas ≤ frame.gas + amount := Nat.min_le_left ..

theorem answer_eq_ok {frame answered : Frame} {returnData : Bytes}
    {result : Word} (h : frame.answer returnData result = .ok answered) :
    answered.gas = frame.gas ∧ answered.gasLimit = frame.gasLimit := by
  obtain ⟨_, rfl⟩ := Frame.answer_eq_ok_iff.1 h
  exact ⟨rfl, rfl⟩

theorem refuse_eq_ok {frame answered : Frame} {gas : Nat}
    (h : frame.refuse gas = .ok answered) :
    answered.gas = (frame.returnGas gas).gas ∧
    answered.gasLimit = frame.gasLimit :=
  answer_eq_ok h

theorem resume_eq_ok {frame resumed : Frame} {role : Role} {exit : Exit}
    (h : frame.resume role exit = .ok resumed) :
    resumed.gas = (frame.returnGas exit.gasLeft).gas ∧
    resumed.gasLimit = frame.gasLimit := by
  obtain ⟨_, _, _, rfl⟩ := Frame.exists_of_resume h
  exact ⟨rfl, rfl⟩

/-! ## One turn -/

theorem enterCall_gas {context : Context} {moves : Bool}
    {source target : Address} {gas : Nat} {window : Range} {child : Activation}
    {ledger after : σ}
    (h : enterCall context moves source target gas window ledger =
      .ok child after) :
    child.frame.gas = gas ∧ child.frame.gasLimit = gas := by
  obtain ⟨code, hframe, _⟩ := enterCall_eq_ok h
  rw [hframe]
  exact ⟨rfl, rfl⟩

theorem enterCreation_gas {creator address : Address} {value : Word}
    {initCode : Bytes} {gas depth : Nat} {child : Activation} {ledger after : σ}
    (h : enterCreation creator address value initCode gas depth ledger =
      .ok child after) :
    child.frame.gas = gas ∧ child.frame.gasLimit = gas := by
  rw [(enterCreation_eq_ok h).1]
  exact ⟨rfl, rfl⟩

/-- A frame that is entered gets the gas that was handed over. -/
theorem entered_gas {live : Live σ} {signal : Signal} {child : Activation}
    {after : σ} (h : Meets config live signal (.entered child) after) :
    child.frame.gas = signal.gas ∧ child.frame.gasLimit = signal.gas := by
  obtain ⟨_, rfl, henter⟩ | ⟨_, _, _, _, rfl, _, henter⟩ := enters_of_meets h
  · exact enterCall_gas henter
  · exact enterCreation_gas henter

section Turns

variable {top : Activation} {ledger after : σ} {frame : Frame}

theorem gas_of_continues
    (hstipend : config.schedule.callStipend ≤ config.schedule.callValue)
    (h : turn config env top ledger = .continues frame after) :
    frame.gas ≤ top.frame.gas ∧ frame.gasLimit = top.frame.gasLimit := by
  have hmoves := Execution.moves_step config env ⟨top.frame, ledger⟩
  have hle := hmoves.gas_le
  have hlimit := hmoves.gasLimit_eq
  obtain hstep | ⟨signal, live, response, hstep, _, hanswer⟩ :=
    turn_eq_continues h
  · rw [hstep] at hle hlimit
    exact ⟨hle, hlimit⟩
  · have hpaid := Execution.gas_add_le_of_step hstipend hstep
    rw [hstep] at hle hlimit
    obtain ⟨_, hrefuse⟩ | ⟨_, hcollide⟩ := hanswer
    · obtain ⟨hgas, hsame⟩ := refuse_eq_ok hrefuse
      refine ⟨?_, hsame.trans hlimit⟩
      calc
        frame.gas = (live.frame.returnGas signal.gas).gas := hgas
        _ ≤ live.frame.gas + signal.gas := returnGas_gas_le ..
        _ ≤ top.frame.gas := hpaid
    · obtain ⟨hgas, hsame⟩ := answer_eq_ok hcollide
      exact ⟨hgas.le.trans hle, hsame.trans hlimit⟩

theorem gas_of_enters
    (hstipend : config.schedule.callStipend ≤ config.schedule.callValue)
    {child : Activation}
    (h : turn config env top ledger = .enters frame child after) :
    frame.gas + child.frame.gasLimit ≤ top.frame.gas ∧
      frame.gasLimit = top.frame.gasLimit ∧
      child.frame.gas = child.frame.gasLimit := by
  obtain ⟨signal, live, hstep, rfl, hmeets⟩ := turn_eq_enters h
  have hlimit :=
    (Execution.moves_step config env ⟨top.frame, ledger⟩).gasLimit_eq
  rw [hstep] at hlimit
  obtain ⟨hgas, hchild⟩ := entered_gas hmeets
  rw [hgas, hchild]
  exact ⟨Execution.gas_add_le_of_step hstipend hstep, hlimit, rfl⟩

theorem gas_of_finished {exit : Exit}
    (h : turn config env top ledger = .concludes (.finished exit after)) :
    exit.gasLeft ≤ top.frame.gas ∧ ∀ cause, exit.outcome = .halt cause →
      exit.gasLeft = 0 := by
  obtain ⟨live, outcome, output, rfl, hleave⟩ := turn_eq_finished h
  have hleaves := leaves_of_leave hleave
  have hgas := (Execution.moves_step config env ⟨top.frame, ledger⟩).gas_le
  exact ⟨hleaves.gasLeft_le.trans hgas, hleaves.gasLeft_of_halt⟩

end Turns

/-! ## Runs -/

/-- What comes back to a waiting frame fits under its limit. -/
theorem Funded.gas_add_gasLeft_le {gas : Nat} {top parent : Activation}
    {below : List Activation} {ledger after : σ} {exit : Exit}
    (hfunded : Funded gas ⟨top, parent :: below, ledger⟩)
    (h : turn config env top ledger = .concludes (.finished exit after)) :
    parent.frame.gas + exit.gasLeft ≤ parent.frame.gasLimit := by
  calc
    parent.frame.gas + exit.gasLeft ≤ parent.frame.gas + top.frame.gas :=
      Nat.add_le_add_left (gas_of_finished h).1 _
    _ ≤ parent.frame.gas + top.frame.gasLimit :=
      Nat.add_le_add_left hfunded.gas_le _
    _ ≤ parent.frame.gasLimit := hfunded.backs.1

theorem funded_of_advance {gas : Nat} {state next : Running σ}
    (hstipend : config.schedule.callStipend ≤ config.schedule.callValue)
    (hfunded : Funded gas state)
    (h : advance config env state = .running next) :
    Funded gas next := by
  cases advances_of_advance h with
  | @continues top _ _ _ frame hturn =>
    obtain ⟨hle, hlimit⟩ := gas_of_continues hstipend hturn
    constructor
    · calc
        frame.gas ≤ top.frame.gas := hle
        _ ≤ top.frame.gasLimit := hfunded.gas_le
        _ = frame.gasLimit := hlimit.symm
    · rw [hlimit]
      exact hfunded.backs
  | @enters top child _ _ _ frame hturn =>
    obtain ⟨hle, hlimit, hchild⟩ := gas_of_enters hstipend hturn
    constructor
    · exact hchild.le
    · constructor
      · calc
          frame.gas + child.frame.gasLimit ≤ top.frame.gas := hle
          _ ≤ top.frame.gasLimit := hfunded.gas_le
          _ = frame.gasLimit := hlimit.symm
      · rw [hlimit]
        exact hfunded.backs
  | @resumes top parent _ _ _ exit frame hturn hresume =>
    obtain ⟨hgas, hlimit⟩ := resume_eq_ok hresume
    constructor
    · calc
        frame.gas = (parent.frame.returnGas exit.gasLeft).gas := hgas
        _ ≤ parent.frame.gas + exit.gasLeft := returnGas_gas_le ..
        _ ≤ parent.frame.gasLimit := hfunded.gas_add_gasLeft_le hturn
        _ = frame.gasLimit := hlimit.symm
    · rw [hlimit]
      exact hfunded.backs.2

theorem funded_of_reaches {gas : Nat} {state next : Running σ}
    (hstipend : config.schedule.callStipend ≤ config.schedule.callValue)
    (hfunded : Funded gas state) (h : Reaches config env state next) :
    Funded gas next := by
  induction h with
  | refl => exact hfunded
  | tail _ hstep ih => exact funded_of_advance hstipend ih hstep

/-- A frame that ends above waiting frames leaves no more gas than it was
entered with. -/
theorem gasLeft_le_of_ends {child : Activation} {waiting : List Activation}
    {ledger after : σ} {last : Running σ} {exit : Exit}
    (hstipend : config.schedule.callStipend ≤ config.schedule.callValue)
    (hchild : child.frame.gas = child.frame.gasLimit)
    (hruns : RunsAbove config env waiting ⟨child, waiting, ledger⟩ last)
    (hwaiting : last.waiting = waiting)
    (hends : turn config env last.top last.ledger =
      .concludes (.finished exit after)) :
    exit.gasLeft ≤ child.frame.gasLimit := by
  rw [← above_alone] at hruns
  obtain ⟨⟨top, own, ended⟩, rfl, hreaches⟩ := exists_of_runsAbove hruns
  obtain rfl : own = [] := by simpa [above] using hwaiting
  have hfunded : Funded child.frame.gasLimit ⟨top, [], ended⟩ :=
    funded_of_reaches hstipend ⟨hchild.le, le_rfl⟩ hreaches
  calc
    exit.gasLeft ≤ top.frame.gas := (gas_of_finished hends).1
    _ ≤ top.frame.gasLimit := hfunded.gas_le
    _ ≤ child.frame.gasLimit := hfunded.backs

/-- A frame goes on after a request with no more gas than it had before it. -/
theorem gas_le_of_resumes {state resumed : Running σ} {outcome : Option Exit}
    (hstipend : config.schedule.callStipend ≤ config.schedule.callValue)
    (h : Resumes config env state outcome resumed) :
    resumed.top.frame.gas ≤ state.top.frame.gas := by
  cases h with
  | atOnce hnext hwaiting =>
    cases advances_of_advance hnext with
    | continues hturn => exact (gas_of_continues hstipend hturn).1
    | enters => simp at hwaiting
    | resumes => simp at hwaiting
  | @later entered last _ exit _ hnext hdeeper hruns hwaiting hends hresumed =>
    cases advances_of_advance hnext with
    | continues => simp at hdeeper
    | resumes =>
      simp only [List.length_cons] at hdeeper
      omega
    | @enters top child waiting _ _ frame hturn =>
      obtain ⟨hle, _, hchild⟩ := gas_of_enters hstipend hturn
      have hleft := gasLeft_le_of_ends hstipend hchild hruns hwaiting hends
      rcases last with ⟨ending, _, ended⟩
      obtain rfl := hwaiting
      cases advances_of_advance hresumed with
      | continues hother => rw [hother] at hends; cases hends
      | enters hother => rw [hother] at hends; cases hends
      | resumes hother hresume =>
        rw [hother] at hends
        cases hends
        calc
          _ = (frame.returnGas exit.gasLeft).gas := (resume_eq_ok hresume).1
          _ ≤ frame.gas + exit.gasLeft := returnGas_gas_le ..
          _ ≤ frame.gas + child.frame.gasLimit := Nat.add_le_add_left hleft _
          _ ≤ top.frame.gas := hle

/-! ## Whole transactions -/

/-- How a transaction with some gas may begin. -/
def Opens (config : Config) (gas : Nat)
    (opening : EStateM LedgerError σ Opening) : Prop :=
  (∃ message : CallMessage, gas = message.gas ∧ opening = openCall message) ∨
    ∃ message : CreateMessage,
      gas = message.gas ∧ opening = openCreation config message

/-- The first frame is entered for a call, or for a creation once the nonce of
the caller is counted up. -/
theorem enters_of_opens {gas : Nat} {opening : EStateM LedgerError σ Opening}
    {root : Activation} {created : Option Address} {ledger entered : σ}
    (hopens : Opens config gas opening)
    (h : opening ledger = .ok (.entered root created) entered) :
    (∃ context source target,
      enterCall context true source target gas {} ledger =
      .ok root entered) ∨
    ∃ creator address value initCode n bumped,
      Ledger.bumpNonce creator ledger = .ok n bumped ∧
      enterCreation creator address value initCode gas 0 bumped =
        .ok root entered := by
  obtain ⟨message, rfl, rfl⟩ | ⟨message, rfl, rfl⟩ := hopens
  · obtain ⟨hrejected, _⟩ | ⟨_, _, hentered, henter⟩ := openCall_eq_ok h
    · cases hrejected
    · cases hentered
      exact .inl ⟨_, _, _, henter⟩
  · obtain ⟨_, ⟨_, _, hrejected⟩, _⟩ |
      ⟨_, _, _, _, hbump, ⟨hrejected, _⟩ | ⟨_, hentered, henter⟩⟩ :=
        openCreation_eq_ok h
    · cases hrejected
    · cases hrejected
    · cases hentered
      exact .inr ⟨_, _, _, _, _, _, hbump, henter⟩

/-- What holds of a state that a transaction with some gas has reached.  The
last three say that no sum of gas has been cut off. -/
structure GasKept (config : Config) (env : Environment) (gas : Nat)
    (state : Running σ) :
    Prop where
  liveGas_le : liveGas state ≤ gas
  gas_le_gasLimit : ∀ activation ∈ state.top :: state.waiting,
    activation.frame.gas ≤ activation.frame.gasLimit
  step_le : (left (Execution.step config env
    ⟨state.top.frame, state.ledger⟩)).frame.gas ≤
    state.top.frame.gas
  resumes_le : ∀ outcome resumed, Resumes config env state outcome resumed →
    resumed.top.frame.gas ≤ state.top.frame.gas
  refuse_exact : ∀ signal live,
    Execution.step config env ⟨state.top.frame, state.ledger⟩ =
      .ok (some signal) live →
    (live.frame.returnGas signal.gas).gas = live.frame.gas + signal.gas
  resume_exact : ∀ exit after parent below,
    turn config env state.top state.ledger = .concludes (.finished exit after) →
    state.waiting = parent :: below →
    (parent.frame.returnGas exit.gasLeft).gas = parent.frame.gas + exit.gasLeft
  forward_exact : ∀ request live,
    Execution.step config env ⟨state.top.frame, state.ledger⟩ =
      .ok (some (.call request)) live →
    ∃ available ≤ state.top.frame.gas,
      live.frame.gas + forwardedGas (state.top.frame.stack.getD 0 0) available =
        available ∧
      request.gas = forwardedGas (state.top.frame.stack.getD 0 0) available +
        if request.value ≠ 0 then config.schedule.callStipend else 0

theorem returnGas_exact {frame : Frame} {amount : Nat}
    (h : frame.gas + amount ≤ Saturating.limit) :
    (frame.returnGas amount).gas = frame.gas + amount :=
  Saturating.add_eq_of_le h

theorem Funded.gasKept {gas : Nat} {state : Running σ}
    (hstipend : config.schedule.callStipend ≤ config.schedule.callValue)
    (hvalue : config.schedule.callValue ≤ Saturating.limit)
    (hgas : gas ≤ Saturating.limit) (hfunded : Funded gas state) :
    GasKept config env gas state := by
  have htop : state.top.frame.gas ≤ Saturating.limit := calc
    state.top.frame.gas ≤ liveGas state := Nat.le_add_right ..
    _ ≤ gas := hfunded.liveGas_le
    _ ≤ Saturating.limit := hgas
  constructor
  · exact hfunded.liveGas_le
  · intro activation hmem
    obtain rfl | hwaiting := List.mem_cons.1 hmem
    · exact hfunded.gas_le
    · exact hfunded.backs.gas_le activation hwaiting
  · exact (Execution.moves_step config env
      ⟨state.top.frame, state.ledger⟩).gas_le
  · intro outcome resumed hresumes
    exact gas_le_of_resumes hstipend hresumes
  · intro signal live hstep
    apply returnGas_exact
    exact (Execution.gas_add_le_of_step hstipend hstep).trans htop
  · intro exit after parent below hends hwaiting
    rcases state with ⟨top, waiting, ledger⟩
    obtain rfl : waiting = parent :: below := hwaiting
    have hlimit : parent.frame.gasLimit ≤ gas :=
      (Nat.le_add_right ..).trans hfunded.backs.2.add_sum_le
    apply returnGas_exact
    calc
      parent.frame.gas + exit.gasLeft ≤ parent.frame.gasLimit :=
        hfunded.gas_add_gasLeft_le hends
      _ ≤ gas := hlimit
      _ ≤ Saturating.limit := hgas
  · intro request live hstep
    exact Execution.call_gas_of_step hstipend hvalue htop hstep

theorem funded_root {gas : Nat} {opening : EStateM LedgerError σ Opening}
    {root : Activation} {created : Option Address} {ledger entered : σ}
    (hopens : Opens config gas opening)
    (h : opening ledger = .ok (.entered root created) entered) :
    Funded gas (⟨root, [], entered⟩ : Running σ) := by
  obtain ⟨hroot, hlimit⟩ : root.frame.gas = gas ∧
      root.frame.gasLimit = gas := by
    obtain ⟨_, _, _, henter⟩ | ⟨_, _, _, _, _, _, _, henter⟩ :=
      enters_of_opens hopens h
    · exact enterCall_gas henter
    · exact enterCreation_gas henter
  exact ⟨(hroot.trans hlimit.symm).le, hlimit.le⟩

/-- A transaction turned down before it could use any gas. -/
def IsRejected (cause : Halt) : Prop :=
  cause = .insufficientBalance ∨ ∃ size limit,
    cause = .initCodeTooLarge size limit

theorem settled_receipt {gas : Nat} {opening : EStateM LedgerError σ Opening}
    {receipt : Receipt} {ledger after : σ} (hopens : Opens config gas opening)
    (h : opening ledger = .ok (.settled receipt) after) :
    (∃ cause, IsRejected cause ∧
      receipt = { outcome := .halt cause, gasUsed := 0 }) ∨
      receipt = { outcome := .halt .createCollision, gasUsed := gas } := by
  obtain ⟨message, rfl, rfl⟩ | ⟨message, rfl, rfl⟩ := hopens
  · obtain ⟨hrejected, _⟩ | ⟨_, _, hentered, _⟩ := openCall_eq_ok h
    · cases hrejected
      exact .inl ⟨_, .inl rfl, rfl⟩
    · cases hentered
  · obtain ⟨_, ⟨cause, hcause, hrejected⟩, _⟩ |
      ⟨_, _, _, _, _, ⟨hcollided, _⟩ | ⟨_, hentered, _⟩⟩ := openCreation_eq_ok h
    · cases hrejected
      exact .inl ⟨cause, hcause, rfl⟩
    · cases hcollided
      exact .inr rfl
    · cases hentered

/-- What a receipt says of gas, given the gas that was left. -/
structure ReceiptKept (config : Config) (gas gasLeft : Nat)
    (receipt : Receipt) : Prop where
  gasLeft_le : gasLeft ≤ gas
  total_eq : receipt.gasUsed + receipt.gasRefunded = gas - gasLeft
  refunded_le : receipt.gasRefunded ≤
    (receipt.gasUsed + receipt.gasRefunded) / config.schedule.refundDivisor
  gasUsed_of_halt : ∀ cause, receipt.outcome = .halt cause →
    receipt.gasUsed = gas

theorem cappedRefund_le {schedule : Schedule}
    (hdivisor : schedule.refundDivisor ≠ 0) (used refund : Nat) :
    schedule.cappedRefund used refund ≤ used / schedule.refundDivisor := by
  rw [Schedule.cappedRefund, max_eq_left (Nat.one_le_iff_ne_zero.2 hdivisor)]
  exact min_le_right ..

theorem receiptKept_of_settle {gas : Nat} {created : Option Address}
    {exit : Exit} {receipt : Receipt} {ledger after : σ}
    (hdivisor : config.schedule.refundDivisor ≠ 0) (hleft : exit.gasLeft ≤ gas)
    (hhalt : ∀ cause, exit.outcome = .halt cause → exit.gasLeft = 0)
    (h : settle config gas created exit ledger = .ok receipt after) :
    ReceiptKept config gas exit.gasLeft receipt := by
  obtain ⟨houtcome, hsuccess, hfailure⟩ := settle_eq_ok h
  by_cases hsucceeds : exit.outcome = .success
  · obtain ⟨hrefunded, hused⟩ := hsuccess hsucceeds
    have hcapped :=
      cappedRefund_le hdivisor (gas - exit.gasLeft) exit.effects.refund
    have hle : receipt.gasRefunded ≤ gas - exit.gasLeft := by
      rw [hrefunded]
      exact hcapped.trans (Nat.div_le_self ..)
    have htotal : receipt.gasUsed + receipt.gasRefunded =
        gas - exit.gasLeft := by
      rw [hused]
      exact Nat.sub_add_cancel hle
    refine ⟨hleft, htotal, ?_, fun cause hcause => ?_⟩
    · rw [htotal, hrefunded]
      exact hcapped
    · rw [houtcome, hsucceeds] at hcause
      cases hcause
  · obtain ⟨_, hrefunded, hused⟩ := hfailure hsucceeds
    refine ⟨hleft, by rw [hused, hrefunded, Nat.add_zero], ?_,
      fun cause hcause => ?_⟩
    · rw [hrefunded]
      exact Nat.zero_le _
    · rw [hused, hhalt cause (houtcome ▸ hcause), Nat.sub_zero]

theorem refundDivisor_ne_zero_of_validate {config : Config}
    (h : config.validate = .ok ()) :
    config.schedule.refundDivisor ≠ 0 := by
  intro hzero
  simp only [Config.validate, hzero, or_true, if_true] at h
  split at h
  · cases h
  · split at h <;> cases h

/-- Gas is never created, whatever the ledger, the environment and the code, if
the price of moving value covers the stipend of a call; that price and the gas
of the transaction are counts.  In every state that a transaction reaches, all
live frames together have at most its gas, none has more than its limit, no
instruction adds to the gas of its frame, a frame goes on after a request with
no more gas than before it, and no sum of gas is cut off.  The receipt accounts
for all gas that was not left, of which at most the configured part is given
back, and a halt uses up all of it unless the transaction was turned down up
front for its balance or the size of its code, which costs nothing. -/
theorem gas_is_never_created {config : Config} {env : Environment} {gas : Nat}
    {opening : EStateM LedgerError σ Opening}
    (hvalid : config.validate = .ok ())
    (hstipend : config.schedule.callStipend ≤ config.schedule.callValue)
    (hvalue : config.schedule.callValue ≤ Saturating.limit)
    (hgas : gas ≤ Saturating.limit) (hopens : Opens config gas opening)
    (ledger : σ) :
    (∀ root created entered state,
      opening ledger = .ok (.entered root created) entered →
      Reaches config env ⟨root, [], entered⟩ state →
      GasKept config env gas state) ∧
    (∀ fuel receipt after,
      transact config env fuel gas opening ledger = some (.ok receipt after) →
      (∃ cause, IsRejected cause ∧
        opening ledger = .ok (.settled receipt) after ∧
        receipt = { outcome := .halt cause, gasUsed := 0 }) ∨
      (∃ exit root created entered ended,
        opening ledger = .ok (.entered root created) entered ∧
        drive config env fuel ⟨root, [], entered⟩ =
          some (.finished exit ended) ∧
        ReceiptKept config gas exit.gasLeft receipt) ∨
      opening ledger = .ok (.settled receipt) after ∧
      ReceiptKept config gas 0 receipt) := by
  refine ⟨fun root created entered state hopening hreaches =>
    (funded_of_reaches hstipend (funded_root hopens hopening) hreaches).gasKept
      hstipend hvalue
      hgas, fun fuel receipt after h => ?_⟩
  obtain hopening | ⟨root, created, entered, exit, ended, hopening, hdrive,
      hsettle⟩ :=
    transact_eq_ok h
  · obtain ⟨cause, hcause, hreceipt⟩ | hcollision :=
      settled_receipt hopens hopening
    · exact .inl ⟨cause, hcause, hopening, hreceipt⟩
    · refine .inr (.inr ⟨hopening, ?_⟩)
      rw [hcollision]
      exact ⟨Nat.zero_le _, rfl, Nat.zero_le _, fun _ _ => rfl⟩
  · obtain ⟨last, hreaches, _, hends⟩ := exists_last_of_finished hdrive
    have hfunded := funded_of_reaches hstipend (funded_root hopens hopening)
      hreaches
    obtain ⟨hleft, hhalt⟩ := gas_of_finished hends
    have hgasLeft : exit.gasLeft ≤ gas := calc
      exit.gasLeft ≤ last.top.frame.gas := hleft
      _ ≤ liveGas last := Nat.le_add_right ..
      _ ≤ gas := hfunded.liveGas_le
    exact .inr (.inl ⟨exit, root, created, entered, ended, hopening, hdrive,
      receiptKept_of_settle (refundDivisor_ne_zero_of_validate hvalid) hgasLeft
        hhalt hsettle⟩)

theorem gas_is_kept_after_first_instruction :
    Config.validate {} = .ok () ∧ ∃ root entered next,
      openCall { caller := 1, target := 2, gas := 100000, value := 5 }
        ((({} : LayeredLedger).install 1 { balance := 10 }).install 2
          { code := #[0x5b, 0x00] }) =
          .ok (.entered root none) entered ∧
      advance {} {} ⟨root, [], entered⟩ = .running next ∧
      GasKept {} {} 100000 (next : Running LayeredLedger) := by
  have hkept := (@gas_is_never_created LayeredLedger _ {} {} 100000
    (openCall { caller := 1, target := 2, gas := 100000, value := 5 })
    (by decide) (by decide) (by decide) (by decide) (.inl ⟨_, rfl, rfl⟩)
    ((({} : LayeredLedger).install 1 { balance := 10 }).install 2
      { code := #[0x5b, 0x00] })).1
  exact ⟨by decide, _, _, _, rfl, rfl, hkept _ _ _ _ rfl (.single rfl)⟩

end ContractMachine.Transaction
