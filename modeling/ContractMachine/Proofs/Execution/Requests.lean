import ContractMachine.Proofs.Execution.Moves
import ContractMachine.Proofs.Frame.MemoryGrowth

/-!
# Requests

A frame that stops for a call or a creation has paid for it and hands over gas
with it.  These statements say how much: what it hands over and what it is left
with is no more than what it had, although a call with value is given a stipend
on top of the gas that is forwarded, because the price of moving value covers
the stipend.
-/

namespace ContractMachine

/-- Whether a signal asks for something, which leaves its frame waiting. -/
def Signal.IsRequest : Signal → Prop
  | .call _ | .create _ => True
  | .return _ | .revert _ => False

/-- The gas that a frame hands over with a request. -/
def Signal.gas : Signal → Nat
  | .call request => request.gas
  | .create request => request.gas
  | .return _ | .revert _ => 0

namespace Execution

open Exec Actions

variable {σ α : Type} [Ledger σ] {config : Config} {env : Environment}
  {live after : Live σ}

theorem gas_le_of_travels {x : Exec σ α} {a : α}
    (hx : ∀ address, Travels True address x) (h : x live = .ok a after) :
    after.frame.gas ≤ live.frame.gas := by
  have hmoves := hx live.frame.context.address live rfl
  rw [h] at hmoves
  exact hmoves.gas_le

/-- Only two instructions make requests; others that stop a frame end it. -/
theorem perform_eq_stop {opcode : Opcode} {operands : Stack} {signal : Signal}
    (h : perform config env opcode operands live = .ok (.stop signal) after) :
    (∃ kind request, opcode = .call kind ∧ signal = .call request ∧
      prepareCall config.schedule kind (fun i => operands.getD i 0) live =
        .ok request after) ∨
    (∃ salted request, opcode = .create salted ∧ signal = .create request ∧
      prepareCreate config salted (fun i => operands.getD i 0) live =
        .ok request after) ∨
    ∃ output, signal = .return output ∨ signal = .revert output := by
  cases opcode with
  | call kind =>
    obtain ⟨request, reached, hprepare, hpure⟩ := bind_eq_ok_iff.1 h
    obtain ⟨hflow, rfl⟩ := pure_eq_ok_iff.1 hpure
    cases hflow
    exact .inl ⟨kind, request, rfl, rfl, hprepare⟩
  | create salted =>
    obtain ⟨request, reached, hprepare, hpure⟩ := bind_eq_ok_iff.1 h
    obtain ⟨hflow, rfl⟩ := pure_eq_ok_iff.1 hpure
    cases hflow
    exact .inr (.inl ⟨salted, request, rfl, rfl, hprepare⟩)
  | stop | «return» | revert | selfDestruct =>
    simp only [perform, bind_eq_ok_iff, pure_eq_ok_iff, Flow.stop.injEq] at h
    grind
  | extCodeHash =>
    simp only [perform, bind_eq_ok_iff] at h
    obtain ⟨isEmpty, _, _, h⟩ := h
    cases isEmpty <;> simp [bind_eq_ok_iff, pure_eq_ok_iff,
      -bind_pure_comp] at h
  | returnDataCopy =>
    simp only [perform, bind_eq_ok_iff] at h
    obtain ⟨frame, _, _, h⟩ := h
    obtain ⟨_, h⟩ := ok_of_guarded h
    simp [bind_eq_ok_iff, pure_eq_ok_iff, -bind_pure_comp] at h
  | blockHash =>
    rw [perform] at h
    cases hnumber : (operands.getD 0 0).toCount? <;>
      rw [hnumber] at h <;> cases h
  | dup n =>
    cases hdup : operands.dup n with
    | ok results => simp [perform, hdup, pure_eq_ok_iff] at h
    | error cause =>
      rw [perform, hdup] at h
      cases h
  | swap n =>
    cases hswap : operands.swap n with
    | ok results => simp [perform, hswap, pure_eq_ok_iff] at h
    | error cause =>
      rw [perform, hswap] at h
      cases h
  | jumpIf =>
    simp only [perform, pure_eq_ok_iff] at h
    split at h <;> simp at h
  | invalid | undefined => cases h
  | _ =>
    simp only [perform, bind_eq_ok_iff, pure_eq_ok_iff, reduceCtorEq, false_and,
      and_false, exists_false] at h

/-- A frame that stops has run off the end of its code or been stopped by an
instruction. -/
theorem step_eq_signal {signal : Signal}
    (h : step config env live = .ok (some signal) after) :
    signal = .return #[] ∨
    ∃ (opcode : Opcode) (reached last : Live σ),
      reached.frame.gas ≤ live.frame.gas ∧
      perform config env opcode (live.frame.stack.take opcode.inputs) reached =
        .ok (.stop signal) last ∧
      after.frame.gas = last.frame.gas := by
  cases hbyte : live.frame.code[live.frame.position]? with
  | none =>
    rw [step_of_none hbyte] at h
    cases h
    exact .inl rfl
  | some byte =>
    rw [step_of_some hbyte] at h
    obtain ⟨_, paid, hauthorize, hconduct⟩ := bind_eq_ok_iff.1 h
    have hpaid := gas_le_of_travels (fun _ => travels_authorize _ _) hauthorize
    obtain ⟨_, taken, htaken, hrest⟩ := bind_eq_ok_iff.1 hconduct
    cases htaken
    obtain ⟨flow, last, hperform, hproceed⟩ := bind_eq_ok_iff.1 hrest
    refine .inr ⟨Opcode.decode byte, { paid with frame := { paid.frame with
      stack := paid.frame.stack.drop (Opcode.decode byte).inputs } }, last,
      hpaid, ?_⟩
    cases flow with
    | next results => cases hproceed
    | jump destination =>
      obtain ⟨_, _, _, hpure⟩ := bind_eq_ok_iff.1 hproceed
      cases hpure
    | stop signal =>
      cases hproceed
      exact ⟨hperform, rfl⟩

omit [Ledger σ] in
theorem charge_eq_ok {amount : Nat} (h : charge amount live = .ok () after) :
    after = { live with
      frame := { live.frame with gas := live.frame.gas - amount } } ∧
      amount ≤ live.frame.gas := by
  by_cases hpays : amount ≤ live.frame.gas
  · rw [charge_of_le hpays] at h
    cases h
    exact ⟨rfl, hpays⟩
  · rw [charge_of_lt (Nat.not_le.1 hpays)] at h
    cases h

omit [Ledger σ] in
theorem ask_eq_ok {read : σ → Except LedgerError α} {a : α}
    (h : ask read live = .ok a after) :
    after = live := by
  rw [ask] at h
  split at h <;> cases h
  rfl

omit [Ledger σ] in
/-- An action on the frame alone that succeeds leaves the ledger as it is. -/
theorem frame_eq_ok {action : EStateM Halt Frame α} {a : α}
    (h : Exec.frame action live = .ok a after) :
    ∃ reached, action live.frame = .ok a reached ∧ after = { live with
      frame := reached } := by
  rw [Exec.frame] at h
  cases hresult : action live.frame with
  | error cause reached => simp [hresult] at h
  | ok found reached =>
    simp only [hresult] at h
    cases h
    exact ⟨reached, rfl, rfl⟩

omit [Ledger σ] in
theorem touches_of_touch {schedule : Schedule} {offset length : Word}
    {range : Range} (h : touch schedule offset length live = .ok range after) :
    live.frame.Touches schedule length range after.frame := by
  obtain ⟨touched, htouch, rfl⟩ := frame_eq_ok h
  exact Frame.touches_of_touch htouch

omit [Ledger σ] in
theorem load_eq_ok {range : Range} {data : Bytes}
    (h : load range live = .ok data after)
    (hcovers : live.frame.memory.Covers range) : after = live := by
  rw [load, Memory.load_of_covers hcovers] at h
  cases h
  rfl

/-- What a call does once it knows whether it brings an account into being. -/
def payCall (schedule : Schedule) (kind : CallKind) (operand : Nat → Word)
    (value : Word) (input window : Range) (createsAccount : Bool) :
    Exec σ CallRequest := do
  charge (schedule.callExtraCost (value != 0) createsAccount)
  let forwarded := forwardedGas (operand 0) (← getFrame).gas
  charge forwarded
  let data ← load input
  return {
    kind := kind
    target := (operand 1).toAddress
    value := value
    input := data
    gas :=
      Saturating.add forwarded (if value != 0 then schedule.callStipend else 0)
    window := window }

/-- A call pays the extra price, and then the gas that it forwards out of what
is available; it does not pay for the stipend. -/
structure PaysCall (schedule : Schedule) (requested : Word)
    (live after : Live σ) (request : CallRequest) (available : Nat) : Prop where
  covered : ∃ createsAccount,
    available + schedule.callExtraCost (request.value != 0) createsAccount ≤
      live.frame.gas
  available_eq : after.frame.gas + forwardedGas requested available = available
  gas_eq : request.gas = Saturating.add (forwardedGas requested available)
    (if request.value != 0 then schedule.callStipend else 0)

omit [Ledger σ] in
theorem payCall_eq_ok {schedule : Schedule} {kind : CallKind}
    {operand : Nat → Word} {value : Word} {input window : Range}
    {createsAccount : Bool} {request : CallRequest}
    (h : payCall schedule kind operand value input window createsAccount live =
      .ok request after) :
    ∃ available,
      PaysCall schedule (operand 0) live after request available := by
  obtain ⟨_, paid, hextra, hrest⟩ := bind_eq_ok_iff.1 h
  obtain ⟨rfl, hcovered⟩ := charge_eq_ok hextra
  obtain ⟨frame, _, hframe, hforward⟩ := bind_eq_ok_iff.1 hrest
  cases hframe
  obtain ⟨_, forwarded, hcharge, hload⟩ := bind_eq_ok_iff.1 hforward
  obtain ⟨rfl, hle⟩ := charge_eq_ok hcharge
  obtain ⟨data, loaded, hdata, hpure⟩ := bind_eq_ok_iff.1 hload
  cases hdata
  obtain ⟨rfl, rfl⟩ := pure_eq_ok_iff.1 hpure
  exact ⟨_, ⟨createsAccount, (Nat.sub_add_cancel hcovered).le⟩,
    Nat.sub_add_cancel hle, rfl⟩

omit [Ledger σ] in
theorem memory_of_payCall {schedule : Schedule} {kind : CallKind}
    {operand : Nat → Word} {value : Word} {input window : Range}
    {createsAccount : Bool} {request : CallRequest}
    (hcovers : live.frame.memory.Covers input)
    (h : payCall schedule kind operand value input window createsAccount live =
      .ok request after) : after.frame.memory = live.frame.memory := by
  obtain ⟨_, paid, hextra, hrest⟩ := bind_eq_ok_iff.1 h
  obtain ⟨rfl, _⟩ := charge_eq_ok hextra
  obtain ⟨frame, _, hframe, hforward⟩ := bind_eq_ok_iff.1 hrest
  cases hframe
  obtain ⟨_, forwarded, hcharge, hload⟩ := bind_eq_ok_iff.1 hforward
  obtain ⟨rfl, _⟩ := charge_eq_ok hcharge
  obtain ⟨data, loaded, hdata, hpure⟩ := bind_eq_ok_iff.1 hload
  obtain rfl := load_eq_ok hdata hcovers
  obtain ⟨_, rfl⟩ := pure_eq_ok_iff.1 hpure
  rfl

/-- A call that gets as far as paying has passed the check for static frames,
and has paid for the ranges of its input and its output. -/
theorem exists_payCall_of_prepareCall {schedule : Schedule} {kind : CallKind}
    {operand : Nat → Word} {request : CallRequest}
    (h : prepareCall schedule kind operand live = .ok request after) :
    ∃ value input window createsAccount reached,
      payCall schedule kind operand value input window createsAccount reached =
        .ok request after ∧
      (kind = .call → live.frame.context.isStatic = true → value = 0) ∧
      live.frame.Pays schedule reached.frame ∧
      reached.frame.memory.Covers input := by
  obtain ⟨frame, _, hframe, hchecked⟩ := bind_eq_ok_iff.1 h
  cases hframe
  obtain ⟨hpermitted, htouched⟩ := ok_of_guarded hchecked
  obtain ⟨input, first, hinput, hrest⟩ := bind_eq_ok_iff.1 htouched
  obtain ⟨window, second, hwindow, hasked⟩ := bind_eq_ok_iff.1 hrest
  have hfirst := touches_of_touch hinput
  have hsecond := touches_of_touch hwindow
  have hpays : live.frame.Pays schedule second.frame :=
    hfirst.pays.trans hsecond.pays
  have hcovers : second.frame.memory.Covers input :=
    hfirst.covers.of_size_le hsecond.grows
  have hvalue : kind = .call → live.frame.context.isStatic = true →
      (if kind.takesValue then operand 2 else 0) = 0 := by
    intro hkind hstatic
    by_contra hne
    exact hpermitted ⟨hkind, by simpa using hne, hstatic⟩
  by_cases hasks : kind = .call ∧
    ((if kind.takesValue then operand 2 else 0) != 0) = true
  · rw [if_pos hasks] at hasked
    obtain ⟨createsAccount, third, hask, hpay⟩ := bind_eq_ok_iff.1 hasked
    obtain rfl := ask_eq_ok hask
    exact ⟨_, input, window, createsAccount, third, hpay, hvalue, hpays,
      hcovers⟩
  · rw [if_neg hasks] at hasked
    exact ⟨_, input, window, false, second, hasked, hvalue, hpays, hcovers⟩

theorem prepareCall_eq_ok {schedule : Schedule} {kind : CallKind}
    {operand : Nat → Word} {request : CallRequest}
    (h : prepareCall schedule kind operand live = .ok request after) :
    ∃ available,
      PaysCall schedule (operand 0) live after request available := by
  obtain ⟨_, _, _, _, reached, hpay, _, hpays, _⟩ :=
    exists_payCall_of_prepareCall h
  obtain ⟨available, ⟨createsAccount, hcovered⟩, havailable, hrequest⟩ :=
    payCall_eq_ok hpay
  exact ⟨available, ⟨createsAccount, hcovered.trans hpays.gas_le⟩, havailable,
    hrequest⟩

omit [Ledger σ] in
/-- A creation pays for memory and for the gas that it hands over. -/
theorem pays_of_prepareCreate {salted : Bool} {operand : Nat → Word}
    {request : CreateRequest}
    (h : prepareCreate config salted operand live = .ok request after) :
    live.frame.Pays config.schedule
      { after.frame with gas := after.frame.gas + request.gas } := by
  rw [prepareCreate] at h
  obtain ⟨_, htouched⟩ := ok_of_guarded h
  obtain ⟨range, first, htouch, hrest⟩ := bind_eq_ok_iff.1 htouched
  have htouches := touches_of_touch htouch
  obtain ⟨_, second, hextra, hload⟩ := bind_eq_ok_iff.1 hrest
  obtain ⟨rfl, _⟩ := charge_eq_ok hextra
  obtain ⟨initCode, loaded, hdata, hforward⟩ := bind_eq_ok_iff.1 hload
  obtain rfl := load_eq_ok hdata htouches.covers
  obtain ⟨frame, _, hframe, hpay⟩ := bind_eq_ok_iff.1 hforward
  cases hframe
  obtain ⟨_, forwarded, hcharge, hpure⟩ := bind_eq_ok_iff.1 hpay
  obtain ⟨rfl, hle⟩ := charge_eq_ok hcharge
  obtain ⟨rfl, rfl⟩ := pure_eq_ok_iff.1 hpure
  refine htouches.pays.trans (.of_size_eq rfl ?_)
  exact (Nat.sub_add_cancel hle).le.trans (Nat.sub_le ..)

omit [Ledger σ] in
theorem prepareCreate_eq_ok {salted : Bool} {operand : Nat → Word}
    {request : CreateRequest}
    (h : prepareCreate config salted operand live = .ok request after) :
    after.frame.gas + request.gas ≤ live.frame.gas :=
  (pays_of_prepareCreate h).gas_le

/-- The price of moving value covers the stipend. -/
theorem stipend_le_callExtraCost {schedule : Schedule}
    (hstipend : schedule.callStipend ≤ schedule.callValue)
    (hasValue createsAccount : Bool) :
    min (if hasValue then schedule.callStipend else 0) Saturating.limit ≤
      schedule.callExtraCost hasValue createsAccount := by
  cases hasValue with
  | false => simp
  | true =>
    rw [Schedule.callExtraCost, Saturating.add]
    exact min_le_min_right _ (hstipend.trans (Nat.le_add_right ..))

omit [Ledger σ] in
/-- A call hands over no more than it pays. -/
theorem PaysCall.gas_le {schedule : Schedule} {requested : Word}
    {request : CallRequest} {available : Nat}
    (h : PaysCall schedule requested live after request available)
    (hstipend : schedule.callStipend ≤ schedule.callValue) :
    after.frame.gas + request.gas ≤ live.frame.gas := by
  obtain ⟨⟨createsAccount, hcovered⟩, havailable, hgas⟩ := h
  have hcost := stipend_le_callExtraCost hstipend (request.value != 0)
    createsAccount
  rw [hgas, Saturating.add]
  omega

/-- A call pays for memory and for the gas that it hands over. -/
theorem pays_of_prepareCall {schedule : Schedule} {kind : CallKind}
    {operand : Nat → Word} {request : CallRequest}
    (hstipend : schedule.callStipend ≤ schedule.callValue)
    (h : prepareCall schedule kind operand live = .ok request after) :
    live.frame.Pays schedule { after.frame with
      gas := after.frame.gas + request.gas } := by
  obtain ⟨_, _, _, _, reached, hpay, _, hpays, hcovers⟩ :=
    exists_payCall_of_prepareCall h
  obtain ⟨available, hgas⟩ := payCall_eq_ok hpay
  have hmemory := memory_of_payCall hcovers hpay
  exact hpays.trans (.of_size_eq (congrArg Memory.size hmemory)
    (hgas.gas_le hstipend))

omit [Ledger σ] in
/-- The sum of what is forwarded and the stipend is not cut off. -/
theorem PaysCall.gas_exact {schedule : Schedule} {requested : Word}
    {request : CallRequest} {available : Nat}
    (h : PaysCall schedule requested live after request available)
    (hstipend : schedule.callStipend ≤ schedule.callValue)
    (hvalue : schedule.callValue ≤ Saturating.limit)
    (hlimit : live.frame.gas ≤ Saturating.limit) :
    request.gas = forwardedGas requested available +
      if request.value != 0 then schedule.callStipend else 0 := by
  obtain ⟨⟨createsAccount, hcovered⟩, havailable, hgas⟩ := h
  have hcost := stipend_le_callExtraCost hstipend (request.value != 0)
    createsAccount
  have hcount : (if request.value != 0 then schedule.callStipend else 0) ≤
      Saturating.limit := by
    split
    · exact hstipend.trans hvalue
    · exact Nat.zero_le _
  rw [min_eq_left hcount] at hcost
  rw [hgas]
  exact Saturating.add_eq_of_le (by omega)

/-- A frame that stops has at least paid for what it hands over. -/
theorem gas_add_le_of_step {signal : Signal}
    (hstipend : config.schedule.callStipend ≤ config.schedule.callValue)
    (h : step config env live = .ok (some signal) after) :
    after.frame.gas + signal.gas ≤ live.frame.gas := by
  have hmoves := (moves_step config env live).gas_le
  rw [h] at hmoves
  obtain rfl | ⟨opcode, reached, last, hreached, hperform, hlast⟩ :=
    step_eq_signal h
  · exact hmoves
  obtain ⟨_, request, _, rfl, hprepare⟩ | ⟨_, request, _, rfl, hprepare⟩ |
      ⟨output, rfl | rfl⟩ :=
    perform_eq_stop hperform
  · obtain ⟨available, hpays⟩ := prepareCall_eq_ok hprepare
    rw [hlast]
    exact (hpays.gas_le hstipend).trans hreached
  · rw [hlast]
    exact (prepareCreate_eq_ok hprepare).trans hreached
  · exact hmoves
  · exact hmoves

/-- The gas that goes with a call is what is forwarded, out of what was
available, and the stipend, if the frame has no more gas than can be counted. -/
theorem call_gas_of_step {request : CallRequest}
    (hstipend : config.schedule.callStipend ≤ config.schedule.callValue)
    (hvalue : config.schedule.callValue ≤ Saturating.limit)
    (hlimit : live.frame.gas ≤ Saturating.limit)
    (h : step config env live = .ok (some (.call request)) after) :
    ∃ available, available ≤ live.frame.gas ∧
      after.frame.gas + forwardedGas (live.frame.stack.getD 0 0) available =
        available ∧
      request.gas = forwardedGas (live.frame.stack.getD 0 0) available +
        if request.value ≠ 0 then config.schedule.callStipend else 0 := by
  obtain hreturn | ⟨opcode, reached, last, hreached, hperform, hlast⟩ :=
    step_eq_signal h
  · cases hreturn
  obtain ⟨kind, _, rfl, hsignal, hprepare⟩ | ⟨_, _, _, hsignal, _⟩ |
    ⟨output, hsignal | hsignal⟩ := perform_eq_stop hperform
  · cases hsignal
    have hinputs : 0 < (Opcode.call kind).inputs := by cases kind <;> decide
    have hoperand : (live.frame.stack.take (Opcode.call kind).inputs).getD 0 0 =
        live.frame.stack.getD 0 0 := by
      rw [List.getD_eq_getElem?_getD, List.getElem?_take_of_lt hinputs,
        List.getD_eq_getElem?_getD]
    rw [← hoperand]
    obtain ⟨available, hpays⟩ := prepareCall_eq_ok hprepare
    obtain ⟨createsAccount, hcovered⟩ := hpays.covered
    refine ⟨available, (Nat.le_of_add_right_le hcovered).trans hreached, ?_, ?_⟩
    · rw [hlast]
      exact hpays.available_eq
    · simpa using hpays.gas_exact hstipend hvalue (hreached.trans hlimit)
  all_goals cases hsignal

end Execution

end ContractMachine
