import ContractMachine.Proofs.Transaction.CodeImmutability
import ContractMachine.Proofs.Transaction.Refunds
import ContractMachine.Proofs.Transaction.StoredRows

/-!
# Creations deploy what they report

A creation derives an address before any of its code runs, and deposits code
there when that code has returned.  In between the code may do anything: call
back, create further contracts, destroy itself, or be entered again at its new
address.  Three things carry over all this.  The first frame keeps its role, so
the code is deposited where the account was founded; the nonce of that account
does not fall; and the account started with no storage, so all that it holds is
what the run has stored for it.

What the receipt reports is then what the ledger shows, unless the account is
among those that are deleted in the end.
-/

namespace ContractMachine.Transaction

open Actions FlatState LayeredLedger

variable {config : Config} {env : Environment}
  {ledger entered after : LayeredLedger} {message : CreateMessage}
  {receipt : Receipt} {exit : Exit} {address : Address}

/-! ## Openings -/

/-- What is known of the address at which a creation enters its first frame. -/
structure Founds (message : CreateMessage) (ledger : LayeredLedger)
    (root : Activation) (entered : LayeredLedger) (address : Address) :
    Prop where
  derived : ∃ n, Ledger.nonce ledger message.caller = .ok n ∧
    address = message.caller.ofCreation n message.salt message.initCode
  nonce : Ledger.nonce ledger address = .ok 0
  codeHash : Ledger.codeHash ledger address = .ok Keccak.emptyHash
  role : root.role = .creation address
  slot : ∀ key, entered.states.top.slot address key = 0

/-- An address that is free once a nonce has been counted up was free before,
for it is not that of the account whose nonce it is. -/
theorem free_of_bumpNonce {caller : Address} {n : Nat} {bumped : LayeredLedger}
    (hbump : Ledger.bumpNonce caller ledger = .ok n bumped)
    (h : isTaken address bumped = .ok false bumped) :
    Ledger.nonce ledger address = .ok 0 ∧
      Ledger.codeHash ledger address = .ok Keccak.emptyHash := by
  obtain ⟨hnonce, hhash⟩ := free_of_isTaken h
  have hraised := nonceRaised_of_states_eq (states_of_bumpNonce hbump)
  -- The nonce of the caller is not zero any more, so its address is taken.
  have hne : address ≠ caller := by
    rintro rfl
    obtain ⟨m, _, hcounted⟩ := hraised.nonce
    rw [hcounted] at hnonce
    exact absurd (Except.ok.inj hnonce) (Nat.succ_ne_zero m)
  constructor
  · rw [← hraised.nonce_other address hne]
    exact hnonce
  · rw [← hraised.codeHash address]
    exact hhash

theorem founds_of_openCreation {root : Activation} {created : Option Address}
    (h : openCreation config message ledger =
      .ok (.entered root created) entered) :
    ∃ address, created = some address ∧
      Founds message ledger root entered address := by
  rw [openCreation] at h
  by_cases hsize : config.maxInitCodeSize < message.initCode.size
  · rw [if_pos hsize] at h
    cases (pure_eq_ok_iff.1 h).1
  rw [if_neg hsize] at h
  obtain ⟨isShort, reached, hlacks, hrest⟩ := bind_eq_ok_iff.1 h
  obtain rfl := (lacks_eq_ok hlacks).1
  cases isShort with
  | true => cases (pure_eq_ok_iff.1 hrest).1
  | false =>
    obtain ⟨n, asked, hquery, hcreate⟩ := bind_eq_ok_iff.1 hrest
    obtain ⟨hnonce, rfl⟩ := query_eq_ok hquery
    obtain ⟨_, bumped, hbump, ⟨hcollided, _⟩ | ⟨child, hentered, hfree,
        henter⟩⟩ :=
      proceedToCreate_eq_ok hcreate
    · cases hcollided
    cases hentered
    obtain ⟨_, hrole, _⟩ := enterCreation_eq_ok henter
    obtain ⟨hzero, hhash⟩ := free_of_bumpNonce hbump hfree
    refine ⟨_, rfl, ⟨n, hnonce, rfl⟩, hzero, hhash, hrole, fun key => ?_⟩
    rw [slot_of_enterCreation henter, slot_create, if_pos rfl]

/-! ## The end of the first frame -/

theorem gas_of_depositCode {code : Bytes} {live reached : Live LayeredLedger}
    (h : depositCode config address code live = .ok () reached) :
    reached.frame.gas + config.schedule.codeDepositCost code.size =
      live.frame.gas := by
  rw [depositCode] at h
  obtain ⟨_, h⟩ := Execution.ok_of_guarded h
  obtain ⟨_, h⟩ := Execution.ok_of_guarded h
  obtain ⟨_, paid, hcharge, htell⟩ := bind_eq_ok_iff.1 h
  obtain ⟨rfl, hpays⟩ := Execution.charge_eq_ok hcharge
  have hframe : reached.frame.gas =
      live.frame.gas - config.schedule.codeDepositCost code.size := by
    rw [Exec.tell] at htell
    split at htell <;> cases htell
    rfl
  rw [hframe, Nat.sub_add_cancel hpays]

/-- A creation that is left with success has deposited what it leaves as its
output. -/
theorem deposits_of_leave {activation : Activation} {output : Bytes}
    (h : leave config activation .success output ledger = .ok exit after)
    (hrole : activation.role = .creation address)
    (hsuccess : exit.outcome = .success) :
    ∃ live, depositCode config address output ⟨activation.frame, ledger⟩ =
      .ok () live ∧
      exit.output = output ∧ exit.gasLeft = live.frame.gas ∧
      Ledger.commit activation.snapshot live.ledger = .ok () after := by
  simp only [leave, hrole] at h
  cases hdeposit : depositCode config address output
    ⟨activation.frame, ledger⟩ with
  | ok _ live =>
    rw [hdeposit] at h
    obtain ⟨_, _, hcommit, hpure⟩ := bind_eq_ok_iff.1 h
    obtain ⟨rfl, rfl⟩ := pure_eq_ok_iff.1 hpure
    exact ⟨live, rfl, rfl, rfl, hcommit⟩
  | error failure live =>
    obtain ⟨cause, rfl⟩ := failsOnly_depositCode _ _ _ _ _ _ hdeposit
    rw [hdeposit] at h
    obtain ⟨_, _, _, hpure⟩ := bind_eq_ok_iff.1 h
    obtain ⟨rfl, _⟩ := pure_eq_ok_iff.1 hpure
    cases hsuccess

theorem account_of_setCode {code : Bytes}
    (h : Ledger.setCode address code ledger = .ok () after) :
    after.states.top.account address =
      some ((ledger.states.top.held address).withCode code) := by
  cases h
  rw [states_modifyAccount]
  simp [StateStack.change, FlatState.modify, FlatState.put]

/-- What the end of a creation deploys, and that it is paid for. -/
structure Deposits (config : Config) (address : Address) (gas : Nat)
    (exit : Exit) (after : LayeredLedger) : Prop where
  deployable : Deployable config exit.output
  paid : exit.gasLeft + config.schedule.codeDepositCost exit.output.size ≤ gas
  code : ∃ account, after.states.top.account address = some account ∧
    account.code = exit.output

theorem deposits_of_finished {top : Activation}
    (h : turn config env top ledger = .concludes (.finished exit after))
    (hrole : top.role = .creation address)
    (hsuccess : exit.outcome = .success) :
    Deposits config address top.frame.gas exit after := by
  obtain ⟨live, output, hstep, hleave⟩ := returns_of_finished h hsuccess
  have hgas := (Execution.moves_step config env ⟨top.frame, ledger⟩).gas_le
  rw [hstep] at hgas
  obtain ⟨deposited, hdeposit, houtput, hleft, hcommit⟩ :=
    deposits_of_leave hleave hrole hsuccess
  obtain ⟨hdeployable, _, hset⟩ := depositCode_eq_ok hdeposit
  obtain ⟨_, _, _, hstates⟩ := states_of_commit hcommit
  rw [← houtput] at hdeployable hset hdeposit
  refine ⟨hdeployable, ?_, ?_⟩
  · rw [hleft, gas_of_depositCode hdeposit]
    exact hgas
  · rw [hstates]
    exact ⟨_, account_of_setCode hset, rfl⟩

/-! ## Runs -/

section Runs

variable {root : Activation} {last : Running LayeredLedger}

/-- The account of a new contract has a nonce when its first frame has ended. -/
theorem nonce_of_finished {created : Option Address}
    (hrole : last.top.role = .creation address)
    (hopening : openCreation config message ledger =
      .ok (.entered root created) entered)
    (hreaches : Reaches config env ⟨root, [], entered⟩ last)
    (hsuccess : exit.outcome = .success)
    (hends : turn config env last.top last.ledger =
      .concludes (.finished exit after)) :
    1 ≤ (after.states.top.held address).nonce := by
  have hcarries := carries_evolvesFor config
  obtain ⟨mid, _, hbelow, hentry⟩ := begins_of_openCreation hopening
  have hroot : StagedAt (EvolvesFor config) mid ⟨root, [], entered⟩ := by
    rw [StagedAt, hbelow]
    exact .frame (hcarries.entry trivial trivial hentry) .origin
  have hlast := stagedAt_of_reaches hcarries (fun _ _ => trivial) hroot hreaches
  obtain ⟨opening, _, _, hrelated, _⟩ := hlast.exists_opening
  obtain ⟨reached, hacts, hdeploys⟩ := acts_of_finished hends hsuccess
  have hended : EvolvesFor config last.top.role opening after.states.top :=
    hcarries.deploys hdeploys (hcarries.acts trivial hacts hrelated)
  exact (hended.2 address hrole).2

/-- All that is stored for a new contract has been stored by the run. -/
theorem holdsOnly_of_finished
    (hempty : ∀ key, entered.states.top.slot address key = 0)
    (hreaches : Reaches config env ⟨root, [], entered⟩ last)
    (hsuccess : exit.outcome = .success)
    (hends : turn config env last.top last.ledger =
      .concludes (.finished exit after)) :
    after.states.top.HoldsOnly (Stores config env ⟨root, [], entered⟩)
      address := by
  have hlast := holdsSinceRoot_of_reaches rfl hempty hreaches
  exact hlast.top.rewrites (rewrites_of_finished (storesIn_of_reaches hreaches)
    hends hsuccess)

end Runs

/-! ## Receipts -/

theorem created_of_settle {gas : Nat} {created : Option Address}
    (h : settle config gas created exit ledger = .ok receipt after) :
    (exit.outcome = .success → receipt.created = created ∧
      receipt.output = exit.output) ∧
    (exit.outcome ≠ .success → receipt.created = none) := by
  cases houtcome : exit.outcome with
  | success =>
    simp only [settle, houtcome] at h
    obtain ⟨_, _, _, hpure⟩ := bind_eq_ok_iff.1 h
    obtain ⟨rfl, _⟩ := pure_eq_ok_iff.1 hpure
    exact ⟨fun _ => ⟨rfl, rfl⟩, fun hne => absurd rfl hne⟩
  | revert | halt cause =>
    simp only [settle, houtcome] at h
    obtain ⟨rfl, _⟩ := pure_eq_ok_iff.1 h
    exact ⟨by simp, fun _ => rfl⟩

/-- What is used and what is given back make up all gas that is not left. -/
theorem gas_of_settle {gas : Nat} {created : Option Address}
    (h : settle config gas created exit ledger = .ok receipt after)
    (hsuccess : exit.outcome = .success) :
    receipt.gasUsed + receipt.gasRefunded = gas - exit.gasLeft := by
  obtain ⟨hrefunded, hused⟩ := (settle_eq_ok h).2.1 hsuccess
  have hle : receipt.gasRefunded ≤ gas - exit.gasLeft := by
    rw [hrefunded]
    exact (Nat.min_le_right ..).trans (Nat.div_le_self ..)
  rw [hused, Nat.sub_add_cancel hle]

/-- The gas that a receipt accounts for covers what the last frame has paid for
its code. -/
theorem deposit_le_of_settle {gas : Nat} {created : Option Address}
    {root : Activation} {ended : LayeredLedger} {last : Running LayeredLedger}
    (hstipend : config.schedule.callStipend ≤ config.schedule.callValue)
    (hroot : Funded gas (⟨root, [], entered⟩ : Running LayeredLedger))
    (hreaches : Reaches config env ⟨root, [], entered⟩ last)
    (hdeposits : Deposits config address last.top.frame.gas exit ended)
    (hsuccess : exit.outcome = .success)
    (hsettle : settle config gas created exit ended = .ok receipt after) :
    config.schedule.codeDepositCost exit.output.size ≤
      receipt.gasUsed + receipt.gasRefunded := by
  have hpaid : exit.gasLeft + config.schedule.codeDepositCost exit.output.size ≤
      gas := calc
    _ ≤ last.top.frame.gas := hdeposits.paid
    _ ≤ liveGas last := Nat.le_add_right ..
    _ ≤ gas := (funded_of_reaches hstipend hroot hreaches).liveGas_le
  rw [gas_of_settle hsettle hsuccess]
  exact Nat.le_sub_of_add_le' hpaid

/-- What the receipt of a creation reports of the new contract, and what the
ledger shows of it before and after. -/
structure Deployed (config : Config) (env : Environment)
    (message : CreateMessage) (ledger : LayeredLedger) (receipt : Receipt)
    (after : LayeredLedger) (address : Address) :
    Prop where
  created : receipt.created = some address
  byNonce : message.salt = none → ∃ n,
    Ledger.nonce ledger message.caller = .ok n ∧
    address = message.caller.byNonce n
  bySalt : ∀ salt, message.salt = some salt →
    address = message.caller.bySalt salt message.initCode
  nonce_before : Ledger.nonce ledger address = .ok 0
  codeHash_before : Ledger.codeHash ledger address = .ok Keccak.emptyHash
  size_le : receipt.output.size ≤ config.maxCodeSize
  not_reserved : receipt.output[0]? ≠ some 0xef
  deposit_le : config.schedule.callStipend ≤ config.schedule.callValue →
    min (2 ^ 64 - 1) (config.schedule.codeDeposit * receipt.output.size) ≤
      receipt.gasUsed + receipt.gasRefunded
  account : address ∉ receipt.deleted →
    Ledger.hasAccount after address = .ok true ∧
      Ledger.code after address = .ok receipt.output ∧
      ∃ n, Ledger.nonce after address = .ok n ∧ 1 ≤ n
  slot : ∀ key value, Ledger.slot after address key = .ok value → value = 0 ∨
    ∃ root entered,
      openCreation config message ledger =
        .ok (.entered root (some address)) entered ∧
      Stores config env ⟨root, [], entered⟩ address key value

theorem deployed_of_settle {root : Activation} {ended : LayeredLedger}
    {last : Running LayeredLedger}
    (hopening : openCreation config message ledger =
      .ok (.entered root (some address)) entered)
    (hfounds : Founds message ledger root entered address)
    (hreaches : Reaches config env ⟨root, [], entered⟩ last)
    (hwaiting : last.waiting = [])
    (hends : turn config env last.top last.ledger =
      .concludes (.finished exit ended))
    (hsuccess : exit.outcome = .success)
    (hsettle : settle config message.gas (some address) exit ended =
      .ok receipt after) :
    Deployed config env message ledger receipt after address := by
  obtain ⟨n, hnonce, hderived⟩ := hfounds.derived
  obtain ⟨hcreated, houtput⟩ := (created_of_settle hsettle).1 hsuccess
  have hrole : last.top.role = .creation address :=
    (role_of_runsAbove hreaches.runsAbove_nil hwaiting).trans hfounds.role
  have hdeposits := deposits_of_finished hends hrole hsuccess
  have hpositive := nonce_of_finished hrole hopening hreaches hsuccess hends
  have hholds := holdsOnly_of_finished hfounds.slot hreaches hsuccess hends
  obtain ⟨_, hdeletes⟩ := deletes_of_settle hsettle
  have htop := top_of_forM_deleteAccount hdeletes
  refine ⟨hcreated, ?_, ?_, hfounds.nonce, hfounds.codeHash, ?_, ?_, ?_, ?_, ?_⟩
  · intro hsalt
    rw [hsalt] at hderived
    exact ⟨n, hnonce, hderived⟩
  · intro salt hsalt
    rw [hsalt] at hderived
    exact hderived
  · rw [houtput]
    exact hdeposits.deployable.1
  · rw [houtput]
    exact hdeposits.deployable.2
  · intro hstipend
    have hroot := funded_root (.inr ⟨message, rfl, rfl⟩) hopening
    rw [houtput, Nat.min_comm]
    exact deposit_le_of_settle hstipend hroot hreaches hdeposits
      hsuccess hsettle
  · intro hspared
    obtain ⟨account, haccount, hcode⟩ := hdeposits.code
    have hshown : after.account address = some account := by
      rw [← account_top_states, htop, account_foldl_delete, if_neg hspared,
        haccount]
    rw [← held_of_deletes hdeletes hspared] at hpositive
    refine ⟨?_, ?_, _, rfl, hpositive⟩
    · simp [Ledger.hasAccount, hshown]
    · simp [Ledger.code, hshown, hcode, houtput]
  · intro key value hvalue
    have hslot : after.states.top.slot address key = value :=
      Except.ok.inj hvalue
    have hkept := hholds.rewrites
      (rewrites_foldl_delete receipt.deleted ended.states.top) key
    rw [← htop, hslot] at hkept
    exact hkept.imp_right fun hstores => ⟨root, entered, hopening, hstores⟩

/-- Creations deploy what they report, whatever their code does on the way.  A
creation that succeeds reports the address derived from the caller and its
nonce, or from the salt and the code that is run; there had been neither nonce
nor code.  Its output may be deployed, and if the price of moving value covers
the stipend of a call, the gas that was spent covers the deposit.  Unless the
account is deleted in the end, it is there with just that output as its code and
with a nonce; and a row of its storage that is not zero holds a value that a
frame of the account has stored there in the course of the run, whatever was
stored before.  A creation that does not succeed reports no address. -/
theorem creation_deploys_what_it_reports (config : Config) (env : Environment)
    (fuel : Nat) (message : CreateMessage) (ledger after : LayeredLedger)
    (receipt : Receipt)
    (h : create config env fuel message ledger = some (.ok receipt after)) :
    (receipt.outcome = .success →
      ∃ address, Deployed config env message ledger receipt after address) ∧
    (receipt.outcome ≠ .success → receipt.created = none) := by
  obtain hopening | ⟨root, created, entered, exit, ended, hopening, hdrive,
      hsettle⟩ :=
    transact_eq_ok h
  · obtain ⟨_, _, rfl⟩ | rfl :=
      settled_receipt (.inr ⟨message, rfl, rfl⟩) hopening
    · exact ⟨nofun, fun _ => rfl⟩
    · exact ⟨nofun, fun _ => rfl⟩
  · rw [(settle_eq_ok hsettle).1]
    refine ⟨fun hsuccess => ?_, (created_of_settle hsettle).2⟩
    obtain ⟨address, rfl, hfounds⟩ := founds_of_openCreation hopening
    obtain ⟨last, hreaches, hwaiting, hends⟩ := exists_last_of_finished hdrive
    exact ⟨address,
      deployed_of_settle hopening hfounds hreaches hwaiting hends hsuccess
        hsettle⟩

/-- The address of the first contract of the account at 1. -/
def firstContract : Address := 0x522b3294e6d06aa25ad0f1b8891242e335d3b459

/-- The creation of that contract, which stores 7 under 3 and deploys one
zero. -/
def storingSeven : CreateMessage :=
  { caller := 1, gas := 100000,
    initCode := #[0x60, 7, 0x60, 3, 0x55, 0x60, 1, 0x60, 0, 0xf3] }

/-- A ledger with a value that was left under 5 where the contract is to be. -/
def leftBehind : LayeredLedger := ({} : LayeredLedger).setSlot firstContract 5 9

theorem first_contract_is_deployed :
    ∃ receipt after, create {} {} 10 storingSeven leftBehind =
      some (.ok receipt after) ∧
      receipt.output = #[0] ∧ firstContract ∉ receipt.deleted ∧
      Deployed {} {} storingSeven leftBehind receipt after firstContract := by
  have hcreate : (ending? (create {} {} 10 storingSeven leftBehind)).map
      (fun (receipt, _) => (receipt.outcome, receipt.created, receipt.output,
        receipt.deleted)) =
        some (.success, some firstContract, #[0], []) := by
    decide +kernel
  obtain ⟨⟨receipt, after⟩, hends, hparts⟩ := Option.map_eq_some_iff.1 hcreate
  simp only [Prod.mk.injEq] at hparts
  obtain ⟨hsuccess, hcreated, houtput, hdeleted⟩ := hparts
  have hresult := eq_of_ending? hends
  obtain ⟨address, hdeployed⟩ :=
    (creation_deploys_what_it_reports _ _ _ _ _ _ _ hresult).1 hsuccess
  obtain rfl : firstContract = address :=
    Option.some.inj (hcreated.symm.trans hdeployed.created)
  exact ⟨receipt, after, hresult, houtput, by simp [hdeleted], hdeployed⟩

end ContractMachine.Transaction
