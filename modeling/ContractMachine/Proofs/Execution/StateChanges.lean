import ContractMachine.Proofs.Execution.Deeds
import ContractMachine.Proofs.Ledger.Balances
import ContractMachine.Proofs.Ledger.Holdings
import ContractMachine.Proofs.Ledger.Reads

/-!
# What an instruction changes on the ledger

Only two instructions write to the ledger, and each of them writes as the
account that its frame runs for, whoever the code belongs to.  One stores a
value under a key, and the other sends away everything that the account holds.
What each of them changes is told here in terms of what can be read, so that it
does not matter in which layer of the ledger anything is kept.

A frame that loads a value from the storage of its account thus finds the value
that it stored there last, or the one that was there when it began.
-/

namespace ContractMachine

open Actions

/-! ## Storing and sending -/

namespace FlatState

variable {state : FlatState}

theorem account_setSlot (state : FlatState) (a b : Address) (key value : Word) :
    (state.setSlot a key value).account b =
      if b = a then some (state.held a) else state.account b := by
  simp [setSlot, store, modify, put, Function.update_apply]

theorem slot_setSlot (state : FlatState) (a b : Address)
    (key other value : Word) :
    (state.setSlot a key value).slot b other =
      if b = a ∧ other = key then value else state.slot b other := by
  by_cases hb : b = a
  · subst b
    simp [setSlot, store, slot_modify, Function.update_apply]
  · rw [slot_setSlot_of_ne hb, if_neg fun h => hb h.1]

theorem account_setBalance (state : FlatState) (a b : Address)
    (balance : Word) :
    (state.setBalance a balance).account b =
      if b = a then some { state.held a with balance }
      else state.account b := by
  simp [setBalance, modify, put, Function.update_apply]

/-- What is at each address once an account has sent something to another. -/
theorem account_move (state : FlatState) {source target : Address}
    (h : target ≠ source) (value : Word) (b : Address) :
    (state.move source target value).account b =
      if b = target then
        some { state.held target with
          balance := (state.held target).balance.saturatingAdd value }
      else if b = source then
        some { state.held source with
          balance := (state.held source).balance - value }
      else state.account b := by
  have hheld :
      (state.setBalance source ((state.held source).balance - value)).held
        target = state.held target := by
    rw [held, account_setBalance, if_neg h, held]
  rw [move, account_setBalance, account_setBalance, hheld]

end FlatState

namespace LayeredLedger

variable {address beneficiary : Address} {key value : Word}
  {before after : LayeredLedger}

/-- A value has been stored for an account, which is there now, and nothing else
that can be read has changed. -/
structure Stored (address : Address) (key value : Word)
    (before after : LayeredLedger) :
    Prop where
  slot : Ledger.slot after address key = .ok value
  slot_other : ∀ a k,
    (a ≠ address ∨ k ≠ key) → Ledger.slot after a k = Ledger.slot before a k
  hasAccount : Ledger.hasAccount after address = .ok true
  hasAccount_other : ∀ a ≠ address,
    Ledger.hasAccount after a = Ledger.hasAccount before a
  balance : ∀ a, Ledger.balance after a = Ledger.balance before a
  nonce : ∀ a, Ledger.nonce after a = Ledger.nonce before a
  code : ∀ a, Ledger.code after a = Ledger.code before a
  codeHash : ∀ a, Ledger.codeHash after a = Ledger.codeHash before a
  depth : after.depth = before.depth

theorem stored_of_setSlot
    (h : Ledger.setSlot address key value before = .ok () after) :
    Stored address key value before after := by
  cases h
  have hstates := states_setSlot before address key value
  have haccount : ∀ a, (before.setSlot address key value).account a =
      if a = address then some ((before.account address).getD {})
      else before.account a := by
    intro a
    rw [← account_top_states, hstates]
    exact FlatState.account_setSlot ..
  have hheld : ∀ a, ((before.setSlot address key value).account a).getD {} =
      (before.account a).getD {} := by
    intro a
    rw [haccount]
    by_cases ha : a = address
    · rw [if_pos ha, ha, Option.getD_some]
    · rw [if_neg ha]
  have hslot : ∀ a k, (before.setSlot address key value).slot a k =
      if a = address ∧ k = key then value else before.slot a k := by
    intro a k
    rw [← slot_top_states, hstates]
    exact FlatState.slot_setSlot ..
  refine ⟨?_, ?_, ?_, ?_, ?_, ?_, ?_, ?_, ?_⟩
  · simp [Ledger.slot, hslot]
  · intro a k hother
    have hne : ¬ (a = address ∧ k = key) := by tauto
    simp [Ledger.slot, hslot, hne]
  · simp [Ledger.hasAccount, haccount]
  · intro a ha
    simp [Ledger.hasAccount, haccount, ha]
  · exact fun a => congrArg (fun account => Except.ok account.balance) (hheld a)
  · exact fun a => congrArg (fun account => Except.ok account.nonce) (hheld a)
  · exact fun a => congrArg (fun account => Except.ok account.code) (hheld a)
  · exact fun a => congrArg (fun account => Except.ok account.codeHash)
      (hheld a)
  · exact depth_eq_of_below (by rw [hstates]; rfl)

/-- An account has sent all that it held to another, which may have come into
being, and nothing else that can be read has changed. -/
structure Emptied (address beneficiary : Address)
    (before after : LayeredLedger) : Prop where
  balance : Ledger.balance after address = .ok 0
  balance_beneficiary : ∃ held sent sum,
    Ledger.balance before beneficiary = .ok held ∧
    Ledger.balance before address = .ok sent ∧
    Ledger.balance after beneficiary = .ok sum ∧
    sum.toNat = min (held.toNat + sent.toNat) (2 ^ 256 - 1)
  balance_other : ∀ a, a ≠ address → a ≠ beneficiary →
    Ledger.balance after a = Ledger.balance before a
  hasAccount_other : ∀ a ≠ beneficiary,
    Ledger.hasAccount after a = Ledger.hasAccount before a
  hasAccount_beneficiary : Ledger.hasAccount before beneficiary = .ok true →
    Ledger.hasAccount after beneficiary = .ok true
  nonce : ∀ a, Ledger.nonce after a = Ledger.nonce before a
  code : ∀ a, Ledger.code after a = Ledger.code before a
  codeHash : ∀ a, Ledger.codeHash after a = Ledger.codeHash before a
  slot : ∀ a key, Ledger.slot after a key = Ledger.slot before a key
  depth : after.depth = before.depth

/-- An account that holds nothing has nothing to send. -/
theorem emptied_self (h : ((before.account address).getD {}).balance = 0) :
    Emptied address beneficiary before before where
  balance := congrArg Except.ok h
  balance_beneficiary := by
    refine ⟨_, _, _, rfl, rfl, rfl, ?_⟩
    rw [h]
    exact (Nat.min_eq_left (Nat.le_pred_of_lt (BitVec.isLt _))).symm
  balance_other _ _ _ := rfl
  hasAccount_other _ _ := rfl
  hasAccount_beneficiary := id
  nonce _ := rfl
  code _ := rfl
  codeHash _ := rfl
  slot _ _ := rfl
  depth := rfl

/-- A sender that holds something is there. -/
theorem exists_account_of_balance
    (h : ((before.account address).getD {}).balance ≠ 0) :
    ∃ account, before.account address = some account := by
  cases haccount : before.account address with
  | none => simp [haccount] at h
  | some account => exact ⟨account, rfl⟩

theorem emptied_of_move (hne : beneficiary ≠ address)
    (hbalance : ((before.account address).getD {}).balance ≠ 0)
    (h : after.states = before.states.change
      (·.move address beneficiary ((before.account address).getD {}).balance)) :
    Emptied address beneficiary before after := by
  obtain ⟨sender, hsender⟩ := exists_account_of_balance hbalance
  have haccount : ∀ a, after.account a =
      if a = beneficiary then
        some { (before.account beneficiary).getD {} with
          balance :=
            ((before.account beneficiary).getD {}).balance.saturatingAdd
              sender.balance }
      else if a = address then some { sender with balance := 0 }
      else before.account a := by
    intro a
    rw [← account_top_states, h]
    have hmove := before.states.top.account_move hne sender.balance a
    simpa [hsender, StateStack.change] using hmove
  have hkept : ∀ a, ∃ balance, (after.account a).getD {} =
      { (before.account a).getD {} with balance } := by
    intro a
    rw [haccount]
    split_ifs with hbeneficiary haddress
    · exact ⟨_, by rw [hbeneficiary, Option.getD_some]⟩
    · exact ⟨0, by rw [haddress, hsender, Option.getD_some, Option.getD_some]⟩
    · exact ⟨_, rfl⟩
  have hslots : after.states.top.slot = before.states.top.slot := by
    rw [h]
    rfl
  refine ⟨?_, ?_, ?_, ?_, ?_, ?_, ?_, ?_, ?_, ?_⟩
  · simp [Ledger.balance, haccount, hne.symm]
  · refine ⟨_, _, _, rfl, rfl, rfl, ?_⟩
    simp [haccount, hsender, Word.toNat_saturatingAdd_eq_min]
  · intro a ha hb
    simp [Ledger.balance, haccount, ha, hb]
  · intro a hb
    by_cases ha : a = address
    · simp [Ledger.hasAccount, haccount, ha, hne.symm, hsender]
    · simp [Ledger.hasAccount, haccount, ha, hb]
  · intro _
    simp [Ledger.hasAccount, haccount]
  · intro a
    obtain ⟨_, hheld⟩ := hkept a
    exact congrArg (fun account => Except.ok account.nonce) hheld
  · intro a
    obtain ⟨_, hheld⟩ := hkept a
    exact congrArg (fun account => Except.ok account.code) hheld
  · intro a
    obtain ⟨_, hheld⟩ := hkept a
    exact congrArg (fun account => Except.ok account.codeHash) hheld
  · exact fun a key => congrArg Except.ok (slot_eq_of_top hslots a key)
  · exact depth_eq_of_below (by rw [h]; rfl)

/-- What is left once an account has sent everything. -/
theorem transfer_all (h : Ledger.transfer address beneficiary
      ((before.account address).getD {}).balance before = .ok () after) :
    (beneficiary ≠ address → Emptied address beneficiary before after) ∧
      (beneficiary = address → SameReads before after) := by
  by_cases hzero : ((before.account address).getD {}).balance = 0
  · rw [Ledger.transfer, if_pos hzero] at h
    cases h
    exact ⟨fun _ => emptied_self hzero, fun _ => sameReads_of_states_eq rfl⟩
  have hcovered : ¬ (before.states.top.held address).balance <
      ((before.account address).getD {}).balance :=
        BitVec.not_lt.2 (BitVec.le_refl _)
  obtain ⟨moved, htransfer, hstates⟩ :=
    transfer_of_not_lt beneficiary hzero hcovered
  cases htransfer.symm.trans h
  refine ⟨fun hne => emptied_of_move hne hzero hstates, ?_⟩
  rintro rfl
  obtain ⟨account, haccount⟩ := exists_account_of_balance hzero
  have hback : before.states.top.move beneficiary beneficiary
      ((before.account beneficiary).getD {}).balance = before.states.top := by
    refine FlatState.move_self haccount ?_
    rw [haccount]
    exact BitVec.le_refl _
  apply sameReads_of_states_eq
  rw [hstates, StateStack.change, hback]

end LayeredLedger

/-! ## Steps -/

namespace Execution

open Exec

section

variable {σ : Type} [Ledger σ] {config : Config} {env : Environment}
  {live last after : Live σ} {operands : Stack} {flow : Flow}

omit [Ledger σ] in
theorem write_of_tell {α : Type} {write : EStateM LedgerError σ α} {a : α}
    (h : tell write live = .ok a last) :
    write live.ledger = .ok a last.ledger := by
  unfold Exec.tell at h
  split at h <;> cases h
  assumption

/-- A value is stored for the account of the frame. -/
theorem setSlot_of_sstore
    (h : perform config env .sstore operands live = .ok flow last) :
    Ledger.setSlot live.frame.context.address (operands.getD 0 0)
      (operands.getD 1 0)
      live.ledger = .ok () last.ledger := by
  obtain ⟨_, _, hframe, hasked⟩ := bind_eq_ok_iff.1 h
  cases hframe
  obtain ⟨current, _, hask, hcharged⟩ := bind_eq_ok_iff.1 hasked
  obtain rfl := ask_eq_ok hask
  obtain ⟨_, _, hcharge, hgathered⟩ := bind_eq_ok_iff.1 hcharged
  obtain ⟨rfl, _⟩ := charge_eq_ok hcharge
  obtain ⟨_, _, hgather, htold⟩ := bind_eq_ok_iff.1 hgathered
  cases hgather
  obtain ⟨_, _, htell, hpure⟩ := bind_eq_ok_iff.1 htold
  obtain ⟨_, rfl⟩ := pure_eq_ok_iff.1 hpure
  have hwrite := write_of_tell htell
  exact hwrite

/-- What an account holds when it destroys itself is sent away. -/
theorem transfer_of_selfDestruct {schedule : Schedule} {beneficiary : Address}
    (h : selfDestruct schedule beneficiary live = .ok () last) :
    ∃ balance, Ledger.balance live.ledger live.frame.context.address =
      .ok balance ∧
      Ledger.transfer live.frame.context.address beneficiary balance
        live.ledger = .ok () last.ledger := by
  have hsends : ∀ {marking : Live σ} {balance : Word},
      marking.ledger = live.ledger →
      (do
        let marked :=
          (← getFrame).effects.markDestroyed live.frame.context.address
        modifyEffects fun _ =>
          if marked.1 then marked.2.addRefund schedule.selfDestructRefund
          else marked.2
        tell (Ledger.transfer live.frame.context.address beneficiary balance) :
          Exec σ Unit) marking = .ok () last →
      Ledger.transfer live.frame.context.address beneficiary balance
        live.ledger = .ok () last.ledger := by
    intro marking balance hledger hmarks
    obtain ⟨_, _, hframe, hgathered⟩ := bind_eq_ok_iff.1 hmarks
    cases hframe
    obtain ⟨_, _, hgather, htell⟩ := bind_eq_ok_iff.1 hgathered
    cases hgather
    have hwrite := write_of_tell htell
    rw [← hledger]
    exact hwrite
  obtain ⟨_, _, hframe, hasked⟩ := bind_eq_ok_iff.1 h
  cases hframe
  obtain ⟨balance, _, hask, hrest⟩ := bind_eq_ok_iff.1 hasked
  obtain rfl := ask_eq_ok hask
  refine ⟨balance, read_of_ask hask, ?_⟩
  by_cases hbalance : balance ≠ 0
  · rw [if_pos hbalance] at hrest
    obtain ⟨isNew, _, hnew, hpaid⟩ := bind_eq_ok_iff.1 hrest
    obtain rfl := ask_eq_ok hnew
    cases isNew with
    | false => exact hsends rfl hpaid
    | true =>
      obtain ⟨_, _, hcharge, hmarked⟩ := bind_eq_ok_iff.1 hpaid
      obtain ⟨rfl, _⟩ := charge_eq_ok hcharge
      refine hsends ?_ hmarked
      rfl
  · rw [if_neg hbalance] at hrest
    exact hsends rfl hrest

omit [Ledger σ] in
/-- Going on after an instruction has nothing to do with the ledger. -/
theorem ledger_of_proceed {opcode : Opcode} {signal : Option Signal}
    (h : proceed opcode flow last = .ok signal after) :
    after.ledger = last.ledger := by
  cases signal with
  | none =>
    obtain ⟨_, _, rfl⟩ | ⟨_, _, _, rfl⟩ := proceed_eq_none h
    · rfl
    · rfl
  | some reason =>
    obtain ⟨_, rfl⟩ := proceed_eq_some h
    rfl

end

variable {config : Config} {env : Environment} {live after : Live LayeredLedger}
  {byte : UInt8} {signal : Option Signal}

/-- What a step of an instruction may change on the ledger. -/
structure Changes (opcode : Opcode) (live : Live LayeredLedger)
    (after : LayeredLedger) :
    Prop where
  nothing : opcode ≠ .sstore → opcode ≠ .selfDestruct → after = live.ledger
  slot : opcode = .sstore → ∃ key value rest,
    live.frame.stack = key :: value :: rest ∧
    LayeredLedger.Stored live.frame.context.address key value live.ledger after
  balance : opcode = .selfDestruct → ∃ beneficiary rest,
    live.frame.stack = beneficiary :: rest ∧
    (beneficiary.toAddress ≠ live.frame.context.address → LayeredLedger.Emptied
      live.frame.context.address beneficiary.toAddress live.ledger after) ∧
    (beneficiary.toAddress = live.frame.context.address →
      LayeredLedger.SameReads live.ledger after)

theorem changes_of_step
    (hbyte : live.frame.code[live.frame.position]? = some byte)
    (h : step config env live = .ok signal after) :
    Changes (Opcode.decode byte) live after.ledger := by
  obtain ⟨flow, last, hsucceeds, hproceed⟩ := succeeds_of_step hbyte h
  have hledger := ledger_of_proceed hproceed
  have hinputs := hsucceeds.authorized.inputs_le
  have hperformed := hsucceeds.performed
  rw [hledger]
  constructor
  · intro hsstore hdestroy
    exact hsucceeds.ledger_eq (not_or.2 ⟨hsstore, hdestroy⟩)
  · intro hopcode
    rw [hopcode] at hinputs hperformed
    rcases hstack : live.frame.stack with _ | ⟨key, _ | ⟨value, rest⟩⟩
    · simp [hstack, Opcode.inputs] at hinputs
    · simp [hstack, Opcode.inputs] at hinputs
    refine ⟨key, value, rest, rfl, ?_⟩
    have hset := setSlot_of_sstore hperformed
    rw [hstack] at hset
    exact LayeredLedger.stored_of_setSlot hset
  · intro hopcode
    rw [hopcode] at hinputs hperformed
    rcases hstack : live.frame.stack with _ | ⟨beneficiary, rest⟩
    · simp [hstack, Opcode.inputs] at hinputs
    refine ⟨beneficiary, rest, rfl, ?_⟩
    obtain ⟨_, _, hdestroy, hpure⟩ := bind_eq_ok_iff.1 hperformed
    obtain ⟨_, rfl⟩ := pure_eq_ok_iff.1 hpure
    obtain ⟨balance, hbalance, htransfer⟩ := transfer_of_selfDestruct hdestroy
    cases hbalance
    rw [hstack] at htransfer
    exact LayeredLedger.transfer_all htransfer

/-! ## Loading what was stored -/

/-- A value that is loaded is the one that the ledger has under the key. -/
theorem slot_of_sload {σ : Type} [Ledger σ] {live after : Live σ}
    (hbyte : live.frame.code[live.frame.position]? = some byte)
    (hopcode : Opcode.decode byte = .sload)
    (h : step config env live = .ok signal after) :
    ∃ key rest value, live.frame.stack = key :: rest ∧
      after.frame.stack = value :: rest ∧
      Ledger.slot live.ledger live.frame.context.address key = .ok value := by
  obtain ⟨flow, last, hsucceeds, hproceed⟩ := succeeds_of_step hbyte h
  have hinputs := hsucceeds.authorized.inputs_le
  have hperformed := hsucceeds.performed
  rw [hopcode] at hinputs hperformed hproceed
  rcases hstack : live.frame.stack with _ | ⟨key, rest⟩
  · simp [hstack, Opcode.inputs] at hinputs
  obtain ⟨_, _, hframe, hasked⟩ := bind_eq_ok_iff.1 hperformed
  cases hframe
  obtain ⟨value, _, hask, hpure⟩ := bind_eq_ok_iff.1 hasked
  obtain rfl := ask_eq_ok hask
  obtain ⟨rfl, rfl⟩ := pure_eq_ok_iff.1 hpure
  have hslot := read_of_ask hask
  cases hproceed
  refine ⟨key, rest, value, rfl, ?_, ?_⟩
  · simp [begun, hstack, Opcode.inputs]
  · simpa [begun, hstack, Opcode.inputs] using hslot

/-- The key and the value that the next instruction of a frame stores, if it
stores one. -/
def storedAt (frame : Frame) : List (Word × Word) :=
  match frame.code[frame.position]?.map Opcode.decode, frame.stack with
  | some .sstore, key :: value :: _ => [(key, value)]
  | _, _ => []

/-- The steps that one frame makes one after another, with what they store.  The
frame may wait in between while nobody else stores anything for its account. -/
inductive Storing (config : Config) (env : Environment)
    (first : Live LayeredLedger) :
    List (Word × Word) → Live LayeredLedger → Prop where
  | begins : Storing config env first [] first
  | steps {rows : List (Word × Word)} {live after : Live LayeredLedger}
      {signal : Option Signal}
      (h : Storing config env first rows live)
      (hstep : step config env live = .ok signal after) :
      Storing config env first (rows ++ storedAt live.frame) after
  | waits {rows : List (Word × Word)} {live after : Live LayeredLedger}
      (h : Storing config env first rows live)
      (haddress : after.frame.context.address = live.frame.context.address)
      (hslot : ∀ key, Ledger.slot after.ledger live.frame.context.address key =
        Ledger.slot live.ledger live.frame.context.address key) :
      Storing config env first rows after

/-- A value is the last one stored under a key, or the initial one if none was
stored. -/
def IsLast (rows : List (Word × Word)) (key initial value : Word) : Prop :=
  (∃ earlier later, rows = earlier ++ (key, value) :: later ∧
    ∀ row ∈ later, row.1 ≠ key) ∨
    (∀ row ∈ rows, row.1 ≠ key) ∧ value = initial

theorem isLast_nil (key initial : Word) : IsLast [] key initial initial :=
  .inr ⟨nofun, rfl⟩

theorem isLast_concat (rows : List (Word × Word)) (key initial value : Word) :
    IsLast (rows ++ [(key, value)]) key initial value :=
  .inl ⟨rows, [], rfl, nofun⟩

/-- What is stored under another key does not matter. -/
theorem IsLast.concat {rows : List (Word × Word)}
    {key initial value other stored : Word} (h : IsLast rows key initial value)
    (hother : other ≠ key) :
    IsLast (rows ++ [(other, stored)]) key initial value := by
  have hnew : ∀ row ∈ [(other, stored)], row.1 ≠ key := by
    intro row hrow
    rw [List.mem_singleton.1 hrow]
    exact hother
  obtain ⟨earlier, later, rfl, hlater⟩ | ⟨hrows, hvalue⟩ := h
  · refine .inl ⟨earlier, later ++ [(other, stored)], by simp, ?_⟩
    exact List.forall_mem_append.2 ⟨hlater, hnew⟩
  · exact .inr ⟨List.forall_mem_append.2 ⟨hrows, hnew⟩, hvalue⟩

/-- A step leaves the storage of its account as it was, but for what it
stores. -/
theorem slot_of_step (h : step config env live = .ok signal after) :
    (storedAt live.frame = [] ∧ ∀ key,
      after.ledger.slot live.frame.context.address key =
      live.ledger.slot live.frame.context.address key) ∨
    ∃ key value, storedAt live.frame = [(key, value)] ∧
      ∀ other, after.ledger.slot live.frame.context.address other =
        if other = key then value
        else live.ledger.slot live.frame.context.address other := by
  cases hbyte : live.frame.code[live.frame.position]? with
  | none =>
    rw [step_of_none hbyte] at h
    cases h
    exact .inl ⟨by simp [storedAt, hbyte], fun _ => rfl⟩
  | some byte =>
    have hchanges := changes_of_step hbyte h
    by_cases hsstore : Opcode.decode byte = .sstore
    · obtain ⟨key, value, rest, hstack, hstored⟩ := hchanges.slot hsstore
      refine .inr ⟨key, value, by simp [storedAt, hbyte, hsstore, hstack], ?_⟩
      intro other
      by_cases hother : other = key
      · rw [if_pos hother, hother]
        exact Except.ok.inj hstored.slot
      · rw [if_neg hother]
        exact Except.ok.inj (hstored.slot_other _ other (.inr hother))
    · have hnothing : storedAt live.frame = [] := by
        unfold storedAt
        split
        case h_1 hopcode _ =>
          exact absurd (by simpa [hbyte] using hopcode) hsstore
        case h_2 => rfl
      refine .inl ⟨hnothing, fun key => ?_⟩
      by_cases hdestroy : Opcode.decode byte = .selfDestruct
      · obtain ⟨beneficiary, rest, _, hemptied, hsame⟩ :=
          hchanges.balance hdestroy
        by_cases hself : beneficiary.toAddress = live.frame.context.address
        · exact Except.ok.inj ((hsame hself).slot _ key)
        · exact Except.ok.inj ((hemptied hself).slot _ key)
      · rw [hchanges.nothing hsstore hdestroy]

/-- However long a frame runs, what is stored for its account is what it stored
last, or what was stored when it began. -/
theorem Storing.isLast {first : Live LayeredLedger} {rows : List (Word × Word)}
    (h : Storing config env first rows live) :
    live.frame.context.address = first.frame.context.address ∧
      ∀ key, IsLast rows key (first.ledger.slot first.frame.context.address key)
        (live.ledger.slot first.frame.context.address key) := by
  induction h with
  | begins => exact ⟨rfl, fun key => isLast_nil key _⟩
  | @waits rows live after _ haddress hslot ih =>
    obtain ⟨hkept, hlast⟩ := ih
    refine ⟨haddress.trans hkept, fun key => ?_⟩
    rw [hkept] at hslot
    rw [Except.ok.inj (hslot key)]
    exact hlast key
  | @steps rows live after signal _ hstep ih =>
    obtain ⟨hkept, hlast⟩ := ih
    have hcontext := context_step config env live
    rw [hstep] at hcontext
    refine ⟨(congrArg Context.address hcontext).trans hkept, fun key => ?_⟩
    obtain ⟨hnothing, hslot⟩ | ⟨stored, value, hrow, hslot⟩ :=
      slot_of_step hstep
    · rw [hkept] at hslot
      rw [hnothing, List.append_nil, hslot]
      exact hlast key
    · rw [hkept] at hslot
      rw [hrow, hslot]
      by_cases hkey : key = stored
      · rw [if_pos hkey, hkey]
        exact isLast_concat rows stored _ value
      · rw [if_neg hkey]
        exact (hlast key).concat (Ne.symm hkey)

/-- What an instruction changes on the ledger, whatever its code, its
environment and the layers of the ledger.  A step that succeeds at an
instruction which neither stores a value nor destroys its account, or at the end
of the code, leaves the ledger as it is.  Storing a value sets one slot of the
account that the frame runs for, and that account is there afterwards; every
other slot, every balance, nonce and code, and every other account stay.
Destroying the account sends its balance to the beneficiary, whose balance stops
at the largest word, and changes nothing else, except that the beneficiary may
come into being; an account that is its own beneficiary changes nothing that can
be read.

So after any number of steps of one frame, a load gives the value that the frame
last stored under the key, or else the one that was there when it began. -/
theorem instruction_writes_for_own_account (config : Config)
    (env : Environment) :
    (∀ (live after : Live LayeredLedger) signal,
      step config env live = .ok signal after →
      (live.frame.code[live.frame.position]? = none →
        after.ledger = live.ledger) ∧
      ∀ byte, live.frame.code[live.frame.position]? = some byte →
        Changes (Opcode.decode byte) live after.ledger) ∧
    ∀ first rows live byte signal after, Storing config env first rows live →
      live.frame.code[live.frame.position]? = some byte →
      Opcode.decode byte = .sload →
      step config env live = .ok signal after →
      ∃ key rest initial value, live.frame.stack = key :: rest ∧
        after.frame.stack = value :: rest ∧
        Ledger.slot first.ledger first.frame.context.address key = .ok initial ∧
        IsLast rows key initial value := by
  constructor
  · intro live after signal hstep
    refine ⟨fun hbyte => ?_, fun byte hbyte => changes_of_step hbyte hstep⟩
    rw [step_of_none hbyte] at hstep
    cases hstep
    rfl
  · intro first rows live byte signal after hstoring hbyte hopcode hstep
    obtain ⟨haddress, hlast⟩ := hstoring.isLast
    obtain ⟨key, rest, value, hstack, hafter, hslot⟩ :=
      slot_of_sload hbyte hopcode hstep
    refine ⟨key, rest, _, value, hstack, hafter, rfl, ?_⟩
    rw [haddress] at hslot
    cases hslot
    exact hlast key

/-- A frame stores 7 under 3 and then loads it. -/
theorem load_gives_stored_value :
    let frame : Frame := { Frame.start #[0x55, 0x54] {} 30000 with
      stack := [3, 7, 3] }
    ∃ stored loaded signal, Storing {} {} ⟨frame, {}⟩ [(3, 7)] stored ∧
      step {} {} stored = .ok signal loaded ∧ loaded.frame.stack = [7] := by
  intro frame
  let stored : Live LayeredLedger :=
    ⟨{ frame with gas := 10000, position := 1, stack := [3] },
      ({} : LayeredLedger).setSlot 0 3 7⟩
  let loaded : Live LayeredLedger :=
    ⟨{ frame with gas := 9800, position := 2, stack := [7] }, stored.ledger⟩
  have hstore : step {} {} (⟨frame, {}⟩ : Live LayeredLedger) =
      .ok none stored := by cbv
  have hload : step {} {} stored = .ok none loaded := by cbv
  have hstoring : Storing {} {} ⟨frame, {}⟩ [(3, 7)] stored :=
    Storing.begins.steps hstore
  obtain ⟨key, rest, initial, value, hkey, hvalue, _, hlast⟩ :=
    (instruction_writes_for_own_account {} {}).2 _ _ _ 0x54 _ _ hstoring rfl
      rfl hload
  refine ⟨stored, loaded, none, hstoring, hload, ?_⟩
  cases hkey
  obtain ⟨earlier, later, hrows, _⟩ | ⟨hrows, _⟩ := hlast
  · have hmem : (3, value) ∈ [((3 : Word), (7 : Word))] := by
      rw [hrows]
      simp
    rw [hvalue, (Prod.mk.inj (List.mem_singleton.1 hmem)).2]
  · exact absurd rfl (hrows (3, 7) (by simp))

end Execution

end ContractMachine
