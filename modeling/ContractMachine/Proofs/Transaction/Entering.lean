import ContractMachine.Transaction.Receipt
import ContractMachine.Proofs.Transaction.Runs

/-!
# Entering and leaving frames

What must have happened for a frame to be entered or left, for any ledger.  A
request that is refused has written nothing.  A creation that passes the first
checks counts a nonce up before all else, and then collides or enters a frame.
A frame is left by a commit or by a rollback of its snapshot.
-/

namespace ContractMachine.Transaction

open Actions

variable {σ α : Type} [Ledger σ] {ledger after : σ}

omit [Ledger σ] in
theorem query_eq_ok {read : σ → Except LedgerError α} {a : α}
    (h : query read ledger = .ok a after) :
    read ledger = .ok a ∧ after = ledger := by
  rw [query] at h
  split at h <;> cases h
  exact ⟨by assumption, rfl⟩

theorem lacks_eq_ok {address : Address} {value : Word} {isShort : Bool}
    (h : lacks address value ledger = .ok isShort after) :
    after = ledger ∧ ∃ balance, Ledger.balance ledger address = .ok balance ∧
      isShort = decide (balance < value) := by
  obtain ⟨balance, reached, hread, hpure⟩ := bind_eq_ok_iff.1 h
  obtain ⟨hbalance, rfl⟩ := query_eq_ok hread
  obtain ⟨rfl, rfl⟩ := pure_eq_ok_iff.1 hpure
  exact ⟨rfl, balance, hbalance, rfl⟩

theorem isTaken_eq_ok {address : Address} {taken : Bool}
    (h : isTaken address ledger = .ok taken after) : after = ledger := by
  obtain ⟨nonce, reached, hnonce, hrest⟩ := bind_eq_ok_iff.1 h
  obtain ⟨_, rfl⟩ := query_eq_ok hnonce
  by_cases hzero : nonce ≠ 0
  · rw [if_pos hzero] at hrest
    exact (pure_eq_ok_iff.1 hrest).2.symm
  · rw [if_neg hzero] at hrest
    obtain ⟨_, reached, hcode, hpure⟩ := bind_eq_ok_iff.1 hrest
    obtain ⟨_, rfl⟩ := query_eq_ok hcode
    exact (pure_eq_ok_iff.1 hpure).2.symm

/-- What is known of an address that is not taken. -/
theorem free_of_isTaken {address : Address}
    (h : isTaken address ledger = .ok false after) :
    Ledger.nonce ledger address = .ok 0 ∧
      Ledger.codeHash ledger address = .ok Keccak.emptyHash := by
  obtain ⟨nonce, reached, hquery, hrest⟩ := bind_eq_ok_iff.1 h
  obtain ⟨hnonce, rfl⟩ := query_eq_ok hquery
  by_cases hzero : nonce ≠ 0
  · rw [if_pos hzero] at hrest
    exact absurd (pure_eq_ok_iff.1 hrest).1 Bool.false_ne_true.symm
  · rw [if_neg hzero] at hrest
    obtain ⟨hash, reached, hquery, hpure⟩ := bind_eq_ok_iff.1 hrest
    obtain ⟨hhash, rfl⟩ := query_eq_ok hquery
    have hempty : hash = Keccak.emptyHash := by
      simpa using (pure_eq_ok_iff.1 hpure).1
    rw [not_not.1 hzero] at hnonce
    rw [hempty] at hhash
    exact ⟨hnonce, hhash⟩

theorem enter_eq_ok {prepare : EStateM LedgerError σ α} {snapshot : Nat} {a : α}
    (h : enter prepare ledger = .ok (snapshot, a) after) :
    prepare (Ledger.openSnapshot ledger).2 = .ok a after := by
  rw [enter] at h
  dsimp only at h
  cases hprepare : prepare (Ledger.openSnapshot ledger).2 with
  | ok result reached =>
    rw [hprepare] at h
    cases h
    rfl
  | error cause reached =>
    rw [hprepare] at h
    dsimp only at h
    split at h <;> cases h

/-- What is done for a call between its snapshot and its first instruction. -/
def prepareEntry (context : Context) (moves : Bool) (source target : Address) :
    EStateM LedgerError σ Bytes := do
  if moves then credit source context.address context.value
  query (Ledger.code · target)

/-- What is done for a creation between its snapshot and its first
instruction. -/
def prepareAccount (creator address : Address) (value : Word) :
    EStateM LedgerError σ Unit := do
  Ledger.createAccount address
  let _ ← Ledger.bumpNonce address
  Ledger.transfer creator address value

theorem enterCall_eq_ok {context : Context} {moves : Bool}
    {source target : Address} {gas : Nat} {window : Range} {child : Activation}
    (h : enterCall context moves source target gas window ledger =
      .ok child after) :
    ∃ code, child.frame = Frame.start code context gas ∧
      child.role = .call window ∧
      prepareEntry context moves source target (Ledger.openSnapshot ledger).2 =
        .ok code after := by
  obtain ⟨⟨snapshot, code⟩, reached, henter, hpure⟩ := bind_eq_ok_iff.1 h
  obtain ⟨rfl, rfl⟩ := pure_eq_ok_iff.1 hpure
  exact ⟨code, rfl, rfl, enter_eq_ok henter⟩

theorem enterCreation_eq_ok {creator address : Address} {value : Word}
    {initCode : Bytes} {gas depth : Nat} {child : Activation}
    (h : enterCreation creator address value initCode gas depth ledger =
      .ok child after) :
    child.frame =
      Frame.start initCode { address, caller := creator, value, depth } gas ∧
      child.role = .creation address ∧
      prepareAccount creator address value (Ledger.openSnapshot ledger).2 =
        .ok () after := by
  obtain ⟨⟨snapshot, ⟨⟩⟩, reached, henter, hpure⟩ := bind_eq_ok_iff.1 h
  obtain ⟨rfl, rfl⟩ := pure_eq_ok_iff.1 hpure
  exact ⟨rfl, rfl, enter_eq_ok henter⟩

/-! ## Requests -/

theorem meetCall_eq_ok {config : Config} {caller : Context}
    {request : CallRequest} {response : Response}
    (h : meetCall config caller request ledger = .ok response after) :
    response = .refused ∧ after = ledger ∨
    ∃ child, response = .entered child ∧
      enterCall (calleeContext caller request) request.kind.takesValue
        caller.address
        request.target request.gas request.window ledger = .ok child after := by
  rw [meetCall] at h
  by_cases hdepth : config.maxCallDepth < (calleeContext caller request).depth
  · rw [if_pos hdepth] at h
    obtain ⟨rfl, rfl⟩ := pure_eq_ok_iff.1 h
    exact .inl ⟨rfl, rfl⟩
  rw [if_neg hdepth] at h
  have hrest : ∀ isShort : Bool,
      (if isShort = true then pure .refused else do
        let child ← enterCall (calleeContext caller request)
          request.kind.takesValue
          caller.address request.target request.gas request.window
        pure (.entered child) : EStateM LedgerError σ Response) ledger =
          .ok response after →
      response = .refused ∧ after = ledger ∨ ∃ child,
        response = .entered child ∧
        enterCall (calleeContext caller request) request.kind.takesValue
          caller.address
          request.target request.gas request.window ledger =
            .ok child after := by
    intro isShort hrest
    cases isShort with
    | true =>
      obtain ⟨rfl, rfl⟩ := pure_eq_ok_iff.1 hrest
      exact .inl ⟨rfl, rfl⟩
    | false =>
      obtain ⟨child, reached, henter, hpure⟩ := bind_eq_ok_iff.1 hrest
      obtain ⟨rfl, rfl⟩ := pure_eq_ok_iff.1 hpure
      exact .inr ⟨child, rfl, henter⟩
  by_cases htakes : request.kind.takesValue = true
  · rw [if_pos htakes] at h
    obtain ⟨isShort, reached, hlacks, hends⟩ := bind_eq_ok_iff.1 h
    obtain ⟨rfl, _⟩ := lacks_eq_ok hlacks
    exact hrest isShort hends
  · rw [if_neg htakes] at h
    exact hrest false h

/-- Whether an account can pay a value. -/
def Covers (ledger : σ) (address : Address) (value : Word) : Prop :=
  ∃ balance, Ledger.balance ledger address = .ok balance ∧ value ≤ balance

theorem covers_iff_of_lacks {address : Address} {value : Word} {isShort : Bool}
    (h : lacks address value ledger = .ok isShort after) :
    Covers ledger address value ↔ isShort = false := by
  obtain ⟨_, balance, hbalance, rfl⟩ := lacks_eq_ok h
  simp [Covers, hbalance, BitVec.not_lt]

/-- Whether a frame may create: the checks of depth, balance and nonce. -/
def MayCreate (config : Config) (creator : Context) (value : Word)
    (ledger : σ) : Prop :=
  creator.depth + 1 ≤ config.maxCallDepth ∧
    Covers ledger creator.address value ∧
    ∃ n, Ledger.nonce ledger creator.address = .ok n ∧ n ≠ Saturating.limit

/-- What is left of a creation that has passed the first checks. -/
def proceedToCreate (creator address : Address) (value : Word)
    (initCode : Bytes) (gas depth : Nat) (collided : α)
    (entered : Activation → α) : EStateM LedgerError σ α := do
  let _ ← Ledger.bumpNonce creator
  if ← isTaken address then return collided
  return entered (← enterCreation creator address value initCode gas depth)

section Creations

variable {creator address : Address} {value : Word} {initCode : Bytes}
  {gas depth : Nat} {collided a : α} {entered : Activation → α}

/-- The nonce is counted up, and then the address is taken or a frame is
entered. -/
theorem proceedToCreate_eq_ok
    (h : proceedToCreate creator address value initCode gas depth collided
      entered ledger =
      .ok a after) :
    ∃ n bumped, Ledger.bumpNonce creator ledger = .ok n bumped ∧
      (a = collided ∧ after = bumped ∨
        ∃ child, a = entered child ∧ isTaken address bumped = .ok false bumped ∧
          enterCreation creator address value initCode gas depth bumped =
            .ok child after) := by
  obtain ⟨n, bumped, hbump, hrest⟩ := bind_eq_ok_iff.1 h
  obtain ⟨taken, reached, htaken, hends⟩ := bind_eq_ok_iff.1 hrest
  obtain rfl := isTaken_eq_ok htaken
  refine ⟨n, reached, hbump, ?_⟩
  cases taken with
  | true =>
    obtain ⟨rfl, rfl⟩ := pure_eq_ok_iff.1 hends
    exact .inl ⟨rfl, rfl⟩
  | false =>
    obtain ⟨child, last, henter, hpure⟩ := bind_eq_ok_iff.1 hends
    obtain ⟨rfl, rfl⟩ := pure_eq_ok_iff.1 hpure
    exact .inr ⟨child, rfl, htaken, henter⟩

/-- A creation that has passed the first checks counts the nonce up, and then
collides or enters a frame. -/
theorem creation_eq_ok
    (h : proceedToCreate creator address value initCode gas depth collided
      entered ledger =
      .ok a after) :
    ∃ n bumped, Ledger.bumpNonce creator ledger = .ok n bumped ∧
      (a = collided ∧ after = bumped ∨
        ∃ child, a = entered child ∧
          enterCreation creator address value initCode gas depth bumped =
            .ok child after) := by
  obtain ⟨n, bumped, hbump, hcollides | ⟨child, hentered, _, henter⟩⟩ :=
    proceedToCreate_eq_ok h
  · exact ⟨n, bumped, hbump, .inl hcollides⟩
  · exact ⟨n, bumped, hbump, .inr ⟨child, hentered, henter⟩⟩

end Creations

/-- A creation is refused, or it has passed the first checks. -/
theorem meetCreation_cases {config : Config} {creator : Context}
    {request : CreateRequest} {response : Response}
    (h : meetCreation config creator request ledger = .ok response after) :
    (¬ MayCreate config creator request.value ledger ∧ response = .refused ∧
      after = ledger) ∨
    MayCreate config creator request.value ledger ∧
      ∃ address, proceedToCreate creator.address address request.value
        request.initCode
        request.gas (creator.depth + 1) .collided .entered ledger =
          .ok response after := by
  rw [meetCreation] at h
  by_cases hdepth : config.maxCallDepth < creator.depth + 1
  · rw [if_pos hdepth] at h
    obtain ⟨rfl, rfl⟩ := pure_eq_ok_iff.1 h
    exact .inl ⟨fun hmay => absurd hmay.1 (Nat.not_le.2 hdepth), rfl, rfl⟩
  rw [if_neg hdepth] at h
  obtain ⟨isShort, reached, hlacks, hrest⟩ := bind_eq_ok_iff.1 h
  have hcovers := covers_iff_of_lacks hlacks
  obtain ⟨rfl, _⟩ := lacks_eq_ok hlacks
  cases isShort with
  | true =>
    obtain ⟨rfl, rfl⟩ := pure_eq_ok_iff.1 hrest
    exact .inl ⟨fun hmay => absurd (hcovers.1 hmay.2.1) (by simp), rfl, rfl⟩
  | false =>
    obtain ⟨nonce, first, hquery, hcreate⟩ := bind_eq_ok_iff.1 hrest
    obtain ⟨hnonce, rfl⟩ := query_eq_ok hquery
    by_cases hlimit : nonce = Saturating.limit
    · rw [if_pos hlimit] at hcreate
      obtain ⟨rfl, rfl⟩ := pure_eq_ok_iff.1 hcreate
      refine .inl ⟨?_, rfl, rfl⟩
      rintro ⟨_, _, n, hn, hne⟩
      rw [hnonce] at hn
      cases hn
      exact hne hlimit
    · rw [if_neg hlimit] at hcreate
      exact .inr ⟨⟨Nat.not_lt.1 hdepth, hcovers.2 rfl, nonce, hnonce, hlimit⟩,
        _, hcreate⟩

theorem meetCreation_eq_ok {config : Config} {creator : Context}
    {request : CreateRequest} {response : Response}
    (h : meetCreation config creator request ledger = .ok response after) :
    (¬ MayCreate config creator request.value ledger ∧ response = .refused ∧
      after = ledger) ∨
    MayCreate config creator request.value ledger ∧
      ∃ address n bumped,
        Ledger.bumpNonce creator.address ledger = .ok n bumped ∧
        (response = .collided ∧ after = bumped ∨
          ∃ child, response = .entered child ∧
            enterCreation creator.address address request.value request.initCode
              request.gas
              (creator.depth + 1) bumped = .ok child after) := by
  refine (meetCreation_cases h).imp_right fun ⟨hmay, address, hcreate⟩ => ?_
  exact ⟨hmay, address, creation_eq_ok hcreate⟩

/-- A frame is entered for a call, or for a creation once its nonce is counted
up. -/
theorem enters_of_meets {config : Config} {live : Live σ} {signal : Signal}
    {child : Activation} (h : Meets config live signal (.entered child) after) :
    (∃ request, signal = .call request ∧
      enterCall (calleeContext live.frame.context request)
        request.kind.takesValue
        live.frame.context.address request.target request.gas request.window
          live.ledger = .ok child after) ∨
    ∃ request address n bumped, signal = .create request ∧
      Ledger.bumpNonce live.frame.context.address live.ledger = .ok n bumped ∧
      enterCreation live.frame.context.address address request.value
        request.initCode request.gas
        (live.frame.context.depth + 1) bumped = .ok child after := by
  cases h with
  | call h =>
    obtain ⟨hrefused, _⟩ | ⟨_, hentered, henter⟩ := meetCall_eq_ok h
    · cases hrefused
    · cases hentered
      exact .inl ⟨_, rfl, henter⟩
  | create h =>
    obtain ⟨_, hrefused, _⟩ |
      ⟨_, _, _, _, hbump, ⟨hcollided, _⟩ | ⟨_, hentered, henter⟩⟩ :=
        meetCreation_eq_ok h
    · cases hrefused
    · cases hcollided
    · cases hentered
      exact .inr ⟨_, _, _, _, rfl, hbump, henter⟩

/-! ## Openings -/

theorem openCall_eq_ok {message : CallMessage} {opening : Opening}
    (h : openCall message ledger = .ok opening after) :
    opening = .rejected .insufficientBalance 0 ∧ after = ledger ∨
    ∃ root context, opening = .entered root none ∧
      enterCall context true message.caller message.target message.gas
        {} ledger =
        .ok root after := by
  obtain ⟨isShort, reached, hlacks, hrest⟩ := bind_eq_ok_iff.1 h
  obtain ⟨rfl, _⟩ := lacks_eq_ok hlacks
  cases isShort with
  | true =>
    obtain ⟨rfl, rfl⟩ := pure_eq_ok_iff.1 hrest
    exact .inl ⟨rfl, rfl⟩
  | false =>
    obtain ⟨root, last, henter, hpure⟩ := bind_eq_ok_iff.1 hrest
    obtain ⟨rfl, rfl⟩ := pure_eq_ok_iff.1 hpure
    exact .inr ⟨root, _, rfl, henter⟩

/-- A creation is turned down, or it has passed the first checks. -/
theorem openCreation_cases {config : Config} {message : CreateMessage}
    {opening : Opening}
    (h : openCreation config message ledger = .ok opening after) :
    (¬ (message.initCode.size ≤ config.maxInitCodeSize ∧
        Covers ledger message.caller message.value) ∧
      (∃ cause,
        (cause = .insufficientBalance ∨ ∃ size limit,
          cause = .initCodeTooLarge size limit) ∧
          opening = .rejected cause 0) ∧ after = ledger) ∨
    (message.initCode.size ≤ config.maxInitCodeSize ∧
        Covers ledger message.caller message.value) ∧
      ∃ address, proceedToCreate message.caller address message.value
        message.initCode
        message.gas 0 (.rejected .createCollision message.gas)
        (fun root => .entered root (some address)) ledger =
          .ok opening after := by
  rw [openCreation] at h
  by_cases hsize : config.maxInitCodeSize < message.initCode.size
  · rw [if_pos hsize] at h
    obtain ⟨rfl, rfl⟩ := pure_eq_ok_iff.1 h
    exact .inl ⟨fun hpasses => absurd hpasses.1 (Nat.not_le.2 hsize),
      ⟨_, .inr ⟨_, _, rfl⟩, rfl⟩, rfl⟩
  rw [if_neg hsize] at h
  obtain ⟨isShort, reached, hlacks, hrest⟩ := bind_eq_ok_iff.1 h
  have hcovers := covers_iff_of_lacks hlacks
  obtain ⟨rfl, _⟩ := lacks_eq_ok hlacks
  cases isShort with
  | true =>
    obtain ⟨rfl, rfl⟩ := pure_eq_ok_iff.1 hrest
    exact .inl ⟨fun hpasses => absurd (hcovers.1 hpasses.2) (by simp),
      ⟨_, .inl rfl, rfl⟩, rfl⟩
  | false =>
    obtain ⟨nonce, first, hquery, hcreate⟩ := bind_eq_ok_iff.1 hrest
    obtain ⟨_, rfl⟩ := query_eq_ok hquery
    exact .inr ⟨⟨Nat.not_lt.1 hsize, hcovers.2 rfl⟩, _, hcreate⟩

theorem openCreation_eq_ok {config : Config} {message : CreateMessage}
    {opening : Opening}
    (h : openCreation config message ledger = .ok opening after) :
    (¬ (message.initCode.size ≤ config.maxInitCodeSize ∧
        Covers ledger message.caller message.value) ∧
      (∃ cause,
        (cause = .insufficientBalance ∨ ∃ size limit,
          cause = .initCodeTooLarge size limit) ∧
          opening = .rejected cause 0) ∧ after = ledger) ∨
    (message.initCode.size ≤ config.maxInitCodeSize ∧
        Covers ledger message.caller message.value) ∧
      ∃ address n bumped,
        Ledger.bumpNonce message.caller ledger = .ok n bumped ∧
        (opening = .rejected .createCollision message.gas ∧ after = bumped ∨
          ∃ root, opening = .entered root (some address) ∧
            enterCreation message.caller address message.value message.initCode
              message.gas 0
              bumped = .ok root after) := by
  refine (openCreation_cases h).imp_right fun ⟨hpasses, address, hcreate⟩ => ?_
  exact ⟨hpasses, address, creation_eq_ok hcreate⟩

/-! ## Leaving -/

/-- Depositing code spends gas, and writes nothing but the code. -/
theorem left_depositCode (config : Config) (address : Address) (code : Bytes)
    (live : Live σ) :
    ∃ gas ≤ live.frame.gas, ∃ written,
      left (depositCode config address code live) =
        ⟨{ live.frame with gas }, written⟩ ∧
      (written = live.ledger ∨
        written = left (Ledger.setCode address code live.ledger)) := by
  rw [depositCode]
  by_cases hsize : config.maxCodeSize < code.size
  · rw [if_pos hsize]
    exact ⟨live.frame.gas, le_rfl, live.ledger, rfl, .inl rfl⟩
  rw [if_neg hsize]
  by_cases hreserved : code[0]? = some reservedByte
  · rw [if_pos hreserved]
    exact ⟨live.frame.gas, le_rfl, live.ledger, rfl, .inl rfl⟩
  rw [if_neg hreserved]
  beta_reduce
  by_cases hpays : config.schedule.codeDepositCost code.size ≤ live.frame.gas
  · rw [bind_of_ok (Execution.charge_of_le hpays), Exec.tell]
    refine ⟨live.frame.gas - config.schedule.codeDepositCost code.size,
      Nat.sub_le .., left (Ledger.setCode address code live.ledger), ?_,
      .inr rfl⟩
    dsimp only
    cases Ledger.setCode address code live.ledger <;> rfl
  · rw [bind_of_error (Execution.charge_of_lt (Nat.not_le.1 hpays))]
    exact ⟨0, Nat.zero_le _, live.ledger, rfl, .inl rfl⟩

/-- Whether code may be deployed. -/
def Deployable (config : Config) (code : Bytes) : Prop :=
  code.size ≤ config.maxCodeSize ∧ code[0]? ≠ some reservedByte

theorem depositCode_eq_ok {config : Config} {address : Address} {code : Bytes}
    {live reached : Live σ}
    (h : depositCode config address code live = .ok () reached) :
    Deployable config code ∧ reached.frame.effects = live.frame.effects ∧
      Ledger.setCode address code live.ledger = .ok () reached.ledger := by
  rw [depositCode] at h
  obtain ⟨hsize, h⟩ := Execution.ok_of_guarded h
  obtain ⟨hreserved, h⟩ := Execution.ok_of_guarded h
  beta_reduce at h
  refine ⟨⟨Nat.not_lt.1 hsize, hreserved⟩, ?_⟩
  by_cases hpays : config.schedule.codeDepositCost code.size ≤ live.frame.gas
  · rw [bind_of_ok (Execution.charge_of_le hpays), Exec.tell] at h
    dsimp only at h
    cases hset : Ledger.setCode address code live.ledger with
    | ok _ written =>
      rw [hset] at h
      cases h
      exact ⟨rfl, rfl⟩
    | error cause written =>
      rw [hset] at h
      cases h
  · rw [bind_of_error (Execution.charge_of_lt (Nat.not_le.1 hpays))] at h
    cases h

/-- A frame that succeeds hands on its effects.  Before its snapshot is closed
it writes nothing, unless it is a creation: then it writes the code. -/
theorem leave_eq_success {config : Config} {activation : Activation}
    {outcome : Outcome} {output : Bytes} {exit : Exit}
    (h : leave config activation outcome output ledger = .ok exit after)
    (hsuccess : exit.outcome = .success) :
    exit.effects = activation.frame.effects ∧
      ∃ written, Ledger.commit activation.snapshot written = .ok () after ∧
        match activation.role with
        | .call _ => written = ledger
        | .creation address => Deployable config output ∧
            Ledger.setCode address output ledger = .ok () written := by
  have hfail : ∀ {gas : Nat} {failure : Outcome} {kept : Bytes} {written : σ},
      failure ≠ .success →
        fail activation.snapshot gas failure kept written ≠ .ok exit after := by
    intro gas failure kept written hfailure hfail
    obtain ⟨_, _, _, hpure⟩ := bind_eq_ok_iff.1 hfail
    obtain ⟨rfl, _⟩ := pure_eq_ok_iff.1 hpure
    exact hfailure hsuccess
  cases outcome with
  | revert => exact absurd h (hfail (by simp))
  | halt cause => exact absurd h (hfail (by simp))
  | success =>
    cases hrole : activation.role with
    | call window =>
      simp only [leave, hrole] at h
      obtain ⟨_, _, hcommit, hpure⟩ := bind_eq_ok_iff.1 h
      obtain ⟨rfl, rfl⟩ := pure_eq_ok_iff.1 hpure
      exact ⟨rfl, ledger, hcommit, rfl⟩
    | creation address =>
      simp only [leave, hrole] at h
      cases hdeposit : depositCode config address output
        ⟨activation.frame, ledger⟩ with
      | ok _ live =>
        rw [hdeposit] at h
        obtain ⟨hdeployable, heffects, hset⟩ := depositCode_eq_ok hdeposit
        obtain ⟨_, _, hcommit, hpure⟩ := bind_eq_ok_iff.1 h
        obtain ⟨rfl, rfl⟩ := pure_eq_ok_iff.1 hpure
        exact ⟨heffects, live.ledger, hcommit, hdeployable, hset⟩
      | error cause live =>
        rw [hdeposit] at h
        cases cause with
        | halt cause => exact absurd h (hfail (by simp))
        | ledger cause =>
          dsimp only at h
          split at h <;> cases h

/-- How a frame is left: with no more gas than it had and with none after a
halt, by a commit if its exit is a success and by a rollback if it is not, and
with at most the code of a new contract written before that. -/
structure Leaves (activation : Activation) (output : Bytes) (ledger : σ)
    (exit : Exit) (after : σ) : Prop where
  gasLeft_le : exit.gasLeft ≤ activation.frame.gas
  gasLeft_of_halt : ∀ cause, exit.outcome = .halt cause → exit.gasLeft = 0
  closes : ∃ written,
    (written = ledger ∨ ∃ address,
      written = left (Ledger.setCode address output ledger)) ∧
      (exit.outcome = .success ∧
        Ledger.commit activation.snapshot written = .ok () after ∨
        exit.outcome ≠ .success ∧
        Ledger.rollback activation.snapshot written = .ok () after)

theorem leaves_of_leave {config : Config} {activation : Activation}
    {outcome : Outcome} {output : Bytes} {exit : Exit}
    (h : leave config activation outcome output ledger = .ok exit after) :
    Leaves activation output ledger exit after := by
  have hsucceed : ∀ {frame : Frame} {written : σ},
      frame.gas ≤ activation.frame.gas →
      (written = ledger ∨ ∃ address,
        written = left (Ledger.setCode address output ledger)) →
      succeed activation.snapshot frame output written = .ok exit after →
      Leaves activation output ledger exit after := by
    intro frame written hgas hwritten hsucceed
    obtain ⟨_, reached, hcommit, hpure⟩ := bind_eq_ok_iff.1 hsucceed
    obtain ⟨rfl, rfl⟩ := pure_eq_ok_iff.1 hpure
    exact ⟨hgas, by simp, written, hwritten, .inl ⟨rfl, hcommit⟩⟩
  have hfail : ∀ {gas : Nat} {failure : Outcome} {kept : Bytes} {written : σ},
      gas ≤ activation.frame.gas → (∀ cause, failure = .halt cause → gas = 0) →
      failure ≠ .success →
      (written = ledger ∨ ∃ address,
        written = left (Ledger.setCode address output ledger)) →
      fail activation.snapshot gas failure kept written = .ok exit after →
      Leaves activation output ledger exit after := by
    intro gas failure kept written hgas hhalt hfailure hwritten hfail
    obtain ⟨_, reached, hrollback, hpure⟩ := bind_eq_ok_iff.1 hfail
    obtain ⟨rfl, rfl⟩ := pure_eq_ok_iff.1 hpure
    exact ⟨hgas, hhalt, written, hwritten, .inr ⟨hfailure, hrollback⟩⟩
  cases outcome with
  | revert => exact hfail le_rfl (by simp) (by simp) (.inl rfl) h
  | halt cause => exact hfail (Nat.zero_le _) (by simp) (by simp) (.inl rfl) h
  | success =>
    cases hrole : activation.role with
    | call window =>
      simp only [leave, hrole] at h
      exact hsucceed le_rfl (.inl rfl) h
    | creation address =>
      simp only [leave, hrole] at h
      obtain ⟨gas, hgas, written, hleft, hwritten⟩ :=
        left_depositCode config address output ⟨activation.frame, ledger⟩
      have hwritten : written = ledger ∨
          ∃ address, written = left (Ledger.setCode address output ledger) :=
        hwritten.imp_right fun hset => ⟨address, hset⟩
      cases hdeposit : depositCode config address output
        ⟨activation.frame, ledger⟩ with
      | ok _ live =>
        simp only [hdeposit, left] at h hleft
        subst hleft
        exact hsucceed hgas hwritten h
      | error cause live =>
        simp only [hdeposit, left] at h hleft
        subst hleft
        cases cause with
        | halt cause =>
          exact hfail (Nat.zero_le _) (by simp) (by simp) hwritten h
        | ledger cause =>
          dsimp only at h
          split at h <;> cases h

/-! ## Whole transactions -/

/-- What a transaction makes of the conclusion of its frames. -/
def close (config : Config) (gas : Nat) (created : Option Address) :
    Conclusion σ → EStateM.Result Failure σ Receipt
  | .failed cause unfinished ledger => .error cause (abandon unfinished ledger)
  | .finished exit ledger =>
    match settle config gas created exit ledger with
    | .ok receipt ledger => .ok receipt ledger
    | .error cause ledger => .error (.ledger cause) ledger

theorem transact_of_entered {config : Config} {env : Environment}
    {fuel gas : Nat} {opening : EStateM LedgerError σ Opening} {entered : σ}
    {root : Activation} {created : Option Address}
    (h : opening ledger = .ok (.entered root created) entered) :
    transact config env fuel gas opening ledger =
      (drive config env fuel ⟨root, [], entered⟩).map
        (close config gas created) := by
  rw [transact, h]
  dsimp only
  cases drive config env fuel ⟨root, [], entered⟩ with
  | none => rfl
  | some conclusion =>
    cases conclusion with
    | failed cause unfinished left => rfl
    | finished exit left =>
      rw [Option.map_some, close]
      dsimp only
      cases settle config gas created exit left <;> rfl

/-- A receipt comes from the opening or from the end of the first frame. -/
theorem transact_eq_ok {config : Config} {env : Environment} {fuel gas : Nat}
    {opening : EStateM LedgerError σ Opening} {receipt : Receipt}
    (h : transact config env fuel gas opening ledger =
      some (.ok receipt after)) :
    opening ledger = .ok (.settled receipt) after ∨
    ∃ root created entered exit ended,
      opening ledger = .ok (.entered root created) entered ∧
      drive config env fuel ⟨root, [], entered⟩ = some (.finished exit ended) ∧
      settle config gas created exit ended = .ok receipt after := by
  rw [transact] at h
  cases hopening : opening ledger with
  | error cause reached => simp [hopening] at h
  | ok opened reached =>
    cases opened with
    | settled early =>
      simp only [hopening, Option.some.injEq, EStateM.Result.ok.injEq] at h
      obtain ⟨rfl, rfl⟩ := h
      exact .inl rfl
    | entered root created =>
      simp only [hopening] at h
      cases hdrive : drive config env fuel ⟨root, [], reached⟩ with
      | none => simp [hdrive] at h
      | some conclusion =>
        cases conclusion with
        | failed cause unfinished ended => simp [hdrive] at h
        | finished exit ended =>
          simp only [hdrive] at h
          cases hsettle : settle config gas created exit ended with
          | error cause last => simp [hsettle] at h
          | ok settled last =>
            simp only [hsettle, Option.some.injEq, EStateM.Result.ok.injEq] at h
            obtain ⟨rfl, rfl⟩ := h
            exact .inr ⟨root, created, reached, exit, ended, rfl, hdrive,
              hsettle⟩

/-- What a receipt says of the exit it is made of. -/
theorem settle_eq_ok {config : Config} {gas : Nat} {created : Option Address}
    {exit : Exit} {receipt : Receipt}
    (h : settle config gas created exit ledger = .ok receipt after) :
    receipt.outcome = exit.outcome ∧
    (exit.outcome = .success →
      receipt.gasRefunded =
        config.schedule.cappedRefund (gas - exit.gasLeft) exit.effects.refund ∧
      receipt.gasUsed = gas - exit.gasLeft - receipt.gasRefunded) ∧
    (exit.outcome ≠ .success →
      after = ledger ∧ receipt.gasRefunded = 0 ∧
      receipt.gasUsed = gas - exit.gasLeft) := by
  cases houtcome : exit.outcome with
  | success =>
    simp only [settle, houtcome] at h
    obtain ⟨_, reached, _, hpure⟩ := bind_eq_ok_iff.1 h
    obtain ⟨rfl, rfl⟩ := pure_eq_ok_iff.1 hpure
    exact ⟨rfl, fun _ => ⟨rfl, rfl⟩, fun hne => absurd rfl hne⟩
  | revert =>
    simp only [settle, houtcome] at h
    obtain ⟨rfl, rfl⟩ := pure_eq_ok_iff.1 h
    exact ⟨rfl, by simp, fun _ => ⟨rfl, rfl, rfl⟩⟩
  | halt cause =>
    simp only [settle, houtcome] at h
    obtain ⟨rfl, rfl⟩ := pure_eq_ok_iff.1 h
    exact ⟨rfl, by simp, fun _ => ⟨rfl, rfl, rfl⟩⟩

/-- The receipt of a transaction tells the effects of its last frame if this has
succeeded, and else none. -/
theorem effects_of_settle {config : Config} {gas : Nat}
    {created : Option Address} {exit : Exit} {receipt : Receipt}
    (h : settle config gas created exit ledger = .ok receipt after) :
    (exit.outcome = .success →
      receipt.logs = exit.effects.logs ∧
      receipt.deleted = exit.effects.destroyed.toList) ∧
    (exit.outcome ≠ .success → receipt.logs = #[] ∧ receipt.deleted = []) := by
  cases houtcome : exit.outcome with
  | success =>
    simp only [settle, houtcome] at h
    obtain ⟨_, reached, _, hpure⟩ := bind_eq_ok_iff.1 h
    obtain ⟨rfl, rfl⟩ := pure_eq_ok_iff.1 hpure
    exact ⟨fun _ => ⟨rfl, rfl⟩, fun hne => absurd rfl hne⟩
  | revert | halt cause =>
    simp only [settle, houtcome] at h
    obtain ⟨rfl, rfl⟩ := pure_eq_ok_iff.1 h
    exact ⟨by simp, fun _ => ⟨rfl, rfl⟩⟩

/-- A transaction can be settled on a ledger on which accounts can be deleted,
one after another. -/
theorem exists_settle_of_deletes {P : σ → Prop}
    (hdelete : ∀ a ledger, P ledger →
      ∃ after, Ledger.deleteAccount a ledger = .ok () after ∧ P after)
    (config : Config) (gas : Nat) (created : Option Address) (exit : Exit)
    (h : P ledger) :
    ∃ receipt after, settle config gas created exit ledger =
      .ok receipt after := by
  have hdeletes : ∀ (deleted : List Address) (ledger : σ), P ledger →
      ∃ after, deleted.forM Ledger.deleteAccount ledger = .ok () after := by
    intro deleted
    induction deleted with
    | nil => exact fun ledger _ => ⟨ledger, rfl⟩
    | cons a rest ih =>
      intro ledger h
      obtain ⟨reached, hfirst, hreached⟩ := hdelete a ledger h
      obtain ⟨after, hrest⟩ := ih reached hreached
      exact ⟨after, (bind_of_ok hfirst).trans hrest⟩
  cases houtcome : exit.outcome with
  | success =>
    obtain ⟨after, hdeleted⟩ := hdeletes exit.effects.destroyed.toList ledger h
    simp only [settle, houtcome]
    exact ⟨_, after, bind_of_ok hdeleted⟩
  | revert | halt =>
    simp only [settle, houtcome]
    exact ⟨_, _, rfl⟩

/-- The receipt of a transaction and the ledger that it leaves, if it ends with
a receipt. -/
def ending? : Option (EStateM.Result Failure σ Receipt) → Option (Receipt × σ)
  | some (.ok receipt after) => some (receipt, after)
  | some (.error _ _) | none => none

omit [Ledger σ] in
theorem eq_of_ending? {result : Option (EStateM.Result Failure σ Receipt)}
    {receipt : Receipt} {after : σ}
    (h : ending? result = some (receipt, after)) :
    result = some (.ok receipt after) := by
  rcases result with _ | ⟨found, left⟩ | ⟨cause, left⟩ <;> cases h
  rfl

end ContractMachine.Transaction
