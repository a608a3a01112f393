import ContractMachine.Proofs.Execution.Marks
import ContractMachine.Proofs.Ledger.Holdings
import ContractMachine.Proofs.Transaction.Staging
import ContractMachine.Proofs.Transaction.Success
import ContractMachine.Proofs.Transaction.ValueConservation

/-!
# Accounts are isolated

Frames write to the account that they run on, and all that they do to another is
to pay it.  A call brings up, and a creation founds, the account of the frame
that it enters; code is deployed where the creation runs; and the accounts that
are deleted at the end are those on which frames have run.  So an account on
which no frame runs keeps its nonce, its code and its storage, and loses
nothing, whoever runs its code or names it as the beneficiary of what he
destroys.
-/

namespace ContractMachine

theorem Word.le_saturatingAdd (a b : Word) : a ≤ a.saturatingAdd b := by
  by_cases hfits : a.toNat + b.toNat < 2 ^ 256
  · rw [BitVec.le_def, toNat_saturatingAdd hfits]
    exact Nat.le_add_right ..
  · have hover : a.uaddOverflow b = true := by
      simpa [BitVec.uaddOverflow] using hfits
    rw [saturatingAdd, if_pos hover, top, BitVec.le_def, BitVec.toNat_allOnes]
    exact Nat.le_sub_one_of_lt a.isLt

/-- The account at an address is as it was, with its storage, and holds no
less. -/
structure FlatState.Preserves (x : Address) (before after : FlatState) :
    Prop where
  nonce : (after.held x).nonce = (before.held x).nonce
  code : (after.held x).code = (before.held x).code
  codeHash : (after.held x).codeHash = (before.held x).codeHash
  balance_le : (before.held x).balance ≤ (after.held x).balance
  slot : after.slot x = before.slot x

namespace FlatState

variable {state written : FlatState} {x a : Address}

theorem Preserves.refl (x : Address) (state : FlatState) :
    state.Preserves x state :=
  ⟨rfl, rfl, rfl, BitVec.le_refl _, rfl⟩

theorem Preserves.trans {first second third : FlatState}
    (h : first.Preserves x second) (h' : second.Preserves x third) :
    first.Preserves x third where
  nonce := h'.nonce.trans h.nonce
  code := h'.code.trans h.code
  codeHash := h'.codeHash.trans h.codeHash
  balance_le := BitVec.le_trans h.balance_le h'.balance_le
  slot := h'.slot.trans h.slot

theorem Preserves.of_eq (hheld : written.held x = state.held x)
    (hslot : written.slot x = state.slot x) : state.Preserves x written := by
  refine ⟨?_, ?_, ?_, ?_, hslot⟩ <;> rw [hheld]
  exact BitVec.le_refl _

theorem preserves_modify_of_ne (h : x ≠ a) (f : Account → Account) :
    state.Preserves x (state.modify a f) :=
  .of_eq (by rw [held_modify, if_neg h]) (by rw [slot_modify])

theorem preserves_create_of_ne (h : x ≠ a) :
    state.Preserves x (state.create a) :=
  .of_eq (by rw [held_create, if_neg h]) (slot_create_of_ne h)

theorem preserves_found_of_ne (h : x ≠ a) : state.Preserves x (state.found a) :=
  (preserves_create_of_ne h).trans
    (preserves_modify_of_ne h ({ · with nonce := 1 }))

theorem preserves_credit (target : Address) (value : Word) :
    state.Preserves x
      (state.setBalance target
        ((state.held target).balance.saturatingAdd value)) := by
  by_cases hx : x = target
  · subst hx
    have hheld := held_modify state x x
      ({ · with balance := (state.held x).balance.saturatingAdd value })
    rw [if_pos rfl] at hheld
    refine ⟨?_, ?_, ?_, ?_, rfl⟩ <;> rw [setBalance, hheld]
    exact Word.le_saturatingAdd ..
  · exact preserves_modify_of_ne hx _

/-- An account is preserved by all acts of others: what these pay to it is
added. -/
theorem preserves_of_act (h : Act a state written) (hne : x ≠ a) :
    state.Preserves x written := by
  cases h with
  | store key value =>
    exact .of_eq (held_setSlot ..) (slot_setSlot_of_ne hne key value)
  | count _ => exact preserves_modify_of_ne hne _
  | pay target _ =>
    exact (preserves_modify_of_ne hne _).trans (preserves_credit target _)

end FlatState

namespace Transaction

open Actions FlatState LayeredLedger

variable {config : Config} {env : Environment} {ledger after : LayeredLedger}
  {fuel gas : Nat} {opening : EStateM LedgerError LayeredLedger Opening}
  {receipt : Receipt} {caller x : Address}

/-! ## States -/

/-- An account is preserved since the opening of a frame, which does not create
it. -/
def PreservesFor (x : Address) (role : Role) (opening state : FlatState) :
    Prop :=
  role ≠ .creation x ∧ opening.Preserves x state

theorem PreservesFor.trans {role : Role} {first second third : FlatState}
    (h : PreservesFor x role first second) (h' : second.Preserves x third) :
    PreservesFor x role first third :=
  ⟨h.1, h.2.trans h'⟩

theorem carries_preservesFor (config : Config) (x : Address) :
    Carries config (· ≠ x) (PreservesFor x) where
  refl _ state := ⟨by rintro ⟨⟩, .refl x state⟩
  appears ha _ h := h.trans (preserves_create_of_ne ha.symm)
  found ha _ := ⟨fun hrole => ha (Role.creation.inj hrole),
    preserves_found_of_ne ha.symm⟩
  act ha hact h := h.trans (preserves_of_act hact ha.symm)
  deploy _ h :=
    h.trans (preserves_modify_of_ne
      (fun hx => h.1 (congrArg Role.creation hx.symm)) _)
  commit houter h := houter.trans h.2

/-! ## Marks -/

/-- Frames that run on other accounts mark none but these for deletion. -/
theorem frameInvariant_spares (config : Config) (env : Environment)
    (x : Address) :
    FrameInvariant LayeredLedger config env (· ≠ x) (Frame.Spares x) where
  start _ _ _ hne := ⟨hne, Std.TreeSet.not_mem_emptyc⟩
  step _ h := Execution.spares_step h
  refuse := by
    intro frame answered gas h hrefuse
    obtain ⟨_, rfl⟩ := Frame.refuse_eq_ok_iff.1 hrefuse
    exact ⟨h.address_ne, h.not_mem_destroyed⟩
  collide := by
    intro frame answered h hanswer
    obtain ⟨_, rfl⟩ := Frame.answer_eq_ok_iff.1 hanswer
    exact ⟨h.address_ne, h.not_mem_destroyed⟩
  resume := by
    intro parent frame role exit h hexit hresume
    obtain ⟨_, _, _, rfl⟩ := Frame.exists_of_resume hresume
    refine ⟨h.address_ne, ?_⟩
    rw [Frame.effectsAfter]
    split_ifs with hsuccess
    · intro hmem
      obtain ⟨child, hchild, heffects⟩ := hexit hsuccess
      rw [heffects] at hmem
      obtain hown | hlater := Effects.mem_absorb hmem
      · exact h.not_mem_destroyed hown
      · exact hchild.not_mem_destroyed hlater
    · exact h.not_mem_destroyed

/-! ## Whole transactions -/

theorem mem_deleted_of_settle {created : Option Address} {exit : Exit}
    {a : Address} (h : settle config gas created exit ledger =
      .ok receipt after) (ha : a ∈ receipt.deleted) :
    exit.outcome = .success ∧ a ∈ exit.effects.destroyed := by
  obtain ⟨hsucceeds, hfails⟩ := effects_of_settle h
  by_cases hsuccess : exit.outcome = .success
  · rw [(hsucceeds hsuccess).2] at ha
    exact ⟨hsuccess, Std.TreeSet.mem_toList.1 ha⟩
  · rw [(hfails hsuccess).2] at ha
    cases ha

/-- No frame that a transaction pushes runs on the account: each is on top when
it is pushed. -/
def NeverRunsOn (config : Config) (env : Environment) (x : Address)
    (opening : EStateM LedgerError LayeredLedger Opening)
    (ledger : LayeredLedger) : Prop :=
  ∀ {root created entered},
    opening ledger = .ok (.entered root created) entered →
    RunsOn config env (· ≠ x) ⟨root, [], entered⟩

/-- A transaction deletes no account on which none of its frames has run. -/
theorem not_mem_deleted (hopens : Opens config gas opening)
    (hnever : NeverRunsOn config env x opening ledger)
    (h : transact config env fuel gas opening ledger =
      some (.ok receipt after)) :
    x ∉ receipt.deleted := by
  obtain hopening | ⟨root, created, entered, exit, ended, hopening, hdrive,
      hsettle⟩ :=
    transact_eq_ok h
  · obtain ⟨_, _, rfl⟩ | rfl := settled_receipt hopens hopening <;>
      exact List.not_mem_nil
  · intro hmem
    obtain ⟨hsuccess, hmarked⟩ := mem_deleted_of_settle hsettle hmem
    have hspares := frameInvariant_spares config env x
    obtain ⟨last, hreaches, _, hends⟩ := exists_last_of_finished hdrive
    have hlast := hspares.of_reaches hopens hopening (hnever hopening) hreaches
    obtain ⟨child, hchild, heffects⟩ :=
      hspares.of_finished (hlast _ List.mem_cons_self) hends hsuccess
    rw [heffects] at hmarked
    exact hchild.not_mem_destroyed hmarked

/-- Nothing that can be read of an account has changed, but that its balance may
have grown. -/
structure Untouched (x : Address) (before after : LayeredLedger) : Prop where
  nonce : Ledger.nonce after x = Ledger.nonce before x
  code : Ledger.code after x = Ledger.code before x
  codeHash : Ledger.codeHash after x = Ledger.codeHash before x
  slot : ∀ key, Ledger.slot after x key = Ledger.slot before x key
  balance_le : ∃ m n,
    Ledger.balance before x = .ok m ∧ Ledger.balance after x = .ok n ∧ m ≤ n

theorem untouched_of_preserves
    (h : ledger.states.top.Preserves x after.states.top) :
    Untouched x ledger after where
  nonce := congrArg Except.ok h.nonce
  code := congrArg Except.ok h.code
  codeHash := congrArg Except.ok h.codeHash
  slot key := congrArg Except.ok (congrFun h.slot key)
  balance_le := ⟨_, _, rfl, rfl, h.balance_le⟩

theorem untouched_of_transact (hopens : Opens config gas opening)
    (hbegins : ∀ {opened entered}, opening ledger = .ok opened entered →
      Begins caller ledger opened entered)
    (hcaller : caller ≠ x) (hnever : NeverRunsOn config env x opening ledger)
    (h : transact config env fuel gas opening ledger =
      some (.ok receipt after)) :
    Untouched x ledger after := by
  obtain ⟨settled, hsettles, _, hdeletes⟩ := exists_settled_of_transact hopens h
  obtain ⟨_, hpreserves⟩ :=
    hsettles.related (carries_preservesFor config x) hbegins hcaller hnever
  have hspared := not_mem_deleted hopens hnever h
  have htop := top_of_forM_deleteAccount hdeletes
  refine untouched_of_preserves (hpreserves.trans (.of_eq ?_ ?_))
  · rw [htop, held, account_foldl_delete, if_neg hspared, held]
  · rw [htop, slot_foldl_delete, if_neg hspared]

/-- Whoever runs the code of another account by `DELEGATECALL` or `CALLCODE`
runs it on his own. -/
theorem address_of_borrowed_code {top child : Activation} {frame : Frame}
    {request : CallRequest} {live : Live LayeredLedger}
    (hstep : Execution.step config env ⟨top.frame, ledger⟩ =
      .ok (some (.call request)) live)
    (hkind : request.kind = .delegateCall ∨ request.kind = .callCode)
    (h : turn config env top ledger = .enters frame child after) :
    child.address = top.address := by
  have hcontext := Execution.context_step config env ⟨top.frame, ledger⟩
  rw [hstep] at hcontext
  have haddress : live.frame.context.address = top.address :=
    congrArg Context.address hcontext
  obtain ⟨signal, reached, hsignal, _, hmeets⟩ := turn_eq_enters h
  rw [hstep] at hsignal
  cases hsignal
  obtain ⟨found, hfound, henter⟩ | ⟨_, _, _, _, hfound, _⟩ :=
    enters_of_meets hmeets
  · cases hfound
    obtain ⟨_, hframe, _⟩ := enterCall_eq_ok henter
    rw [Activation.address, hframe, ← haddress]
    obtain hdelegate | hcode := hkind
    · simp [Frame.start, calleeContext, hdelegate]
    · simp [Frame.start, calleeContext, hcode]
  · cases hfound

/-- Accounts are isolated.  If none of the frames of a call or a creation runs
on an account other than the caller, then once the transaction has ended with a
receipt, the nonce, the code and the storage of the account are what they were,
and its balance is no smaller.  Code that is run by `DELEGATECALL` or `CALLCODE`
does not run on the account that it belongs to. -/
theorem accounts_are_isolated (config : Config) (env : Environment)
    (x : Address) :
    (∀ fuel message (ledger after : LayeredLedger) receipt, message.caller ≠ x →
      NeverRunsOn config env x (openCall message) ledger →
      call config env fuel message ledger = some (.ok receipt after) →
      Untouched x ledger after) ∧
    (∀ fuel message (ledger after : LayeredLedger) receipt, message.caller ≠ x →
      NeverRunsOn config env x (openCreation config message) ledger →
      create config env fuel message ledger = some (.ok receipt after) →
      Untouched x ledger after) ∧
    ∀ top child frame request (ledger after : LayeredLedger) live,
      Execution.step config env ⟨top.frame, ledger⟩ =
        .ok (some (.call request)) live →
      request.kind = .delegateCall ∨ request.kind = .callCode →
      turn config env top ledger = .enters frame child after →
      child.address = top.address := by
  refine ⟨?_, ?_, ?_⟩
  · intro fuel message ledger after receipt hcaller hnever h
    exact untouched_of_transact (.inl ⟨message, rfl, rfl⟩) begins_of_openCall
      hcaller hnever h
  · intro fuel message ledger after receipt hcaller hnever h
    exact untouched_of_transact (.inr ⟨message, rfl, rfl⟩)
      begins_of_openCreation hcaller hnever h
  · intro top child frame request ledger after live hstep hkind hturn
    exact address_of_borrowed_code hstep hkind hturn

/-- A ledger with a contract that leaves all it holds to the account at 3. -/
def bequeathing : LayeredLedger :=
  (({} : LayeredLedger).install 2
    (({ balance := 5 } : Account).withCode #[0x60, 3, 0xff])).install 3
    { balance := 7, nonce := 1 }

theorem heir_is_untouched :
    ∃ receipt after, call {} {} 2 { caller := 1, target := 2, gas := 100000 }
      bequeathing =
      some (.ok receipt after) ∧ Untouched 3 bequeathing after := by
  obtain ⟨root, entered, next, exit, ended, hopening, hroot, hfirst, hnext,
      hlast⟩ :
      ∃ root entered next exit ended,
        openCall { caller := 1, target := 2, gas := 100000 } bequeathing =
          .ok (.entered root none) entered ∧ root.address = 2 ∧
        advance {} {} ⟨root, [], entered⟩ = .running next ∧
        next.top.address = 2 ∧
        advance {} {} next = .concluded (.finished exit ended) :=
    ⟨_, _, _, _, _, rfl, rfl, rfl, rfl, rfl⟩
  have hnever : NeverRunsOn {} {} 3
      (openCall { caller := 1, target := 2, gas := 100000 }) bequeathing := by
    intro _ _ _ hopened reached hreaches
    rw [hopening] at hopened
    cases hopened
    obtain rfl | ⟨_, hadvance, hrest⟩ := hreaches.cases_head
    · rw [hroot]
      decide
    rw [hfirst] at hadvance
    cases hadvance
    obtain rfl | ⟨_, hadvance, _⟩ := hrest.cases_head
    · rw [hnext]
      decide
    rw [hlast] at hadvance
    cases hadvance
  have hdrive : drive {} {} 2 ⟨root, [], entered⟩ =
      some (.finished exit ended) := by
    rw [drive, hfirst]
    dsimp only
    rw [drive, hlast]
  obtain ⟨receipt, after, hsettle⟩ := exists_settle {} 100000 none exit ended
  have hcall : call {} {} 2 { caller := 1, target := 2, gas := 100000 }
      bequeathing = some (.ok receipt after) := by
    rw [call, transact_of_entered hopening, hdrive, Option.map_some, close,
      hsettle]
  exact ⟨receipt, after, hcall,
    (accounts_are_isolated {} {} 3).1 _ _ _ _ _ (by decide) hnever hcall⟩

end Transaction

end ContractMachine
