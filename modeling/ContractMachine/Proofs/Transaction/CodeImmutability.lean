import ContractMachine.Proofs.Ledger.Holdings
import ContractMachine.Proofs.Transaction.Staging
import ContractMachine.Proofs.Transaction.ValueConservation

/-!
# Deployed code is immutable

Starting an account afresh would reset its nonce and its code.  A call does so
only where no account is, and a creation only where there is neither nonce nor
code; the nonce of the new account is one before any code runs on it, and from
there on it does not fall.  So a second creation at the same address cannot come
that far unless the first has been taken back, and code is deployed only where
there was none when the transaction began.

Accounts that destroyed themselves are deleted when all frames have ended, and
this is the only way for an account with a nonce or code to lose it.
-/

namespace ContractMachine

open Transaction

/-- What may become of an account: its nonce does not fall, and if its code
changes, it had neither nonce nor code and has both a nonce and code that may be
deployed. -/
structure Account.Evolves (config : Config) (before after : Account) :
    Prop where
  nonce_le : before.nonce ≤ after.nonce
  code_eq_or : (after.code = before.code ∧ after.codeHash = before.codeHash) ∨
    (before.nonce = 0 ∧ before.codeHash = Keccak.emptyHash) ∧
      1 ≤ after.nonce ∧ Deployable config after.code

namespace Account.Evolves

variable {config : Config}

theorem refl (account : Account) : account.Evolves config account :=
  ⟨le_rfl, .inl ⟨rfl, rfl⟩⟩

theorem trans {first second third : Account} (h : first.Evolves config second)
    (h' : second.Evolves config third) : first.Evolves config third := by
  obtain ⟨hle, hcode⟩ := h
  obtain ⟨hle', hcode'⟩ := h'
  refine ⟨hle.trans hle', ?_⟩
  obtain ⟨hsame, hhash⟩ | ⟨hfree, hpos, hdeployable⟩ := hcode
  · obtain ⟨hsame', hhash'⟩ | ⟨⟨hnonce, hempty⟩, hdeployed⟩ := hcode'
    · exact .inl ⟨hsame'.trans hsame, hhash'.trans hhash⟩
    · have hzero : first.nonce = 0 := Nat.le_zero.1 (hnonce ▸ hle)
      exact .inr ⟨⟨hzero, hhash ▸ hempty⟩, hdeployed⟩
  · obtain ⟨hsame', _⟩ | ⟨⟨hnonce, _⟩, _⟩ := hcode'
    · exact .inr ⟨hfree, hpos.trans hle', hsame' ▸ hdeployable⟩
    · -- What the first step has deployed is no longer free for the second.
      exact absurd hnonce (Nat.one_le_iff_ne_zero.1 hpos)

end Account.Evolves

namespace FlatState

variable {config : Config} {state written : FlatState} {a : Address}

theorem evolves_setBalance (state : FlatState) (a b : Address)
    (balance : Word) :
    (state.held b).Evolves config ((state.setBalance a balance).held b) := by
  rw [setBalance, held_modify]
  split_ifs
  · exact ⟨le_rfl, .inl ⟨rfl, rfl⟩⟩
  · exact .refl _

/-- Acts of accounts leave all code alone and let no nonce fall. -/
theorem evolves_of_act (h : Act a state written) (b : Address) :
    (state.held b).Evolves config (written.held b) := by
  cases h with
  | store key value =>
    rw [held_setSlot]
    exact .refl _
  | pay target _ => exact (evolves_setBalance ..).trans (evolves_setBalance ..)
  | count _ =>
    rw [setNonce, held_modify]
    split_ifs with hb
    · subst b
      exact ⟨Nat.le_succ _, .inl ⟨rfl, rfl⟩⟩
    · exact .refl _

/-- A new contract has a nonce, and no code yet. -/
theorem evolves_found (hfree : state.IsFree a) (b : Address) :
    (state.held b).Evolves config ((state.found a).held b) := by
  rw [held_found]
  split_ifs with hb
  · subst b
    refine ⟨hfree.1.le.trans (Nat.zero_le 1), .inr ⟨hfree, le_rfl, ?_, ?_⟩⟩
    · exact Nat.zero_le _
    · rintro ⟨⟩
  · exact .refl _

end FlatState

namespace Transaction

open FlatState LayeredLedger

variable {config : Config} {env : Environment} {ledger after : LayeredLedger}
  {fuel gas : Nat} {opening : EStateM LedgerError LayeredLedger Opening}
  {receipt : Receipt} {caller : Address}

/-- What has become of all accounts since the opening of a frame.  A creation
moreover has opened where there was neither nonce nor code, and its account has
a nonce. -/
def EvolvesFor (config : Config) (role : Role) (opening state : FlatState) :
    Prop :=
  (∀ b, (opening.held b).Evolves config (state.held b)) ∧
    ∀ a, role = .creation a → opening.IsFree a ∧ 1 ≤ (state.held a).nonce

theorem EvolvesFor.trans {role : Role} {first second third : FlatState}
    (h : EvolvesFor config role first second)
    (h' : ∀ b, (second.held b).Evolves config (third.held b)) :
    EvolvesFor config role first third := by
  refine ⟨fun b => (h.1 b).trans (h' b), fun a hrole => ?_⟩
  obtain ⟨hfree, hpos⟩ := h.2 a hrole
  exact ⟨hfree, hpos.trans (h' a).nonce_le⟩

theorem carries_evolvesFor (config : Config) :
    Carries config (fun _ => True) (EvolvesFor config) where
  refl _ _ := ⟨fun _ => .refl _, by rintro _ ⟨⟩⟩
  appears _ hnone h := h.trans fun b => held_create_of_none hnone b ▸ .refl _
  found _ hfree := by
    refine ⟨evolves_found hfree, ?_⟩
    rintro _ ⟨⟩
    rw [held_found, if_pos rfl]
    exact ⟨hfree, le_rfl⟩
  act _ hact h := h.trans (evolves_of_act hact)
  deploy {opening state a code} hdeployable h := by
    obtain ⟨hevolves, hcreation⟩ := h
    obtain ⟨hfree, hpos⟩ := hcreation a rfl
    refine ⟨fun b => ?_, ?_⟩
    · rw [held_modify]
      split_ifs with hb
      · subst b
        exact ⟨(hevolves a).nonce_le, .inr ⟨hfree, hpos, hdeployable⟩⟩
      · exact hevolves b
    · rintro _ ⟨⟩
      rw [held_modify, if_pos rfl]
      exact ⟨hfree, hpos⟩
  commit houter h := houter.trans h.1

/-! ## Whole transactions -/

/-- What a transaction that does not delete an account may make of it, in terms
of what can be read. -/
structure KeepsCode (config : Config) (a : Address)
    (before after : LayeredLedger) : Prop where
  nonce_le : ∃ m n, Ledger.nonce before a = .ok m ∧
    Ledger.nonce after a = .ok n ∧ m ≤ n
  of_code_ne : Ledger.code after a ≠ Ledger.code before a →
    Ledger.nonce before a = .ok 0 ∧
    Ledger.codeHash before a = .ok Keccak.emptyHash ∧
    (∃ n, Ledger.nonce after a = .ok n ∧ 1 ≤ n) ∧
    ∃ code, Ledger.code after a = .ok code ∧ code.size ≤ config.maxCodeSize ∧
      code[0]? ≠ some 0xef

/-- A deleted account is gone, with all that it stored. -/
def IsGone (a : Address) (after : LayeredLedger) : Prop :=
  Ledger.hasAccount after a = .ok false ∧ ∀ key, Ledger.slot after a key = .ok 0

theorem isGone_of_deletes {deleted : List Address} {settled : LayeredLedger}
    {a : Address} (h : deleted.forM Ledger.deleteAccount settled = .ok () after)
    (ha : a ∈ deleted) :
    IsGone a after := by
  have htop := top_of_forM_deleteAccount h
  have haccount : after.states.top.account a = none := by
    rw [htop, account_foldl_delete, if_pos ha]
  have hslot : after.states.top.slot a = fun _ => 0 := by
    rw [htop, slot_foldl_delete, if_pos ha]
  refine ⟨?_, fun key => congrArg Except.ok (congrFun hslot key)⟩
  have hmissing : after.account a = none := haccount
  simp [Ledger.hasAccount, hmissing]

theorem held_of_deletes {deleted : List Address} {settled : LayeredLedger}
    {a : Address} (h : deleted.forM Ledger.deleteAccount settled = .ok () after)
    (ha : a ∉ deleted) :
    after.states.top.held a = settled.states.top.held a := by
  rw [held, held, top_of_forM_deleteAccount h, account_foldl_delete, if_neg ha]

theorem keepsCode_of_evolves {a : Address}
    (h : (ledger.states.top.held a).Evolves config (after.states.top.held a)) :
    KeepsCode config a ledger after := by
  refine ⟨⟨_, _, rfl, rfl, h.nonce_le⟩, fun hcode => ?_⟩
  obtain ⟨hsame, _⟩ | ⟨⟨hnonce, hhash⟩, hpos, hsize, hreserved⟩ := h.code_eq_or
  · exact absurd (congrArg Except.ok hsame) hcode
  · exact ⟨congrArg Except.ok hnonce, congrArg Except.ok hhash, ⟨_, rfl, hpos⟩,
      _, rfl, hsize, hreserved⟩

theorem code_of_transact (hopens : Opens config gas opening)
    (hbegins : ∀ {opened entered}, opening ledger = .ok opened entered →
      Begins caller ledger opened entered)
    (h : transact config env fuel gas opening ledger = some (.ok receipt after))
    (a : Address) :
    a ∈ receipt.deleted ∧ IsGone a after ∨
      a ∉ receipt.deleted ∧ KeepsCode config a ledger after := by
  obtain ⟨settled, hsettles, _, hdeletes⟩ := exists_settled_of_transact hopens h
  by_cases ha : a ∈ receipt.deleted
  · exact .inl ⟨ha, isGone_of_deletes hdeletes ha⟩
  · obtain ⟨hevolves, _⟩ :=
      hsettles.related (carries_evolvesFor config) hbegins trivial
      fun _ _ _ => trivial
    have hkept := hevolves a
    rw [← held_of_deletes hdeletes ha] at hkept
    exact .inr ⟨ha, keepsCode_of_evolves hkept⟩

/-- Deployed code is immutable and nonces are monotone.  Whatever a call or a
creation does before it ends with a receipt, and however its creations are
nested, taken back and repeated, of every account that the receipt does not name
as deleted the nonce has not fallen, and the code has changed only if the
account had neither nonce nor code; and those it names are gone. -/
theorem code_is_immutable_and_nonces_are_monotone (config : Config)
    (env : Environment) (fuel : Nat) (ledger : LayeredLedger) :
    (∀ message receipt after,
      call config env fuel message ledger = some (.ok receipt after) →
      ∀ a, a ∈ receipt.deleted ∧ IsGone a after ∨
        a ∉ receipt.deleted ∧ KeepsCode config a ledger after) ∧
    ∀ message receipt after,
      create config env fuel message ledger = some (.ok receipt after) →
      ∀ a, a ∈ receipt.deleted ∧ IsGone a after ∨
        a ∉ receipt.deleted ∧ KeepsCode config a ledger after := by
  refine ⟨fun message receipt after h => ?_, fun message receipt after h => ?_⟩
  · exact code_of_transact (.inl ⟨message, rfl, rfl⟩) begins_of_openCall h
  · exact code_of_transact (.inr ⟨message, rfl, rfl⟩) begins_of_openCreation h

/-- The address of the next contract of the account at 2, whose nonce is one. -/
def nextContract : Address := 0x766cdfd7aea33ec8b604c6a42a2538d27fc2762a

/-- A ledger with a contract at 2 that creates one with a zero as its code, and
then calls the one at 3, which destroys itself. -/
def creatingAndDestroying : LayeredLedger :=
  (({} : LayeredLedger).install 2 (({ nonce := 1 } : Account).withCode
    #[0x64, 0x60, 1, 0x60, 0, 0xf3, 0x60, 0, 0x52,
      0x60, 5, 0x60, 27, 0x60, 0, 0xf0,
      0x60, 0, 0x60, 0, 0x60, 0, 0x60, 0, 0x60, 0, 0x60, 3,
      0x61, 0xff, 0xff, 0xf1])).install 3
    (({ nonce := 1 } : Account).withCode #[0x33, 0xff])

/-- New code comes where there was none, and the destroyed contract is gone. -/
theorem nested_creation_and_destruction :
    ∃ receipt after, call {} {} 40 { caller := 1, target := 2, gas := 200000 }
        creatingAndDestroying = some (.ok receipt after) ∧
      receipt.deleted = [3] ∧ IsGone 3 after ∧
      Ledger.code after nextContract = .ok #[0] ∧
      KeepsCode {} nextContract creatingAndDestroying after ∧
      KeepsCode {} 2 creatingAndDestroying after := by
  have hcall :
      (ending? (call {} {} 40 { caller := 1, target := 2, gas := 200000 }
      creatingAndDestroying)).map (fun (receipt, after) =>
        (receipt.deleted, ((after.account nextContract).getD {}).code)) =
          some ([3], #[0]) := by
    decide +kernel
  obtain ⟨⟨receipt, after⟩, hends, hparts⟩ := Option.map_eq_some_iff.1 hcall
  obtain ⟨hdeleted, hcode⟩ := Prod.mk.inj hparts
  have hresult := eq_of_ending? hends
  have hend := (code_is_immutable_and_nonces_are_monotone {} {} 40
    creatingAndDestroying).1 _ _ _ hresult
  rw [hdeleted] at hend
  refine ⟨receipt, after, hresult, hdeleted, ?_,
    congrArg Except.ok hcode, ?_, ?_⟩
  · exact ((hend 3).resolve_right fun hkept => hkept.1 (by decide)).2
  · exact ((hend nextContract).resolve_left fun hgone =>
      absurd hgone.1 (by decide)).2
  · exact ((hend 2).resolve_left fun hgone => absurd hgone.1 (by decide)).2

end Transaction

end ContractMachine
