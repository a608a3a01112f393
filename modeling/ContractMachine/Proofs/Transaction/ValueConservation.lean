import ContractMachine.Proofs.Ledger.Balances
import ContractMachine.Proofs.Transaction.Preservation

/-!
# Value is conserved

Until a transaction is settled it does nothing to the ledger but write to it,
and take writes back; so the sum of all balances does not grow, and stays what
it was if it is a word.  What is left is to delete the accounts that destroyed
themselves, and what these hold then is lost.
-/

namespace ContractMachine.Transaction

open Actions LayeredLedger

variable {config : Config} {env : Environment} {ledger after : LayeredLedger}
  {fuel gas : Nat} {opening : EStateM LedgerError LayeredLedger Opening}
  {receipt : Receipt}

/-- Settling deletes the accounts that the receipt names, none of them twice,
and does nothing else. -/
theorem deletes_of_settle {created : Option Address} {exit : Exit}
    (h : settle config gas created exit ledger = .ok receipt after) :
    receipt.deleted.Nodup ∧
    receipt.deleted.forM Ledger.deleteAccount ledger = .ok () after := by
  cases houtcome : exit.outcome with
  | success =>
    simp only [settle, houtcome] at h
    obtain ⟨_, reached, hdeletes, hpure⟩ := bind_eq_ok_iff.1 h
    obtain ⟨rfl, rfl⟩ := pure_eq_ok_iff.1 hpure
    refine ⟨?_, hdeletes⟩
    exact exit.effects.destroyed.ordered_toList.imp fun hlt =>
      BitVec.ne_of_lt (compare_eq_lt_iff.1 hlt)
  | revert =>
    simp only [settle, houtcome] at h
    obtain ⟨rfl, rfl⟩ := pure_eq_ok_iff.1 h
    exact ⟨List.nodup_nil, rfl⟩
  | halt cause =>
    simp only [settle, houtcome] at h
    obtain ⟨rfl, rfl⟩ := pure_eq_ok_iff.1 h
    exact ⟨List.nodup_nil, rfl⟩

/-- A transaction ends by deleting accounts from the ledger on which it is
settled. -/
theorem exists_settled_of_transact (hopens : Opens config gas opening)
    (h : transact config env fuel gas opening ledger =
      some (.ok receipt after)) :
    ∃ settled, SettlesOn config env fuel opening ledger settled ∧
      receipt.deleted.Nodup ∧
      receipt.deleted.forM Ledger.deleteAccount settled = .ok () after := by
  obtain hopening | ⟨root, created, entered, exit, ended, hopening, hdrive,
      hsettle⟩ :=
    transact_eq_ok h
  · refine ⟨after, .early hopening, ?_⟩
    obtain ⟨_, _, rfl⟩ | rfl := settled_receipt hopens hopening
    · exact ⟨List.nodup_nil, rfl⟩
    · exact ⟨List.nodup_nil, rfl⟩
  · exact ⟨ended, .late hopening hdrive, deletes_of_settle hsettle⟩

theorem totalBalance_add_of_deletes {deleted : List Address}
    {settled : LayeredLedger} (hnodup : deleted.Nodup)
    (h : deleted.forM Ledger.deleteAccount settled = .ok () after) :
    after.totalBalance + (deleted.map settled.balanceOf).sum =
      settled.totalBalance := by
  rw [totalBalance_eq, totalBalance_eq, top_of_forM_deleteAccount h]
  exact FlatState.total_foldl_delete_add hnodup

theorem SettlesOn.totalBalance_le {settled : LayeredLedger}
    (hopens : Opens config gas opening)
    (h : SettlesOn config env fuel opening ledger settled) :
    settled.totalBalance ≤ ledger.totalBalance := by
  rw [totalBalance_eq, totalBalance_eq]
  exact h.preserves (P := fun state => state.total ≤ ledger.states.top.total)
    (fun hwrite hle => (FlatState.total_le_of_write hwrite).trans hle)
    hopens le_rfl

theorem SettlesOn.totalBalance_eq_of_lt {settled : LayeredLedger}
    (hopens : Opens config gas opening)
    (h : SettlesOn config env fuel opening ledger settled)
    (hsum : ledger.totalBalance < 2 ^ 256) :
    settled.totalBalance = ledger.totalBalance := by
  rw [totalBalance_eq] at hsum
  rw [totalBalance_eq, totalBalance_eq]
  refine h.preserves (P := fun state => state.total = ledger.states.top.total)
    ?_ hopens rfl
  intro state written hwrite heq
  exact (FlatState.total_of_write hwrite (heq ▸ hsum)).trans heq

/-- What a transaction does to the sum of all balances: it never adds to it, and
if the sum is a word, exactly what the deleted accounts held when they were
deleted is lost. -/
structure ConservesValue (config : Config) (env : Environment) (fuel : Nat)
    (opening : EStateM LedgerError LayeredLedger Opening)
    (ledger : LayeredLedger) (receipt : Receipt) (after : LayeredLedger) :
    Prop where
  total_le : after.totalBalance ≤ ledger.totalBalance
  loses_deleted : ledger.totalBalance < 2 ^ 256 →
    ∃ settled, SettlesOn config env fuel opening ledger settled ∧
      receipt.deleted.forM Ledger.deleteAccount settled = .ok () after ∧
      after.totalBalance + (receipt.deleted.map settled.balanceOf).sum =
        ledger.totalBalance
  total_eq : ledger.totalBalance < 2 ^ 256 → receipt.deleted = [] →
    after.totalBalance = ledger.totalBalance

theorem conservesValue_of_transact (hopens : Opens config gas opening)
    (h : transact config env fuel gas opening ledger =
      some (.ok receipt after)) :
    ConservesValue config env fuel opening ledger receipt after := by
  obtain ⟨settled, hsettles, hnodup, hdeletes⟩ :=
    exists_settled_of_transact hopens h
  have hlost := totalBalance_add_of_deletes hnodup hdeletes
  have hkept := hsettles.totalBalance_eq_of_lt hopens
  refine ⟨?_, fun hsum => ?_, fun hsum hnone => ?_⟩
  · calc
      after.totalBalance ≤ settled.totalBalance := hlost ▸ Nat.le_add_right ..
      _ ≤ ledger.totalBalance := hsettles.totalBalance_le hopens
  · exact ⟨settled, hsettles, hdeletes, hlost.trans (hkept hsum)⟩
  · rw [hnone, List.map_nil, List.sum_nil, Nat.add_zero] at hlost
    exact hlost.trans (hkept hsum)

/-- Value is conserved by every call and every creation that ends with a
receipt, whatever the configuration, the environment and the code, and however
its frames are nested and taken back. -/
theorem value_is_conserved (config : Config) (env : Environment) (fuel : Nat)
    (ledger : LayeredLedger) :
    (∀ message receipt after,
      call config env fuel message ledger = some (.ok receipt after) →
      ConservesValue config env fuel (openCall message) ledger receipt after) ∧
    ∀ message receipt after,
      create config env fuel message ledger = some (.ok receipt after) →
      ConservesValue config env fuel (openCreation config message) ledger
        receipt after := by
  refine ⟨fun message receipt after h => ?_, fun message receipt after h => ?_⟩
  · exact conservesValue_of_transact (.inl ⟨message, rfl, rfl⟩) h
  · exact conservesValue_of_transact (.inr ⟨message, rfl, rfl⟩) h

/-- A ledger with a contract at 2 that pays 2 out of 5 to the one at 3, which
holds 1 and destroys itself in favour of itself. -/
def payingDestroyed : LayeredLedger :=
  (({} : LayeredLedger).install 2
    (({ balance := 5, nonce := 1 } : Account).withCode
      #[0x60, 0, 0x60, 0, 0x60, 0, 0x60, 0, 0x60, 2, 0x60, 3,
        0x61, 0xff, 0xff, 0xf1])).install 3
    (({ balance := 1, nonce := 1 } : Account).withCode #[0x30, 0xff])

/-- What the contract at 3 holds in the end is lost. -/
theorem destroyed_payee_takes_value_along :
    payingDestroyed.totalBalance = 6 ∧ ∃ receipt after,
      call {} {} 20 { caller := 1, target := 2, gas := 200000 }
        payingDestroyed =
        some (.ok receipt after) ∧
      receipt.deleted = [3] ∧ after.totalBalance = 3 ∧
      ConservesValue {} {} 20
        (openCall { caller := 1, target := 2, gas := 200000 })
        payingDestroyed receipt after := by
  have hcall :
      (ending? (call {} {} 20 { caller := 1, target := 2, gas := 200000 }
      payingDestroyed)).map (fun (receipt, after) =>
        (receipt.deleted, after.totalBalance)) = some ([3], 3) := by
    decide +kernel
  obtain ⟨⟨receipt, after⟩, hends, hparts⟩ := Option.map_eq_some_iff.1 hcall
  obtain ⟨hdeleted, htotal⟩ := Prod.mk.inj hparts
  have hresult := eq_of_ending? hends
  exact ⟨by decide +kernel, receipt, after, hresult, hdeleted, htotal,
    (value_is_conserved {} {} 20 payingDestroyed).1 _ _ _ hresult⟩

end ContractMachine.Transaction
