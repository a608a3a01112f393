import ContractMachine.Proofs.Transaction.Survival

/-!
# Refunds for destroyed accounts

A frame grants a refund when it destroys an account that it has not marked yet.
It knows the marks of the frames it has had entered that have succeeded, but
not those of the frames around it, nor of those that these have had entered
before.  So an account may be refunded more than once in a transaction: the
refunds are at least as many as the accounts that are deleted, and at most as
many as the times an account was destroyed.  They are just the accounts if none
is destroyed twice.
-/

namespace ContractMachine.Transaction

open Actions Event

/-- What the last frame of a transaction leaves behind, if it comes to that. -/
def lastExit? {σ : Type} [Ledger σ] (config : Config) (env : Environment)
    (fuel : Nat) (opening : EStateM LedgerError σ Opening) (ledger : σ) :
    Option Exit :=
  match opening ledger with
  | .ok (.entered root _) ledger =>
    match drive config env fuel ⟨root, [], ledger⟩ with
    | some (.finished exit _) => some exit
    | some (.failed _ _ _) | none => none
  | .ok (.settled _) _ | .error _ _ => none

/-- The refund for what has happened if so many refunds are granted for
destroyed accounts. -/
def refundFor (schedule : Schedule) (events : List Event) (grants : Nat) :
    Nat :=
  min (schedule.sstoreClearRefund * (surviving events).countP Deed.isClear +
    schedule.selfDestructRefund * grants) Saturating.limit

/-- How the last exit of a transaction that has succeeded counts the refund for
what has happened, and what this has to do with the accounts that the receipt
tells to be deleted. -/
structure Refunds (schedule : Schedule) (events : List Event) (exit : Exit)
    (receipt : Receipt) :
    Prop where
  refund : exit.effects.refund =
    refundFor schedule events (gathered events).grants
  deleted_le : receipt.deleted.length ≤ (gathered events).grants
  le_destructions : (gathered events).grants ≤
    ((surviving events).filterMap Deed.destroyed?).length
  of_nodup : ((surviving events).filterMap Deed.destroyed?).Nodup →
    exit.effects.refund = refundFor schedule events receipt.deleted.length

section Receipts

variable {σ : Type} [Ledger σ] {config : Config} {env : Environment}
  {ledger after : σ} {fuel gas : Nat} {opening : EStateM LedgerError σ Opening}
  {receipt : Receipt}

/-- A receipt tells as many accounts to be deleted as there are among those
whose destruction survives. -/
theorem length_deleted {events : List Event} (h : Reports events receipt)
    (hsuccess : receipt.outcome = .success) :
    receipt.deleted.length =
      ((surviving events).filterMap Deed.destroyed?).toFinset.card := by
  have hnodup : receipt.deleted.Nodup := h.ascending.imp BitVec.ne_of_lt
  rw [← List.toFinset_card_of_nodup hnodup]
  congr 1
  ext a
  rw [List.mem_toFinset, List.mem_toFinset, Deed.mem_filterMap_destroyed?]
  exact h.deleted hsuccess a

/-- Refunds for destroyed accounts are counted frame by frame.  When a
transaction succeeds, its last exit counts one for each row that was cleared in
a frame that survives, and one for each time that such a frame destroyed an
account that it had not marked yet, also through the frames it had had entered.
The latter are at least as many as the accounts that are deleted, and not more
if no account was destroyed twice. -/
theorem refunds_are_counted_by_frame (hopens : Opens config gas opening)
    (h : transact config env fuel gas opening ledger = some (.ok receipt after))
    (hsuccess : receipt.outcome = .success) :
    ∃ exit, lastExit? config env fuel opening ledger = some exit ∧
      Refunds config.schedule (history config env fuel opening ledger) exit
        receipt := by
  have hreports := reports_of_transact hopens h
  have hlength := length_deleted hreports hsuccess
  obtain hopening | ⟨root, created, entered, exit, ended, hopening, hdrive,
      hsettle⟩ :=
    transact_eq_ok h
  · obtain ⟨_, _, rfl⟩ | rfl := settled_receipt hopens hopening <;>
      cases hsuccess
  have hlast : lastExit? config env fuel opening ledger = some exit := by
    rw [lastExit?, hopening]
    dsimp only
    rw [hdrive]
  have hexit : exit.outcome = .success :=
    (settle_eq_ok hsettle).1.symm.trans hsuccess
  have hrefund := (tells_history hopens hopening hdrive hexit).refund
  have hcard :=
    (gathered (history config env fuel opening ledger)).card_le_grants
  have hle := (gathered (history config env fuel opening ledger)).grants_le
  rw [Tally.refund, hreports.closes.deeds_gathered] at hrefund
  rw [hreports.closes.deeds_gathered] at hcard hle
  refine ⟨exit, hlast, hrefund, ?_, hle, ?_⟩
  · rw [hlength]
    exact hcard
  · intro hnodup
    rw [List.toFinset_card_of_nodup hnodup] at hcard hlength
    rw [hlength, ← Nat.le_antisymm hle hcard]
    exact hrefund

end Receipts

/-! ## An account that is refunded twice -/

/-- A ledger with a contract at 2 that fills five rows and then calls the one at
3 twice, which destroys itself. -/
def destroyingTwice : LayeredLedger :=
  (({} : LayeredLedger).install 2 (({} : Account).withCode
    #[0x60, 1, 0x60, 0, 0x55, 0x60, 1, 0x60, 1, 0x55, 0x60, 1, 0x60, 2, 0x55,
      0x60, 1, 0x60, 3, 0x55, 0x60, 1, 0x60, 4, 0x55,
      0x60, 0, 0x60, 0, 0x60, 0, 0x60, 0, 0x60, 0, 0x60, 3,
      0x61, 0xff, 0xff, 0xf1,
      0x60, 0, 0x60, 0, 0x60, 0, 0x60, 0, 0x60, 0, 0x60, 3,
      0x61, 0xff, 0xff, 0xf1])).install 3
    (({} : Account).withCode #[0x33, 0xff])

/-- The call of that contract. -/
def callingTwice : CallMessage := { caller := 1, target := 2, gas := 1000000 }

theorem exists_receipt_callingTwice :
    ∃ receipt after, call {} {} 40 callingTwice destroyingTwice =
      some (.ok receipt after) ∧
      receipt.outcome = .success ∧ receipt.deleted.length = 1 := by
  have hcall : (ending? (call {} {} 40 callingTwice destroyingTwice)).map
      (fun (receipt, _) => (receipt.outcome, receipt.deleted.length)) =
        some (.success, 1) := by
    decide +kernel
  obtain ⟨⟨receipt, after⟩, hends, hparts⟩ := Option.map_eq_some_iff.1 hcall
  exact ⟨receipt, after, eq_of_ending? hends, Prod.mk.inj hparts⟩

/-- Two refunds are granted for the one account. -/
theorem refunds_of_callingTwice :
    ∃ exit receipt, (∃ after,
        call {} {} 40 callingTwice destroyingTwice = some (.ok receipt after)) ∧
      lastExit? {} {} 40 (openCall callingTwice) destroyingTwice = some exit ∧
      Refunds {} (history {} {} 40 (openCall callingTwice) destroyingTwice) exit
        receipt ∧
      (gathered (history {} {} 40 (openCall callingTwice)
        destroyingTwice)).grants = 2 := by
  obtain ⟨receipt, after, hcall, hsuccess, _⟩ := exists_receipt_callingTwice
  obtain ⟨exit, hexit, hrefunds⟩ :=
    refunds_are_counted_by_frame (.inl ⟨callingTwice, rfl, rfl⟩) hcall hsuccess
  exact ⟨exit, receipt, ⟨after, hcall⟩, hexit, hrefunds, by decide +kernel⟩

/-- The refund for destroying an account is not granted once for each account
that is deleted. -/
theorem second_destruction_is_refunded :
    ¬ ∀ exit receipt after,
      lastExit? {} {} 40 (openCall callingTwice) destroyingTwice = some exit →
      call {} {} 40 callingTwice destroyingTwice = some (.ok receipt after) →
      receipt.outcome = .success →
      exit.effects.refund = refundFor {}
        (history {} {} 40 (openCall callingTwice) destroyingTwice)
        receipt.deleted.length := by
  intro honce
  obtain ⟨receipt, after, hcall, hsuccess, hdeleted⟩ :=
    exists_receipt_callingTwice
  have hlast : (lastExit? {} {} 40 (openCall callingTwice) destroyingTwice).map
      (·.effects.refund) = some 48000 := by
    decide +kernel
  obtain ⟨exit, hexit, hrefund⟩ := Option.map_eq_some_iff.1 hlast
  have hclaimed := honce exit receipt after hexit hcall hsuccess
  rw [hrefund, hdeleted] at hclaimed
  revert hclaimed
  decide +kernel

end ContractMachine.Transaction
