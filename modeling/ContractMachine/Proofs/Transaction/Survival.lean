import ContractMachine.Proofs.Transaction.Chronicle
import ContractMachine.Proofs.Transaction.CodeImmutability

/-!
# Effects survive with their frames

The receipt of a transaction that succeeds tells the logs that survive, each
once and in the order in which they were made, and the accounts whose
destruction survives; that of any other transaction tells none.  Accounts that
a receipt tells to be deleted are gone.
-/

namespace ContractMachine.Transaction

open Actions Event

section Receipts

variable {σ : Type} [Ledger σ] {config : Config} {env : Environment}
  {ledger after : σ} {fuel gas : Nat} {opening : EStateM LedgerError σ Opening}
  {receipt : Receipt}

/-- What a receipt says of the effects of a transaction in which all this has
happened.  Each frame that was entered has ended.  A transaction that did not
succeed leaves nothing; one that did leaves the logs that survive, and has
deleted each account whose destruction survives, once, in ascending order. -/
structure Reports (events : List Event) (receipt : Receipt) : Prop where
  closes : Closes events []
  nothing : receipt.outcome ≠ .success →
    receipt.logs = #[] ∧ receipt.deleted = [] ∧ receipt.gasRefunded = 0
  logs : receipt.outcome = .success →
    receipt.logs.toList = (surviving events).filterMap Deed.log?
  deleted : receipt.outcome = .success →
    ∀ a, a ∈ receipt.deleted ↔ .destroy a ∈ surviving events
  ascending : receipt.deleted.Pairwise (· < ·)

theorem history_of_settled {settled : Receipt}
    (h : opening ledger = .ok (.settled settled) after) :
    history config env fuel opening ledger = [] := by
  rw [history, h]

/-- A transaction that is settled before any code has run leaves nothing. -/
theorem reports_of_settled (hopens : Opens config gas opening)
    (h : opening ledger = .ok (.settled receipt) after) :
    Reports (history config env fuel opening ledger) receipt := by
  rw [history_of_settled h]
  have hempty : receipt.outcome ≠ .success ∧
      receipt.logs = #[] ∧ receipt.deleted = [] ∧ receipt.gasRefunded = 0 := by
    obtain ⟨_, _, rfl⟩ | rfl := settled_receipt hopens h
    · exact ⟨by simp, rfl, rfl, rfl⟩
    · exact ⟨by simp, rfl, rfl, rfl⟩
  obtain ⟨hfails, hlogs, hdeleted, hrefunded⟩ := hempty
  refine ⟨.nil, fun _ => ⟨hlogs, hdeleted, hrefunded⟩, fun h => absurd h hfails,
    fun h => absurd h hfails, ?_⟩
  rw [hdeleted]
  exact .nil

theorem reports_of_transact (hopens : Opens config gas opening)
    (h : transact config env fuel gas opening ledger =
      some (.ok receipt after)) :
    Reports (history config env fuel opening ledger) receipt := by
  obtain hopening | ⟨root, created, entered, exit, ended, hopening, hdrive,
      hsettle⟩ :=
    transact_eq_ok h
  · exact reports_of_settled hopens hopening
  have hcloses := closes_history hopening hdrive
  obtain ⟨houtcome, _, hkept⟩ := settle_eq_ok hsettle
  obtain ⟨hsucceeds, hfails⟩ := effects_of_settle hsettle
  by_cases hsuccess : exit.outcome = .success
  · have htells := tells_history hopens hopening hdrive hsuccess
    obtain ⟨hlogs, hdeleted⟩ := hsucceeds hsuccess
    constructor
    · exact hcloses
    · exact fun hfails => absurd (houtcome.trans hsuccess) hfails
    · intro _
      rw [hlogs, htells.logs, hcloses.deeds_gathered]
    · intro _ a
      rw [hdeleted, Std.TreeSet.mem_toList, htells.destroyed,
        hcloses.deeds_gathered]
    · rw [hdeleted]
      exact exit.effects.destroyed.ordered_toList.imp fun hlt =>
        compare_eq_lt_iff.1 hlt
  · obtain ⟨hlogs, hdeleted⟩ := hfails hsuccess
    have hrefunded := (hkept hsuccess).2.1
    constructor
    · exact hcloses
    · exact fun _ => ⟨hlogs, hdeleted, hrefunded⟩
    · exact fun hsucceeded => absurd (houtcome.symm.trans hsucceeded) hsuccess
    · exact fun hsucceeded => absurd (houtcome.symm.trans hsucceeded) hsuccess
    · rw [hdeleted]
      exact .nil

end Receipts

/-- Effects are kept exactly for the frames that survive, in order of execution.
The receipt of a call or a creation reports what has happened in it, on any
ledger: nothing if it has not succeeded, and else the logs that were made by
frames which succeeded together with all frames around them, in the order in
which they were made, and just the accounts that such frames have destroyed.  On
a layered ledger none of these accounts is there afterwards. -/
theorem effects_survive_with_their_frames (config : Config) (env : Environment)
    (fuel : Nat) :
    (∀ {σ : Type} [Ledger σ] (message : CallMessage) (ledger after : σ)
      (receipt : Receipt),
      call config env fuel message ledger = some (.ok receipt after) →
      Reports (history config env fuel (openCall message) ledger) receipt) ∧
    (∀ {σ : Type} [Ledger σ] (message : CreateMessage) (ledger after : σ)
      (receipt : Receipt),
      create config env fuel message ledger = some (.ok receipt after) →
      Reports (history config env fuel (openCreation config message) ledger)
        receipt) ∧
    ∀ (ledger after : LayeredLedger) (receipt : Receipt),
      (∃ message, call config env fuel message ledger =
        some (.ok receipt after)) ∨
        (∃ message, create config env fuel message ledger =
          some (.ok receipt after)) →
      ∀ a ∈ receipt.deleted, Ledger.hasAccount after a = .ok false := by
  refine ⟨?_, ?_, ?_⟩
  · intro σ _ message ledger after receipt h
    exact reports_of_transact (.inl ⟨message, rfl, rfl⟩) h
  · intro σ _ message ledger after receipt h
    exact reports_of_transact (.inr ⟨message, rfl, rfl⟩) h
  · intro ledger after receipt h a ha
    obtain ⟨settled, hdeletes⟩ : ∃ settled : LayeredLedger,
        receipt.deleted.forM Ledger.deleteAccount settled = .ok () after := by
      obtain ⟨message, hcall⟩ | ⟨message, hcreate⟩ := h
      · obtain ⟨settled, _, _, hdeletes⟩ :=
          exists_settled_of_transact (.inl ⟨message, rfl, rfl⟩) hcall
        exact ⟨settled, hdeletes⟩
      · obtain ⟨settled, _, _, hdeletes⟩ :=
          exists_settled_of_transact (.inr ⟨message, rfl, rfl⟩) hcreate
        exact ⟨settled, hdeletes⟩
    exact (isGone_of_deletes hdeletes ha).1

/-- A ledger with a contract at 2 that logs between two calls, of a contract
that logs and one that logs and reverts. -/
def loggingThrice : LayeredLedger :=
  ((({} : LayeredLedger).install 2 (({} : Account).withCode
    #[0x60, 10, 0x60, 0, 0x60, 0, 0xa1,
      0x60, 0, 0x60, 0, 0x60, 0, 0x60, 0, 0x60, 0, 0x60, 3,
      0x61, 0xff, 0xff, 0xf1,
      0x60, 11, 0x60, 0, 0x60, 0, 0xa1,
      0x60, 0, 0x60, 0, 0x60, 0, 0x60, 0, 0x60, 0, 0x60, 4,
      0x61, 0xff, 0xff, 0xf1,
      0x60, 12, 0x60, 0, 0x60, 0, 0xa1])).install 3 (({} : Account).withCode
    #[0x60, 20, 0x60, 0, 0x60, 0, 0xa1])).install 4 (({} : Account).withCode
    #[0x60, 30, 0x60, 0, 0x60, 0, 0xa1, 0x60, 0, 0x60, 0, 0xfd])

example :
    (ending? (call {} {} 60 { caller := 1, target := 2, gas := 1000000 }
      loggingThrice)).map
      (·.1.logs.toList.map (·.topics)) = some [[10], [20], [11], [12]] := by
  decide +kernel

end ContractMachine.Transaction
