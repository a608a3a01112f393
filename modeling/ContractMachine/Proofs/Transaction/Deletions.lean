import ContractMachine.Proofs.Ledger.Recording
import ContractMachine.Proofs.Transaction.HostFailure
import ContractMachine.Proofs.Transaction.Transport

/-!
# Deletions that are refused

The accounts that a transaction has destroyed are deleted one after another when
its first frame has been left and its snapshot is committed.  Nothing takes the
transaction back if the ledger refuses to delete one of them: what its frames
have written stays, and so do the deletions made before.

Frames do not delete accounts, so that on a ledger that refuses nothing else a
transaction runs as it would on the ledger behind it, until the deletions.
-/

namespace ContractMachine.Transaction

open Actions LayeredLedger RefusingLedger

variable {config : Config} {env : Environment}
  {refusal : LedgerRequest → Option String}

/-! ## The deletions of a transaction -/

/-- The ledger without some accounts, deleted one after another. -/
def deleteAll (accounts : List Address) (ledger : LayeredLedger) :
    LayeredLedger :=
  accounts.foldl LayeredLedger.delete ledger

theorem deleteAll_append (gone rest : List Address) (ledger : LayeredLedger) :
    deleteAll (gone ++ rest) ledger = deleteAll rest (deleteAll gone ledger) :=
  List.foldl_append

theorem forM_deleteAccount (accounts : List Address) (ledger : LayeredLedger) :
    accounts.forM Ledger.deleteAccount ledger =
      .ok () (deleteAll accounts ledger) := by
  induction accounts generalizing ledger with
  | nil => rfl
  | cons a rest ih => exact ih (ledger.delete a)

/-- Deletions leave open snapshots alone. -/
theorem below_deleteAll (accounts : List Address) (ledger : LayeredLedger) :
    (deleteAll accounts ledger).states.below = ledger.states.below := by
  induction accounts generalizing ledger with
  | nil => rfl
  | cons a rest ih =>
    refine (ih (ledger.delete a)).trans ?_
    rw [states_delete]
    rfl

theorem account_deleteAll (accounts : List Address) (ledger : LayeredLedger)
    (a : Address) :
    (deleteAll accounts ledger).account a = if a ∈ accounts then none
      else ledger.account a := by
  induction accounts generalizing ledger with
  | nil => rfl
  | cons b rest ih =>
    have hdelete : (ledger.delete b).account a = if a = b then none
      else ledger.account a := by
      rw [← account_top_states, ← account_top_states, states_delete]
      exact Function.update_apply _ _ _ _
    refine (ih (ledger.delete b)).trans ?_
    rw [hdelete]
    by_cases hab : a = b <;> simp [hab]

theorem slot_deleteAll (accounts : List Address) (ledger : LayeredLedger)
    (a : Address) (key : Word) :
    (deleteAll accounts ledger).slot a key = if a ∈ accounts then 0
      else ledger.slot a key := by
  induction accounts generalizing ledger with
  | nil => rfl
  | cons b rest ih =>
    have hdelete : (ledger.delete b).slot a key = if a = b then 0
      else ledger.slot a key := by
      rw [← slot_top_states, ← slot_top_states, states_delete]
      change Function.update ledger.states.top.slot b (fun _ => 0) a key = _
      rw [Function.update_apply]
      split <;> rfl
    refine (ih (ledger.delete b)).trans ?_
    rw [hdelete]
    by_cases hab : a = b <;> simp [hab]

theorem deleteAccount_of_granted {a : Address}
    (h : refusal (.access .deleteAccount a) = none) (ledger : LayeredLedger) :
    Ledger.deleteAccount a (behind refusal ledger) =
      .ok () (behind refusal (ledger.delete a)) :=
  commutes_attempt h (Ledger.deleteAccount a) ledger

theorem deleteAccount_of_refused {a : Address} {reason : String}
    (h : refusal (.access .deleteAccount a) = some reason)
    (ledger : LayeredLedger) :
    Ledger.deleteAccount a (behind refusal ledger) =
      .error (.backend reason) (behind refusal ledger) := by
  change attempt _ _ _ = _
  rw [attempt]
  dsimp only [behind]
  rw [h]

/-- Deletions that the wrapper passes on are made. -/
theorem forM_deleteAccount_of_granted {accounts : List Address}
    (h : ∀ a ∈ accounts, refusal (.access .deleteAccount a) = none)
    (ledger : LayeredLedger) :
    accounts.forM Ledger.deleteAccount (behind refusal ledger) =
      .ok () (behind refusal (deleteAll accounts ledger)) := by
  induction accounts generalizing ledger with
  | nil => rfl
  | cons a rest ih =>
    exact (bind_of_ok (deleteAccount_of_granted (h a List.mem_cons_self)
      ledger)).trans
      (ih (fun b hb => h b (List.mem_cons_of_mem a hb)) (ledger.delete a))

/-- Deletions stop at the first that the wrapper turns down. -/
theorem forM_deleteAccount_of_refused {gone kept : List Address} {a : Address}
    {reason : String} (hgone : ∀ b ∈ gone,
      refusal (.access .deleteAccount b) = none)
    (ha : refusal (.access .deleteAccount a) = some reason)
    (ledger : LayeredLedger) :
    (gone ++ a :: kept).forM Ledger.deleteAccount (behind refusal ledger) =
      .error (.backend reason) (behind refusal (deleteAll gone ledger)) := by
  induction gone generalizing ledger with
  | nil => exact bind_of_error (deleteAccount_of_refused ha ledger)
  | cons b rest ih =>
    exact (bind_of_ok (deleteAccount_of_granted (hgone b List.mem_cons_self)
      ledger)).trans
      (ih (fun c hc => hgone c (List.mem_cons_of_mem b hc)) (ledger.delete b))

/-- Settling on the ledger behind the wrapper and on the wrapper itself makes
the same receipt of an exit, and attempts the same deletions. -/
theorem settle_behind {gas : Nat} {created : Option Address} {exit : Exit}
    {receipt : Receipt} {ended last : LayeredLedger}
    (h : settle config gas created exit ended = .ok receipt last)
    (refusal : LedgerRequest → Option String) :
    last = deleteAll receipt.deleted ended ∧
      settle config gas created exit (behind refusal ended) =
        (receipt.deleted.forM Ledger.deleteAccount >>= fun _ => pure receipt)
          (behind refusal ended) := by
  cases houtcome : exit.outcome with
  | success =>
    simp only [settle, houtcome] at h ⊢
    obtain ⟨_, reached, hdeletes, hpure⟩ := bind_eq_ok_iff.1 h
    obtain ⟨rfl, rfl⟩ := pure_eq_ok_iff.1 hpure
    rw [forM_deleteAccount] at hdeletes
    cases hdeletes
    exact ⟨rfl, rfl⟩
  | revert | halt cause =>
    simp only [settle, houtcome] at h ⊢
    obtain ⟨rfl, rfl⟩ := pure_eq_ok_iff.1 h
    exact ⟨rfl, rfl⟩

/-! ## Calls behind the wrapper -/

/-- The ledger as the frames of a call leave it, before any account is
deleted. -/
def beforeDeletions {σ : Type} [Ledger σ] (config : Config) (env : Environment)
    (fuel : Nat) (message : CallMessage) (ledger : σ) : Option σ :=
  match openCall message ledger with
  | .error _ _ => none
  | .ok (.settled _) ledger => some ledger
  | .ok (.entered root _) ledger =>
    match drive config env fuel ⟨root, [], ledger⟩ with
    | some (.finished _ ended) => some ended
    | some (.failed _ _ _) | none => none

section Calls

variable {fuel : Nat} {message : CallMessage} {ledger last : LayeredLedger}
  {receipt : Receipt}

/-- How a call that ends with a receipt goes on the wrapper: the frames leave
the same ledger, and then the same deletions are attempted. -/
theorem call_behind (hrefusal : RefusesDeletionsOnly refusal)
    (h : call config env fuel message ledger = some (.ok receipt last)) :
    ∃ ended, beforeDeletions config env fuel message ledger = some ended ∧
      ended.states.below = ledger.states.below ∧
      last = deleteAll receipt.deleted ended ∧
      call config env fuel message (behind refusal ledger) =
        match receipt.deleted.forM Ledger.deleteAccount
          (behind refusal ended) with
        | .ok _ host => some (.ok receipt host)
        | .error cause host => some (.error (.ledger cause) host) := by
  have hruns : Ledger.RunsAlike (behind refusal : LayeredLedger → Host) :=
    runsAlike_behind hrefusal
  have hopens := commutes_openCall hruns message ledger
  obtain hopening | ⟨root, created, entered, exit, ended, hopening, hdrive,
      hsettle⟩ :=
    transact_eq_ok h
  · obtain ⟨hsettled, rfl⟩ | ⟨_, _, hroot, _⟩ := openCall_eq_ok hopening
    · cases hsettled
      refine ⟨last, ?_, rfl, rfl, ?_⟩
      · rw [beforeDeletions, hopening]
      · rw [hopening] at hopens
        rw [call, transact, hopens]
        rfl
    · cases hroot
  · obtain ⟨hroot, _⟩ | ⟨_, _, hroot, henter⟩ := openCall_eq_ok hopening
    · cases hroot
    cases hroot
    have hbelow :
        (⟨root, [], entered⟩ : Running LayeredLedger).ledger.states.below =
        ledger.states.levels := below_of_enterCall henter
    obtain ⟨reached, hreaches, hwaiting, hends⟩ :=
      exists_last_of_finished hdrive
    have hkept :=
      (states_of_finished hbelow hreaches.runsAbove_nil hwaiting hends).1
    obtain ⟨hlast, hsettles⟩ := settle_behind hsettle refusal
    refine ⟨ended, ?_, hkept, hlast, ?_⟩
    · rw [beforeDeletions, hopening]
      dsimp only
      rw [hdrive]
    · rw [hopening] at hopens
      have hdrives : drive config env fuel ⟨root, [], behind refusal entered⟩ =
          (drive config env fuel ⟨root, [], entered⟩).map
            (Conclusion.map (behind refusal)) :=
        drive_map hruns config env fuel ⟨root, [], entered⟩
      rw [call, transact_of_entered hopens, hdrives, hdrive, Option.map_some,
        Option.map_some, Conclusion.map, close, hsettles]
      cases hdeletes : receipt.deleted.forM Ledger.deleteAccount
        (behind refusal ended) with
      | ok _ host => rw [bind_of_ok hdeletes]; rfl
      | error cause host => rw [bind_of_error hdeletes]

/-- A call that does not end behind the wrapper does not end on it. -/
theorem call_behind_eq_none (hrefusal : RefusesDeletionsOnly refusal)
    (h : call config env fuel message ledger = none) :
    call config env fuel message (behind refusal ledger) = none := by
  have hruns : Ledger.RunsAlike (behind refusal : LayeredLedger → Host) :=
    runsAlike_behind hrefusal
  have hopens := commutes_openCall hruns message ledger
  cases hopening : openCall message ledger with
  | error cause after =>
    rw [call, transact, hopening] at h
    cases h
  | ok opened entered =>
    rw [hopening] at hopens
    cases opened with
    | settled receipt =>
      rw [call, transact, hopening] at h
      cases h
    | entered root created =>
      have hdrives : drive config env fuel ⟨root, [], behind refusal entered⟩ =
          (drive config env fuel ⟨root, [], entered⟩).map
            (Conclusion.map (behind refusal)) :=
        drive_map hruns config env fuel ⟨root, [], entered⟩
      rw [call, transact_of_entered hopening, Option.map_eq_none_iff] at h
      rw [call, transact_of_entered hopens, hdrives, h]
      rfl

/-- What the host shows when a call has stopped among its deletions.  The
accounts deleted so far are gone; all others are as the frames of the call have
left them, and so is the number of open snapshots, which is the one from before
the call. -/
structure HalfDeleted (gone : List Address) (ended : LayeredLedger)
    (before after : Host) :
    Prop where
  refusal : after.refusal = before.refusal
  depth : after.inner.depth = before.inner.depth
  account_gone : ∀ a ∈ gone, after.inner.account a = none
  account_kept : ∀ a ∉ gone, after.inner.account a = ended.account a
  slot_gone : ∀ a ∈ gone, ∀ key, after.inner.slot a key = 0
  slot_kept : ∀ a ∉ gone, ∀ key, after.inner.slot a key = ended.slot a key

theorem halfDeleted_behind (gone : List Address) {ended : LayeredLedger}
    {host : Host} (h : ended.states.below = host.inner.states.below) :
    HalfDeleted gone ended host
      (behind host.refusal (deleteAll gone ended)) where
  refusal := rfl
  depth := depth_eq_of_below ((below_deleteAll gone ended).trans h)
  account_gone a ha := by
    change (deleteAll gone ended).account a = none
    rw [account_deleteAll, if_pos ha]
  account_kept a ha := by
    change (deleteAll gone ended).account a = _
    rw [account_deleteAll, if_neg ha]
  slot_gone a ha key := by
    change (deleteAll gone ended).slot a key = 0
    rw [slot_deleteAll, if_pos ha]
  slot_kept a ha key := by
    change (deleteAll gone ended).slot a key = _
    rw [slot_deleteAll, if_neg ha]

/-- The accounts before the first that the wrapper refuses to delete. -/
theorem granted_or_first_refused (refusal : LedgerRequest → Option String)
    (accounts : List Address) :
    (∀ a ∈ accounts, refusal (.access .deleteAccount a) = none) ∨
    ∃ gone a kept reason, accounts = gone ++ a :: kept ∧
      (∀ b ∈ gone, refusal (.access .deleteAccount b) = none) ∧
      refusal (.access .deleteAccount a) = some reason := by
  induction accounts with
  | nil => exact .inl fun _ ha => absurd ha List.not_mem_nil
  | cons a rest ih =>
    cases ha : refusal (.access .deleteAccount a) with
    | some reason =>
      exact .inr ⟨[], a, rest, reason, rfl,
        fun _ hb => absurd hb List.not_mem_nil, ha⟩
    | none =>
      obtain hgranted | ⟨gone, b, kept, reason, rfl, hgone, hb⟩ := ih
      · exact .inl (List.forall_mem_cons.2 ⟨ha, hgranted⟩)
      · exact .inr ⟨a :: gone, b, kept, reason, rfl,
          List.forall_mem_cons.2 ⟨ha, hgone⟩, hb⟩

end Calls

/-- A call is not taken back when one of its deletions is refused.  On a ledger
that refuses nothing but to delete some accounts, a call ends if and only if it
ends on the ledger behind, and there with a receipt.  If no account that the
receipt tells to be deleted is refused, the host answers with the same receipt.
Otherwise it reports a failure although all that the frames of the call have
done is there to stay, and with it the deletion of the accounts that come before
the first refused one, but no other deletion. -/
theorem refused_deletions_leave_calls_half_applied {host : Host}
    (hreachable : host.inner.Reachable)
    (hrefusal : RefusesDeletionsOnly host.refusal) (config : Config)
    (env : Environment) (fuel : Nat) (message : CallMessage) :
    (call config env fuel message host = none ↔
      call config env fuel message host.inner = none) ∧
    (∀ receipt after, call config env fuel message host =
      some (.ok receipt after) →
      call config env fuel message host.inner = some (.ok receipt after.inner) ∧
      after.refusal = host.refusal ∧
      ∀ a ∈ receipt.deleted, host.refusal (.access .deleteAccount a) = none) ∧
    ∀ cause after, call config env fuel message host =
      some (.error cause after) →
      ∃ receipt last ended gone a kept reason,
        call config env fuel message host.inner = some (.ok receipt last) ∧
        beforeDeletions config env fuel message host.inner = some ended ∧
        receipt.deleted = gone ++ a :: kept ∧
        (∀ b ∈ gone, host.refusal (.access .deleteAccount b) = none) ∧
        host.refusal (.access .deleteAccount a) = some reason ∧
        cause = .ledger (.backend reason) ∧
        after.inner = deleteAll gone ended ∧
        last = deleteAll (a :: kept) after.inner ∧
        HalfDeleted gone ended host after := by
  have hcall : call config env fuel message host.inner = none ∧
      call config env fuel message host = none ∨
      ∃ receipt last, call config env fuel message host.inner =
        some (.ok receipt last) := by
    cases hinner : call config env fuel message host.inner with
    | none => exact .inl ⟨rfl, call_behind_eq_none hrefusal hinner⟩
    | some result =>
      obtain ⟨opened, entered, hopening⟩ := exists_openCall message host.inner
      obtain ⟨receipt, last, rfl⟩ :=
        exists_receipt_of_transact (.inl ⟨message, rfl, rfl⟩)
        hreachable.noncesCount hopening hinner
      exact .inr ⟨receipt, last, rfl⟩
  obtain ⟨hinner, hhost⟩ | ⟨receipt, last, hinner⟩ := hcall
  · rw [hhost]
    refine ⟨by simp [hinner], ?_, ?_⟩
    · rintro _ _ ⟨⟩
    · rintro _ _ ⟨⟩
  obtain ⟨ended, hended, hbelow, hlast, hhost⟩ := call_behind hrefusal hinner
  change call config env fuel message host = _ at hhost
  obtain hgranted | ⟨gone, a, kept, reason, hdeleted, hgone, ha⟩ :=
    granted_or_first_refused host.refusal receipt.deleted
  · rw [forM_deleteAccount_of_granted hgranted, ← hlast] at hhost
    rw [hhost]
    refine ⟨by simp [hinner], ?_, ?_⟩
    · rintro _ _ ⟨⟩
      exact ⟨hinner, rfl, hgranted⟩
    · rintro _ _ ⟨⟩
  · rw [hdeleted, forM_deleteAccount_of_refused hgone ha] at hhost
    rw [hhost]
    refine ⟨by simp [hinner], ?_, ?_⟩
    · rintro _ _ ⟨⟩
    · rintro _ _ ⟨⟩
      rw [hdeleted, deleteAll_append] at hlast
      exact ⟨receipt, last, ended, gone, a, kept, reason, hinner, hended,
        hdeleted, hgone, ha, rfl, rfl, hlast, halfDeleted_behind gone hbelow⟩

/-! ## A call that is told to have failed -/

/-- A contract at 2 that calls the one at 3, which destroys itself, and then
destroys itself as well; all that it holds goes to the caller. -/
def destroyingBoth : List Operation :=
  [.install 2 (({ balance := 5 } : Account).withCode
      #[0x60, 0, 0x60, 0, 0x60, 0, 0x60, 0, 0x60, 0, 0x60, 3,
        0x61, 0xff, 0xff, 0xf1, 0x33, 0xff]),
    .install 3 (({} : Account).withCode #[0x33, 0xff])]

/-- A host with these contracts that does not delete the second. -/
def refusingDeletion : Host where
  inner := (serve perform {} destroyingBoth).2
  refusal request := if request = .access .deleteAccount 3 then some "down"
    else none

/-- The call of the first contract. -/
def callingBoth : CallMessage := { caller := 1, target := 2, gas := 1000000 }

/-- What a failure leaves. -/
def leftByFailure? {σ : Type} :
    Option (EStateM.Result Failure σ Receipt) → Option σ
  | some (.error _ ledger) => some ledger
  | some (.ok _ _) | none => none

theorem exists_of_leftByFailure? {σ : Type}
    {result : Option (EStateM.Result Failure σ Receipt)} {after : σ}
    (h : leftByFailure? result = some after) :
    ∃ cause, result = some (.error cause after) := by
  rcases result with _ | ⟨receipt, reached⟩ | ⟨cause, reached⟩ <;> cases h
  exact ⟨cause, rfl⟩

/-- The first contract is gone and the second is still there, where both were
before. -/
theorem exists_failure_of_callingBoth :
    ∃ cause after, call {} {} 20 callingBoth refusingDeletion =
      some (.error cause after) ∧
      Ledger.hasAccount after.inner 2 = .ok false ∧
      Ledger.hasAccount after.inner 3 = .ok true := by
  have hcall : (leftByFailure? (call {} {} 20 callingBoth refusingDeletion)).map
      (fun host => ((host.inner.account 2).isSome,
        (host.inner.account 3).isSome)) =
        some (false, true) := by
    decide +kernel
  obtain ⟨after, hleft, hparts⟩ := Option.map_eq_some_iff.1 hcall
  obtain ⟨hfirst, hsecond⟩ := Prod.mk.inj hparts
  obtain ⟨cause, hfails⟩ := exists_of_leftByFailure? hleft
  exact ⟨cause, after, hfails, congrArg Except.ok hfirst,
    congrArg Except.ok hsecond⟩

/-- The deletion of the first contract stands. -/
theorem callingBoth_is_half_applied :
    ∃ cause after ended gone,
      call {} {} 20 callingBoth refusingDeletion = some (.error cause after) ∧
      beforeDeletions {} {} 20 callingBoth refusingDeletion.inner = some ended ∧
      HalfDeleted gone ended refusingDeletion after := by
  have hreachable : refusingDeletion.inner.Reachable := by
    refine ⟨destroyingBoth, _, serves_serve destroyingBoth, ?_⟩
    simp [destroyingBoth, Operation.Counts, Account.withCode]
  have hrefusal : RefusesDeletionsOnly refusingDeletion.refusal :=
    fun request h => if_neg (h 3)
  obtain ⟨cause, after, hfails, _⟩ := exists_failure_of_callingBoth
  obtain ⟨_, _, ended, gone, _, _, _, _, hended, _, _, _, _, _, _, hhalf⟩ :=
    (refused_deletions_leave_calls_half_applied hreachable hrefusal {} {} 20
      callingBoth).2.2
      cause after hfails
  exact ⟨cause, after, ended, gone, hfails, hended, hhalf⟩

/-- A call that fails does not leave everything that can be read as it was. -/
theorem failed_call_leaves_deletion :
    ¬ ∀ cause after, call {} {} 20 callingBoth refusingDeletion =
      some (.error cause after) →
      SameReads refusingDeletion.inner after.inner := by
  intro hrestores
  obtain ⟨cause, after, hfails, hgone, _⟩ := exists_failure_of_callingBoth
  have hsame := (hrestores cause after hfails).hasAccount 2
  have hbefore : (refusingDeletion.inner.account 2).isSome = true := by
    decide +kernel
  rw [hgone] at hsame
  cases hbefore.symm.trans (Except.ok.inj hsame).symm

end ContractMachine.Transaction
