import ContractMachine.Ledger.Refusing
import ContractMachine.Proofs.Execution.Transport
import ContractMachine.Proofs.Ledger.Reads

/-!
# Ledgers that record their snapshots

A ledger behind a wrapper that passes every request on and keeps a record of
the snapshots that were opened, committed and rolled back.  Reading the record
back tells which snapshots are open, as long as each is closed before those
around it.

Two maps are answered alike by all requests: to forget the record, and to put a
ledger behind a wrapper that refuses nothing.  Behind a wrapper that refuses
only to delete accounts, all the other requests are answered alike.
-/

namespace ContractMachine

open Actions

/-- What has happened to a snapshot, told by its depth. -/
inductive SnapshotEvent where
  | opened (depth : Nat)
  | committed (depth : Nat)
  | rolledBack (depth : Nat)
  deriving DecidableEq, Repr

namespace SnapshotEvent

/-- Closes the innermost of the open snapshots, if it is the one to be
closed. -/
def closeInnermost (depth : Nat) : List Nat → Option (List Nat)
  | [] => none
  | innermost :: outer => if depth = innermost then some outer else none

/-- The snapshots that are open after an event, innermost first. -/
def apply (openSnapshots : List Nat) : SnapshotEvent → Option (List Nat)
  | .opened depth => some (depth :: openSnapshots)
  | .committed depth | .rolledBack depth => closeInnermost depth openSnapshots

/-- The snapshots that a record leaves open, innermost first; `none` if it
closes one that it has not opened, or before the ones inside it. -/
def openAfter (record : List SnapshotEvent) : Option (List Nat) :=
  record.foldlM apply []

theorem openAfter_concat (record : List SnapshotEvent) (event : SnapshotEvent) :
    openAfter (record ++ [event]) =
      (openAfter record).bind (apply · event) := by
  simp [openAfter, List.foldlM_append]

example : openAfter [.opened 1, .opened 2, .rolledBack 2,
    .opened 2] = some [2, 1] ∧
    openAfter [.opened 1, .opened 2, .committed 1] = none := by decide

/-- The depths of the innermost snapshots of a ledger down to some that are not
counted. -/
def above (base : Nat) : Nat → List Nat
  | 0 => []
  | n + 1 => (base + n + 1) :: above base n

end SnapshotEvent

/-- A ledger and what has happened to its snapshots, in order. -/
structure RecordingLedger (σ : Type) where
  inner : σ
  record : List SnapshotEvent := []

namespace RecordingLedger

variable {σ α : Type}

/-- Passes a write on. -/
def pass (write : EStateM LedgerError σ α) :
    EStateM LedgerError (RecordingLedger σ) α :=
  fun ledger =>
    match write ledger.inner with
    | .ok result inner => .ok result { ledger with inner }
    | .error cause inner => .error cause { ledger with inner }

/-- Passes the closing of a snapshot on, and records it if it succeeds. -/
def close (event : SnapshotEvent) (write : EStateM LedgerError σ Unit) :
    EStateM LedgerError (RecordingLedger σ) Unit := fun ledger =>
  match write ledger.inner with
  | .ok _ inner => .ok () ⟨inner, ledger.record ++ [event]⟩
  | .error cause inner => .error cause { ledger with inner }

instance [Ledger σ] : Ledger (RecordingLedger σ) where
  hasAccount ledger a := Ledger.hasAccount ledger.inner a
  createAccount a := pass (Ledger.createAccount a)
  deleteAccount a := pass (Ledger.deleteAccount a)
  balance ledger a := Ledger.balance ledger.inner a
  credit a amount := pass (Ledger.credit a amount)
  debit a amount := pass (Ledger.debit a amount)
  nonce ledger a := Ledger.nonce ledger.inner a
  bumpNonce a := pass (Ledger.bumpNonce a)
  code ledger a := Ledger.code ledger.inner a
  setCode a code := pass (Ledger.setCode a code)
  codeHash ledger a := Ledger.codeHash ledger.inner a
  slot ledger a key := Ledger.slot ledger.inner a key
  setSlot a key value := pass (Ledger.setSlot a key value)
  openSnapshot ledger :=
    let (depth, inner) := Ledger.openSnapshot ledger.inner
    (depth, ⟨inner, ledger.record ++ [.opened depth]⟩)
  commit depth := close (.committed depth) (Ledger.commit depth)
  rollback depth := close (.rolledBack depth) (Ledger.rollback depth)

/-! ## Forgetting the record -/

theorem commutes_pass (write : EStateM LedgerError σ α) :
    Commutes inner (pass write) write := by
  intro ledger
  rw [pass]
  cases write ledger.inner <;> rfl

theorem commutes_close (event : SnapshotEvent)
    (write : EStateM LedgerError σ Unit) :
    Commutes inner (close event write) write := by
  intro ledger
  rw [close]
  cases write ledger.inner <;> rfl

/-- Nothing depends on the record. -/
theorem isHom_inner [Ledger σ] :
    Ledger.IsHom (inner : RecordingLedger σ → σ) where
  hasAccount _ _ := rfl
  createAccount _ := commutes_pass _
  deleteAccount _ := commutes_pass _
  balance _ _ := rfl
  credit _ _ := commutes_pass _
  debit _ _ := commutes_pass _
  nonce _ _ := rfl
  bumpNonce _ := commutes_pass _
  code _ _ := rfl
  setCode _ _ := commutes_pass _
  codeHash _ _ := rfl
  slot _ _ _ := rfl
  setSlot _ _ _ := commutes_pass _
  openSnapshot _ := rfl
  commit _ := commutes_close _ _
  rollback _ := commutes_close _ _

/-! ## Reading the record -/

/-- The record tells which snapshots of the ledger are open above a depth. -/
def Tracks (base : Nat) (ledger : RecordingLedger LayeredLedger) : Prop :=
  ∃ n, ledger.inner.depth = base + n ∧
    SnapshotEvent.openAfter ledger.record = some (SnapshotEvent.above base n)

variable {base : Nat} {ledger : RecordingLedger LayeredLedger}

theorem tracks_start (inner : LayeredLedger) : Tracks inner.depth ⟨inner, []⟩ :=
  ⟨0, rfl, rfl⟩

/-- What leaves the states of snapshots alone is not recorded. -/
theorem Tracks.pass (h : Tracks base ledger)
    {write : EStateM LedgerError LayeredLedger α}
    (hwrite : (left (write ledger.inner)).states.below =
      ledger.inner.states.below) :
    Tracks base (left (pass write ledger)) := by
  obtain ⟨n, hdepth, hopen⟩ := h
  have hkept := (LayeredLedger.depth_eq_of_below hwrite).trans hdepth
  rw [RecordingLedger.pass]
  cases hresult : write ledger.inner with
  | ok result inner | error cause inner =>
    rw [hresult] at hkept
    exact ⟨n, hkept, hopen⟩

theorem Tracks.openSnapshot (h : Tracks base ledger) :
    base < (Ledger.openSnapshot ledger).1 ∧
    Tracks base (Ledger.openSnapshot ledger).2 := by
  obtain ⟨n, hdepth, hopen⟩ := h
  have hopened : (Ledger.openSnapshot ledger).1 = base + n + 1 :=
    congrArg (· + 1) hdepth
  constructor
  · rw [hopened]
    omega
  · refine ⟨n + 1, hopened, ?_⟩
    have hrecord : (Ledger.openSnapshot ledger).2.record =
        ledger.record ++ [.opened (Ledger.openSnapshot ledger).1] := rfl
    rw [hrecord, SnapshotEvent.openAfter_concat, hopen, hopened]
    rfl

/-- A snapshot that can be closed is the innermost one, and if it is above the
depth it is also the last of the record. -/
theorem Tracks.close (h : Tracks base ledger) {depth : Nat}
    (hbase : base < depth) {keep : Layer → LayeredLedger → LayeredLedger}
    (hkeep : ∀ layer beneath, (keep layer beneath).depth = beneath.depth)
    {event : SnapshotEvent}
    (hevent : ∀ opens,
      event.apply opens = SnapshotEvent.closeInnermost depth opens) :
    Tracks base
      (left (close event (LayeredLedger.closeSnapshot depth keep) ledger)) := by
  obtain ⟨n, hdepth, hopen⟩ := h
  rw [RecordingLedger.close]
  cases hclose : LayeredLedger.closeSnapshot depth keep ledger.inner with
  | error cause inner =>
    rw [LayeredLedger.eq_of_closeSnapshot_error hclose]
    exact ⟨n, hdepth, hopen⟩
  | ok _ inner =>
    rcases hlayers : ledger.inner.layers with _ | ⟨layer, beneath⟩
    · simp [LayeredLedger.closeSnapshot, hlayers] at hclose
    have hinnermost : depth = ledger.inner.depth := by
      by_contra hne
      simp [LayeredLedger.closeSnapshot, hlayers, hne] at hclose
    have hinner : inner = keep layer { ledger.inner with
        layers := beneath } := by
      simp only [LayeredLedger.closeSnapshot, hlayers, if_pos hinnermost,
        EStateM.Result.ok.injEq] at hclose
      exact hclose.2.symm
    -- The depth is above the base, so that the snapshot is one of those
    -- counted.
    obtain ⟨m, rfl⟩ : ∃ m, n = m + 1 := ⟨n - 1, by omega⟩
    refine ⟨m, ?_, ?_⟩
    · rw [left, hinner, hkeep]
      have hlength : ledger.inner.depth = beneath.length + 1 := by
        rw [LayeredLedger.depth, hlayers, List.length_cons]
      rw [LayeredLedger.depth]
      dsimp only
      omega
    · rw [left, SnapshotEvent.openAfter_concat, hopen, Option.bind_some, hevent,
        SnapshotEvent.above, SnapshotEvent.closeInnermost, if_pos (by omega)]

theorem Tracks.commit (h : Tracks base ledger) {depth : Nat}
    (hbase : base < depth) :
    Tracks base (left (Ledger.commit depth ledger)) := by
  have hmerge : ∀ (layer : Layer) (beneath : LayeredLedger),
      (beneath.merge layer).depth = beneath.depth := by
    intro layer beneath
    rw [LayeredLedger.merge_eq_replay]
    apply LayeredLedger.depth_eq_of_below
    rw [LayeredLedger.states_replay]
    rfl
  exact h.close hbase hmerge fun _ => rfl

theorem Tracks.rollback (h : Tracks base ledger) {depth : Nat}
    (hbase : base < depth) :
    Tracks base (left (Ledger.rollback depth ledger)) :=
  h.close hbase (fun _ _ => rfl) fun _ => rfl

end RecordingLedger

namespace RefusingLedger

variable {σ α : Type} {refusal : LedgerRequest → Option String}

/-- A ledger behind a wrapper. -/
def behind (refusal : LedgerRequest → Option String) (inner : σ) :
    RefusingLedger σ :=
  ⟨inner, refusal⟩

theorem commutes_attempt {request : LedgerRequest} (h : refusal request = none)
    (write : EStateM LedgerError σ α) :
    Commutes (behind refusal) write (attempt request write) := by
  intro inner
  rw [attempt]
  dsimp only [behind]
  rw [h]
  dsimp only
  cases write inner <;> rfl

theorem ask_behind {request : LedgerRequest} (h : refusal request = none)
    (inner : σ) (read : σ → Except LedgerError α) :
    (behind refusal inner).ask request read = read inner := by
  rw [ask]
  dsimp only [behind]
  rw [h]

/-- Whether nothing but the deletion of accounts is turned down. -/
def RefusesDeletionsOnly (refusal : LedgerRequest → Option String) : Prop :=
  ∀ request, (∀ a, request ≠ .access .deleteAccount a) → refusal request = none

/-- Running frames do not notice that accounts cannot be deleted. -/
theorem runsAlike_behind [Ledger σ] (h : RefusesDeletionsOnly refusal) :
    Ledger.RunsAlike (behind refusal : σ → RefusingLedger σ) where
  hasAccount inner a := ask_behind (h (.access .hasAccount a) (by simp)) inner _
  createAccount a := commutes_attempt (h (.access .createAccount a) (by simp)) _
  balance inner a := ask_behind (h (.access .balance a) (by simp)) inner _
  credit a _ := commutes_attempt (h (.access .credit a) (by simp)) _
  debit a _ := commutes_attempt (h (.access .debit a) (by simp)) _
  nonce inner a := ask_behind (h (.access .nonce a) (by simp)) inner _
  bumpNonce a := commutes_attempt (h (.access .bumpNonce a) (by simp)) _
  code inner a := ask_behind (h (.access .code a) (by simp)) inner _
  setCode a _ := commutes_attempt (h (.access .setCode a) (by simp)) _
  codeHash inner a := ask_behind (h (.access .codeHash a) (by simp)) inner _
  slot inner a _ := ask_behind (h (.access .slot a) (by simp)) inner _
  setSlot a _ _ := commutes_attempt (h (.access .setSlot a) (by simp)) _
  openSnapshot _ := rfl
  commit depth := commutes_attempt (h (.commit depth) (by simp)) _
  rollback depth := commutes_attempt (h (.rollback depth) (by simp)) _

/-- A ledger behind a wrapper that refuses nothing. -/
def refusingNothing {σ : Type} (inner : σ) : RefusingLedger σ :=
  ⟨inner, fun _ => none⟩

theorem isHom_refusingNothing [Ledger σ] :
    Ledger.IsHom (refusingNothing : σ → RefusingLedger σ) where
  toRunsAlike := runsAlike_behind fun _ _ => rfl
  deleteAccount _ := commutes_attempt rfl _

end RefusingLedger

end ContractMachine
