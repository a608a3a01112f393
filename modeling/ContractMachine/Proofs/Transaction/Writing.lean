import ContractMachine.Ledger.Refusing
import ContractMachine.Proofs.Transaction.Entering

/-!
# What all writes respect

Between its snapshots a transaction does nothing to the ledger but make a few
elementary writes, each of which may succeed or fail.  A relation between the
ledger before and after that all of them respect is also respected by what they
are put together to: the moving of value, what is prepared when a frame is
entered, whole instructions.  A ledger that refuses requests respects what the
one behind it does.
-/

namespace ContractMachine

open Actions

variable {σ α β : Type}

/-- A relation between ledgers that every elementary write respects. -/
structure Respects [Ledger σ] (R : σ → σ → Prop) : Prop where
  refl : ∀ ledger, R ledger ledger
  trans : ∀ {first second third}, R first second → R second third →
    R first third
  createAccount : ∀ a ledger, R ledger (left (Ledger.createAccount a ledger))
  credit : ∀ a amount ledger, R ledger (left (Ledger.credit a amount ledger))
  debit : ∀ a amount ledger, R ledger (left (Ledger.debit a amount ledger))
  bumpNonce : ∀ a ledger, R ledger (left (Ledger.bumpNonce a ledger))
  setCode : ∀ a code ledger, R ledger (left (Ledger.setCode a code ledger))
  setSlot : ∀ a key value ledger,
    R ledger (left (Ledger.setSlot a key value ledger))

namespace Respects

section Actions

variable [Ledger σ] {R : σ → σ → Prop} (hR : Respects R)
include hR

theorem bind {x : EStateM LedgerError σ α} {f : α → EStateM LedgerError σ β}
    (hx : ∀ ledger, R ledger (left (x ledger)))
    (hf : ∀ a ledger, R ledger (left (f a ledger))) (ledger : σ) :
    R ledger (left ((x >>= f) ledger)) := by
  have hfirst := hx ledger
  cases hresult : x ledger with
  | ok a reached =>
    rw [hresult] at hfirst
    rw [bind_of_ok hresult]
    exact hR.trans hfirst (hf a reached)
  | error cause reached =>
    rw [hresult] at hfirst
    rw [bind_of_error hresult]
    exact hfirst

theorem pure (a : α) (ledger : σ) :
    R ledger (left ((Pure.pure a : EStateM LedgerError σ α) ledger)) :=
  hR.refl ledger

theorem query (read : σ → Except LedgerError α) (ledger : σ) :
    R ledger (left (Transaction.query read ledger)) := by
  rw [Transaction.query]
  cases read ledger <;> exact hR.refl ledger

theorem transfer (source target : Address) (value : Word) (ledger : σ) :
    R ledger (left (Ledger.transfer source target value ledger)) := by
  rw [Ledger.transfer]
  by_cases hvalue : value = 0
  · rw [if_pos hvalue]
    exact hR.refl ledger
  · rw [if_neg hvalue]
    exact hR.bind (hR.debit source value)
      (fun _ => hR.bind (hR.credit target value) fun _ => hR.pure ()) ledger

theorem creditAccount (source target : Address) (value : Word) (ledger : σ) :
    R ledger (left (Transaction.credit source target value ledger)) := by
  rw [Transaction.credit]
  by_cases hvalue : value = 0
  · rw [if_pos hvalue]
    exact hR.refl ledger
  rw [if_neg hvalue]
  refine hR.bind (hR.query _) (fun isThere => ?_) ledger
  cases isThere with
  | false =>
    exact hR.bind (hR.createAccount target) fun _ =>
      hR.transfer source target value
  | true => exact hR.transfer source target value

theorem prepareEntry (context : Context) (moves : Bool)
    (source target : Address) (ledger : σ) :
    R ledger
      (left (Transaction.prepareEntry context moves source target ledger)) := by
  cases moves with
  | false => exact hR.query (Ledger.code · target) ledger
  | true => exact hR.bind (hR.creditAccount _ _ _) (fun _ => hR.query _) ledger

theorem prepareAccount (creator address : Address) (value : Word) (ledger : σ) :
    R ledger (left (Transaction.prepareAccount creator address value ledger)) :=
  hR.bind (hR.createAccount address)
    (fun _ => hR.bind (hR.bumpNonce address) fun _ =>
    hR.transfer creator address value) ledger

theorem step (config : Config) (env : Environment) (live : Live σ) :
    R live.ledger (left (Execution.step config env live)).ledger := by
  refine Execution.Moves.lift (R := fun before after : Live σ =>
    R before.ledger after.ledger)
    (fun _ => hR.refl _) hR.trans (fun hmove => ?_)
    (Execution.moves_step config env live)
  cases hmove with
  | spend | work | gather => exact hR.refl _
  | store key value _ => exact hR.setSlot _ key value _
  | send target value _ => exact hR.transfer _ target value _

theorem depositCode (config : Config) (address : Address) (code : Bytes)
    (live : Live σ) :
    R live.ledger
      (left (Transaction.depositCode config address code live)).ledger := by
  obtain ⟨_, _, written, hleft, hwritten⟩ :=
    Transaction.left_depositCode config address code live
  rw [hleft]
  obtain rfl | rfl := hwritten
  · exact hR.refl _
  · exact hR.setCode address code _

end Actions

/-! ## Refusals -/

/-- What is related behind two wrappers that refuse the same requests. -/
def Behind (R : σ → σ → Prop) (before after : RefusingLedger σ) : Prop :=
  after.refusal = before.refusal ∧ R before.inner after.inner

theorem behind_attempt {R : σ → σ → Prop} (hrefl : ∀ ledger, R ledger ledger)
    {write : EStateM LedgerError σ α}
    (h : ∀ ledger, R ledger (left (write ledger))) (request : LedgerRequest)
    (ledger : RefusingLedger σ) :
    Behind R ledger (left (RefusingLedger.attempt request write ledger)) := by
  rw [RefusingLedger.attempt]
  cases ledger.refusal request with
  | some reason => exact ⟨rfl, hrefl _⟩
  | none =>
    have hwrite := h ledger.inner
    dsimp only
    cases hresult : write ledger.inner with
    | ok a inner | error cause inner =>
      rw [hresult] at hwrite
      exact ⟨rfl, hwrite⟩

/-- A refused request changes nothing, and any other is passed on. -/
theorem behind [Ledger σ] {R : σ → σ → Prop} (hR : Respects R) :
    Respects (Behind R) where
  refl _ := ⟨rfl, hR.refl _⟩
  trans hfirst hsecond := ⟨hsecond.1.trans hfirst.1,
    hR.trans hfirst.2 hsecond.2⟩
  createAccount a := behind_attempt hR.refl (hR.createAccount a) _
  credit a amount := behind_attempt hR.refl (hR.credit a amount) _
  debit a amount := behind_attempt hR.refl (hR.debit a amount) _
  bumpNonce a := behind_attempt hR.refl (hR.bumpNonce a) _
  setCode a code := behind_attempt hR.refl (hR.setCode a code) _
  setSlot a key value := behind_attempt hR.refl (hR.setSlot a key value) _

end Respects

end ContractMachine
