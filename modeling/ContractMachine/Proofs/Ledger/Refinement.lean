import ContractMachine.Proofs.Actions
import ContractMachine.Proofs.Ledger.Commit
import ContractMachine.Proofs.Ledger.Dump

/-!
# Layered ledgers are stacks of states

Each operation of a layered ledger does to the stack of states that the ledger
stands for what the same operation does to a stack of states, with the same
answer or the same error.  Hence no history of operations tells the two apart.

A commit may repeat its layer in any order, and a dump may visit accounts and
rows in any order: the histories below leave both open.
-/

namespace ContractMachine

/-- The same result over another state. -/
def mapState {ε σ τ α : Type} (f : σ → τ) :
    EStateM.Result ε σ α → EStateM.Result ε τ α
  | .ok answer state => .ok answer (f state)
  | .error cause state => .error cause (f state)

@[simp]
theorem outcomeOf_mapState {ε σ τ α : Type} (f : σ → τ)
    (result : EStateM.Result ε σ α) :
    outcomeOf (mapState f result) = ((outcomeOf result).1,
      f (outcomeOf result).2) := by
  cases result <;> rfl

namespace LayeredLedger

/-- A read as an operation. -/
def ask {α : Type} (read : LayeredLedger → Except LedgerError α)
    (answer : α → Answer) :
    EStateM LedgerError LayeredLedger Answer := fun ledger =>
  match read ledger with
  | .ok result => .ok (answer result) ledger
  | .error cause => .error cause ledger

/-- A write as an operation. -/
def tell {α : Type} (write : EStateM LedgerError LayeredLedger α)
    (answer : α → Answer) :
    EStateM LedgerError LayeredLedger Answer := fun ledger =>
  match write ledger with
  | .ok result ledger => .ok (answer result) ledger
  | .error cause ledger => .error cause ledger

/-- What an operation does to a layered ledger. -/
def perform : Operation → EStateM LedgerError LayeredLedger Answer
  | .hasAccount a => ask (Ledger.hasAccount · a) .truth
  | .createAccount a => tell (Ledger.createAccount a) fun _ => .done
  | .deleteAccount a => tell (Ledger.deleteAccount a) fun _ => .done
  | .balance a => ask (Ledger.balance · a) .word
  | .credit a amount => tell (Ledger.credit a amount) .word
  | .debit a amount => tell (Ledger.debit a amount) .word
  | .nonce a => ask (Ledger.nonce · a) .count
  | .bumpNonce a => tell (Ledger.bumpNonce a) .count
  | .code a => ask (Ledger.code · a) .bytes
  | .setCode a code => tell (Ledger.setCode a code) fun _ => .done
  | .codeHash a => ask (Ledger.codeHash · a) .word
  | .slot a key => ask (Ledger.slot · a key) .word
  | .setSlot a key value => tell (Ledger.setSlot a key value) fun _ => .done
  | .install a account => fun ledger => .ok .done (ledger.install a account)
  | .transfer source target value =>
    tell (Ledger.transfer source target value) fun _ => .done
  | .isEmpty a => ask (Ledger.isEmpty · a) .truth
  | .openSnapshot => fun ledger =>
    .ok (.count (Ledger.openSnapshot ledger).1) (Ledger.openSnapshot ledger).2
  | .commit depth => tell (Ledger.commit depth) fun _ => .done
  | .rollback depth => tell (Ledger.rollback depth) fun _ => .done
  | .depth => fun ledger => .ok (.count ledger.depth) ledger

/-- What an operation may do when a commit repeats the innermost layer in some
order. -/
inductive Performs : Operation → LayeredLedger →
    EStateM.Result LedgerError LayeredLedger Answer → Prop where
  | commit {ledger : LayeredLedger} {edits : List (Address × Edit)}
      (depth : Nat)
      (h : ∀ layer ∈ ledger.layers.head?, layer.Repeats edits) :
      Performs (.commit depth) ledger
        (tell (commitBy edits depth) (fun _ => .done) ledger)
  | other {ledger : LayeredLedger} {operation : Operation}
      (h : ∀ depth, operation ≠ .commit depth) :
      Performs operation ledger (perform operation ledger)

/-- The answers that a history may get from a ledger that starts empty, and the
ledger it may leave. -/
inductive Serves :
    List Operation → List (Except LedgerError Answer) → LayeredLedger →
    Prop where
  | nil : Serves [] [] {}
  | concat {history : List Operation}
      {answers : List (Except LedgerError Answer)}
      {ledger : LayeredLedger} {operation : Operation}
      {result : EStateM.Result LedgerError LayeredLedger Answer} :
      Serves history answers ledger → Performs operation ledger result →
      Serves (history ++ [operation]) (answers ++ [(outcomeOf result).1])
        (outcomeOf result).2

/-- Closing a snapshot closes the topmost state, if what it leaves shows the
state that is to be kept. -/
theorem mapState_closeSnapshot (close : Layer → LayeredLedger → LayeredLedger)
    (keep : FlatState → FlatState → FlatState) {ledger : LayeredLedger}
    (h : ∀ layer beneath, ledger.layers = layer :: beneath →
      (close layer ⟨ledger.base, beneath⟩).states =
        ⟨keep (stateIn ledger.base (layer :: beneath))
          (stateIn ledger.base beneath),
          statesBelow ledger.base beneath⟩) (depth : Nat) :
    mapState states (tell (closeSnapshot depth close) (fun _ => .done) ledger) =
      StateStack.close depth keep ledger.states := by
  rcases ledger with ⟨base, layers⟩
  cases layers with
  | nil => rfl
  | cons layer beneath =>
    have hdepth : (states ⟨base, layer :: beneath⟩).depth =
        beneath.length + 1 :=
      depth_states ⟨base, layer :: beneath⟩
    have hclose : closeSnapshot depth close ⟨base, layer :: beneath⟩ =
        if depth = beneath.length + 1 then .ok () (close layer ⟨base, beneath⟩)
        else .error (.snapshotOrder (beneath.length + 1) depth)
          ⟨base, layer :: beneath⟩ := rfl
    have hstack : StateStack.close depth keep
        (states ⟨base, layer :: beneath⟩) =
        if depth = beneath.length + 1 then
          .ok .done
            ⟨keep (stateIn base (layer :: beneath)) (stateIn base beneath),
            statesBelow base beneath⟩
        else .error (.snapshotOrder (beneath.length + 1) depth)
          (states ⟨base, layer :: beneath⟩) := by
      rw [← hdepth]
      rfl
    rw [tell, hclose, hstack]
    by_cases hmatch : depth = beneath.length + 1
    · rw [if_pos hmatch, if_pos hmatch]
      exact congrArg (EStateM.Result.ok Answer.done) (h layer beneath rfl)
    · rw [if_neg hmatch, if_neg hmatch]
      rfl

theorem debit_of_lt {ledger : LayeredLedger} {a : Address} {amount : Word}
    (h : (ledger.states.top.held a).balance < amount) :
    Ledger.debit a amount ledger =
      .error (.insufficientBalance a (ledger.states.top.held a).balance amount)
        ledger :=
  if_pos h

theorem debit_of_not_lt {ledger : LayeredLedger} {a : Address} {amount : Word}
    (h : ¬ (ledger.states.top.held a).balance < amount) :
    Ledger.debit a amount ledger =
      .ok ((ledger.states.top.held a).balance - amount)
        (ledger.modifyAccount a
          ({ · with
            balance := (ledger.states.top.held a).balance - amount })) :=
  if_neg h

theorem bumpNonce_of_lt {ledger : LayeredLedger} {a : Address}
    (h : (ledger.states.top.held a).nonce < Saturating.limit) :
    Ledger.bumpNonce a ledger =
      .ok ((ledger.states.top.held a).nonce + 1)
        (ledger.modifyAccount a
          ({ · with nonce := (ledger.states.top.held a).nonce + 1 })) :=
  if_pos h

theorem bumpNonce_of_not_lt {ledger : LayeredLedger} {a : Address}
    (h : ¬ (ledger.states.top.held a).nonce < Saturating.limit) :
    Ledger.bumpNonce a ledger = .error (.nonceOverflow a) ledger :=
  if_neg h

/-- Moving value takes it from the source first, so that the target's balance is
read after that. -/
theorem transfer_of_not_lt {ledger : LayeredLedger} {source : Address}
    (target : Address) {value : Word} (hvalue : value ≠ 0)
    (h : ¬ (ledger.states.top.held source).balance < value) :
    ∃ moved, Ledger.transfer source target value ledger = .ok () moved ∧
      moved.states = ledger.states.change (·.move source target value) := by
  let debited := ledger.modifyAccount source
    ({ · with balance := (ledger.states.top.held source).balance - value })
  let balance := (debited.states.top.held target).balance.saturatingAdd value
  refine ⟨debited.modifyAccount target ({ · with balance := balance }), ?_, ?_⟩
  · rw [Ledger.transfer, if_neg hvalue, Actions.bind_of_ok (debit_of_not_lt h)]
    rfl
  · have hdebited : debited.states = ledger.states.change
        (·.setBalance source
          ((ledger.states.top.held source).balance - value)) :=
      states_modifyAccount ledger source _
    calc
      (debited.modifyAccount target ({ · with balance := balance })).states =
          debited.states.change (·.setBalance target balance) :=
        states_modifyAccount debited target _
      _ = ledger.states.change (·.move source target value) := by
        simp only [balance, hdebited]
        rfl

theorem isEmpty_eq (ledger : LayeredLedger) (a : Address) :
    Ledger.isEmpty ledger a = .ok (ledger.states.top.isEmpty a) := by
  simp only [Ledger.isEmpty, Ledger.hasAccount, Ledger.nonce, Ledger.balance,
    Ledger.codeHash, FlatState.isEmpty, Account.isEmpty, held_top_states]
  cases haccount : ledger.account a with
  | none => rfl
  | some account =>
    by_cases hnonce : account.nonce = 0 <;>
      by_cases hbalance : account.balance = 0#256 <;>
      simp [hnonce, hbalance, bind, Except.bind, pure, Except.pure]

theorem mapState_perform (operation : Operation) (ledger : LayeredLedger) :
    mapState states (perform operation ledger) =
      StateStack.perform operation ledger.states := by
  cases operation with
  | hasAccount a => rfl
  | createAccount a =>
    exact congrArg (EStateM.Result.ok Answer.done) (states_create ledger a)
  | deleteAccount a =>
    exact congrArg (EStateM.Result.ok Answer.done) (states_delete ledger a)
  | balance a => rfl
  | credit a amount =>
    exact congrArg (EStateM.Result.ok _) (states_modifyAccount ledger a _)
  | debit a amount =>
    simp only [perform, tell, StateStack.perform]
    by_cases hlt : (ledger.states.top.held a).balance < amount
    · rw [debit_of_lt hlt, if_pos hlt]
      rfl
    · rw [debit_of_not_lt hlt, if_neg hlt]
      exact congrArg (EStateM.Result.ok _) (states_modifyAccount ledger a _)
  | nonce a => rfl
  | bumpNonce a =>
    simp only [perform, tell, StateStack.perform]
    by_cases hlt : (ledger.states.top.held a).nonce < Saturating.limit
    · rw [bumpNonce_of_lt hlt, if_pos hlt]
      exact congrArg (EStateM.Result.ok _) (states_modifyAccount ledger a _)
    · rw [bumpNonce_of_not_lt hlt, if_neg hlt]
      rfl
  | code a => rfl
  | setCode a code =>
    exact congrArg (EStateM.Result.ok _) (states_modifyAccount ledger a _)
  | codeHash a => rfl
  | slot a key => rfl
  | setSlot a key value =>
    exact congrArg (EStateM.Result.ok Answer.done)
      (states_setSlot ledger a key value)
  | install a account =>
    exact congrArg (EStateM.Result.ok Answer.done)
      (states_install ledger a account)
  | transfer source target value =>
    simp only [perform, tell, StateStack.perform]
    by_cases hvalue : value = 0
    · rw [if_pos hvalue, Ledger.transfer, if_pos hvalue]
      rfl
    rw [if_neg hvalue]
    by_cases hlt : (ledger.states.top.held source).balance < value
    · rw [if_pos hlt, Ledger.transfer, if_neg hvalue,
        Actions.bind_of_error (debit_of_lt hlt)]
      rfl
    · obtain ⟨moved, htransfer, hmoved⟩ := transfer_of_not_lt target hvalue hlt
      rw [if_neg hlt, htransfer]
      exact congrArg (EStateM.Result.ok Answer.done) hmoved
  | isEmpty a =>
    simp only [perform, ask, isEmpty_eq]
    rfl
  | openSnapshot =>
    simp only [perform, StateStack.perform, mapState, depth_states]
    exact congrArg (EStateM.Result.ok _) (states_openSnapshot ledger)
  | commit depth =>
    refine mapState_closeSnapshot (fun layer beneath => beneath.merge layer)
      (fun top _ => top) (fun layer beneath _ => ?_) depth
    rw [merge_eq_replay]
    exact states_replay_of_repeats layer.repeats_edits
  | rollback depth =>
    exact mapState_closeSnapshot (fun _ beneath => beneath)
      (fun _ beneath => beneath)
      (fun _ _ _ => rfl) depth
  | depth =>
    simp only [perform, StateStack.perform, mapState, depth_states]

/-! ## Histories -/

/-- Whatever the order of a commit, an operation does to the stack of states
what it does to a stack of states. -/
theorem Performs.mapState_eq {operation : Operation} {ledger : LayeredLedger}
    {result : EStateM.Result LedgerError LayeredLedger Answer}
    (h : Performs operation ledger result) :
    mapState states result = StateStack.perform operation ledger.states := by
  cases h with
  | @commit _ edits depth hrepeats =>
    refine mapState_closeSnapshot (fun _ beneath => beneath.replay edits)
      (fun top _ => top)
      (fun layer beneath hlayers => ?_) depth
    exact states_replay_of_repeats (hrepeats layer (by simp [hlayers]))
  | other _ => exact mapState_perform operation ledger

/-- The ledger's own way to answer is among the possible ones. -/
theorem performs_perform (operation : Operation) (ledger : LayeredLedger) :
    Performs operation ledger (perform operation ledger) := by
  by_cases hcommit : ∃ depth, operation = .commit depth
  · obtain ⟨depth, rfl⟩ := hcommit
    have hsame : perform (.commit depth) ledger =
        tell (commitBy ((ledger.layers.head?.map Layer.edits).getD []) depth)
          (fun _ => .done) ledger := by
      rw [tell, ← commit_eq_commitBy]
      rfl
    rw [hsame]
    refine .commit depth fun layer hlayer => ?_
    rw [Option.mem_def.1 hlayer]
    exact layer.repeats_edits
  · exact .other fun depth heq => hcommit ⟨depth, heq⟩

theorem eq_of_ask_error {α : Type} {read : LayeredLedger → Except LedgerError α}
    {answer : α → Answer} {ledger left : LayeredLedger} {cause : LedgerError}
    (h : ask read answer ledger = .error cause left) : left = ledger := by
  rw [ask] at h
  split at h <;> cases h
  rfl

theorem write_eq_error_of_tell {α : Type}
    {write : EStateM LedgerError LayeredLedger α} {answer : α → Answer}
    {ledger left : LayeredLedger} {cause : LedgerError}
    (h : tell write answer ledger = .error cause left) :
    write ledger = .error cause left := by
  rw [tell] at h
  split at h <;> cases h
  assumption

/-- An operation that fails leaves the ledger as it was. -/
theorem eq_of_perform_error {operation : Operation}
    {ledger left : LayeredLedger} {cause : LedgerError}
    (h : perform operation ledger = .error cause left) :
    left = ledger := by
  cases operation with
  | hasAccount | balance | nonce | code | codeHash | slot | isEmpty =>
    rw [perform] at h
    exact eq_of_ask_error h
  | createAccount | deleteAccount | credit | setCode | setSlot | install
  | openSnapshot | depth =>
    cases h
  | debit a amount =>
    replace h := write_eq_error_of_tell h
    by_cases hlt : (ledger.states.top.held a).balance < amount
    · rw [debit_of_lt hlt] at h
      cases h
      rfl
    · rw [debit_of_not_lt hlt] at h
      cases h
  | bumpNonce a =>
    replace h := write_eq_error_of_tell h
    by_cases hlt : (ledger.states.top.held a).nonce < Saturating.limit
    · rw [bumpNonce_of_lt hlt] at h
      cases h
    · rw [bumpNonce_of_not_lt hlt] at h
      cases h
      rfl
  | transfer source target value =>
    replace h := write_eq_error_of_tell h
    by_cases hvalue : value = 0
    · rw [Ledger.transfer, if_pos hvalue] at h
      cases h
    by_cases hlt : (ledger.states.top.held source).balance < value
    · rw [Ledger.transfer, if_neg hvalue,
        Actions.bind_of_error (debit_of_lt hlt)] at h
      cases h
      rfl
    · obtain ⟨moved, htransfer, _⟩ := transfer_of_not_lt target hvalue hlt
      rw [htransfer] at h
      cases h
  | commit depth =>
    replace h : commit depth ledger = .error cause left :=
      write_eq_error_of_tell h
    exact eq_of_closeSnapshot_error h
  | rollback depth =>
    replace h : rollback depth ledger = .error cause left :=
      write_eq_error_of_tell h
    exact eq_of_closeSnapshot_error h

theorem Performs.eq_of_error {operation : Operation}
    {ledger left : LayeredLedger} {cause : LedgerError}
    (h : Performs operation ledger (.error cause left)) :
    left = ledger := by
  generalize hresult : EStateM.Result.error cause left = result at h
  cases h with
  | commit depth _ =>
    exact eq_of_closeSnapshot_error (write_eq_error_of_tell hresult.symm)
  | other _ => exact eq_of_perform_error hresult.symm

/-- Whatever orders were chosen, a history gets the answers and leaves the
states that it gets from and leaves of a stack of states. -/
theorem Serves.eq_serve {history : List Operation}
    {answers : List (Except LedgerError Answer)} {ledger : LayeredLedger}
    (h : Serves history answers ledger) :
    (answers, ledger.states) =
      serve StateStack.perform StateStack.empty history := by
  induction h with
  | nil => rw [states_empty]; rfl
  | @concat history answers ledger operation result _ hresult ih =>
    have hstep := congrArg outcomeOf hresult.mapState_eq
    rw [outcomeOf_mapState] at hstep
    rw [serve_concat, ← ih]
    simp only [← hstep]

theorem serves_serve (history : List Operation) :
    Serves history (serve perform {} history).1
      (serve perform {} history).2 := by
  induction history using List.reverseRecOn with
  | nil => exact .nil
  | append_singleton history operation ih =>
    rw [serve_concat]
    exact .concat ih (performs_perform operation _)

/-- A layered ledger that starts empty and a stack of states that starts with
the empty state answer every history of operations alike, values and errors; an
operation that fails changes neither; and a dump lists the accounts of the
topmost state with their nonzero rows.  All this holds for whatever order
commits repeat their layers in and dumps visit accounts and rows in, the
ledger's own order among them. -/
theorem layered_ledger_refines_state_stack (history : List Operation) :
    Serves history (serve perform {} history).1 (serve perform {} history).2 ∧
    ∀ answers ledger, Serves history answers ledger →
      (answers, ledger.states) =
        serve StateStack.perform StateStack.empty history ∧
      (∀ operation cause left, Performs operation ledger (.error cause left) →
        left = ledger ∧
          StateStack.perform operation ledger.states =
            .error cause ledger.states) ∧
      ledger.states.top.IsDump ledger.dump ∧
      ∀ itinerary : Itinerary, itinerary.Covers ledger →
        ledger.dumpBy itinerary = ledger.dump := by
  refine ⟨serves_serve history, fun answers ledger hserves => ?_⟩
  refine ⟨hserves.eq_serve, ?_, ledger.isDump_dump, fun itinerary hcovers =>
    (isDump_dumpBy hcovers).unique ledger.isDump_dump⟩
  intro operation cause left hfails
  obtain rfl := hfails.eq_of_error
  exact ⟨rfl, hfails.mapState_eq.symm⟩

end LayeredLedger

end ContractMachine
