import ContractMachine.Proofs.Execution.StateChanges
import ContractMachine.Proofs.Transaction.Isolation
import ContractMachine.Proofs.Transaction.NoFailure
import ContractMachine.Proofs.Transaction.Resumption

/-!
# Where stored values come from

The storage of an account changes in two ways only: a frame that runs for the
account stores a value, or all rows are wiped because the account starts afresh.
Value that is moved, nonces that are counted up and code that is deployed leave
all storage alone, and what is taken back is a state that there was before.

So when the storage of an account has been wiped at the opening of a run, each
row holds from then on zero or a value that the run has stored there.
-/

namespace ContractMachine

/-- Each row has kept its value, is wiped, or holds a value that may be stored
there. -/
def FlatState.Rewrites (rows : Address → Word → Word → Prop)
    (before after : FlatState) : Prop :=
  ∀ a key, after.slot a key = before.slot a key ∨ after.slot a key = 0 ∨
    rows a key (after.slot a key)

/-- Each row of an account is zero or holds a value that may be stored there. -/
def FlatState.HoldsOnly (rows : Address → Word → Word → Prop) (a : Address)
    (state : FlatState) : Prop :=
  ∀ key, state.slot a key = 0 ∨ rows a key (state.slot a key)

namespace FlatState

variable {rows : Address → Word → Word → Prop} {first second third : FlatState}
  {a : Address}

theorem Rewrites.of_slot_eq (h : second.slot = first.slot) :
    first.Rewrites rows second :=
  fun a key => .inl (congrFun (congrFun h a) key)

theorem Rewrites.trans (h : first.Rewrites rows second)
    (h' : second.Rewrites rows third) :
    first.Rewrites rows third := by
  intro a key
  obtain hkept | hnew := h' a key
  · rw [hkept]
    exact h a key
  · exact .inr hnew

theorem HoldsOnly.rewrites (h : first.HoldsOnly rows a)
    (h' : first.Rewrites rows second) :
    second.HoldsOnly rows a := by
  intro key
  obtain hkept | hnew := h' a key
  · rw [hkept]
    exact h key
  · exact hnew

theorem slot_create (state : FlatState) (a b : Address) :
    (state.create a).slot b = if b = a then fun _ => 0 else state.slot b := by
  by_cases hb : b = a
  · subst b
    simp [create, install, put, clear]
  · rw [slot_create_of_ne hb, if_neg hb]

theorem rewrites_create (state : FlatState) (a : Address) :
    state.Rewrites rows (state.create a) := by
  intro b key
  rw [slot_create]
  split_ifs
  · exact .inr (.inl rfl)
  · exact .inl rfl

theorem rewrites_foldl_delete (deleted : List Address) (state : FlatState) :
    state.Rewrites rows (deleted.foldl delete state) := by
  intro b key
  rw [slot_foldl_delete]
  split_ifs
  · exact .inr (.inl rfl)
  · exact .inl rfl

/-- Acts of an account leave the storage of all others alone. -/
theorem slot_of_acts {actor : Address} (h : Acts actor first second)
    (hne : a ≠ actor) :
    second.slot a = first.slot a := by
  induction h with
  | refl => rfl
  | tail _ hact ih => exact (preserves_of_act hact hne).slot.trans ih

end FlatState

namespace Transaction

open Actions FlatState LayeredLedger

variable {config : Config} {env : Environment} {ledger after : LayeredLedger}
  {rows : Address → Word → Word → Prop} {a : Address}

/-! ## Between instructions -/

theorem slot_of_bumpNonce {n : Nat}
    (h : Ledger.bumpNonce a ledger = .ok n after) :
    after.states.top.slot = ledger.states.top.slot := by
  rw [states_of_bumpNonce h]
  rfl

theorem slot_of_transfer {source target : Address} {value : Word}
    (h : Ledger.transfer source target value ledger = .ok () after) :
    after.states.top.slot = ledger.states.top.slot := by
  by_cases hvalue : value = 0
  · rw [Ledger.transfer, if_pos hvalue] at h
    cases h
    rfl
  by_cases hlt : (ledger.states.top.held source).balance < value
  · rw [Ledger.transfer, if_neg hvalue, bind_of_error (debit_of_lt hlt)] at h
    cases h
  · obtain ⟨moved, htransfer, hstates⟩ := transfer_of_not_lt target hvalue hlt
    cases htransfer.symm.trans h
    rw [hstates]
    rfl

theorem rewrites_of_credit {source target : Address} {value : Word}
    (h : credit source target value ledger = .ok () after) :
    ledger.states.top.Rewrites rows after.states.top := by
  rw [credit] at h
  by_cases hvalue : value = 0
  · rw [if_pos hvalue] at h
    obtain ⟨_, rfl⟩ := pure_eq_ok_iff.1 h
    exact .of_slot_eq rfl
  rw [if_neg hvalue] at h
  obtain ⟨isThere, asked, hquery, hrest⟩ := bind_eq_ok_iff.1 h
  obtain rfl := (query_eq_ok hquery).2
  cases isThere with
  | true => exact .of_slot_eq (slot_of_transfer hrest)
  | false =>
    obtain ⟨_, created, hcreate, htransfer⟩ := bind_eq_ok_iff.1 hrest
    cases hcreate
    have hslot := slot_of_transfer htransfer
    rw [states_create] at hslot
    exact (rewrites_create _ target).trans (.of_slot_eq hslot)

/-- A new contract starts with no storage. -/
theorem slot_of_prepareAccount {creator address : Address} {value : Word}
    (h : prepareAccount creator address value ledger = .ok () after) :
    after.states.top.slot = (ledger.states.top.create address).slot := by
  obtain ⟨_, created, hcreate, hrest⟩ := bind_eq_ok_iff.1 h
  cases hcreate
  obtain ⟨n, bumped, hbump, htransfer⟩ := bind_eq_ok_iff.1 hrest
  calc
    after.states.top.slot = bumped.states.top.slot := slot_of_transfer htransfer
    _ = (ledger.create address).states.top.slot := slot_of_bumpNonce hbump
    _ = (ledger.states.top.create address).slot := by rw [states_create]; rfl

theorem slot_of_enterCreation {creator address : Address} {value : Word}
    {initCode : Bytes} {gas depth : Nat} {child : Activation}
    (h : enterCreation creator address value initCode gas depth ledger =
      .ok child after) :
    after.states.top.slot = (ledger.states.top.create address).slot := by
  obtain ⟨_, _, hprepare⟩ := enterCreation_eq_ok h
  rw [slot_of_prepareAccount hprepare, top_openSnapshot]

theorem rewrites_of_enterCall {context : Context} {moves : Bool}
    {source target : Address} {gas : Nat} {window : Range} {child : Activation}
    (h : enterCall context moves source target gas window ledger =
      .ok child after) :
    ledger.states.top.Rewrites rows after.states.top := by
  obtain ⟨code, _, _, hprepare⟩ := enterCall_eq_ok h
  rw [← top_openSnapshot]
  cases moves with
  | false =>
    have hquery : query (Ledger.code · target) (Ledger.openSnapshot ledger).2 =
        .ok code after :=
      hprepare
    obtain ⟨_, rfl⟩ := query_eq_ok hquery
    exact .of_slot_eq rfl
  | true =>
    obtain ⟨_, reached, hcredit, hquery⟩ := bind_eq_ok_iff.1 hprepare
    obtain ⟨_, rfl⟩ := query_eq_ok hquery
    exact rewrites_of_credit hcredit

/-- No value is stored when a request is met without entering a frame. -/
theorem rewrites_of_answered {live : Live LayeredLedger} {signal : Signal}
    {response : Response} (h : Meets config live signal response after)
    (hanswered : response = .refused ∨ response = .collided) :
    live.ledger.states.top.Rewrites rows after.states.top := by
  obtain rfl | rfl := hanswered
  · rw [ledger_of_refused h]
    exact .of_slot_eq rfl
  · obtain ⟨n, hbump⟩ := bumpNonce_of_collided h
    exact .of_slot_eq (slot_of_bumpNonce hbump)

/-- No value is stored when a frame is entered, neither before the state at its
opening is kept nor after that. -/
theorem rewrites_of_entered {live : Live LayeredLedger} {signal : Signal}
    {child : Activation} (h : Meets config live signal (.entered child) after) :
    ∃ mid, live.ledger.states.top.Rewrites rows mid ∧
      mid.Rewrites rows after.states.top ∧
      after.states.below = mid :: live.ledger.states.below := by
  obtain ⟨_, _, henter⟩ | ⟨_, address, n, bumped, _, hbump, henter⟩ :=
    enters_of_meets h
  · exact ⟨_, .of_slot_eq rfl, rewrites_of_enterCall henter,
      below_of_enterCall henter⟩
  · refine ⟨_, .of_slot_eq (slot_of_bumpNonce hbump), ?_, ?_⟩
    · exact (rewrites_create _ address).trans
        (.of_slot_eq (slot_of_enterCreation henter))
    · rw [below_of_enterCreation henter, StateStack.levels,
        states_of_bumpNonce hbump]
      rfl

/-! ## One turn -/

/-- A step stores what it stores for the account of its frame, and nothing
else. -/
theorem rewrites_of_step {live last : Live LayeredLedger}
    {signal : Option Signal}
    (hrows : ∀ key value, (key, value) ∈ Execution.storedAt live.frame →
      rows live.frame.context.address key value)
    (h : Execution.step config env live = .ok signal last) :
    live.ledger.states.top.Rewrites rows last.ledger.states.top := by
  intro a key
  by_cases ha : a = live.frame.context.address
  · subst ha
    obtain ⟨_, hslot⟩ | ⟨stored, value, hstored, hslot⟩ :=
      Execution.slot_of_step h
    · exact .inl (hslot key)
    · have hkey := hslot key
      split_ifs at hkey with heq
      · subst heq
        refine .inr (.inr ?_)
        rw [slot_top_states, hkey]
        exact hrows key value (by simp [hstored])
      · exact .inl hkey
  · have hacts : Acts live.frame.context.address live.ledger.states.top
        (left (Execution.step config env live)).ledger.states.top :=
          acts_of_step live
    rw [h] at hacts
    exact .inl (congrFun (slot_of_acts hacts ha) key)

/-- A frame that ends with success has returned. -/
theorem returns_of_finished {top : Activation} {exit : Exit}
    (h : turn config env top ledger = .concludes (.finished exit after))
    (hsuccess : exit.outcome = .success) :
    ∃ live output,
      Execution.step config env ⟨top.frame, ledger⟩ =
        .ok (some (.return output)) live ∧
      leave config { top with
        frame := live.frame } .success output live.ledger =
        .ok exit after := by
  have hfails : ∀ {left : Activation} {outcome : Outcome} {output : Bytes}
      {reached : LayeredLedger}, outcome ≠ .success →
      leave config left outcome output reached ≠ .ok exit after := by
    intro left outcome output reached hne hleave
    obtain houtcome | ⟨houtcome, _⟩ := outcome_of_leave hleave
    · exact hne (houtcome.symm.trans hsuccess)
    · exact hne houtcome
  rw [turn] at h
  split at h
  case h_1 | h_7 => cases h
  case h_2 | h_3 => exact absurd h ofResponse_ne_finished
  case h_4 output live hstep => exact ⟨live, output, hstep,
    ofLeaving_eq_finished h⟩
  case h_5 | h_6 => exact absurd (ofLeaving_eq_finished h) (hfails (by simp))

/-- Whether the rows that the next instruction of a frame stores are among
some. -/
def StoresIn (rows : Address → Word → Word → Prop) (config : Config)
    (env : Environment) (top : Activation) (ledger : LayeredLedger) : Prop :=
  ∀ signal live, Execution.step config env ⟨top.frame, ledger⟩ =
    .ok signal live →
    ∀ key value, (key, value) ∈ Execution.storedAt top.frame →
    rows top.address key value

section Turns

variable {top child : Activation} {frame : Frame}

theorem StoresIn.rewrites {signal : Option Signal} {live : Live LayeredLedger}
    (hrows : StoresIn rows config env top ledger)
    (h : Execution.step config env ⟨top.frame, ledger⟩ = .ok signal live) :
    ledger.states.top.Rewrites rows live.ledger.states.top :=
  rewrites_of_step (hrows signal live h) h

theorem rewrites_of_continues (hrows : StoresIn rows config env top ledger)
    (h : turn config env top ledger = .continues frame after) :
    ledger.states.top.Rewrites rows after.states.top := by
  obtain hstep | ⟨signal, live, response, hstep, hmeets, hanswer⟩ :=
    turn_eq_continues h
  · exact hrows.rewrites hstep
  · have hanswered : response = .refused ∨ response = .collided :=
      hanswer.imp And.left And.left
    exact (hrows.rewrites hstep).trans (rewrites_of_answered hmeets hanswered)

theorem rewrites_of_enters (hrows : StoresIn rows config env top ledger)
    (h : turn config env top ledger = .enters frame child after) :
    ∃ mid, ledger.states.top.Rewrites rows mid ∧
      mid.Rewrites rows after.states.top ∧
      after.states.below = mid :: ledger.states.below := by
  obtain ⟨signal, live, hstep, _, hmeets⟩ := turn_eq_enters h
  obtain ⟨mid, hfirst, hsecond, hkept⟩ := rewrites_of_entered hmeets
  have hbelow :
      (left (Execution.step config env
        ⟨top.frame, ledger⟩)).ledger.states.below =
      ledger.states.below := below_of_step ⟨top.frame, ledger⟩
  rw [hstep] at hbelow
  exact ⟨mid, (hrows.rewrites hstep).trans hfirst, hsecond,
    hkept.trans (congrArg _ hbelow)⟩

theorem rewrites_of_finished {exit : Exit}
    (hrows : StoresIn rows config env top ledger)
    (h : turn config env top ledger = .concludes (.finished exit after))
    (hsuccess : exit.outcome = .success) :
    ledger.states.top.Rewrites rows after.states.top := by
  obtain ⟨live, output, hstep, hleave⟩ := returns_of_finished h hsuccess
  obtain ⟨_, written, hcommit, hwritten⟩ := leave_eq_success hleave hsuccess
  obtain ⟨_, _, _, hstates⟩ := states_of_commit hcommit
  have hslot : written.states.top.slot = live.ledger.states.top.slot := by
    dsimp only at hwritten
    cases hrole : top.role with
    | call window =>
      rw [hrole] at hwritten
      rw [hwritten]
    | creation address =>
      rw [hrole] at hwritten
      obtain ⟨_, hset⟩ := hwritten
      cases hset
      rw [states_modifyAccount]
      rfl
  refine (hrows.rewrites hstep).trans (.of_slot_eq ?_)
  rw [hstates]
  exact hslot

end Turns

/-! ## Runs -/

/-- On its way from a state, a run stores the value under the key for the
account. -/
def Stores (config : Config) (env : Environment) (start : Running LayeredLedger)
    (a : Address) (key value : Word) : Prop :=
  ∃ state signal live, Reaches config env start state ∧ state.top.address = a ∧
    Execution.step config env ⟨state.top.frame, state.ledger⟩ =
      .ok signal live ∧
    (key, value) ∈ Execution.storedAt state.top.frame

theorem storesIn_of_reaches {start state : Running LayeredLedger}
    (h : Reaches config env start state) :
    StoresIn (Stores config env start) config env state.top state.ledger :=
  fun signal live hstep _ _ hstored => ⟨state, signal, live, h, rfl, hstep,
    hstored⟩

/-- What an account holds in the current state and in those at the openings of
all live frames but the first, which opened before anything was wiped. -/
structure HoldsSinceRoot (rows : Address → Word → Word → Prop) (a : Address)
    (state : Running LayeredLedger) : Prop where
  top : state.ledger.states.top.HoldsOnly rows a
  below : ∀ beneath ∈ state.ledger.states.below.take state.waiting.length,
    beneath.HoldsOnly rows a

theorem holdsSinceRoot_of_advance {state next : Running LayeredLedger}
    (hrows : StoresIn rows config env state.top state.ledger)
    (hstate : HoldsSinceRoot rows a state)
    (h : advance config env state = .running next) :
    HoldsSinceRoot rows a next := by
  obtain ⟨htop, hbelow⟩ := hstate
  cases advances_of_advance h with
  | continues hturn =>
    refine ⟨htop.rewrites (rewrites_of_continues hrows hturn), ?_⟩
    rw [below_of_continues hturn]
    exact hbelow
  | enters hturn =>
    obtain ⟨mid, hfirst, hsecond, hkept⟩ := rewrites_of_enters hrows hturn
    have hmid := htop.rewrites hfirst
    refine ⟨hmid.rewrites hsecond, ?_⟩
    rw [hkept, List.length_cons, List.take_succ_cons, List.forall_mem_cons]
    exact ⟨hmid, hbelow⟩
  | @resumes _ _ _ _ _ exit _ hturn _ =>
    obtain ⟨beneath, hdropped, hrolled⟩ := below_of_finished hturn
    -- The frame that ends is not the first, so what it takes back is one of
    -- these states.
    rw [hdropped, List.length_cons, List.take_succ_cons,
      List.forall_mem_cons] at hbelow
    refine ⟨?_, hbelow.2⟩
    by_cases hsuccess : exit.outcome = .success
    · exact htop.rewrites (rewrites_of_finished hrows hturn hsuccess)
    · exact hrolled hsuccess ▸ hbelow.1

/-- An account that holds nothing at the beginning holds only what the run
stores. -/
theorem holdsSinceRoot_of_reaches {start state : Running LayeredLedger}
    (hstart : start.waiting = [])
    (hempty : ∀ key, start.ledger.states.top.slot a key = 0)
    (h : Reaches config env start state) :
    HoldsSinceRoot (Stores config env start) a state := by
  induction h with
  | refl =>
    refine ⟨fun key => .inl (hempty key), ?_⟩
    rw [hstart, List.length_nil, List.take_zero]
    exact nofun
  | tail hreaches hadvance ih =>
    exact holdsSinceRoot_of_advance (storesIn_of_reaches hreaches) ih hadvance

end Transaction

end ContractMachine
