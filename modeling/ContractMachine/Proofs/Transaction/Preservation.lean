import ContractMachine.Proofs.Transaction.Actors
import ContractMachine.Proofs.Transaction.GasConservation

/-!
# What writes preserve, transactions preserve

The states that a running transaction may come back to are the current one and
those at the opening of each of its frames.  Instructions, and what is done to
enter and to leave frames, make writes to the current state; entering a frame
keeps a copy of it, and leaving one takes it up or drops it.  So a property of
states that each write preserves holds of all these states as long as the
transaction runs, and of the state that it leaves.
-/

namespace ContractMachine.Transaction

open Actions LayeredLedger

variable {config : Config} {env : Environment} {ledger after : LayeredLedger}

/-! ## One turn -/

theorem Entry.writes {actor : Address} {child : Activation}
    {state entered : FlatState} (h : Entry actor child state entered) :
    FlatState.Writes state entered := by
  cases h with
  | call _ hprovides hacts =>
    cases hprovides with
    | there => exact hacts.writes
    | appears _ => exact .head (.create state child.address) hacts.writes
  | creation _ _ hacts =>
    exact (state.writes_found child.address).trans hacts.writes

theorem Deploys.writes {role : Role} {state ended : FlatState}
    (h : Deploys config role state ended) : FlatState.Writes state ended := by
  cases role with
  | call window =>
    obtain rfl : ended = state := h
    exact .refl
  | creation a =>
    obtain ⟨code, _, rfl⟩ := h
    exact .single (.deploy state a code)

theorem writes_of_continues {top : Activation} {frame : Frame}
    (h : turn config env top ledger = .continues frame after) :
    FlatState.Writes ledger.states.top after.states.top :=
  (acts_of_continues h).writes

theorem writes_of_enters {top child : Activation} {frame : Frame}
    (h : turn config env top ledger = .enters frame child after) :
    ∃ mid, FlatState.Writes ledger.states.top mid ∧
      FlatState.Writes mid after.states.top ∧
      after.states.below = mid :: ledger.states.below := by
  obtain ⟨mid, hacts, hbelow, hentry⟩ := acts_of_enters h
  exact ⟨mid, hacts.writes, hentry.writes, hbelow⟩

/-- A frame that ends leaves the state that it has written to, or the one at its
opening. -/
theorem writes_of_finished {top : Activation} {exit : Exit}
    (h : turn config env top ledger = .concludes (.finished exit after)) :
    ∃ beneath, ledger.states.below = beneath :: after.states.below ∧
      (FlatState.Writes ledger.states.top after.states.top ∨
        after.states.top = beneath) := by
  obtain ⟨beneath, hbelow, hrolled⟩ := below_of_finished h
  refine ⟨beneath, hbelow, ?_⟩
  by_cases hsuccess : exit.outcome = .success
  · obtain ⟨reached, hacts, hdeploys⟩ := acts_of_finished h hsuccess
    exact .inl (hacts.writes.trans hdeploys.writes)
  · exact .inr (hrolled hsuccess)

/-! ## Runs -/

/-- A property of the current state and of the states at the openings of all
live frames. -/
structure AtAllLevels (P : FlatState → Prop) (state : Running LayeredLedger) :
    Prop where
  top : P state.ledger.states.top
  below : ∀ beneath ∈ state.ledger.states.below.take (state.waiting.length + 1),
    P beneath

variable {P : FlatState → Prop}

theorem atAllLevels_of_advance
    (hP : ∀ {state written}, FlatState.Write state written → P state →
      P written)
    {state next : Running LayeredLedger} (hstate : AtAllLevels P state)
    (h : advance config env state = .running next) : AtAllLevels P next := by
  obtain ⟨htop, hbelow⟩ := hstate
  cases advances_of_advance h with
  | continues hturn =>
    refine ⟨(writes_of_continues hturn).preserves hP htop, ?_⟩
    rw [below_of_continues hturn]
    exact hbelow
  | enters hturn =>
    obtain ⟨mid, hfirst, hsecond, hkept⟩ := writes_of_enters hturn
    have hmid : P mid := hfirst.preserves hP htop
    refine ⟨hsecond.preserves hP hmid, ?_⟩
    rw [hkept, List.length_cons, List.take_succ_cons, List.forall_mem_cons]
    exact ⟨hmid, hbelow⟩
  | resumes hturn _ =>
    obtain ⟨beneath, hdropped, hleft⟩ := writes_of_finished hturn
    rw [hdropped, List.length_cons, List.take_succ_cons,
      List.forall_mem_cons] at hbelow
    refine ⟨?_, hbelow.2⟩
    obtain hwrites | hrolled := hleft
    · exact hwrites.preserves hP htop
    · rw [hrolled]
      exact hbelow.1

theorem atAllLevels_of_reaches
    (hP : ∀ {state written}, FlatState.Write state written → P state →
      P written)
    {state next : Running LayeredLedger} (hstate : AtAllLevels P state)
    (h : Reaches config env state next) : AtAllLevels P next := by
  induction h with
  | refl => exact hstate
  | tail _ hstep ih => exact atAllLevels_of_advance hP ih hstep

/-- What holds at all levels holds of the state that the last frame leaves. -/
theorem AtAllLevels.top_of_finished
    (hP : ∀ {state written}, FlatState.Write state written → P state →
      P written)
    {state : Running LayeredLedger} {exit : Exit} (hstate : AtAllLevels P state)
    (h : turn config env state.top state.ledger =
      .concludes (.finished exit after)) :
    P after.states.top := by
  obtain ⟨beneath, hdropped, hwrites | hrolled⟩ := writes_of_finished h
  · exact hwrites.preserves hP hstate.top
  · rw [hrolled]
    apply hstate.below
    rw [hdropped, List.take_succ_cons]
    exact List.mem_cons_self

/-! ## Whole transactions -/

/-- A transaction is opened by writes, and if its first frame is entered, the
state between two of these is the one that is kept. -/
theorem writes_of_opens {gas : Nat}
    {opening : EStateM LedgerError LayeredLedger Opening} {opened : Opening}
    (hopens : Opens config gas opening)
    (h : opening ledger = .ok opened after) :
    ∃ mid, FlatState.Writes ledger.states.top mid ∧
      FlatState.Writes mid after.states.top ∧
      ∀ root created, opened = .entered root created →
        after.states.below = mid :: ledger.states.below := by
  have hbegins : ∃ caller, Begins caller ledger opened after := by
    obtain ⟨message, rfl, rfl⟩ | ⟨message, rfl, rfl⟩ := hopens
    · exact ⟨_, begins_of_openCall h⟩
    · exact ⟨_, begins_of_openCreation h⟩
  obtain ⟨caller, mid, hacts, hopened⟩ := hbegins
  refine ⟨mid, hacts.writes, ?_⟩
  cases opened with
  | settled receipt =>
    obtain rfl : after.states.top = mid := hopened
    exact ⟨.refl, by rintro _ _ ⟨⟩⟩
  | entered root created =>
    obtain ⟨hbelow, hentry⟩ := hopened
    refine ⟨hentry.writes, ?_⟩
    rintro _ _ ⟨⟩
    exact hbelow

/-- What holds of the ledger holds at all levels once the first frame is
entered. -/
theorem atAllLevels_of_opens
    (hP : ∀ {state written}, FlatState.Write state written → P state →
      P written)
    {gas : Nat} {opening : EStateM LedgerError LayeredLedger Opening}
    {root : Activation} {created : Option Address}
    (hopens : Opens config gas opening)
    (h : opening ledger = .ok (.entered root created) after)
    (hledger : P ledger.states.top) :
    AtAllLevels P ⟨root, [], after⟩ := by
  obtain ⟨mid, hfirst, hsecond, hkept⟩ := writes_of_opens hopens h
  have hmid : P mid := hfirst.preserves hP hledger
  refine ⟨hsecond.preserves hP hmid, ?_⟩
  rw [hkept root created rfl]
  simpa using hmid

/-- The ledger on which a transaction is settled: its opening may settle it, and
else its first frame has ended. -/
inductive SettlesOn (config : Config) (env : Environment) (fuel : Nat)
    (opening : EStateM LedgerError LayeredLedger Opening)
    (ledger : LayeredLedger) :
    LayeredLedger → Prop where
  | early {receipt : Receipt} {settled : LayeredLedger}
      (h : opening ledger = .ok (.settled receipt) settled) :
      SettlesOn config env fuel opening ledger settled
  | late {root : Activation} {created : Option Address}
      {entered settled : LayeredLedger}
      {exit : Exit} (hopening : opening ledger =
        .ok (.entered root created) entered)
      (hdrive : drive config env fuel ⟨root, [], entered⟩ =
        some (.finished exit settled)) :
      SettlesOn config env fuel opening ledger settled

/-- What each write preserves holds of the ledger on which a transaction is
settled. -/
theorem SettlesOn.preserves
    (hP : ∀ {state written}, FlatState.Write state written → P state →
      P written)
    {fuel gas : Nat} {opening : EStateM LedgerError LayeredLedger Opening}
    {settled : LayeredLedger} (hopens : Opens config gas opening)
    (h : SettlesOn config env fuel opening ledger settled)
    (hledger : P ledger.states.top) :
    P settled.states.top := by
  cases h with
  | early h =>
    obtain ⟨mid, hfirst, hsecond, _⟩ := writes_of_opens hopens h
    exact hsecond.preserves hP (hfirst.preserves hP hledger)
  | late hopening hdrive =>
    obtain ⟨last, hreaches, _, hends⟩ := exists_last_of_finished hdrive
    have hroot := atAllLevels_of_opens hP hopens hopening hledger
    exact (atAllLevels_of_reaches hP hroot hreaches).top_of_finished hP hends

end ContractMachine.Transaction
