import ContractMachine.Proofs.Transaction.Preservation

/-!
# What frames do to the states at their openings

A frame is judged by what has become of the state at its opening.  A relation
between the two is kept as long as the frame runs if the acts of accounts keep
it, and it passes to the frame below by being composed, or is forgotten when the
state at the opening is brought back.

So a relation that is closed under these steps holds for all live frames of a
transaction, and between the ledgers before and after it.  It may depend on the
role of the frame, and only the accounts that frames run on need to be good for
it.
-/

namespace ContractMachine.Transaction

open LayeredLedger FlatState

/-- A relation between the state at the opening of a frame of some role and the
current one, which is kept while only good accounts act. -/
structure Carries (config : Config) (good : Address → Prop)
    (R : Role → FlatState → FlatState → Prop) : Prop where
  refl : ∀ window state, R (.call window) state state
  appears : ∀ {role opening state a}, good a → state.account a = none →
    R role opening state → R role opening (state.create a)
  found : ∀ {state a},
    good a → state.IsFree a → R (.creation a) state (state.found a)
  act : ∀ {role opening state written a}, good a → Act a state written →
    R role opening state → R role opening written
  deploy : ∀ {opening state a code},
    Deployable config code → R (.creation a) opening state →
    R (.creation a) opening (state.modify a (·.withCode code))
  commit : ∀ {outer role first second third},
    R outer first second → R role second third → R outer first third

variable {config : Config} {env : Environment} {ledger after : LayeredLedger}
  {good : Address → Prop} {R : Role → FlatState → FlatState → Prop}

namespace Carries

variable {role : Role} {opening state : FlatState}

theorem acts (h : Carries config good R) {written : FlatState} {a : Address}
    (ha : good a) (hacts : Acts a state written)
    (hstate : R role opening state) : R role opening written := by
  induction hacts with
  | refl => exact hstate
  | tail _ hact ih => exact h.act ha hact ih

theorem entry (h : Carries config good R) {actor : Address} {child : Activation}
    {entered : FlatState} (hactor : good actor) (hchild : good child.address)
    (hentry : Entry actor child state entered) :
    R child.role state entered := by
  cases hentry with
  | @call window _ hrole hprovides hacts =>
    rw [hrole]
    refine h.acts hactor hacts ?_
    cases hprovides with
    | there => exact h.refl window state
    | appears hnone => exact h.appears hchild hnone (h.refl window state)
  | creation hrole hfree hacts =>
    rw [hrole]
    exact h.acts hactor hacts (h.found hchild hfree)

theorem deploys (h : Carries config good R) {ended : FlatState}
    (hdeploys : Deploys config role state ended)
    (hstate : R role opening state) :
    R role opening ended := by
  cases role with
  | call window =>
    obtain rfl : ended = state := hdeploys
    exact hstate
  | creation a =>
    obtain ⟨code, hdeployable, rfl⟩ := hdeploys
    exact h.deploy hdeployable hstate

end Carries

/-! ## Runs -/

/-- The states of live frames: each frame is related to the state at its
opening, and the first frame opened in a given state. -/
inductive Staged (R : Role → FlatState → FlatState → Prop)
    (origin : FlatState) :
    List Activation → FlatState → List FlatState → Prop where
  | origin {below : List FlatState} : Staged R origin [] origin below
  | frame {activation : Activation} {waiting : List Activation}
      {state opening : FlatState}
      {below : List FlatState} (h : R activation.role opening state)
      (hrest : Staged R origin waiting opening below) :
      Staged R origin (activation :: waiting) state (opening :: below)

theorem Staged.exists_opening {origin state : FlatState}
    {activation : Activation} {waiting : List Activation}
    {below : List FlatState}
    (h : Staged R origin (activation :: waiting) state below) :
    ∃ opening rest, below = opening :: rest ∧ R activation.role opening state ∧
      Staged R origin waiting opening rest := by
  cases h with
  | frame hrelated hrest => exact ⟨_, _, rfl, hrelated, hrest⟩

/-- The states of a transaction in progress. -/
def StagedAt (R : Role → FlatState → FlatState → Prop) (origin : FlatState)
    (state : Running LayeredLedger) : Prop :=
  Staged R origin (state.top :: state.waiting) state.ledger.states.top
    state.ledger.states.below

variable {origin : FlatState}

/-- A frame that ends leaves the state at its opening to the frames below it, or
one that is related to that. -/
theorem staged_of_finished (hR : Carries config good R) {top : Activation}
    {waiting : List Activation} {exit : Exit}
    (hstate : StagedAt R origin ⟨top, waiting, ledger⟩)
    (htop : good top.address)
    (h : turn config env top ledger = .concludes (.finished exit after)) :
    ∃ opening, Staged R origin waiting opening after.states.below ∧
      (after.states.top = opening ∨ R top.role opening after.states.top) := by
  obtain ⟨beneath, hbelow, hrolled⟩ := below_of_finished h
  obtain ⟨opening, rest, hopening, hrelated, hrest⟩ := hstate.exists_opening
  obtain ⟨rfl, rfl⟩ := List.cons.inj (hbelow.symm.trans hopening)
  refine ⟨beneath, hrest, ?_⟩
  by_cases hsuccess : exit.outcome = .success
  · obtain ⟨reached, hacts, hdeploys⟩ := acts_of_finished h hsuccess
    exact .inr (hR.deploys hdeploys (hR.acts htop hacts hrelated))
  · exact .inl (hrolled hsuccess)

theorem stagedAt_of_advance (hR : Carries config good R)
    {state next : Running LayeredLedger} (hstate : StagedAt R origin state)
    (htop : good state.top.address) (hnext : good next.top.address)
    (h : advance config env state = .running next) :
    StagedAt R origin next := by
  cases advances_of_advance h with
  | continues hturn =>
    obtain ⟨opening, rest, hbelow, hrelated, hrest⟩ := hstate.exists_opening
    have hkept := (below_of_continues hturn).trans hbelow
    rw [StagedAt, hkept]
    exact .frame (hR.acts htop (acts_of_continues hturn) hrelated) hrest
  | enters hturn =>
    obtain ⟨opening, rest, hbelow, hrelated, hrest⟩ := hstate.exists_opening
    obtain ⟨mid, hacts, hkept, hentry⟩ := acts_of_enters hturn
    dsimp only at hbelow
    rw [hbelow] at hkept
    rw [StagedAt, hkept]
    exact .frame (hR.entry htop hnext hentry)
      (.frame (hR.acts htop hacts hrelated) hrest)
  | resumes hturn _ =>
    obtain ⟨mid, hstaged, hends⟩ := staged_of_finished hR hstate htop hturn
    obtain ⟨opening, rest, hbelow, hrelated, hrest⟩ := hstaged.exists_opening
    rw [StagedAt, hbelow]
    refine .frame ?_ hrest
    obtain hrolled | hcommitted := hends
    · rw [hrolled]
      exact hrelated
    · exact hR.commit hrelated hcommitted

theorem stagedAt_of_reaches (hR : Carries config good R)
    {state reached : Running LayeredLedger}
    (hgood : RunsOn config env good state) (hstate : StagedAt R origin state)
    (h : Reaches config env state reached) : StagedAt R origin reached := by
  induction h with
  | refl => exact hstate
  | @tail mid next hreaches hadvance ih =>
    exact stagedAt_of_advance hR ih (hgood mid hreaches)
      (hgood next (hreaches.tail hadvance))
      hadvance

/-! ## Whole transactions -/

/-- The ledger on which a transaction is settled is related to the one it began
with. -/
theorem SettlesOn.related (hR : Carries config good R) {caller : Address}
    {fuel : Nat} {opening : EStateM LedgerError LayeredLedger Opening}
    {settled : LayeredLedger}
    (hbegins : ∀ {opened entered}, opening ledger = .ok opened entered →
      Begins caller ledger opened entered)
    (hcaller : good caller)
    (hgood : ∀ {root created entered},
      opening ledger = .ok (.entered root created) entered →
      RunsOn config env good ⟨root, [], entered⟩)
    (h : SettlesOn config env fuel opening ledger settled) :
    R (.call {}) ledger.states.top settled.states.top := by
  cases h with
  | early hopening =>
    obtain ⟨mid, hacts, htop⟩ := hbegins hopening
    rw [show settled.states.top = mid from htop]
    exact hR.acts hcaller hacts (hR.refl _ _)
  | @late root created entered _ _ hopening hdrive =>
    obtain ⟨mid, hacts, hbelow, hentry⟩ := hbegins hopening
    have hmid := hR.acts hcaller hacts (hR.refl {} ledger.states.top)
    have hruns := hgood hopening
    have hroot : StagedAt R mid ⟨root, [], entered⟩ := by
      rw [StagedAt, hbelow]
      exact .frame (hR.entry hcaller (hruns _ .refl) hentry) .origin
    obtain ⟨last, hreaches, hwaiting, hends⟩ := exists_last_of_finished hdrive
    have hlast := stagedAt_of_reaches hR hruns hroot hreaches
    obtain ⟨origin, hstaged, hended⟩ :=
      staged_of_finished hR hlast (hruns last hreaches) hends
    rw [hwaiting] at hstaged
    cases hstaged with
    | origin =>
      obtain hrolled | hcommitted := hended
      · rw [hrolled]
        exact hmid
      · exact hR.commit hmid hcommitted

end ContractMachine.Transaction
