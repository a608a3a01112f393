import ContractMachine.Proofs.Ledger.Recording
import ContractMachine.Proofs.Transaction.Atomicity

/-!
# What a transaction does to snapshots

A transaction closes no snapshots but those that it has opened, whether it
succeeds or fails: the snapshots of its frames are all above the depth at which
it began, and one that is not the innermost cannot be closed.  So on a ledger
that keeps a record, the record tells at every moment which snapshots above
that depth are open.
-/

namespace ContractMachine.Transaction

open Actions RecordingLedger

/-- A layered ledger that keeps a record of its snapshots. -/
abbrev Recorded := RecordingLedger LayeredLedger

variable {α β : Type} {base : Nat}

/-! ## Actions -/

/-- How an action ends that keeps the record right: with a result of which
something is known, or with a failure. -/
def EndsTracked (base : Nat) (post : α → Prop) :
    EStateM.Result LedgerError Recorded α → Prop
  | .ok a after => post a ∧ Tracks base after
  | .error _ after => Tracks base after

/-- An action that keeps the record right. -/
def KeepsTrack (base : Nat) (post : α → Prop)
    (action : EStateM LedgerError Recorded α) : Prop :=
  ∀ ledger, Tracks base ledger → EndsTracked base post (action ledger)

theorem KeepsTrack.tracks {post : α → Prop}
    {action : EStateM LedgerError Recorded α} (h : KeepsTrack base post action)
    {ledger : Recorded} (hledger : Tracks base ledger) :
    Tracks base (left (action ledger)) := by
  have hends := h ledger hledger
  cases hresult : action ledger with
  | ok a after =>
    rw [hresult] at hends
    exact hends.2
  | error cause after =>
    rw [hresult] at hends
    exact hends

theorem keepsTrack_of_left {action : EStateM LedgerError Recorded α}
    (h : ∀ ledger, Tracks base ledger → Tracks base (left (action ledger))) :
    KeepsTrack base (fun _ => True) action := by
  intro ledger hledger
  have hleft := h ledger hledger
  cases hresult : action ledger with
  | ok a after =>
    rw [hresult] at hleft
    exact ⟨trivial, hleft⟩
  | error cause after =>
    rw [hresult] at hleft
    exact hleft

theorem keepsTrack_pure {post : α → Prop} {a : α} (h : post a) :
    KeepsTrack base post (pure a) := fun _ hledger => ⟨h, hledger⟩

theorem KeepsTrack.bind {mid : α → Prop} {post : β → Prop}
    {x : EStateM LedgerError Recorded α}
    {f : α → EStateM LedgerError Recorded β} (hx : KeepsTrack base mid x)
    (hf : ∀ a, mid a → KeepsTrack base post (f a)) :
    KeepsTrack base post (x >>= f) := by
  intro ledger hledger
  have hfirst := hx ledger hledger
  cases hresult : x ledger with
  | ok a reached =>
    rw [hresult] at hfirst
    rw [bind_of_ok hresult]
    exact hf a hfirst.1 reached hfirst.2
  | error cause reached =>
    rw [hresult] at hfirst
    rw [bind_of_error hresult]
    exact hfirst

theorem keepsTrack_ite {condition : Prop} [Decidable condition]
    {post : α → Prop} {x y : EStateM LedgerError Recorded α}
    (hx : KeepsTrack base post x) (hy : KeepsTrack base post y) :
    KeepsTrack base post (if condition then x else y) := by
  by_cases hcondition : condition
  · rw [if_pos hcondition]
    exact hx
  · rw [if_neg hcondition]
    exact hy

/-- The writes between snapshots are not recorded. -/
theorem respects_tracks (base : Nat) :
    Respects fun before after : Recorded => Tracks base before →
    Tracks base after where
  refl _ h := h
  trans hfirst hsecond h := hsecond (hfirst h)
  createAccount a ledger h :=
    h.pass (respects_below.createAccount a ledger.inner)
  credit a amount ledger h :=
    h.pass (respects_below.credit a amount ledger.inner)
  debit a amount ledger h := h.pass (respects_below.debit a amount ledger.inner)
  bumpNonce a ledger h := h.pass (respects_below.bumpNonce a ledger.inner)
  setCode a code ledger h := h.pass (respects_below.setCode a code ledger.inner)
  setSlot a key value ledger h :=
    h.pass (respects_below.setSlot a key value ledger.inner)

theorem keepsTrack_query (read : Recorded → Except LedgerError α) :
    KeepsTrack base (fun _ => True) (query read) :=
  keepsTrack_of_left ((respects_tracks base).query read)

theorem keepsTrack_lacks (address : Address) (value : Word) :
    KeepsTrack base (fun _ => True) (lacks address value) :=
  (keepsTrack_query _).bind fun _ _ => keepsTrack_pure trivial

theorem keepsTrack_isTaken (address : Address) :
    KeepsTrack base (fun _ => True) (isTaken address) := by
  apply (keepsTrack_query _).bind
  intro nonce _
  apply keepsTrack_ite (keepsTrack_pure trivial)
  exact (keepsTrack_query _).bind fun _ _ => keepsTrack_pure trivial

theorem keepsTrack_bumpNonce (a : Address) :
    KeepsTrack base (fun _ => True) (Ledger.bumpNonce a) :=
  keepsTrack_of_left ((respects_tracks base).bumpNonce a)

/-! ## Entering and leaving -/

/-- A frame that is entered has a snapshot of its own, and one that is not has
taken it back. -/
theorem keepsTrack_enter {prepare : EStateM LedgerError Recorded α}
    (h : ∀ ledger, Tracks base ledger → Tracks base (left (prepare ledger))) :
    KeepsTrack base (fun entered => base < entered.1) (enter prepare) := by
  intro ledger hledger
  obtain ⟨habove, hopened⟩ := hledger.openSnapshot
  have hprepared := h _ hopened
  rw [enter]
  dsimp only
  cases hresult : prepare (Ledger.openSnapshot ledger).2 with
  | ok a after =>
    rw [hresult] at hprepared
    exact ⟨habove, hprepared⟩
  | error cause after =>
    rw [hresult] at hprepared
    have hrolled : Tracks base (left (Ledger.rollback _ after)) :=
      Tracks.rollback hprepared habove
    dsimp only
    cases hrollback : Ledger.rollback (Ledger.openSnapshot ledger).1 after with
    | ok _ restored | error _ restored =>
      rw [hrollback] at hrolled
      exact hrolled

theorem keepsTrack_enterCall (context : Context) (moves : Bool)
    (source target : Address) (gas : Nat) (window : Range) :
    KeepsTrack base (fun child => base < child.snapshot)
      (enterCall context moves source target gas window) :=
  (keepsTrack_enter ((respects_tracks base).prepareEntry context moves source
    target)).bind
    fun _ habove => keepsTrack_pure habove

theorem keepsTrack_enterCreation (creator address : Address) (value : Word)
    (initCode : Bytes) (gas depth : Nat) :
    KeepsTrack base (fun child => base < child.snapshot)
      (enterCreation creator address value initCode gas depth) :=
  (keepsTrack_enter ((respects_tracks base).prepareAccount creator address
    value)).bind
    fun _ habove => keepsTrack_pure habove

/-- What is known of a response: a frame that is entered has a snapshot above
the base. -/
def Response.Above (base : Nat) : Response → Prop
  | .entered child => base < child.snapshot
  | .refused | .collided => True

theorem keepsTrack_meetCall (config : Config) (caller : Context)
    (request : CallRequest) :
    KeepsTrack base (Response.Above base) (meetCall config caller request) := by
  apply keepsTrack_ite (keepsTrack_pure trivial)
  have hshort : KeepsTrack base (fun _ => True) (pure false) :=
    keepsTrack_pure trivial
  refine keepsTrack_ite ((keepsTrack_lacks _ _).bind ?_) (hshort.bind ?_)
  all_goals
    intro isShort _
    apply keepsTrack_ite (keepsTrack_pure trivial)
    exact (keepsTrack_enterCall _ _ _ _ _ _).bind fun _ habove =>
      keepsTrack_pure habove

theorem keepsTrack_meetCreation (config : Config) (creator : Context)
    (request : CreateRequest) :
    KeepsTrack base (Response.Above base)
      (meetCreation config creator request) := by
  apply keepsTrack_ite (keepsTrack_pure trivial)
  apply (keepsTrack_lacks _ _).bind
  intro isShort _
  apply keepsTrack_ite (keepsTrack_pure trivial)
  apply (keepsTrack_query _).bind
  intro nonce _
  apply keepsTrack_ite (keepsTrack_pure trivial)
  apply (keepsTrack_bumpNonce _).bind
  intro _ _
  apply (keepsTrack_isTaken _).bind
  intro isTaken _
  apply keepsTrack_ite (keepsTrack_pure trivial)
  exact (keepsTrack_enterCreation _ _ _ _ _ _).bind fun _ habove =>
    keepsTrack_pure habove

theorem keepsTrack_leave {activation : Activation}
    (habove : base < activation.snapshot) (config : Config) (outcome : Outcome)
    (output : Bytes) :
    KeepsTrack base (fun _ => True)
      (leave config activation outcome output) := by
  have hsucceed : ∀ frame, KeepsTrack base (fun _ => True)
      (succeed activation.snapshot frame output) := fun frame =>
    (keepsTrack_of_left fun _ h => h.commit habove).bind fun _ _ =>
      keepsTrack_pure trivial
  have hfail : ∀ gasLeft outcome output, KeepsTrack base (fun _ => True)
      (fail activation.snapshot gasLeft outcome output) := fun _ _ _ =>
    (keepsTrack_of_left fun _ h => h.rollback habove).bind fun _ _ =>
      keepsTrack_pure trivial
  intro ledger hledger
  cases outcome with
  | revert | halt cause => exact hfail _ _ _ ledger hledger
  | success =>
    cases hrole : activation.role with
    | call window =>
      simp only [leave, hrole]
      exact hsucceed _ ledger hledger
    | creation address =>
      have hdeposited :=
        (respects_tracks base).depositCode config address output
        ⟨activation.frame, ledger⟩ hledger
      simp only [leave, hrole]
      cases hdeposit : depositCode config address output
        ⟨activation.frame, ledger⟩ with
      | ok _ live =>
        rw [hdeposit] at hdeposited
        exact hsucceed _ live.ledger hdeposited
      | error failure live =>
        rw [hdeposit] at hdeposited
        cases failure with
        | halt cause => exact hfail _ _ _ live.ledger hdeposited
        | ledger cause =>
          have hrolled : Tracks base (left (Ledger.rollback _ live.ledger)) :=
            Tracks.rollback hdeposited habove
          dsimp only
          cases hrollback : Ledger.rollback activation.snapshot live.ledger with
          | ok _ restored | error _ restored =>
            rw [hrollback] at hrolled
            exact hrolled

/-! ## Runs -/

/-- The record is right and the snapshots of all unfinished frames are above the
base. -/
structure Watched (base : Nat) (frames : List Activation) (ledger : Recorded) :
    Prop where
  above : ∀ activation ∈ frames, base < activation.snapshot
  tracks : Tracks base ledger

/-- What one instruction makes of the record. -/
def Progress.Watched (base : Nat) : Progress Recorded → Prop
  | .running state =>
    Transaction.Watched base (state.top :: state.waiting) state.ledger
  | .concluded (.finished _ ledger) => Tracks base ledger
  | .concluded (.failed _ unfinished ledger) =>
    Transaction.Watched base unfinished ledger

section Runs

variable {config : Config} {env : Environment} {top : Activation}
  {waiting : List Activation} {ledger : Recorded}

theorem Watched.with_frame (h : Watched base (top :: waiting) ledger)
    (frame : Frame) {after : Recorded} (hafter : Tracks base after) :
    Watched base ({ top with frame } :: waiting) after := by
  obtain ⟨htop, hwaiting⟩ := List.forall_mem_cons.1 h.above
  exact ⟨List.forall_mem_cons.2 ⟨htop, hwaiting⟩, hafter⟩

theorem watched_continueWith (h : Watched base (top :: waiting) ledger)
    {response : Response} (hresponse : response.Above base) (gas : Nat) :
    Progress.Watched base (continueWith top waiting gas response ledger) := by
  cases response with
  | entered child =>
    exact ⟨List.forall_mem_cons.2 ⟨hresponse, h.above⟩, h.tracks⟩
  | refused =>
    simp only [continueWith]
    split
    · exact h.with_frame _ h.tracks
    · exact h
  | collided =>
    simp only [continueWith]
    split
    · exact h.with_frame _ h.tracks
    · exact h

theorem watched_meet (h : Watched base (top :: waiting) ledger)
    {response : EStateM LedgerError Recorded Response}
    (hresponse : KeepsTrack base (Response.Above base) response) (gas : Nat) :
    Progress.Watched base (meet top waiting gas response ledger) := by
  have hends := hresponse ledger h.tracks
  rw [meet]
  cases hresult : response ledger with
  | ok met after =>
    rw [hresult] at hends
    exact watched_continueWith ⟨h.above, hends.2⟩ hends.1 gas
  | error cause after =>
    rw [hresult] at hends
    exact ⟨h.above, hends⟩

theorem watched_finish (h : Watched base (top :: waiting) ledger)
    (outcome : Outcome) (output : Bytes) :
    Progress.Watched base
      (finish config top waiting outcome output ledger) := by
  obtain ⟨htop, hwaiting⟩ := List.forall_mem_cons.1 h.above
  have hends := keepsTrack_leave htop config outcome output ledger h.tracks
  rw [finish]
  cases hresult : leave config top outcome output ledger with
  | error cause after =>
    rw [hresult] at hends
    exact ⟨hwaiting, hends⟩
  | ok exit after =>
    rw [hresult] at hends
    cases waiting with
    | nil => exact hends.2
    | cons parent below =>
      have hparent : Watched base (parent :: below) after := ⟨hwaiting, hends.2⟩
      dsimp only
      cases parent.frame.resume top.role exit with
      | ok frame => exact hparent.with_frame frame hends.2
      | error cause => exact hparent

/-- Whatever comes of an instruction, the record stays right. -/
theorem watched_advance (config : Config) (env : Environment)
    {state : Running Recorded}
    (h : Watched base (state.top :: state.waiting) state.ledger) :
    Progress.Watched base (advance config env state) := by
  have hstepped := (respects_tracks base).step config env
    ⟨state.top.frame, state.ledger⟩ h.tracks
  rw [advance]
  cases hstep : Execution.step config env ⟨state.top.frame, state.ledger⟩ with
  | error failure live =>
    rw [hstep] at hstepped
    have hlive := h.with_frame live.frame hstepped
    cases failure with
    | halt cause => exact watched_finish hlive _ _
    | ledger cause => exact hlive
  | ok signal live =>
    rw [hstep] at hstepped
    have hlive := h.with_frame live.frame hstepped
    cases signal with
    | none => exact hlive
    | some signal =>
      cases signal with
      | call request =>
        exact watched_meet hlive (keepsTrack_meetCall _ _ request) _
      | create request =>
        exact watched_meet hlive (keepsTrack_meetCreation _ _ request) _
      | «return» output => exact watched_finish hlive _ _
      | revert output => exact watched_finish hlive _ _

theorem watched_drive {fuel : Nat} {state : Running Recorded}
    {conclusion : Conclusion Recorded}
    (h : Watched base (state.top :: state.waiting) state.ledger)
    (hdrive : drive config env fuel state = some conclusion) :
    Progress.Watched base (.concluded conclusion) := by
  induction fuel generalizing state with
  | zero => cases hdrive
  | succ fuel ih =>
    have hnext := watched_advance config env h
    rw [drive] at hdrive
    cases hadvance : advance config env state with
    | running next =>
      rw [hadvance] at hnext hdrive
      exact ih hnext hdrive
    | concluded reached =>
      rw [hadvance] at hnext hdrive
      cases hdrive
      exact hnext

end Runs

/-! ## Whole transactions -/

theorem tracks_abandon {unfinished : List Activation} {ledger : Recorded}
    (h : Watched base unfinished ledger) :
    Tracks base (abandon unfinished ledger) := by
  induction unfinished generalizing ledger with
  | nil => exact h.tracks
  | cons activation rest ih =>
    obtain ⟨hfirst, hrest⟩ := List.forall_mem_cons.1 h.above
    have hrolled := h.tracks.rollback hfirst
    rw [abandon, List.foldl_cons]
    cases hrollback : Ledger.rollback activation.snapshot ledger with
    | ok _ after | error cause after =>
      rw [hrollback] at hrolled
      exact ih ⟨hrest, hrolled⟩

/-- What is known of an opening: a first frame has a snapshot above the base. -/
def Opening.Above (base : Nat) : Opening → Prop
  | .settled _ => True
  | .entered root _ => base < root.snapshot

theorem keepsTrack_openCall (message : CallMessage) :
    KeepsTrack base (Opening.Above base) (openCall message) := by
  apply (keepsTrack_lacks _ _).bind
  intro isShort _
  apply keepsTrack_ite (keepsTrack_pure trivial)
  exact (keepsTrack_enterCall _ _ _ _ _ _).bind fun _ habove =>
    keepsTrack_pure habove

theorem keepsTrack_openCreation (config : Config) (message : CreateMessage) :
    KeepsTrack base (Opening.Above base) (openCreation config message) := by
  apply keepsTrack_ite (keepsTrack_pure trivial)
  apply (keepsTrack_lacks _ _).bind
  intro isShort _
  apply keepsTrack_ite (keepsTrack_pure trivial)
  apply (keepsTrack_query _).bind
  intro nonce _
  apply (keepsTrack_bumpNonce _).bind
  intro _ _
  apply (keepsTrack_isTaken _).bind
  intro isTaken _
  apply keepsTrack_ite (keepsTrack_pure trivial)
  exact (keepsTrack_enterCreation _ _ _ _ _ _).bind fun _ habove =>
    keepsTrack_pure habove

theorem keepsTrack_deletes (deleted : List Address) :
    KeepsTrack base (fun _ => True) (deleted.forM Ledger.deleteAccount) := by
  induction deleted with
  | nil => exact keepsTrack_pure trivial
  | cons a rest ih =>
    refine (keepsTrack_of_left fun ledger h => h.pass ?_).bind fun _ _ => ih
    have hstates := LayeredLedger.states_delete ledger.inner a
    exact (congrArg StateStack.below hstates).trans rfl

theorem keepsTrack_settle (config : Config) (gas : Nat)
    (created : Option Address) (exit : Exit) :
    KeepsTrack base (fun _ => True) (settle config gas created exit) := by
  rw [settle]
  cases exit.outcome with
  | success =>
    exact (keepsTrack_deletes _).bind fun _ _ => keepsTrack_pure trivial
  | revert | halt => exact keepsTrack_pure trivial

/-- Whether a transaction gives a receipt or fails, the record it leaves tells
which snapshots are open above the depth at which it began. -/
theorem tracks_transact {config : Config} {env : Environment} {fuel gas : Nat}
    {opening : EStateM LedgerError Recorded Opening} {ledger : Recorded}
    {result : EStateM.Result Failure Recorded Receipt}
    (hopening : KeepsTrack base (Opening.Above base) opening)
    (hledger : Tracks base ledger)
    (h : transact config env fuel gas opening ledger = some result) :
    Tracks base (left result) := by
  have hopened := hopening ledger hledger
  rw [transact] at h
  cases hresult : opening ledger with
  | error cause after =>
    rw [hresult] at hopened h
    cases h
    exact hopened
  | ok opened after =>
    rw [hresult] at hopened h
    cases opened with
    | settled receipt =>
      cases h
      exact hopened.2
    | entered root created =>
      have hroot : Watched base [root] after :=
        ⟨List.forall_mem_singleton.2 hopened.1, hopened.2⟩
      dsimp only at h
      cases hdrive : drive config env fuel ⟨root, [], after⟩ with
      | none =>
        rw [hdrive] at h
        cases h
      | some conclusion =>
        have hends := watched_drive hroot hdrive
        rw [hdrive] at h
        cases conclusion with
        | failed cause unfinished reached =>
          cases h
          exact tracks_abandon hends
        | finished exit reached =>
          have hsettled :=
            (keepsTrack_settle config gas created exit).tracks hends
          dsimp only at h
          cases hsettle : settle config gas created exit reached with
          | ok receipt last | error cause last =>
            rw [hsettle] at hsettled h
            cases h
            exact hsettled

end ContractMachine.Transaction
