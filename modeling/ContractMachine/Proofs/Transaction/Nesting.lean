import ContractMachine.Proofs.Transaction.HostFailure
import ContractMachine.Proofs.Transaction.SnapshotRecord
import ContractMachine.Proofs.Transaction.Transport
import ContractMachine.Proofs.Transaction.ValueConservation

/-!
# Frames and snapshots nest

At every moment of a transaction its frames stand one upon the other, the depth
of each being its place in the stack, and each holds the snapshot that was
opened for it.  No others are open above those that were open before.  A frame
is not entered beyond the largest depth, so the stack is bounded.

When a transaction is over, each snapshot that was opened has been closed
again.  Which snapshots were opened and closed is told by a ledger that keeps a
record, and on such a ledger everything else goes as it does without it.
-/

namespace ContractMachine

/-- The live frames of a transaction, the first one first. -/
def Running.frames {σ : Type} (state : Running σ) : List Activation :=
  (state.top :: state.waiting).reverse

namespace Transaction

open Actions LayeredLedger

/-! ## Contexts -/

section Contexts

variable {σ : Type} [Ledger σ] {config : Config} {env : Environment}
  {ledger after : σ} {top child : Activation} {frame : Frame}

theorem depth_calleeContext (caller : Context) (request : CallRequest) :
    (calleeContext caller request).depth = caller.depth + 1 := by
  rw [calleeContext]
  cases request.kind <;> rfl

/-- A call is met by a frame only up to the largest depth. -/
theorem depth_le_of_meetCall {caller : Context} {request : CallRequest}
    (h : meetCall config caller request ledger = .ok (.entered child) after) :
    caller.depth + 1 ≤ config.maxCallDepth := by
  by_contra hdeep
  rw [meetCall, depth_calleeContext, if_pos (Nat.lt_of_not_le hdeep)] at h
  cases (pure_eq_ok_iff.1 h).1

/-- A frame that is entered is one deeper than the one that asked for it, and
not too deep. -/
theorem depth_of_meets {live : Live σ} {signal : Signal}
    (h : Meets config live signal (.entered child) after) :
    child.frame.context.depth = live.frame.context.depth + 1 ∧
      live.frame.context.depth + 1 ≤ config.maxCallDepth := by
  cases h with
  | @call request _ _ h =>
    refine ⟨?_, depth_le_of_meetCall h⟩
    obtain ⟨hrefused, _⟩ | ⟨_, hentered, henter⟩ := meetCall_eq_ok h
    · cases hrefused
    · cases hentered
      obtain ⟨code, hframe, _⟩ := enterCall_eq_ok henter
      rw [hframe]
      exact depth_calleeContext live.frame.context request
  | create h =>
    obtain ⟨_, hrefused, _⟩ |
      ⟨hmay, _, _, _, _, ⟨hcollided, _⟩ | ⟨_, hentered, henter⟩⟩ :=
        meetCreation_eq_ok h
    · cases hrefused
    · cases hcollided
    · cases hentered
      obtain ⟨hframe, _⟩ := enterCreation_eq_ok henter
      rw [hframe]
      exact ⟨rfl, hmay.1⟩

theorem context_of_continues
    (h : turn config env top ledger = .continues frame after) :
    frame.context = top.frame.context := by
  have hstepped := Execution.context_step config env ⟨top.frame, ledger⟩
  obtain hstep | ⟨signal, live, response, hstep, _, hanswer⟩ :=
    turn_eq_continues h
  · rw [hstep] at hstepped
    exact hstepped
  · rw [hstep] at hstepped
    obtain ⟨_, hrefuse⟩ | ⟨_, hcollide⟩ := hanswer
    · rw [(Frame.refuse_eq_ok_iff.1 hrefuse).2]
      exact hstepped
    · rw [(Frame.answer_eq_ok_iff.1 hcollide).2]
      exact hstepped

theorem context_of_enters
    (h : turn config env top ledger = .enters frame child after) :
    frame.context = top.frame.context ∧
      child.frame.context.depth = top.frame.context.depth + 1 ∧
      top.frame.context.depth + 1 ≤ config.maxCallDepth := by
  have hstepped := Execution.context_step config env ⟨top.frame, ledger⟩
  obtain ⟨signal, live, hstep, rfl, hmeets⟩ := turn_eq_enters h
  rw [hstep] at hstepped
  have hcontext : live.frame.context = top.frame.context := hstepped
  have hdepth := depth_of_meets hmeets
  rw [hcontext] at hdepth
  exact ⟨hcontext, hdepth⟩

theorem context_of_resume {parent : Frame} {role : Role} {exit : Exit}
    (h : parent.resume role exit = .ok frame) :
    frame.context = parent.context := by
  obtain ⟨_, _, _, rfl⟩ := Frame.exists_of_resume h
  rfl

theorem depth_of_openCall {message : CallMessage} {root : Activation}
    {created : Option Address}
    (h : openCall message ledger = .ok (.entered root created) after) :
    root.frame.context.depth = 0 := by
  obtain ⟨isShort, reached, _, hrest⟩ := bind_eq_ok_iff.1 h
  cases isShort with
  | true => cases (pure_eq_ok_iff.1 hrest).1
  | false =>
    obtain ⟨entered, last, henter, hpure⟩ := bind_eq_ok_iff.1 hrest
    cases (pure_eq_ok_iff.1 hpure).1
    obtain ⟨code, hframe, _⟩ := enterCall_eq_ok henter
    rw [hframe]
    rfl

theorem depth_of_openCreation {message : CreateMessage} {root : Activation}
    {created : Option Address}
    (h : openCreation config message ledger =
      .ok (.entered root created) after) :
    root.frame.context.depth = 0 := by
  obtain ⟨_, ⟨_, _, hrejected⟩, _⟩ |
    ⟨_, _, _, _, _, ⟨hcollided, _⟩ | ⟨_, hentered, henter⟩⟩ :=
      openCreation_eq_ok h
  · cases hrejected
  · cases hcollided
  · cases hentered
    obtain ⟨hframe, _⟩ := enterCreation_eq_ok henter
    rw [hframe]
    rfl

end Contexts

/-! ## Runs -/

variable {config : Config} {env : Environment} {ledger after : LayeredLedger}
  {base : Nat}

/-- Frames that stand one upon the other, the topmost first: each is as deep as
there are frames beneath it, and holds the snapshot opened for it. -/
def Stacked (config : Config) (base : Nat) : List Activation → Prop
  | [] => True
  | activation :: rest =>
    activation.frame.context.depth = rest.length ∧
      rest.length ≤ config.maxCallDepth ∧
      activation.snapshot = base + rest.length + 1 ∧ Stacked config base rest

theorem Stacked.with_frame {activation : Activation} {rest : List Activation}
    {frame : Frame} (h : Stacked config base (activation :: rest))
    (hframe : frame.context = activation.frame.context) :
    Stacked config base ({ activation with frame } :: rest) := by
  obtain ⟨hdepth, hbound, hsnapshot, hrest⟩ := h
  refine ⟨?_, hbound, hsnapshot, hrest⟩
  dsimp only
  rw [hframe]
  exact hdepth

/-- The frame at a place of the stack, counted from the bottom. -/
theorem Stacked.getElem_reverse {frames : List Activation}
    (h : Stacked config base frames) {i : Nat}
    (hi : i < frames.reverse.length) :
    frames.reverse[i].frame.context.depth = i ∧
    frames.reverse[i].snapshot = base + i + 1 := by
  induction frames with
  | nil => exact absurd hi (Nat.not_lt_zero i)
  | cons activation rest ih =>
    obtain ⟨hdepth, _, hsnapshot, hrest⟩ := h
    simp only [List.reverse_cons]
    by_cases hbelow : i < rest.reverse.length
    · rw [List.getElem_append_left hbelow]
      exact ih hrest hbelow
    · have hlast : i = rest.length := by
        rw [List.length_reverse, List.length_cons] at hi
        rw [List.length_reverse] at hbelow
        omega
      subst hlast
      rw [List.getElem_append_right (by simp)]
      simp only [List.getElem_singleton]
      exact ⟨hdepth, hsnapshot⟩

/-- How frames and snapshots nest in a transaction that began with so many
snapshots open. -/
structure Nests (config : Config) (base : Nat) (state : Running LayeredLedger) :
    Prop where
  nonempty : 1 ≤ state.frames.length
  bounded : state.frames.length ≤ config.maxCallDepth + 1
  context : ∀ i (hi : i < state.frames.length),
    state.frames[i].frame.context.depth = i
  snapshot : ∀ i (hi : i < state.frames.length),
    state.frames[i].snapshot = base + i + 1
  depth : state.ledger.depth = base + state.frames.length

/-- What carries `Nests` from one instruction to the next. -/
structure StackedOn (config : Config) (base : Nat)
    (state : Running LayeredLedger) : Prop where
  stacked : Stacked config base (state.top :: state.waiting)
  depth : state.ledger.depth = base + state.waiting.length + 1

theorem StackedOn.nests {state : Running LayeredLedger}
    (h : StackedOn config base state) :
    Nests config base state := by
  have hlength : state.frames.length = state.waiting.length + 1 := by
    rw [Running.frames, List.length_reverse, List.length_cons]
  obtain ⟨_, hbound, _, _⟩ := h.stacked
  constructor
  · rw [hlength]
    exact Nat.succ_pos _
  · rw [hlength]
    exact Nat.succ_le_succ hbound
  · exact fun i hi => (h.stacked.getElem_reverse hi).1
  · exact fun i hi => (h.stacked.getElem_reverse hi).2
  · rw [hlength]
    exact h.depth

theorem stackedOn_of_advance {state next : Running LayeredLedger}
    (hstate : StackedOn config base state)
    (h : advance config env state = .running next) :
    StackedOn config base next := by
  obtain ⟨hstacked, hdepth⟩ := hstate
  cases advances_of_advance h with
  | continues hturn =>
    refine ⟨hstacked.with_frame (context_of_continues hturn), ?_⟩
    rw [depth_eq_of_below (below_of_continues hturn)]
    exact hdepth
  | @enters top child waiting ledger after frame hturn =>
    obtain ⟨_, _, _, hkept⟩ := writes_of_enters hturn
    obtain ⟨hcontext, hdeeper, hbound⟩ := context_of_enters hturn
    have htop : top.frame.context.depth = waiting.length := hstacked.1
    rw [htop] at hdeeper hbound
    refine ⟨⟨hdeeper, hbound, ?_, hstacked.with_frame hcontext⟩, ?_⟩
    · rw [snapshot_of_enters hturn]
      exact congrArg (· + 1) hdepth
    · rw [depth_of_below_cons hkept]
      exact congrArg (· + 1) hdepth
  | resumes hturn hresume =>
    obtain ⟨_, hdropped, _⟩ := below_of_finished hturn
    obtain ⟨_, _, _, hwaiting⟩ := hstacked
    refine ⟨hwaiting.with_frame (context_of_resume hresume), ?_⟩
    have hpopped := depth_of_below_cons hdropped
    rw [hdepth, List.length_cons] at hpopped
    exact (Nat.succ.inj hpopped).symm

theorem stackedOn_of_reaches {state next : Running LayeredLedger}
    (hstate : StackedOn config base state) (h : Reaches config env state next) :
    StackedOn config base next := by
  induction h with
  | refl => exact hstate
  | tail _ hadvance ih => exact stackedOn_of_advance ih hadvance

theorem stackedOn_root {gas : Nat}
    {opening : EStateM LedgerError LayeredLedger Opening} {root : Activation}
    {created : Option Address} (hopens : Opens config gas opening)
    (h : opening ledger = .ok (.entered root created) after) :
    StackedOn config ledger.depth ⟨root, [], after⟩ := by
  obtain ⟨_, _, _, hkept⟩ := writes_of_opens hopens h
  have hroot : root.frame.context.depth = 0 := by
    obtain ⟨message, rfl, rfl⟩ | ⟨message, rfl, rfl⟩ := hopens
    · exact depth_of_openCall h
    · exact depth_of_openCreation h
  exact ⟨⟨hroot, Nat.zero_le _, snapshot_of_opens hopens h, trivial⟩,
    depth_of_below_cons (hkept root created rfl)⟩

/-! ## Whole transactions -/

theorem depth_of_deletes {deleted : List Address} {settled : LayeredLedger}
    (h : deleted.forM Ledger.deleteAccount settled = .ok () after) :
    after.depth = settled.depth := by
  induction deleted generalizing settled with
  | nil =>
    cases h
    rfl
  | cons a rest ih =>
    have hrest : rest.forM Ledger.deleteAccount (settled.delete a) =
        .ok () after := h
    rw [ih hrest, delete, depth_edit, depth_edit]

theorem depth_of_settled {gas : Nat}
    {opening : EStateM LedgerError LayeredLedger Opening} {receipt : Receipt}
    (hopens : Opens config gas opening)
    (h : opening ledger = .ok (.settled receipt) after) :
    after.depth = ledger.depth := by
  obtain ⟨message, rfl, rfl⟩ | ⟨message, rfl, rfl⟩ := hopens
  · obtain ⟨_, rfl⟩ | ⟨_, _, hentered, _⟩ := openCall_eq_ok h
    · rfl
    · cases hentered
  · obtain ⟨_, _, rfl⟩ | ⟨_, _, _, _, hbump, ⟨_, rfl⟩ | ⟨_, hentered, _⟩⟩ :=
      openCreation_eq_ok h
    · rfl
    · exact depth_of_bumpNonce hbump
    · cases hentered

/-- A transaction with a receipt leaves as many snapshots open as there were. -/
theorem depth_of_receipt {fuel gas : Nat}
    {opening : EStateM LedgerError LayeredLedger Opening} {receipt : Receipt}
    (hopens : Opens config gas opening)
    (h : transact config env fuel gas opening ledger =
      some (.ok receipt after)) :
    after.depth = ledger.depth := by
  obtain ⟨settled, hsettles, _, hdeletes⟩ := exists_settled_of_transact hopens h
  rw [depth_of_deletes hdeletes]
  cases hsettles with
  | early hopening => exact depth_of_settled hopens hopening
  | late hopening hdrive =>
    obtain ⟨last, hreaches, hwaiting, hends⟩ := exists_last_of_finished hdrive
    have hlast :=
      (stackedOn_of_reaches (stackedOn_root hopens hopening) hreaches).depth
    obtain ⟨_, hdropped, _⟩ := below_of_finished hends
    rw [depth_of_below_cons hdropped, hwaiting] at hlast
    exact Nat.succ.inj hlast

/-- A call that fails does so, too.  It fails in the same way behind a wrapper
that refuses nothing, where failures are known to be clean. -/
theorem depth_of_failed_call {fuel : Nat} {message : CallMessage}
    {cause : Failure}
    (h : call config env fuel message ledger = some (.error cause after)) :
    after.depth = ledger.depth := by
  have hhost := call_map RefusingLedger.isHom_refusingNothing config env fuel
    message ledger
  rw [h] at hhost
  have hfree : ClosesFreely (RefusingLedger.refusingNothing ledger).refusal :=
    ⟨fun _ => rfl, fun _ => rfl, fun _ => rfl⟩
  have hstates := (restored_of_failed_call hfree hhost).states
  exact depth_eq_of_below (congrArg StateStack.below hstates)

theorem depth_of_failed_create {fuel : Nat} {message : CreateMessage}
    {cause : Failure}
    (h : create config env fuel message ledger = some (.error cause after)) :
    after.depth = ledger.depth := by
  have hhost := create_map RefusingLedger.isHom_refusingNothing config env fuel
    message ledger
  rw [h] at hhost
  have hfree : ClosesFreely (RefusingLedger.refusingNothing ledger).refusal :=
    ⟨fun _ => rfl, fun _ => rfl, fun _ => rfl⟩
  apply depth_eq_of_below
  obtain ⟨_, ⟨_, hstates⟩ | ⟨_, hstates⟩⟩ := states_of_failed_create hfree hhost
  · exact congrArg StateStack.below hstates
  · exact (congrArg StateStack.below hstates).trans rfl

/-- A transaction that ends has closed every snapshot that it opened, once each
and in order, as a ledger that keeps a record tells; on that ledger it ends in
the same way. -/
def ClosesAll (ledger : LayeredLedger)
    (recorded : Option (EStateM.Result Failure Recorded Receipt))
    (result : EStateM.Result Failure LayeredLedger Receipt) : Prop :=
  (left result).depth = ledger.depth ∧
    ∃ ending, recorded = some ending ∧
      mapState RecordingLedger.inner ending = result ∧
      SnapshotEvent.openAfter (left ending).record = some []

theorem closesAll_of_tracks
    {recorded : Option (EStateM.Result Failure Recorded Receipt)}
    {result : EStateM.Result Failure LayeredLedger Receipt}
    (hdepth : (left result).depth = ledger.depth)
    (hresult : some result = recorded.map (mapState RecordingLedger.inner))
    (htracks : ∀ ending, recorded = some ending →
      RecordingLedger.Tracks ledger.depth (left ending)) :
    ClosesAll ledger recorded result := by
  obtain ⟨ending, hending, hinner⟩ := Option.map_eq_some_iff.1 hresult.symm
  refine ⟨hdepth, ending, hending, hinner, ?_⟩
  obtain ⟨n, hopen, hrecord⟩ := htracks ending hending
  have hleft : (left result).depth = (left ending).inner.depth := by
    rw [← hinner]
    cases ending <;> rfl
  obtain rfl : n = 0 := by omega
  exact hrecord

/-- Frames and snapshots nest exactly.  In every state of a transaction there is
a frame, there are at most one more than the largest depth, the frame at each
place of the stack has that depth and the snapshot opened for it, and just the
snapshots of the frames are open above those that were open at the start.  When
the transaction ends, with a receipt or without, as many are open as at the
start, and each snapshot that was opened meanwhile has been closed by one commit
or one rollback. -/
theorem frames_and_snapshots_nest (config : Config) (env : Environment)
    (ledger : LayeredLedger) :
    (∀ gas opening root created entered state, Opens config gas opening →
      opening ledger = .ok (.entered root created) entered →
      Reaches config env ⟨root, [], entered⟩ state →
      Nests config ledger.depth state) ∧
    (∀ fuel message result, call config env fuel message ledger = some result →
      ClosesAll ledger (call config env fuel message ⟨ledger, []⟩) result) ∧
    ∀ fuel message result, create config env fuel message ledger = some result →
      ClosesAll ledger (create config env fuel message ⟨ledger, []⟩)
        result := by
  refine ⟨?_, ?_, ?_⟩
  · intro gas opening root created entered state hopens hopening hreaches
    exact (stackedOn_of_reaches (stackedOn_root hopens hopening) hreaches).nests
  · intro fuel message result hcall
    have hmap := call_map RecordingLedger.isHom_inner config env fuel message
      ⟨ledger, []⟩
    apply closesAll_of_tracks
    · cases result with
      | ok receipt after =>
        exact depth_of_receipt (.inl ⟨message, rfl, rfl⟩) hcall
      | error cause after => exact depth_of_failed_call hcall
    · rw [← hcall]
      exact hmap
    · intro ending hending
      exact tracks_transact (keepsTrack_openCall message)
        (RecordingLedger.tracks_start ledger) hending
  · intro fuel message result hcreate
    have hmap := create_map RecordingLedger.isHom_inner config env fuel message
      ⟨ledger, []⟩
    apply closesAll_of_tracks
    · cases result with
      | ok receipt after =>
        exact depth_of_receipt (.inr ⟨message, rfl, rfl⟩) hcreate
      | error cause after => exact depth_of_failed_create hcreate
    · rw [← hcreate]
      exact hmap
    · intro ending hending
      exact tracks_transact (keepsTrack_openCreation config message)
        (RecordingLedger.tracks_start ledger) hending

/-- A ledger with an open snapshot and a contract at 2 that calls the account at
3. -/
def callingOnSnapshot : LayeredLedger :=
  (({} : LayeredLedger).install 2 (({ nonce := 1 } : Account).withCode
    #[0x3d, 0x3d, 0x3d, 0x3d, 0x3d, 0x60, 3, 0x5a, 0xf1])).openSnapshot

/-- When the second frame is entered, three snapshots are open; in the end there
is one again. -/
theorem second_frame_opens_third_snapshot :
    let message : CallMessage := { caller := 1, target := 2, gas := 100000 }
    ∃ root entered state result,
      openCall message callingOnSnapshot = .ok (.entered root none) entered ∧
      Reaches {} {} ⟨root, [], entered⟩ state ∧ state.frames.length = 2 ∧
      Nests {} 1 state ∧ state.ledger.depth = 3 ∧
      call {} {} 20 message callingOnSnapshot = some result ∧
      ClosesAll callingOnSnapshot
        (call {} {} 20 message ⟨callingOnSnapshot, []⟩) result := by
  intro message
  obtain ⟨hnests, hcloses, _⟩ :=
    frames_and_snapshots_nest {} {} callingOnSnapshot
  obtain ⟨root, entered, hopening, hstate⟩ : ∃ root entered,
      openCall message callingOnSnapshot = .ok (.entered root none) entered ∧
      (stateAfter? {} {} 8 ⟨root, [], entered⟩).map (·.frames.length) =
        some 2 :=
    ⟨_, _, rfl, by decide +kernel⟩
  obtain ⟨state, hafter, hframes⟩ := Option.map_eq_some_iff.1 hstate
  have hreaches := reaches_of_stateAfter? hafter
  have hnested : Nests {} 1 state :=
    hnests _ _ _ _ _ _ (.inl ⟨message, rfl, rfl⟩) hopening hreaches
  have hends : (call {} {} 20 message callingOnSnapshot).isSome = true := by
    decide +kernel
  obtain ⟨result, hresult⟩ := Option.isSome_iff_exists.1 hends
  refine ⟨root, entered, state, result, hopening, hreaches, hframes,
    hnested, ?_, hresult, hcloses _ _ _ hresult⟩
  rw [hnested.depth, hframes]

end Transaction

end ContractMachine
