import ContractMachine.Transaction.Drive
import ContractMachine.Proofs.Execution.Requests

/-!
# Runs of a transaction

What the next instruction comes to depends on the topmost frame and the ledger
alone; the frames that wait only say who goes on when the topmost has ended.
`turn` is the first part and `deliver` the second, and together they are
`advance`.

A transaction reaches a state by advancing any number of times.  It runs above
some waiting frames as long as none of these is on top.
-/

namespace ContractMachine

/-- What the next instruction of a frame comes to. -/
inductive Turn (σ : Type) where
  /-- The frame goes on. -/
  | continues (frame : Frame) (ledger : σ)
  /-- The frame waits for another one. -/
  | enters (frame : Frame) (child : Activation) (ledger : σ)
  /-- The frame has ended, or the transaction has failed. -/
  | concludes (conclusion : Conclusion σ)

namespace Turn

variable {σ : Type}

/-- The turn of an activation that takes up an answer. -/
def ofAnswer (top : Activation) (ledger : σ) : Except Halt Frame → Turn σ
  | .ok frame => .continues frame ledger
  | .error cause => .concludes (.failed (.halt cause) [top] ledger)

/-- The turn of an activation whose request has been met. -/
def ofResponse (top : Activation) (gas : Nat) :
    EStateM.Result LedgerError σ Transaction.Response → Turn σ
  | .ok (.entered child) ledger => .enters top.frame child ledger
  | .ok .refused ledger => ofAnswer top ledger (top.frame.refuse gas)
  | .ok .collided ledger => ofAnswer top ledger (top.frame.answer #[] 0)
  | .error cause ledger => .concludes (.failed (.ledger cause) [top] ledger)

/-- The turn of an activation that has been left. -/
def ofLeaving : EStateM.Result LedgerError σ Exit → Turn σ
  | .ok exit ledger => .concludes (.finished exit ledger)
  | .error cause ledger => .concludes (.failed (.ledger cause) [] ledger)

end Turn

namespace Transaction

open Actions

variable {σ : Type} [Ledger σ] {config : Config} {env : Environment}

/-- What the next instruction of an activation comes to. -/
def turn (config : Config) (env : Environment) (top : Activation) (ledger : σ) :
    Turn σ :=
  match Execution.step config env { frame := top.frame, ledger } with
  | .ok none live => .continues live.frame live.ledger
  | .ok (some (.call request)) live =>
    .ofResponse { top with frame := live.frame } request.gas
      (meetCall config live.frame.context request live.ledger)
  | .ok (some (.create request)) live =>
    .ofResponse { top with frame := live.frame } request.gas
      (meetCreation config live.frame.context request live.ledger)
  | .ok (some (.return output)) live =>
    .ofLeaving (leave config { top with frame := live.frame } .success output
      live.ledger)
  | .ok (some (.revert output)) live =>
    .ofLeaving (leave config { top with frame := live.frame } .revert output
      live.ledger)
  | .error (.halt cause) live =>
    .ofLeaving (leave config { top with frame := live.frame } (.halt cause) #[]
      live.ledger)
  | .error (.ledger cause) live =>
    .concludes (.failed (.ledger cause) [{ top with frame := live.frame }]
      live.ledger)

/-- How waiting frames go on when the one above them, of the given role, has
concluded. -/
def deliver (role : Role) (conclusion : Conclusion σ)
    (waiting : List Activation) : Progress σ :=
  match conclusion, waiting with
  | .finished exit ledger, [] => .concluded (.finished exit ledger)
  | .finished exit ledger, parent :: below =>
    match parent.frame.resume role exit with
    | .ok frame =>
      .running { top := { parent with frame }, waiting := below, ledger }
    | .error cause =>
      .concluded (.failed (.halt cause) (parent :: below) ledger)
  | .failed cause unfinished ledger, waiting =>
    .concluded (.failed cause (unfinished ++ waiting) ledger)

omit [Ledger σ] in
@[simp]
theorem deliver_nil (role : Role) (conclusion : Conclusion σ) :
    deliver role conclusion [] = .concluded conclusion := by
  cases conclusion <;> simp [deliver]

/-- The progress that a turn of the topmost activation makes. -/
def progressOf (top : Activation) (waiting : List Activation) :
    Turn σ → Progress σ
  | .continues frame ledger =>
    .running { top := { top with frame }, waiting, ledger }
  | .enters frame child ledger =>
    .running { top := child, waiting := { top with frame } :: waiting, ledger }
  | .concludes conclusion => deliver top.role conclusion waiting

omit [Ledger σ] in
theorem meet_eq_progressOf (top : Activation) (frame : Frame)
    (waiting : List Activation) (gas : Nat)
    (response : EStateM LedgerError σ Response) (ledger : σ) :
    meet { top with frame } waiting gas response ledger =
      progressOf top waiting
        (.ofResponse { top with frame } gas (response ledger)) := by
  have hsettle : ∀ (left : σ) (answer : Except Halt Frame),
      (match answer with
        | .ok frame =>
          Progress.running { top := { top with frame }, waiting,
                             ledger := left }
        | .error cause =>
          .concluded (.failed (.halt cause) ({ top with frame } :: waiting)
            left)) =
        progressOf top waiting (.ofAnswer { top with frame } left answer) := by
    intro left answer
    cases answer <;> rfl
  rw [meet]
  cases response ledger with
  | error cause left => rfl
  | ok met left =>
    cases met with
    | entered child => rfl
    | refused => exact hsettle left (frame.refuse gas)
    | collided => exact hsettle left (frame.answer #[] 0)

theorem finish_eq_progressOf (top : Activation) (frame : Frame)
    (waiting : List Activation) (outcome : Outcome) (output : Bytes)
    (ledger : σ) :
    finish config { top with frame } waiting outcome output ledger =
      progressOf top waiting
        (.ofLeaving (leave config { top with
          frame } outcome output ledger)) := by
  rw [finish]
  cases leave config { top with frame } outcome output ledger with
  | error cause left => rfl
  | ok exit left => cases waiting <;> rfl

/-- A transaction advances by a turn of its topmost activation. -/
theorem advance_eq_progressOf (state : Running σ) :
    advance config env state =
      progressOf state.top state.waiting
        (turn config env state.top state.ledger) := by
  rw [advance, turn]
  cases Execution.step config env
    { frame := state.top.frame, ledger := state.ledger } with
  | error cause live =>
    cases cause with
    | halt cause => exact finish_eq_progressOf ..
    | ledger cause => rfl
  | ok signal live =>
    cases signal with
    | none => rfl
    | some signal =>
      cases signal with
      | call request => exact meet_eq_progressOf ..
      | create request => exact meet_eq_progressOf ..
      | «return» output => exact finish_eq_progressOf ..
      | revert output => exact finish_eq_progressOf ..

/-! ## Turns -/

/-- How the request of a frame is met. -/
inductive Meets (config : Config) (live : Live σ) :
    Signal → Response → σ → Prop where
  | call {request : CallRequest} {response : Response} {after : σ}
      (h : meetCall config live.frame.context request live.ledger =
        .ok response after) :
      Meets config live (.call request) response after
  | create {request : CreateRequest} {response : Response} {after : σ}
      (h : meetCreation config live.frame.context request live.ledger =
        .ok response after) :
      Meets config live (.create request) response after

theorem isRequest_of_meets {live : Live σ} {signal : Signal}
    {response : Response} {after : σ}
    (h : Meets config live signal response after) : signal.IsRequest := by
  cases h <;> trivial

section Turns

variable {top : Activation} {ledger after : σ} {frame : Frame}

omit [Ledger σ] in
theorem ofAnswer_eq_continues {answer : Except Halt Frame}
    (h : Turn.ofAnswer top ledger answer = .continues frame after) :
    answer = .ok frame ∧ after = ledger := by
  cases answer <;> cases h
  exact ⟨rfl, rfl⟩

omit [Ledger σ] in
theorem ofResponse_eq_continues {gas : Nat}
    {result : EStateM.Result LedgerError σ Response}
    (h : Turn.ofResponse top gas result = .continues frame after) :
    ∃ response, result = .ok response after ∧
      (response = .refused ∧ top.frame.refuse gas = .ok frame ∨
        response = .collided ∧ top.frame.answer #[] 0 = .ok frame) := by
  cases result with
  | error cause reached => cases h
  | ok response reached =>
    cases response with
    | entered child => cases h
    | refused =>
      obtain ⟨hanswer, rfl⟩ := ofAnswer_eq_continues h
      exact ⟨_, rfl, .inl ⟨rfl, hanswer⟩⟩
    | collided =>
      obtain ⟨hanswer, rfl⟩ := ofAnswer_eq_continues h
      exact ⟨_, rfl, .inr ⟨rfl, hanswer⟩⟩

omit [Ledger σ] in
theorem ofResponse_eq_enters {gas : Nat}
    {result : EStateM.Result LedgerError σ Response} {child : Activation}
    (h : Turn.ofResponse top gas result = .enters frame child after) :
    top.frame = frame ∧ result = .ok (.entered child) after := by
  cases result with
  | error cause reached => cases h
  | ok response reached =>
    cases response with
    | entered other =>
      cases h
      exact ⟨rfl, rfl⟩
    | refused =>
      rw [Turn.ofResponse, Turn.ofAnswer.eq_def] at h
      split at h <;> cases h
    | collided =>
      rw [Turn.ofResponse, Turn.ofAnswer.eq_def] at h
      split at h <;> cases h

omit [Ledger σ] in
theorem ofResponse_ne_finished {gas : Nat}
    {result : EStateM.Result LedgerError σ Response} {exit : Exit} :
    Turn.ofResponse top gas result ≠ .concludes (.finished exit after) := by
  intro h
  cases result with
  | error cause reached => cases h
  | ok response reached =>
    cases response with
    | entered other => cases h
    | refused =>
      rw [Turn.ofResponse, Turn.ofAnswer.eq_def] at h
      split at h <;> cases h
    | collided =>
      rw [Turn.ofResponse, Turn.ofAnswer.eq_def] at h
      split at h <;> cases h

omit [Ledger σ] in
theorem exists_ofLeaving_eq (result : EStateM.Result LedgerError σ Exit) :
    ∃ conclusion, Turn.ofLeaving result = .concludes conclusion := by
  cases result <;> exact ⟨_, rfl⟩

omit [Ledger σ] in
theorem ofLeaving_eq_finished {result : EStateM.Result LedgerError σ Exit}
    {exit : Exit}
    (h : Turn.ofLeaving result = .concludes (.finished exit after)) :
    result = .ok exit after := by
  cases result with
  | error cause left => cases h
  | ok ending left =>
    cases h
    rfl

/-- The four ways a turn can go: an instruction like most, a request, the end of
the frame, and a failure of the ledger. -/
theorem turn_cases (config : Config) (env : Environment) (top : Activation)
    (ledger : σ) :
    (∃ live, Execution.step config env ⟨top.frame, ledger⟩ = .ok none live ∧
      turn config env top ledger = .continues live.frame live.ledger) ∨
    (∃ signal live result,
      Execution.step config env ⟨top.frame, ledger⟩ = .ok (some signal) live ∧
      (∀ response after, result = .ok response after →
        Meets config live signal response after) ∧
      turn config env top ledger =
        .ofResponse { top with frame := live.frame } signal.gas result) ∨
    (∃ live outcome output,
      left (Execution.step config env ⟨top.frame, ledger⟩) = live ∧
      turn config env top ledger =
        .ofLeaving (leave config { top with frame := live.frame } outcome output
          live.ledger)) ∨
    ∃ cause unfinished after,
      turn config env top ledger =
        .concludes (.failed cause unfinished after) := by
  rw [turn]
  cases hstep : Execution.step config env ⟨top.frame, ledger⟩ with
  | error cause live =>
    cases cause with
    | halt cause => exact .inr (.inr (.inl ⟨live, _, _, rfl, rfl⟩))
    | ledger cause => exact .inr (.inr (.inr ⟨_, _, _, rfl⟩))
  | ok signal live =>
    cases signal with
    | none => exact .inl ⟨live, rfl, rfl⟩
    | some signal =>
      cases signal with
      | call request =>
        exact .inr (.inl ⟨_, live, _, rfl, fun _ _ hmet => .call hmet, rfl⟩)
      | create request =>
        exact .inr (.inl ⟨_, live, _, rfl, fun _ _ hmet => .create hmet, rfl⟩)
      | «return» output => exact .inr (.inr (.inl ⟨live, _, _, rfl, rfl⟩))
      | revert output => exact .inr (.inr (.inl ⟨live, _, _, rfl, rfl⟩))

/-- How a frame comes to continue. -/
theorem turn_eq_continues
    (h : turn config env top ledger = .continues frame after) :
    Execution.step config env ⟨top.frame, ledger⟩ = .ok none ⟨frame, after⟩ ∨
    ∃ signal live response,
      Execution.step config env ⟨top.frame, ledger⟩ = .ok (some signal) live ∧
      Meets config live signal response after ∧
      (response = .refused ∧ live.frame.refuse signal.gas = .ok frame ∨
        response = .collided ∧ live.frame.answer #[] 0 = .ok frame) := by
  obtain ⟨live, hstep, hturn⟩ | ⟨signal, live, result, hstep, hmeets, hturn⟩ |
    ⟨live, outcome, output, _, hturn⟩ | ⟨_, _, _, hturn⟩ :=
      turn_cases config env top ledger
  · rw [hturn] at h
    cases h
    exact .inl hstep
  · obtain ⟨response, hresult, hanswer⟩ :=
      ofResponse_eq_continues (hturn.symm.trans h)
    exact .inr ⟨signal, live, response, hstep, hmeets _ _ hresult, hanswer⟩
  · obtain ⟨_, hleaving⟩ := exists_ofLeaving_eq
      (leave config { top with frame := live.frame } outcome output live.ledger)
    rw [hturn, hleaving] at h
    cases h
  · rw [hturn] at h
    cases h

/-- How a frame comes to wait for another. -/
theorem turn_eq_enters {child : Activation}
    (h : turn config env top ledger = .enters frame child after) :
    ∃ signal live, Execution.step config env ⟨top.frame, ledger⟩ =
      .ok (some signal) live ∧
      live.frame = frame ∧ Meets config live signal (.entered child) after := by
  obtain ⟨live, _, hturn⟩ | ⟨signal, live, result, hstep, hmeets, hturn⟩ |
    ⟨live, outcome, output, _, hturn⟩ | ⟨_, _, _, hturn⟩ :=
      turn_cases config env top ledger
  · rw [hturn] at h
    cases h
  · obtain ⟨hframe, hresult⟩ := ofResponse_eq_enters (hturn.symm.trans h)
    exact ⟨signal, live, hstep, hframe, hmeets _ _ hresult⟩
  · obtain ⟨_, hleaving⟩ := exists_ofLeaving_eq
      (leave config { top with frame := live.frame } outcome output live.ledger)
    rw [hturn, hleaving] at h
    cases h
  · rw [hturn] at h
    cases h

/-- How a frame comes to its end. -/
theorem turn_eq_finished {exit : Exit}
    (h : turn config env top ledger = .concludes (.finished exit after)) :
    ∃ live outcome output,
      left (Execution.step config env ⟨top.frame, ledger⟩) = live ∧
      leave config { top with frame := live.frame } outcome output live.ledger =
        .ok exit after := by
  obtain ⟨live, _, hturn⟩ | ⟨signal, live, result, _, _, hturn⟩ |
    ⟨live, outcome, output, hlive, hturn⟩ | ⟨_, _, _, hturn⟩ :=
      turn_cases config env top ledger
  · rw [hturn] at h
    cases h
  · exact absurd (hturn.symm.trans h) ofResponse_ne_finished
  · rw [hturn] at h
    exact ⟨live, outcome, output, hlive, ofLeaving_eq_finished h⟩
  · rw [hturn] at h
    cases h

end Turns

/-! ## Runs -/

/-- How a transaction gets from one state to the next. -/
inductive Advances (config : Config) (env : Environment) :
    Running σ → Running σ → Prop where
  | continues {top : Activation} {waiting : List Activation} {ledger after : σ}
      {frame : Frame}
      (h : turn config env top ledger = .continues frame after) :
      Advances config env ⟨top, waiting, ledger⟩
        ⟨{ top with frame }, waiting, after⟩
  | enters {top child : Activation} {waiting : List Activation}
      {ledger after : σ} {frame : Frame}
      (h : turn config env top ledger = .enters frame child after) :
      Advances config env ⟨top, waiting, ledger⟩
        ⟨child, { top with frame } :: waiting, after⟩
  | resumes {top parent : Activation} {below : List Activation}
      {ledger after : σ} {exit : Exit}
      {frame : Frame} (h : turn config env top ledger =
        .concludes (.finished exit after))
      (hresume : parent.frame.resume top.role exit = .ok frame) :
      Advances config env ⟨top, parent :: below, ledger⟩
        ⟨{ parent with frame }, below, after⟩

theorem advances_of_advance {state next : Running σ}
    (h : advance config env state = .running next) :
    Advances config env state next := by
  rcases state with ⟨top, waiting, ledger⟩
  rw [advance_eq_progressOf] at h
  dsimp only at h
  cases hturn : turn config env top ledger with
  | continues frame after =>
    rw [hturn] at h
    cases h
    exact .continues hturn
  | enters frame child after =>
    rw [hturn] at h
    cases h
    exact .enters hturn
  | concludes conclusion =>
    rw [hturn, progressOf] at h
    cases conclusion with
    | failed cause unfinished after => cases h
    | finished exit after =>
      cases waiting with
      | nil => cases h
      | cons parent below =>
        cases hresume : parent.frame.resume top.role exit with
        | error cause => simp [deliver, hresume] at h
        | ok frame =>
          simp only [deliver, hresume, Progress.running.injEq] at h
          subst h
          exact .resumes hturn hresume

/-- The frame below a frame that ends goes on with the ledger that was left. -/
theorem ledger_of_advance_finished {state next : Running σ} {exit : Exit}
    {after : σ} (hends : turn config env state.top state.ledger =
      .concludes (.finished exit after))
    (h : advance config env state = .running next) : next.ledger = after := by
  cases advances_of_advance h with
  | continues hturn | enters hturn =>
    rw [hturn] at hends
    cases hends
  | resumes hturn _ =>
    rw [hturn] at hends
    cases hends
    rfl

/-- A state that a transaction reaches from another. -/
def Reaches (config : Config) (env : Environment) :
    Running σ → Running σ → Prop :=
  Relation.ReflTransGen fun state next =>
    advance config env state = .running next

/-- A state that a transaction reaches from another while the frames of `floor`
wait. -/
def RunsAbove (config : Config) (env : Environment) (floor : List Activation) :
    Running σ → Running σ → Prop :=
  Relation.ReflTransGen fun state next =>
    advance config env state = .running next ∧ floor <:+ next.waiting

theorem Reaches.runsAbove_nil {state last : Running σ}
    (h : Reaches config env state last) :
    RunsAbove config env [] state last :=
  Relation.ReflTransGen.mono (fun _ _ hstep => ⟨hstep, List.nil_suffix⟩) _ _ h

/-- A transaction that has been driven to a conclusion comes to it at some
state. -/
theorem exists_concluded_of_drive {fuel : Nat} {state : Running σ}
    {conclusion : Conclusion σ}
    (h : drive config env fuel state = some conclusion) :
    ∃ last, Reaches config env state last ∧
      advance config env last = .concluded conclusion := by
  induction fuel generalizing state with
  | zero => cases h
  | succ fuel ih =>
    rw [drive] at h
    cases hadvance : advance config env state with
    | running next =>
      rw [hadvance] at h
      obtain ⟨last, hreaches, hconcluded⟩ := ih h
      exact ⟨last, .head hadvance hreaches, hconcluded⟩
    | concluded reached =>
      simp only [hadvance, Option.some.injEq] at h
      exact ⟨state, .refl, by rw [hadvance, h]⟩

/-- What finishes a transaction is the end of its last frame. -/
theorem finished_of_advance {state : Running σ} {exit : Exit} {after : σ}
    (h : advance config env state = .concluded (.finished exit after)) :
    state.waiting = [] ∧
      turn config env state.top state.ledger =
        .concludes (.finished exit after) := by
  rw [advance_eq_progressOf] at h
  cases hturn : turn config env state.top state.ledger with
  | continues frame left => simp [hturn, progressOf] at h
  | enters frame child left => simp [hturn, progressOf] at h
  | concludes conclusion =>
    rw [hturn, progressOf] at h
    cases conclusion with
    | failed cause unfinished left => simp [deliver] at h
    | finished ending left =>
      cases hwaiting : state.waiting with
      | nil =>
        simp only [hwaiting, deliver_nil, Progress.concluded.injEq] at h
        exact ⟨rfl, by rw [h]⟩
      | cons parent below =>
        rw [hwaiting, deliver] at h
        split at h <;> cases h

/-- A transaction finishes with the end of its last frame. -/
theorem exists_last_of_finished {fuel : Nat} {state : Running σ} {exit : Exit}
    {after : σ}
    (h : drive config env fuel state = some (.finished exit after)) :
    ∃ last, Reaches config env state last ∧ last.waiting = [] ∧
      turn config env last.top last.ledger =
        .concludes (.finished exit after) := by
  obtain ⟨last, hreaches, hconcluded⟩ := exists_concluded_of_drive h
  exact ⟨last, hreaches, finished_of_advance hconcluded⟩

/-- The topmost frame of a state asks for a call or a creation and goes on when
it has been met: at once, if no frame is entered, and else when the frame that
was entered has left its exit. -/
inductive Resumes (config : Config) (env : Environment) (state : Running σ) :
    Option Exit → Running σ → Prop where
  | atOnce {resumed : Running σ}
      (hnext : advance config env state = .running resumed)
      (hwaiting : resumed.waiting = state.waiting) :
      Resumes config env state none resumed
  | later {entered last resumed : Running σ} {exit : Exit} {after : σ}
      (hnext : advance config env state = .running entered)
      (hdeeper : entered.waiting.length = state.waiting.length + 1)
      (hruns : RunsAbove config env entered.waiting entered last)
      (hwaiting : last.waiting = entered.waiting)
      (hends : turn config env last.top last.ledger =
        .concludes (.finished exit after))
      (hresumed : advance config env last = .running resumed) :
      Resumes config env state (some exit) resumed

/-! ## Runs that are computed -/

/-- The state of a transaction after some instructions, if it is running. -/
def stateAfter? (config : Config) (env : Environment) :
    Nat → Running σ → Option (Running σ)
  | 0, state => some state
  | n + 1, state =>
    match advance config env state with
    | .running next => stateAfter? config env n next
    | .concluded _ => none

theorem reaches_of_stateAfter? {n : Nat} {state last : Running σ}
    (h : stateAfter? config env n state = some last) :
    Reaches config env state last := by
  induction n generalizing state with
  | zero =>
    cases h
    exact .refl
  | succ n ih =>
    rw [stateAfter?] at h
    cases hadvance : advance config env state with
    | running next =>
      rw [hadvance] at h
      exact .head hadvance (ih h)
    | concluded conclusion => simp [hadvance] at h

end Transaction

end ContractMachine
