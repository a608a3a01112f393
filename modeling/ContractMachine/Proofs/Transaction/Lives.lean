import ContractMachine.Proofs.Execution.Provision
import ContractMachine.Proofs.Transaction.ControlFlow

/-!
# The life of a frame

A frame begins with empty memory and runs instruction by instruction, on a
ledger that others may change between any two of them.  When it makes a request
it waits, and goes on when the request has been refused, has collided, or has
been met by another frame, whatever that frame has left behind; or it ends, with
success or by a failure.

All its life the memory of a frame is made of whole words and its stack keeps
within the limit.  While it waits there is room for the answer, and the range
that takes the output of a call is covered.  Every frame of every transaction
leads such a life.
-/

namespace ContractMachine

/-- Where a frame stands between two instructions. -/
inductive Stage where
  | runs
  /-- It has made a request. -/
  | waits (signal : Signal)
  /-- It has ended or failed. -/
  | over

/-- A frame of this role is entered for such a request. -/
def Signal.Suits : Signal → Role → Prop
  | .call request, .call window => window = request.window
  | .create _, .creation _ => True
  | _, _ => False

/-- What a frame may come to, on ledgers of one kind and for fixed prices. -/
inductive Life (σ : Type) [Ledger σ] (config : Config) :
    Stage → Frame → Prop where
  | begins (code : Bytes) (context : Context) (gas : Nat) {stack : Stack}
      (h : stack.length ≤ Stack.limit) :
      Life σ config .runs { Frame.start code context gas with stack }
  | steps {frame : Frame} {env : Environment} {ledger : σ} {live : Live σ}
      (h : Life σ config .runs frame)
      (hstep : Execution.step config env ⟨frame, ledger⟩ = .ok none live) :
      Life σ config .runs live.frame
  | asks {frame : Frame} {env : Environment} {ledger : σ} {signal : Signal}
      {live : Live σ}
      (h : Life σ config .runs frame)
      (hstep : Execution.step config env ⟨frame, ledger⟩ =
        .ok (some signal) live)
      (hrequest : signal.IsRequest) : Life σ config (.waits signal) live.frame
  | ends {frame : Frame} {env : Environment} {ledger : σ} {signal : Signal}
      {live : Live σ}
      (h : Life σ config .runs frame)
      (hstep : Execution.step config env ⟨frame, ledger⟩ =
        .ok (some signal) live)
      (hrequest : ¬ signal.IsRequest) : Life σ config .over live.frame
  | fails {frame : Frame} {env : Environment} {ledger : σ} {cause : Failure}
      {live : Live σ}
      (h : Life σ config .runs frame)
      (hstep : Execution.step config env ⟨frame, ledger⟩ = .error cause live) :
      Life σ config .over live.frame
  | refused {signal : Signal} {frame answered : Frame} {gas : Nat}
      (h : Life σ config (.waits signal) frame)
      (hrefuse : frame.refuse gas = .ok answered) :
      Life σ config .runs answered
  | collided {signal : Signal} {frame answered : Frame}
      (h : Life σ config (.waits signal) frame)
      (hanswer : frame.answer #[] 0 = .ok answered) :
      Life σ config .runs answered
  | resumed {signal : Signal} {frame answered : Frame} {role : Role}
      {exit : Exit}
      (h : Life σ config (.waits signal) frame) (hsuits : signal.Suits role)
      (hresume : frame.resume role exit = .ok answered) :
      Life σ config .runs answered

/-- What a frame has at a stage of its life. -/
structure Frame.Fit (stage : Stage) (frame : Frame) : Prop where
  aligned : 32 ∣ frame.memory.size
  stack_le : frame.stack.length ≤ Stack.limit
  room : ∀ signal, stage = .waits signal → frame.stack.length < Stack.limit
  covers : ∀ request, stage = .waits (.call request) →
    frame.memory.Covers request.window

namespace Execution

open Actions

variable {σ : Type} [Ledger σ] {config : Config} {env : Environment}
  {live after : Live σ}

/-- No step leaves more on the stack than it may hold. -/
theorem stack_le_of_ok {signal : Option Signal}
    (hle : live.frame.stack.length ≤ Stack.limit)
    (h : step config env live = .ok signal after) :
    after.frame.stack.length ≤ Stack.limit := by
  cases hbyte : live.frame.code[live.frame.position]? with
  | none =>
    rw [step_of_none hbyte] at h
    cases h
    exact hle
  | some byte =>
    obtain ⟨hprovides, hreplaces⟩ := replaces_of_step hbyte h
    exact hreplaces.stack_le hprovides

theorem stack_le_of_error {cause : Failure}
    (hle : live.frame.stack.length ≤ Stack.limit)
    (h : step config env live = .error cause after) :
    after.frame.stack.length ≤ Stack.limit := by
  obtain ⟨opcode, n, _, _, _, _, _, hafter⟩ := works_of_error h
  rw [hafter]
  exact (List.drop_sublist ..).length_le.trans hle

/-- The range for the output of a call has been paid for when the call is
requested. -/
theorem covers_of_step {request : CallRequest}
    (h : step config env live = .ok (some (.call request)) after) :
    after.frame.memory.Covers request.window := by
  cases hbyte : live.frame.code[live.frame.position]? with
  | none =>
    rw [step_of_none hbyte] at h
    cases h
  | some byte => exact (replaces_of_step hbyte h).2.2

end Execution

/-- How memory takes the output of a frame of some role, without growing for it;
`none` if that takes a range that is not covered. -/
def Memory.receive? (memory : Memory) (output : Bytes) : Role → Option Memory
  | .call window => memory.store? window.offset (output.extract 0 window.length)
  | .creation _ => some memory

theorem Memory.size_of_receive? {memory other : Memory} {output : Bytes}
    {role : Role} (h : memory.receive? output role = some other) :
    other.size = memory.size := by
  cases role with
  | call window => exact size_of_store? h
  | creation address =>
    cases h
    rfl

namespace Frame

variable {frame answered : Frame}

theorem stack_of_answer {returnData : Bytes} {result : Word}
    (h : frame.answer returnData result = .ok answered) :
    answered.stack = result :: frame.stack ∧
    answered.memory = frame.memory := by
  obtain ⟨_, rfl⟩ := answer_eq_ok_iff.1 h
  exact ⟨rfl, rfl⟩

/-- A frame that goes on after another has one more word on its stack. -/
theorem stack_of_resume {role : Role} {exit : Exit}
    (h : frame.resume role exit = .ok answered) :
    ∃ word, answered.stack = word :: frame.stack := by
  cases role <;> by_cases hsuccess : exit.outcome = .success <;>
    simp only [resume, hsuccess, if_true, if_false] at h <;>
    exact ⟨_, (stack_of_answer h).1⟩

/-- The output of a frame is written in place, if the frame is of the role that
its caller waits for. -/
theorem receive?_of_resume {signal : Signal} {role : Role} {exit : Exit}
    (hfit : frame.Fit (.waits signal)) (hsuits : signal.Suits role)
    (h : frame.resume role exit = .ok answered) :
    frame.memory.receive? exit.output role = some answered.memory := by
  cases role with
  | creation address =>
    by_cases hsuccess : exit.outcome = .success <;>
      simp only [resume, hsuccess, if_true, if_false] at h <;>
      rw [(stack_of_answer h).2] <;> rfl
  | call window =>
    cases signal with
    | create | «return» | revert => exact hsuits.elim
    | call request =>
      obtain rfl : window = request.window := hsuits
      have hcovers := hfit.covers request rfl
      have hsize : (exit.output.extract 0 request.window.length).size ≤
          request.window.length := by
        rw [Array.size_extract]
        omega
      rw [Memory.receive?, Memory.store?_of_covers (hcovers.shorten hsize)]
      by_cases hsuccess : exit.outcome = .success <;>
        simp only [resume, hsuccess, if_true, if_false] at h <;>
        rw [(stack_of_answer h).2] <;> rfl

/-- A frame that has waited goes on with one more word. -/
theorem Fit.goOn {signal : Signal} {word : Word} (h : frame.Fit (.waits signal))
    (hstack : answered.stack = word :: frame.stack)
    (hsize : answered.memory.size = frame.memory.size) :
    answered.Fit .runs where
  aligned := by
    rw [hsize]
    exact h.aligned
  stack_le := by
    rw [hstack]
    exact h.room signal rfl
  room := nofun
  covers := nofun

end Frame

namespace Life

open Execution

variable {σ : Type} [Ledger σ] {config : Config} {stage : Stage} {frame : Frame}

theorem fit (h : Life σ config stage frame) : frame.Fit stage := by
  -- Memory and the stack change in steps, and by the one word of an answer, for
  -- which the request has left room.
  induction h with
  | begins code context gas hstack => exact ⟨dvd_zero 32, hstack, nofun, nofun⟩
  | steps _ hstep ih =>
    have haligned := (pays_of_ok hstep).aligned ih.aligned
    exact ⟨haligned, stack_le_of_ok ih.stack_le hstep, nofun, nofun⟩
  | asks _ hstep hrequest ih =>
    have haligned := (pays_of_ok hstep).aligned ih.aligned
    have hroom := room_of_step hstep hrequest
    refine ⟨haligned, hroom.le, fun _ _ => hroom, ?_⟩
    rintro request ⟨⟩
    exact covers_of_step hstep
  | ends _ hstep _ ih =>
    have haligned := (pays_of_ok hstep).aligned ih.aligned
    exact ⟨haligned, stack_le_of_ok ih.stack_le hstep, nofun, nofun⟩
  | fails _ hstep ih =>
    have haligned := (pays_of_error hstep).aligned ih.aligned
    exact ⟨haligned, stack_le_of_error ih.stack_le hstep, nofun, nofun⟩
  | refused _ hrefuse ih =>
    obtain ⟨hstack, hmemory⟩ := Frame.stack_of_answer hrefuse
    exact ih.goOn hstack (congrArg Memory.size hmemory)
  | collided _ hanswer ih =>
    obtain ⟨hstack, hmemory⟩ := Frame.stack_of_answer hanswer
    exact ih.goOn hstack (congrArg Memory.size hmemory)
  | resumed _ hsuits hresume ih =>
    obtain ⟨word, hstack⟩ := Frame.stack_of_resume hresume
    have hreceived := Frame.receive?_of_resume ih hsuits hresume
    exact ih.goOn hstack (Memory.size_of_receive? hreceived)

end Life

/-! ## Transactions -/

namespace Transaction

open Actions

variable {σ : Type} [Ledger σ] {config : Config} {env : Environment}
  {ledger after : σ} {top child : Activation} {frame : Frame}

/-- Every waiting frame has asked for a frame of the role of the one above
it. -/
inductive Awaits (σ : Type) [Ledger σ] (config : Config) :
    Role → List Activation → Prop where
  | nil {role : Role} : Awaits σ config role []
  | cons {role : Role} {parent : Activation} {below : List Activation}
      {signal : Signal}
      (hparent : Life σ config (.waits signal) parent.frame)
      (hsuits : signal.Suits role)
      (hbelow : Awaits σ config parent.role below) :
      Awaits σ config role (parent :: below)

/-- The topmost frame runs, and the others wait for it. -/
structure Lively (config : Config) (state : Running σ) : Prop where
  top : Life σ config .runs state.top.frame
  waiting : Awaits σ config state.top.role state.waiting

theorem Awaits.exists_life {role : Role} {waiting : List Activation}
    (h : Awaits σ config role waiting) :
    ∀ activation ∈ waiting, ∃ signal,
      Life σ config (.waits signal) activation.frame := by
  induction h with
  | nil => simp
  | cons hparent _ _ ih => exact List.forall_mem_cons.2 ⟨⟨_, hparent⟩, ih⟩

theorem Lively.exists_life {state : Running σ} (h : Lively config state) :
    ∀ activation ∈ state.top :: state.waiting, ∃ stage,
      Life σ config stage activation.frame := by
  refine List.forall_mem_cons.2 ⟨⟨_, h.top⟩, fun activation hmem => ?_⟩
  obtain ⟨signal, hlife⟩ := h.waiting.exists_life activation hmem
  exact ⟨_, hlife⟩

theorem life_of_enterCall {context : Context} {moves : Bool}
    {source target : Address} {gas : Nat} {window : Range}
    (h : enterCall context moves source target gas window ledger =
      .ok child after) :
    Life σ config .runs child.frame ∧ child.role = .call window := by
  obtain ⟨code, hframe, hrole, _⟩ := enterCall_eq_ok h
  rw [hframe]
  exact ⟨.begins code context gas (Nat.zero_le _), hrole⟩

theorem life_of_enterCreation {creator address : Address} {value : Word}
    {initCode : Bytes} {gas depth : Nat}
    (h : enterCreation creator address value initCode gas depth ledger =
      .ok child after) :
    Life σ config .runs child.frame ∧ child.role = .creation address := by
  obtain ⟨hframe, hrole, _⟩ := enterCreation_eq_ok h
  rw [hframe]
  exact ⟨.begins initCode _ gas (Nat.zero_le _), hrole⟩

theorem life_of_continues (h : Life σ config .runs top.frame)
    (hturn : turn config env top ledger = .continues frame after) :
    Life σ config .runs frame := by
  obtain hstep | ⟨signal, live, response, hstep, hmeets, hanswer⟩ :=
    turn_eq_continues hturn
  · exact h.steps hstep
  · have hwaits := h.asks hstep (isRequest_of_meets hmeets)
    obtain ⟨_, hrefuse⟩ | ⟨_, hcollide⟩ := hanswer
    · exact hwaits.refused hrefuse
    · exact hwaits.collided hcollide

theorem life_of_enters (h : Life σ config .runs top.frame)
    (hturn : turn config env top ledger = .enters frame child after) :
    Life σ config .runs child.frame ∧
      ∃ signal, Life σ config (.waits signal) frame ∧
      signal.Suits child.role := by
  obtain ⟨signal, live, hstep, rfl, hmeets⟩ := turn_eq_enters hturn
  have hwaits := h.asks hstep (isRequest_of_meets hmeets)
  obtain ⟨request, rfl, henter⟩ | ⟨request, address, _, _, rfl, _, henter⟩ :=
    enters_of_meets hmeets
  · obtain ⟨hlife, hrole⟩ := life_of_enterCall henter
    exact ⟨hlife, _, hwaits, by rw [hrole]; rfl⟩
  · obtain ⟨hlife, hrole⟩ := life_of_enterCreation henter
    exact ⟨hlife, _, hwaits, by rw [hrole]; trivial⟩

theorem lively_of_advance {state next : Running σ} (h : Lively config state)
    (hadvance : advance config env state = .running next) :
    Lively config next := by
  obtain ⟨htop, hwaiting⟩ := h
  cases advances_of_advance hadvance with
  | continues hturn => exact ⟨life_of_continues htop hturn, hwaiting⟩
  | enters hturn =>
    obtain ⟨hchild, signal, hwaits, hsuits⟩ := life_of_enters htop hturn
    exact ⟨hchild, .cons hwaits hsuits hwaiting⟩
  | resumes _ hresume =>
    -- The frame below has waited for one of the role of the frame that has
    -- ended.
    cases hwaiting with
    | cons hparent hsuits hbelow =>
      exact ⟨hparent.resumed hsuits hresume, hbelow⟩

/-- All frames of a transaction lead the lives of frames. -/
theorem lively_of_reaches {gas : Nat} {opening : EStateM LedgerError σ Opening}
    {root : Activation} {created : Option Address} {state : Running σ}
    (hopens : Opens config gas opening)
    (hopening : opening ledger = .ok (.entered root created) after)
    (hreaches : Reaches config env ⟨root, [], after⟩ state) :
    Lively config state := by
  induction hreaches with
  | refl =>
    refine ⟨?_, .nil⟩
    obtain ⟨_, _, _, henter⟩ | ⟨_, _, _, _, _, _, _, henter⟩ :=
      enters_of_opens hopens hopening
    · exact (life_of_enterCall henter).1
    · exact (life_of_enterCreation henter).1
  | tail _ hadvance ih => exact lively_of_advance ih hadvance

end Transaction

end ContractMachine
