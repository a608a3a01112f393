import ContractMachine.Proofs.Execution.Requests

/-!
# What a successful step comes to

An instruction that succeeds was authorized: its operands and the room for its
results were there, its price has been paid, and it was permitted.  It leaves
all of its frame alone but gas, memory and effects, and the effects too unless
it changes the state.  Then its results are put on the stack and the position
moves on, or it is a jump.

Everything that a later argument needs to know of a successful step is told by
`step_eq_ok`.  Conversely, a frame that is `Poised` to run an instruction runs
it.
-/

namespace ContractMachine

namespace Execution

open Exec Actions

variable {σ α : Type} [Ledger σ] {config : Config} {env : Environment}
  {live after : Live σ}
variable {opcode : Opcode}

/-- What an instruction does to its frame before it goes on. -/
def Works (opcode : Opcode) (before after : Frame) : Prop :=
  ∃ gas ≤ before.gas, ∃ memory effects,
    (opcode.changesState = false → effects = before.effects) ∧
      after = { before with gas, memory, effects }

theorem Works.refl (frame : Frame) : Works opcode frame frame :=
  ⟨frame.gas, le_rfl, frame.memory, frame.effects, fun _ => rfl, rfl⟩

theorem Works.trans {first second third : Frame}
    (hfirst : Works opcode first second) (hsecond : Works opcode second third) :
    Works opcode first third := by
  obtain ⟨gas, hgas, memory, effects, heffects, rfl⟩ := hfirst
  obtain ⟨less, hless, grown, gathered, hgathered, rfl⟩ := hsecond
  exact ⟨less, hless.trans hgas, grown, gathered,
    fun hkept => (hgathered hkept).trans (heffects hkept), rfl⟩

theorem Part.works {address : Address} {post : α → Prop} {action : Exec σ α}
    (h : Part opcode address post action) (live : Live σ)
    (haddress : live.frame.context.address = address) :
    Works opcode live.frame (left (action live)).frame := by
  induction h generalizing live with
  | pure | halt | getFrame => exact .refl _
  | @bind _ _ _ _ x f hx _ ihx ihf =>
    obtain ⟨hmoves, hmid⟩ := hx.moves haddress
    have hfirst := ihx live haddress
    cases hresult : x live with
    | error cause reached =>
      rw [hresult] at hfirst
      rw [bind_of_error hresult]
      exact hfirst
    | ok a reached =>
      rw [hresult] at hfirst hmoves
      rw [bind_of_ok hresult]
      have hkept : reached.frame.context.address = address := by
        rw [← haddress]
        exact congrArg Context.address hmoves.context_eq
      exact hfirst.trans (ihf a (hmid a reached hresult) reached hkept)
  | ask =>
    rw [left_ask]
    exact .refl _
  | charge amount =>
    obtain ⟨gas, hgas, hleft⟩ := left_charge amount live.frame
    rw [Exec.charge, left_frame, hleft]
    exact ⟨gas, hgas, live.frame.memory, live.frame.effects, fun _ => rfl, rfl⟩
  | touch schedule offset length =>
    obtain ⟨gas, hgas, memory, hleft⟩ :=
      left_touch schedule offset length live.frame
    rw [Exec.touch, left_frame, hleft]
    exact ⟨gas, hgas, memory, live.frame.effects, fun _ => rfl, rfl⟩
  | load range =>
    exact ⟨live.frame.gas, le_rfl, _, live.frame.effects, fun _ => rfl, rfl⟩
  | remember f =>
    exact ⟨live.frame.gas, le_rfl, _, live.frame.effects, fun _ => rfl, rfl⟩
  | gather f hchanges =>
    exact ⟨live.frame.gas, le_rfl, live.frame.memory, _,
      fun hkept => by simp [hchanges] at hkept, rfl⟩
  | store | send =>
    rw [left_tell]
    exact .refl _

/-! ## Steps -/

/-- What is checked and paid before an instruction runs. -/
structure Authorizes (schedule : Schedule) (opcode : Opcode) (frame : Frame) :
    Prop where
  inputs_le : opcode.inputs ≤ frame.stack.length
  room : frame.stack.length - opcode.inputs + opcode.outputs ≤ Stack.limit
  cost_le : schedule.staticCost opcode ≤ frame.gas
  permitted : opcode.changesState = true → frame.context.isStatic = false

omit [Ledger σ] in
theorem authorize_eq_ok {schedule : Schedule}
    (h : authorize schedule opcode live = .ok () after) :
    Authorizes schedule opcode live.frame ∧ after = { live with
      frame := { live.frame with
        gas := live.frame.gas - schedule.staticCost opcode } } := by
  have hpermitted := isStatic_of_authorize h
  obtain ⟨frame, _, hframe, hchecked⟩ := bind_eq_ok_iff.1 h
  cases hframe
  obtain ⟨hinputs, hchecked⟩ := ok_of_guarded hchecked
  obtain ⟨hroom, hpaid⟩ := ok_of_guarded hchecked
  obtain ⟨_, paid, hcharge, hlast⟩ := bind_eq_ok_iff.1 hpaid
  obtain ⟨rfl, hcost⟩ := charge_eq_ok hcharge
  refine ⟨⟨Nat.not_lt.1 hinputs, Nat.not_lt.1 hroom, hcost, hpermitted⟩, ?_⟩
  split at hlast <;> cases hlast
  rfl

/-- The frame as an instruction finds it: its price is paid and its operands are
taken. -/
def begun (schedule : Schedule) (opcode : Opcode) (frame : Frame) : Frame :=
  { frame with
    gas := frame.gas - schedule.staticCost opcode
    stack := frame.stack.drop opcode.inputs }

/-- How an instruction comes to succeed. -/
structure Succeeds (config : Config) (env : Environment) (opcode : Opcode)
    (live : Live σ) (flow : Flow) (last : Live σ) : Prop where
  authorized : Authorizes config.schedule opcode live.frame
  performed : perform config env opcode (live.frame.stack.take opcode.inputs)
    { live with frame := begun config.schedule opcode live.frame } =
      .ok flow last

theorem Succeeds.works {flow : Flow} {last : Live σ}
    (h : Succeeds config env opcode live flow last) :
    Works opcode (begun config.schedule opcode live.frame) last.frame := by
  have hworks :=
    (part_perform config env opcode (live.frame.stack.take opcode.inputs)).works
    { live with frame := begun config.schedule opcode live.frame } rfl
  rw [h.performed] at hworks
  exact hworks

theorem Succeeds.ledger_eq {flow : Flow} {last : Live σ}
    (h : Succeeds config env opcode live flow last)
    (hopcode : ¬ (opcode = .sstore ∨ opcode = .selfDestruct)) :
    last.ledger = live.ledger := by
  have hmoves :=
    travels_perform config env opcode (live.frame.stack.take opcode.inputs)
    { live with frame := begun config.schedule opcode live.frame } rfl
  rw [h.performed] at hmoves
  have hledger := hmoves.ledger_eq hopcode
  exact hledger

theorem Succeeds.suits {flow : Flow} {last : Live σ}
    (h : Succeeds config env opcode live flow last) : flow.Suits opcode :=
  ((part_perform config env opcode (live.frame.stack.take opcode.inputs)).moves
    rfl).2 _ _
    h.performed

/-- A step that succeeds at an instruction has run it. -/
theorem succeeds_of_step {byte : UInt8} {signal : Option Signal}
    (hbyte : live.frame.code[live.frame.position]? = some byte)
    (h : step config env live = .ok signal after) :
    ∃ flow last, Succeeds config env (Opcode.decode byte) live flow last ∧
      proceed (Opcode.decode byte) flow last = .ok signal after := by
  rw [step_of_some hbyte] at h
  obtain ⟨_, paid, hauthorize, hconduct⟩ := bind_eq_ok_iff.1 h
  obtain ⟨hauthorizes, rfl⟩ := authorize_eq_ok hauthorize
  obtain ⟨_, taken, htaken, hrest⟩ := bind_eq_ok_iff.1 hconduct
  cases htaken
  obtain ⟨flow, last, hperform, hproceed⟩ := bind_eq_ok_iff.1 hrest
  exact ⟨flow, last, ⟨hauthorizes, hperform⟩, hproceed⟩

/-- A step that succeeds has run off the end of the code or run an
instruction. -/
theorem step_eq_ok {signal : Option Signal}
    (h : step config env live = .ok signal after) :
    (signal = some (.return #[]) ∧ after = live) ∨
    ∃ byte flow last, live.frame.code[live.frame.position]? = some byte ∧
      Succeeds config env (Opcode.decode byte) live flow last ∧
      proceed (Opcode.decode byte) flow last = .ok signal after := by
  cases hbyte : live.frame.code[live.frame.position]? with
  | none =>
    rw [step_of_none hbyte] at h
    cases h
    exact .inl ⟨rfl, rfl⟩
  | some byte =>
    obtain ⟨flow, last, hsucceeds, hproceed⟩ := succeeds_of_step hbyte h
    exact .inr ⟨byte, flow, last, rfl, hsucceeds, hproceed⟩

omit [Ledger σ] in
theorem proceed_eq_none {flow : Flow} {last : Live σ}
    (h : proceed opcode flow last = .ok none after) :
    (∃ results, flow = .next results ∧ after = { last with
      frame := { last.frame.advance (1 + opcode.immediateLength) with
        stack := results ++ last.frame.stack } }) ∨
    ∃ destination position, flow = .jump destination ∧
      after = { last with frame := { last.frame with position } } := by
  cases flow with
  | next results =>
    cases h
    exact .inl ⟨results, rfl, rfl⟩
  | jump destination =>
    obtain ⟨_, jumped, hjump, hpure⟩ := bind_eq_ok_iff.1 h
    obtain ⟨_, rfl⟩ := pure_eq_ok_iff.1 hpure
    refine .inr ⟨destination, destination.toCount, rfl, ?_⟩
    rw [Exec.frame, Frame.jump] at hjump
    by_cases hvalid : last.frame.jumps.isValid destination.toCount
    · simp only [hvalid, if_true] at hjump
      cases hjump
      rfl
    · simp only [hvalid] at hjump
      cases hjump
  | stop signal => cases h

omit [Ledger σ] in
theorem proceed_eq_some {flow : Flow} {last : Live σ} {signal : Signal}
    (h : proceed opcode flow last = .ok (some signal) after) :
    flow = .stop signal ∧
      after = { last with
        frame := last.frame.advance (1 + opcode.immediateLength) } := by
  cases flow with
  | next results => cases h
  | jump destination =>
    obtain ⟨_, _, _, hpure⟩ := bind_eq_ok_iff.1 h
    cases hpure
  | stop other =>
    cases h
    exact ⟨rfl, rfl⟩

/-- An instruction after which the frame goes on pays its price, and then moves
on in the code unless it is a jump. -/
theorem progress_of_step (h : step config env live = .ok none after) :
    ∃ byte, live.frame.code[live.frame.position]? = some byte ∧
      after.frame.code = live.frame.code ∧
      after.frame.gas + config.schedule.staticCost (Opcode.decode byte) ≤
        live.frame.gas ∧
      (live.frame.position < after.frame.position ∨
        Opcode.decode byte = .jump ∨ Opcode.decode byte = .jumpIf) := by
  obtain ⟨hreturn, _⟩ | ⟨byte, flow, last, hbyte, hsucceeds, hproceed⟩ :=
    step_eq_ok h
  · cases hreturn
  have hcost := hsucceeds.authorized.cost_le
  have hsuits := hsucceeds.suits
  obtain ⟨gas, hgas, memory, effects, _, hlast⟩ := hsucceeds.works
  have hpaid : gas + config.schedule.staticCost (Opcode.decode byte) ≤
      live.frame.gas := calc
    _ ≤ live.frame.gas - config.schedule.staticCost (Opcode.decode byte) +
        config.schedule.staticCost (Opcode.decode byte) :=
          Nat.add_le_add_right hgas _
    _ = live.frame.gas := Nat.sub_add_cancel hcost
  obtain ⟨results, rfl, rfl⟩ | ⟨destination, position, rfl, rfl⟩ :=
    proceed_eq_none hproceed
  · refine ⟨byte, hbyte, ?_⟩
    dsimp only [Frame.advance]
    rw [hlast]
    exact ⟨rfl, hpaid,
      .inl (Nat.lt_add_of_pos_right (Nat.add_pos_left Nat.one_pos _))⟩
  · refine ⟨byte, hbyte, ?_⟩
    dsimp only
    rw [hlast]
    exact ⟨rfl, hpaid, .inr hsuits⟩

/-! ## Frames that are about to run an instruction -/

/-- A frame that is about to run an instruction, which nothing keeps from
running.  The stack holds the operands, the first on top, and the rest beneath
them. -/
structure Poised (schedule : Schedule) (opcode : Opcode) (operands rest : Stack)
    (frame : Frame) : Prop where
  next : frame.code[frame.position]?.map Opcode.decode = some opcode
  stack_eq : frame.stack = operands ++ rest
  inputs : operands.length = opcode.inputs
  authorized : Authorizes schedule opcode frame

omit [Ledger σ] in
theorem authorize_of_authorizes {schedule : Schedule}
    (h : Authorizes schedule opcode live.frame) :
    authorize schedule opcode live = .ok () { live with
      frame := { live.frame with
        gas := live.frame.gas - schedule.staticCost opcode } } := by
  have hframe : getFrame live = .ok live.frame live := rfl
  have hpermitted : ¬ (live.frame.context.isStatic = true ∧
      opcode.changesState = true) := by
    rintro ⟨hstatic, hchanges⟩
    exact absurd hstatic (by simp [h.permitted hchanges])
  rw [authorize, bind_of_ok hframe, if_neg (Nat.not_lt.2 h.inputs_le),
    if_neg (Nat.not_lt.2 h.room)]
  dsimp only
  rw [bind_of_ok (charge_of_le h.cost_le), if_neg hpermitted]
  rfl

/-- A poised frame runs the instruction on its operands. -/
theorem step_of_poised {operands rest : Stack}
    (h : Poised config.schedule opcode operands rest live.frame) :
    step config env live =
      (do proceed opcode (← perform config env opcode operands)) { live with
        frame := begun config.schedule opcode live.frame } := by
  obtain ⟨byte, hbyte, rfl⟩ := Option.map_eq_some_iff.1 h.next
  have htake : live.frame.stack.take (Opcode.decode byte).inputs =
      operands := by
    rw [h.stack_eq, ← h.inputs, List.take_left]
  rw [step_of_some hbyte, bind_of_ok (authorize_of_authorizes h.authorized),
    htake]
  rfl

theorem Poised.stack_begun {schedule : Schedule} {operands rest : Stack}
    {frame : Frame} (h : Poised schedule opcode operands rest frame) :
    (begun schedule opcode frame).stack = rest := by
  rw [begun, h.stack_eq, ← h.inputs, List.drop_left]

/-! ## Requests -/

/-- A request that an instruction makes, and what it leaves to go on with. -/
inductive Asks (config : Config) (live : Live σ) :
    Opcode → Signal → Live σ → Prop where
  | call {kind : CallKind} {request : CallRequest} {operand : Nat → Word}
      {last : Live σ}
      (h : prepareCall config.schedule kind operand
        { live with frame := begun config.schedule (.call kind) live.frame } =
          .ok request last) : Asks config live (.call kind) (.call request) last
  | create {salted : Bool} {request : CreateRequest} {operand : Nat → Word}
      {last : Live σ}
      (h : prepareCreate config salted operand
        { live with
          frame := begun config.schedule (.create salted) live.frame } =
          .ok request last) :
      Asks config live (.create salted) (.create request) last

theorem Asks.not_writes {signal : Signal} {last : Live σ}
    (h : Asks config live opcode signal last) :
    ¬ (opcode = .sstore ∨ opcode = .selfDestruct) := by
  cases h <;> simp

/-- How a frame comes to make a request. -/
theorem asks_of_step {signal : Signal}
    (h : step config env live = .ok (some signal) after)
    (hrequest : signal.IsRequest) :
    ∃ opcode last, Asks config live opcode signal last ∧
      Authorizes config.schedule opcode live.frame ∧
      Works opcode (begun config.schedule opcode live.frame) last.frame ∧
      last.ledger = live.ledger ∧
      after = { last with
        frame := last.frame.advance (1 + opcode.immediateLength) } := by
  obtain ⟨hreturn, _⟩ | ⟨byte, flow, last, _, hsucceeds, hproceed⟩ :=
    step_eq_ok h
  · cases hreturn
    exact hrequest.elim
  obtain ⟨rfl, rfl⟩ := proceed_eq_some hproceed
  have hasks : Asks config live (Opcode.decode byte) signal last := by
    obtain ⟨kind, request, hopcode, rfl, hprepare⟩ | ⟨salted, request, hopcode,
        rfl, hprepare⟩ |
      ⟨output, rfl | rfl⟩ := perform_eq_stop hsucceeds.performed
    · rw [hopcode] at hprepare ⊢
      exact .call hprepare
    · rw [hopcode] at hprepare ⊢
      exact .create hprepare
    · exact hrequest.elim
    · exact hrequest.elim
  exact ⟨Opcode.decode byte, last, hasks, hsucceeds.authorized, hsucceeds.works,
    hsucceeds.ledger_eq hasks.not_writes, rfl⟩

/-- No request is made after a write. -/
theorem ledger_of_request {signal : Signal}
    (h : step config env live = .ok (some signal) after)
    (hrequest : signal.IsRequest) : after.ledger = live.ledger := by
  obtain ⟨_, last, _, _, _, hledger, rfl⟩ := asks_of_step h hrequest
  exact hledger

/-- A frame that waits has room for the answer on its stack. -/
theorem room_of_step {signal : Signal}
    (h : step config env live = .ok (some signal) after)
    (hrequest : signal.IsRequest) : after.frame.stack.length < Stack.limit := by
  obtain ⟨opcode, last, hasks, hauthorized, hworks, _, rfl⟩ :=
    asks_of_step h hrequest
  obtain ⟨gas, _, memory, effects, _, hlast⟩ := hworks
  have houtputs : opcode.outputs = 1 := by
    cases hasks <;> rfl
  have hroom := hauthorized.room
  dsimp only [Frame.advance]
  rw [hlast]
  simp only [begun, List.length_drop]
  omega

/-- A frame that makes a request has paid for memory on top of what it hands
over. -/
theorem pays_of_request {signal : Signal}
    (hstipend : config.schedule.callStipend ≤ config.schedule.callValue)
    (h : step config env live = .ok (some signal) after)
    (hrequest : signal.IsRequest) :
    live.frame.Pays config.schedule { after.frame with
      gas := after.frame.gas + signal.gas } := by
  obtain ⟨opcode, last, hasks, _, _, _, rfl⟩ := asks_of_step h hrequest
  have hbegun : live.frame.Pays config.schedule
      (begun config.schedule opcode live.frame) :=
    .of_size_eq rfl (Nat.sub_le ..)
  cases hasks with
  | call hprepare =>
    exact (hbegun.trans (pays_of_prepareCall hstipend hprepare)).trans
      (.of_size_eq rfl le_rfl)
  | create hprepare =>
    exact (hbegun.trans (pays_of_prepareCreate hprepare)).trans
      (.of_size_eq rfl le_rfl)

/-- A frame that makes a request has paid its price on top of what it hands
over. -/
theorem gas_add_cost_le_of_step {signal : Signal}
    (hstipend : config.schedule.callStipend ≤ config.schedule.callValue)
    (h : step config env live = .ok (some signal) after)
    (hrequest : signal.IsRequest) :
    after.frame.gas + signal.gas +
      min config.schedule.call config.schedule.create ≤
      live.frame.gas := by
  obtain ⟨opcode, last, hasks, hauthorized, _, _, rfl⟩ :=
    asks_of_step h hrequest
  have hcost := hauthorized.cost_le
  dsimp only [Frame.advance]
  cases hasks with
  | call hprepare =>
    obtain ⟨available, hpays⟩ := prepareCall_eq_ok hprepare
    have hgas := hpays.gas_le hstipend
    simp only [begun, Schedule.staticCost] at hgas hcost
    simp only [Signal.gas]
    omega
  | create hprepare =>
    have hgas := prepareCreate_eq_ok hprepare
    simp only [begun, Schedule.staticCost] at hgas hcost
    simp only [Signal.gas]
    omega

end Execution

end ContractMachine
