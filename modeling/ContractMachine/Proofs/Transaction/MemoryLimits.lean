import ContractMachine.Proofs.Transaction.Lives

/-!
# How much memory gas can buy

A frame is solvent if what it has left and what it has paid for memory are
together within its gas limit.  It begins so, and paying for memory turns the
one into the other.  A frame that waits has put aside the limit of the frame
above it on top of both, so that what comes back to it does not make it
insolvent, provided that the price of moving value covers the stipend of a call.

Hence no frame has more memory than its gas limit pays for.  But the price is
the quadratic one up to `2 ^ 32` words only; beyond, the square is cut off
before it is divided, and huge memories are cheap.
-/

namespace ContractMachine

open Actions

namespace Frame

variable {schedule : Schedule} {before after frame touched : Frame}

/-- What is left and what has been paid for memory are within the gas limit. -/
def Solvent (schedule : Schedule) (frame : Frame) : Prop :=
  frame.gas + frame.memory.price schedule ≤ frame.gasLimit

theorem solvent_start (code : Bytes) (context : Context) (gas : Nat) :
    (start code context gas).Solvent schedule := by
  have hprice : (start code context gas).memory.price schedule = 0 := calc
    _ = schedule.memoryCost (wordCount 0) := rfl
    _ = 0 := by rw [wordCount_of_dvd (dvd_zero 32), Nat.zero_div,
      Schedule.memoryCost_zero]
  rw [Solvent, hprice]
  exact le_rfl

theorem Solvent.of_pays (h : before.Solvent schedule)
    (hpays : before.Pays schedule after)
    (hlimit : after.gasLimit = before.gasLimit) : after.Solvent schedule := by
  rw [Solvent, hlimit]
  exact hpays.paid.trans h

theorem Solvent.touch {offset length : Word} {range : Range}
    (h : frame.Solvent schedule)
    (htouch : Frame.touch schedule offset length frame = .ok range touched) :
    touched.Solvent schedule ∧ touched.gasLimit = frame.gasLimit := by
  have htouches := touches_of_touch htouch
  have hlimit : touched.gasLimit = frame.gasLimit := by rw [htouches.frame_eq]
  exact ⟨h.of_pays htouches.pays hlimit, hlimit⟩

/-- The gas limit pays for the memory of a frame, at the quadratic price if the
size of that memory is one whose square is a count. -/
structure AffordsMemory (schedule : Schedule) (frame : Frame) : Prop where
  memoryCost_le : schedule.memoryCost (wordCount frame.memory.size) ≤
    frame.gasLimit
  quadraticPrice_le : wordCount frame.memory.size < 2 ^ 32 →
    schedule.quadraticPrice (wordCount frame.memory.size) ≤ frame.gasLimit

theorem Solvent.affordsMemory (h : frame.Solvent schedule)
    (hdivisor : 1 ≤ schedule.quadraticDivisor) :
    frame.AffordsMemory schedule where
  memoryCost_le := Nat.le_of_add_left_le h
  quadraticPrice_le hwords := by
    rw [← Schedule.memoryCost_eq_quadraticPrice hdivisor hwords]
    exact Nat.le_of_add_left_le h

end Frame

namespace Transaction

variable {σ : Type} [Ledger σ] {config : Config} {env : Environment}
  {ledger after : σ} {top child parent : Activation} {frame : Frame}

/-- Waiting frames stay solvent when the limit of the frame above them comes
back. -/
def Secures (schedule : Schedule) : Nat → List Activation → Prop
  | _, [] => True
  | limit, parent :: below =>
    parent.frame.gas + limit + parent.frame.memory.price schedule ≤
      parent.frame.gasLimit ∧
      Secures schedule parent.frame.gasLimit below

/-- The topmost frame is solvent, and the others are whatever it leaves. -/
structure AllSolvent (schedule : Schedule) (state : Running σ) : Prop where
  top : state.top.frame.Solvent schedule
  waiting : Secures schedule state.top.frame.gasLimit state.waiting

theorem Secures.solvent {schedule : Schedule} {limit : Nat}
    {waiting : List Activation} (h : Secures schedule limit waiting) :
    ∀ activation ∈ waiting, activation.frame.Solvent schedule := by
  induction waiting generalizing limit with
  | nil => simp
  | cons parent below ih =>
    refine List.forall_mem_cons.2 ⟨?_, ih h.2⟩
    have hparent := h.1
    rw [Frame.Solvent]
    omega

omit [Ledger σ] in
theorem AllSolvent.solvent {schedule : Schedule} {state : Running σ}
    (h : AllSolvent schedule state) :
    ∀ activation ∈ state.top :: state.waiting,
      activation.frame.Solvent schedule :=
  List.forall_mem_cons.2 ⟨h.top, h.waiting.solvent⟩

/-! ## One turn -/

theorem solvent_step (h : frame.Solvent config.schedule) (ledger : σ) :
    (left (Execution.step config env ⟨frame, ledger⟩)).frame.Solvent
      config.schedule :=
  h.of_pays (Execution.pays_step config env ⟨frame, ledger⟩)
    (Execution.moves_step config env ⟨frame, ledger⟩).gasLimit_eq

theorem solvent_of_continues
    (hstipend : config.schedule.callStipend ≤ config.schedule.callValue)
    (h : top.frame.Solvent config.schedule)
    (hturn : turn config env top ledger = .continues frame after) :
    frame.Solvent config.schedule := by
  have hlimit := (gas_of_continues hstipend hturn).2
  obtain hstep | ⟨signal, live, response, hstep, hmeets, hanswer⟩ :=
    turn_eq_continues hturn
  · exact h.of_pays (Execution.pays_of_ok hstep) hlimit
  obtain ⟨_, hrefuse⟩ | ⟨_, hcollide⟩ := hanswer
  · have hrequest :=
      Execution.pays_of_request hstipend hstep (isRequest_of_meets hmeets)
    refine h.of_pays (hrequest.trans (.of_size_eq ?_ ?_)) hlimit
    · rw [(Frame.stack_of_answer hrefuse).2]
      rfl
    · rw [(refuse_eq_ok hrefuse).1]
      exact returnGas_gas_le ..
  · refine h.of_pays ((Execution.pays_of_ok hstep).trans (.of_size_eq ?_ ?_))
      hlimit
    · rw [(Frame.stack_of_answer hcollide).2]
    · exact (answer_eq_ok hcollide).1.le

/-- A frame that is entered has just begun. -/
theorem exists_start_of_meets {live : Live σ} {signal : Signal}
    (h : Meets config live signal (.entered child) after) :
    ∃ code context, child.frame = Frame.start code context signal.gas := by
  obtain ⟨_, rfl, henter⟩ | ⟨_, _, _, _, rfl, _, henter⟩ := enters_of_meets h
  · obtain ⟨code, hframe, _⟩ := enterCall_eq_ok henter
    exact ⟨code, _, hframe⟩
  · exact ⟨_, _, (enterCreation_eq_ok henter).1⟩

theorem solvent_of_enters
    (hstipend : config.schedule.callStipend ≤ config.schedule.callValue)
    (h : top.frame.Solvent config.schedule)
    (hturn : turn config env top ledger = .enters frame child after) :
    child.frame.Solvent config.schedule ∧
      frame.gas + child.frame.gasLimit + frame.memory.price config.schedule ≤
        frame.gasLimit := by
  have hlimit := (gas_of_enters hstipend hturn).2.1
  obtain ⟨signal, live, hstep, rfl, hmeets⟩ := turn_eq_enters hturn
  obtain ⟨code, context, hchild⟩ := exists_start_of_meets hmeets
  have hrequest :=
    Execution.pays_of_request hstipend hstep (isRequest_of_meets hmeets)
  rw [hchild, hlimit]
  exact ⟨Frame.solvent_start code context signal.gas, hrequest.paid.trans h⟩

theorem solvent_of_resumes {exit : Exit} {signal : Signal}
    (hparent : Life σ config (.waits signal) parent.frame)
    (hsuits : signal.Suits top.role) (htop : top.frame.Solvent config.schedule)
    (hsecured : parent.frame.gas + top.frame.gasLimit +
      parent.frame.memory.price config.schedule ≤
      parent.frame.gasLimit)
    (hturn : turn config env top ledger = .concludes (.finished exit after))
    (hresume : parent.frame.resume top.role exit = .ok frame) :
    frame.Solvent config.schedule ∧ frame.gasLimit = parent.frame.gasLimit := by
  obtain ⟨hgas, hlimit⟩ := resume_eq_ok hresume
  have hsize :=
    Memory.size_of_receive? (Frame.receive?_of_resume hparent.fit hsuits
      hresume)
  have hprice : frame.memory.price config.schedule =
      parent.frame.memory.price config.schedule := by
    rw [Memory.price, Memory.price, hsize]
  -- What comes back is no more than the limit that the frame has put aside.
  have hleft : exit.gasLeft ≤ top.frame.gasLimit :=
    (gas_of_finished hturn).1.trans (Nat.le_of_add_right_le htop)
  have hback : frame.gas ≤ parent.frame.gas + exit.gasLeft :=
    hgas.le.trans (returnGas_gas_le ..)
  refine ⟨?_, hlimit⟩
  rw [Frame.Solvent, hprice, hlimit]
  omega

/-! ## Runs -/

theorem allSolvent_of_advance {state next : Running σ}
    (hstipend : config.schedule.callStipend ≤ config.schedule.callValue)
    (hlively : Lively config state) (h : AllSolvent config.schedule state)
    (hadvance : advance config env state = .running next) :
    AllSolvent config.schedule next := by
  obtain ⟨htop, hwaiting⟩ := h
  cases advances_of_advance hadvance with
  | continues hturn =>
    refine ⟨solvent_of_continues hstipend htop hturn, ?_⟩
    rw [(gas_of_continues hstipend hturn).2]
    exact hwaiting
  | enters hturn =>
    obtain ⟨hchild, hsecured⟩ := solvent_of_enters hstipend htop hturn
    refine ⟨hchild, hsecured, ?_⟩
    rw [(gas_of_enters hstipend hturn).2.1]
    exact hwaiting
  | resumes hturn hresume =>
    cases hlively.waiting with
    | cons hparent hsuits hbelow =>
      obtain ⟨hsolvent, hlimit⟩ :=
        solvent_of_resumes hparent hsuits htop hwaiting.1 hturn hresume
      refine ⟨hsolvent, ?_⟩
      rw [hlimit]
      exact hwaiting.2

theorem allSolvent_of_reaches {gas : Nat}
    {opening : EStateM LedgerError σ Opening} {root : Activation}
    {created : Option Address} {state : Running σ}
    (hstipend : config.schedule.callStipend ≤ config.schedule.callValue)
    (hopens : Opens config gas opening)
    (hopening : opening ledger = .ok (.entered root created) after)
    (hreaches : Reaches config env ⟨root, [], after⟩ state) :
    AllSolvent config.schedule state := by
  induction hreaches with
  | refl =>
    refine ⟨?_, trivial⟩
    obtain ⟨_, _, _, henter⟩ | ⟨_, _, _, _, _, _, _, henter⟩ :=
      enters_of_opens hopens hopening
    · obtain ⟨code, hframe, _⟩ := enterCall_eq_ok henter
      rw [hframe]
      exact Frame.solvent_start code _ gas
    · rw [(enterCreation_eq_ok henter).1]
      exact Frame.solvent_start _ _ gas
  | tail hmid hadvance ih =>
    exact allSolvent_of_advance hstipend
      (lively_of_reaches hopens hopening hmid) ih hadvance

/-! ## The price and the limit -/

/-- What memory costs.  With a divisor that is not zero, the price of some words
is the linear and quadratic one with the square cut off at the largest count
before it is divided.  It is never more than the price that is meant, which cuts
off nothing but the sum, and is that price as long as there are fewer than `2 ^
32` words; `quadraticPrice` is missed just if the divided square is more than
the divided largest count and there is room for the difference.  Growing costs
the difference of two prices.

Ranges that are paid for in a fresh frame leave a memory whose price is within
its gas limit, and so does whatever is paid for in a frame that is solvent.  If
the price of moving value covers the stipend of a call, all frames of a
transaction are, and a step leaves no memory whose price is beyond the gas limit
of its frame. -/
theorem memory_price_is_quadratic_up_to_cutoff {σ : Type} [Ledger σ]
    {config : Config} (hdivisor : 1 ≤ config.schedule.quadraticDivisor) :
    (∀ words, config.schedule.memoryCost words =
      min (config.schedule.memory * words +
      min (words * words) Saturating.limit / config.schedule.quadraticDivisor)
        Saturating.limit) ∧
    (∀ words, config.schedule.memoryCost words ≤
      config.schedule.quadraticPrice words) ∧
    (∀ words < 2 ^ 32,
      config.schedule.memoryCost words = config.schedule.quadraticPrice words) ∧
    (∀ words, config.schedule.memoryCost words <
      config.schedule.quadraticPrice words ↔
      Saturating.limit / config.schedule.quadraticDivisor <
          words * words / config.schedule.quadraticDivisor ∧
        config.schedule.memory * words +
          Saturating.limit / config.schedule.quadraticDivisor <
          Saturating.limit) ∧
    (∀ current new, current ≤ new →
      config.schedule.expansionCost current new =
        config.schedule.memoryCost (wordCount new) -
        config.schedule.memoryCost (wordCount current) ∧
      (wordCount new < 2 ^ 32 → config.schedule.expansionCost current new =
        config.schedule.quadraticPrice (wordCount new) -
          config.schedule.quadraticPrice (wordCount current))) ∧
    (∀ code context gas,
      (Frame.start code context gas).Solvent config.schedule) ∧
    (∀ frame offset length range touched, frame.Solvent config.schedule →
      Frame.touch config.schedule offset length frame = .ok range touched →
      touched.Solvent config.schedule ∧ touched.gasLimit = frame.gasLimit ∧
        touched.AffordsMemory config.schedule) ∧
    (config.schedule.callStipend ≤ config.schedule.callValue →
      ∀ env gas opening ledger root created entered state,
        Opens config gas opening →
        opening ledger = .ok (.entered root created) (entered : σ) →
        Reaches config env ⟨root, [], entered⟩ state →
        (∀ activation ∈ state.top :: state.waiting,
          activation.frame.Solvent config.schedule) ∧
        (left (Execution.step config env
          ⟨state.top.frame, state.ledger⟩)).frame.AffordsMemory
          config.schedule) := by
  refine ⟨Schedule.memoryCost_eq_of_pos hdivisor,
    Schedule.memoryCost_le_quadraticPrice hdivisor,
    fun words => Schedule.memoryCost_eq_quadraticPrice hdivisor,
    fun words => Schedule.memoryCost_lt_quadraticPrice_iff hdivisor, ?_,
    Frame.solvent_start, ?_, ?_⟩
  · intro current new hle
    refine ⟨config.schedule.expansionCost_eq hle, fun hwords => ?_⟩
    have hfewer : wordCount current < 2 ^ 32 :=
      (wordCount_mono hle).trans_lt hwords
    rw [config.schedule.expansionCost_eq hle,
      Schedule.memoryCost_eq_quadraticPrice hdivisor hwords,
      Schedule.memoryCost_eq_quadraticPrice hdivisor hfewer]
  · intro frame offset length range touched hsolvent htouch
    obtain ⟨htouched, hlimit⟩ := hsolvent.touch htouch
    exact ⟨htouched, hlimit, htouched.affordsMemory hdivisor⟩
  · intro hstipend env gas opening ledger root created entered state hopens
      hopening hreaches
    have hall := allSolvent_of_reaches hstipend hopens hopening hreaches
    exact ⟨hall.solvent,
      (solvent_step hall.top state.ledger).affordsMemory hdivisor⟩

/-- A fresh frame pays for a word of memory out of its gas limit. -/
theorem fresh_frame_affords_word :
    1 ≤ ({} : Config).schedule.quadraticDivisor ∧ ∃ range touched,
      Frame.touch ({} : Config).schedule 0 32 (Frame.start #[] {} 10) =
        .ok range touched ∧
      touched.AffordsMemory ({} : Config).schedule := by
  obtain ⟨_, _, _, _, _, hfresh, htouch, _⟩ :=
    @memory_price_is_quadratic_up_to_cutoff LayeredLedger _ {} (by decide)
  exact ⟨by decide, _, _, rfl,
    (htouch (Frame.start #[] {} 10) 0 32 _ _ (hfresh #[] {} 10) rfl).2.2⟩

/-- At the default prices, `2 ^ 33` words cost a fourth of what they are meant
to. -/
theorem huge_memory_is_cheap :
    ({} : Schedule).memoryCost (2 ^ 33) = 36028822788767743 ∧
    ({} : Schedule).quadraticPrice (2 ^ 33) = 144115213845659648 ∧
    ¬ ∀ words < 2 ^ 64,
      ({} : Schedule).memoryCost words =
        ({} : Schedule).quadraticPrice words := by
  have hcost : ({} : Schedule).memoryCost (2 ^ 33) = 36028822788767743 := by
    decide
  have hprice : ({} : Schedule).quadraticPrice (2 ^ 33) =
      144115213845659648 := by decide
  refine ⟨hcost, hprice, fun hequal => ?_⟩
  have hsame := hequal (2 ^ 33) (by decide)
  rw [hcost, hprice] at hsame
  cases hsame

end Transaction

end ContractMachine
