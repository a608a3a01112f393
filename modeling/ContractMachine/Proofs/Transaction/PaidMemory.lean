import ContractMachine.Proofs.Transaction.Lives

/-!
# Memory never grows unpaid

The price of a size is a potential: growing costs the difference of two prices,
so whatever the steps, what has been charged for memory is the price of the size
that it has.  All operations on memory would grow it where they reach beyond
it, and none of them charges for that; but in the life of a frame none of them
ever reaches beyond what has been paid for, neither in an instruction nor when
the output of another frame comes in.
-/

namespace ContractMachine

open Actions

/-- The charges for any number of ranges come to the price of what they
cover. -/
theorem Frame.charged_of_touchAll_empty {schedule : Schedule}
    {ranges : List (Word × Word)} {frame touched : Frame}
    (hempty : frame.memory.size = 0)
    (h : touchAll schedule ranges frame = .ok () touched) :
    touched.gas + schedule.memoryCost (touched.memory.size / 32) =
      frame.gas := by
  obtain ⟨hgrows, haligned, hcharged⟩ := charged_of_touchAll h
  rw [hempty] at hgrows haligned hcharged
  have hprice := schedule.expansionCost_add_memoryCost hgrows
  rw [wordCount_of_dvd (dvd_zero 32), Nat.zero_div, Schedule.memoryCost_zero,
    Nat.add_zero, wordCount_of_dvd (haligned (dvd_zero 32))] at hprice
  rw [← hprice]
  exact hcharged

/-- The price of a size is told in words. -/
theorem Memory.price_of_dvd {schedule : Schedule} {memory : Memory}
    (h : 32 ∣ memory.size) :
    memory.price schedule = schedule.memoryCost (memory.size / 32) := by
  rw [price, wordCount_of_dvd h]

/-- What a step may do to the memory of a frame. -/
structure Frame.Grows (schedule : Schedule) (before after : Frame) : Prop where
  size_le : before.memory.size ≤ after.memory.size
  paid : after.gas + schedule.memoryCost (after.memory.size / 32) ≤
    before.gas + schedule.memoryCost (before.memory.size / 32)

theorem Frame.Pays.growsInWords {schedule : Schedule} {before after : Frame}
    (h : before.Pays schedule after) (haligned : 32 ∣ before.memory.size) :
    before.Grows schedule after where
  size_le := h.grows
  paid := by
    rw [← Memory.price_of_dvd haligned, ← Memory.price_of_dvd
      (h.aligned haligned)]
    exact h.paid

/-- What an answer does to the memory of a frame that waits. -/
structure Frame.KeepsSize (signal : Signal) (frame : Frame) : Prop where
  refuse : ∀ gas answered, frame.refuse gas = .ok answered →
    answered.memory = frame.memory
  collide : ∀ answered, frame.answer #[] 0 = .ok answered →
    answered.memory = frame.memory
  resume : ∀ role exit answered,
    signal.Suits role → frame.resume role exit = .ok answered →
    frame.memory.receive? exit.output role = some answered.memory ∧
      answered.memory.size = frame.memory.size

theorem Frame.Fit.keepsSize {signal : Signal} {frame : Frame}
    (h : frame.Fit (.waits signal)) :
    frame.KeepsSize signal where
  refuse _ _ hrefuse := (stack_of_answer hrefuse).2
  collide _ hanswer := (stack_of_answer hanswer).2
  resume role exit answered hsuits hresume := by
    have hreceived := receive?_of_resume h hsuits hresume
    exact ⟨hreceived, Memory.size_of_receive? hreceived⟩

/-- Memory never grows unpaid.  The price of memory grows with its size, growing
in steps costs what growing at once does, without overflow, and any ranges that
are paid for in empty memory are charged the price of the size they leave.

In the life of a frame, on any code and with any operands, on ledgers that may
be changed and may fail between its steps, and whatever becomes of its requests,
memory is made of whole words.  A step pays the price of what memory grows,
whether it succeeds or fails.  Nothing else makes memory grow or reaches beyond
it: steps are the steps of strict execution, in which memory does not grow but
where it is paid for and any other use of it that is not in range fails at will,
a request that is not met leaves memory alone, and the output of a frame is
written to it in place.

All live frames of a transaction lead such lives. -/
theorem memory_never_grows_unpaid {σ : Type} [Ledger σ] (config : Config) :
    (∀ schedule : Schedule,
      (∀ fewer words, fewer ≤ words →
        schedule.memoryCost fewer ≤ schedule.memoryCost words) ∧
      (∀ a b c, a ≤ b → b ≤ c →
        schedule.expansionCost a b + schedule.expansionCost b c =
          schedule.expansionCost a c ∧
          schedule.expansionCost a c ≤ Saturating.limit) ∧
      ∀ ranges frame touched, frame.memory.size = 0 →
        Frame.touchAll schedule ranges frame = .ok () touched →
        touched.gas + schedule.memoryCost (touched.memory.size / 32) =
          frame.gas) ∧
    (∀ stage frame, Life σ config stage frame → 32 ∣ frame.memory.size) ∧
    (∀ frame, Life σ config .runs frame → ∀ env (ledger : σ),
      frame.Grows config.schedule
        (left (Execution.step config env ⟨frame, ledger⟩)).frame ∧
      ∀ fault, Strict.step fault config env ⟨frame, ledger⟩ =
        Execution.step config env ⟨frame, ledger⟩) ∧
    (∀ signal frame, Life σ config (.waits signal) frame →
      frame.KeepsSize signal) ∧
    ∀ env gas opening ledger root created entered state,
      Transaction.Opens config gas opening →
      opening ledger = .ok (.entered root created) (entered : σ) →
      Transaction.Reaches config env ⟨root, [], entered⟩ state →
      Transaction.Lively config state := by
  refine ⟨fun schedule => ⟨?_, ?_, ?_⟩, ?_, ?_, ?_, ?_⟩
  · intro fewer words hle
    exact schedule.memoryCost_mono hle
  · intro a b c hab hbc
    exact ⟨schedule.expansionCost_add hab hbc,
      schedule.expansionCost_le_limit (hab.trans hbc)⟩
  · intro ranges frame touched hempty htouch
    exact Frame.charged_of_touchAll_empty hempty htouch
  · intro stage frame hlife
    exact hlife.fit.aligned
  · intro frame hlife env ledger
    have hpays := Execution.pays_step config env ⟨frame, ledger⟩
    exact ⟨hpays.growsInWords hlife.fit.aligned,
      fun fault => Strict.step_eq fault config env _⟩
  · intro signal frame hlife
    exact hlife.fit.keepsSize
  · intro env gas opening ledger root created entered state hopens hopening
      hreaches
    exact Transaction.lively_of_reaches hopens hopening hreaches

/-- A frame that stores a word in empty memory pays for it. -/
theorem stored_word_is_paid :
    let frame : Frame := { Frame.start #[0x52] {} 100 with stack := [0, 1] }
    let after :=
      (left (Execution.step {} {} ⟨frame, ({} : LayeredLedger)⟩)).frame
    frame.memory.size = 0 ∧ after.memory.size = 32 ∧
      frame.Grows ({} : Config).schedule after := by
  intro frame after
  have hlife : Life LayeredLedger {} .runs frame :=
    .begins #[0x52] {} 100 (by decide)
  obtain ⟨_, _, hsteps, _⟩ := @memory_never_grows_unpaid LayeredLedger _ {}
  exact ⟨rfl, by decide +kernel, (hsteps frame hlife {} {}).1⟩

end ContractMachine
