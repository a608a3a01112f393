import ContractMachine.Proofs.Execution.Deeds
import ContractMachine.Proofs.Transaction.GasConservation

/-!
# The chronicle of a transaction

While a transaction is driven, frames do things, enter other frames and end.
Its chronicle tells all this in order of time.  A deed survives if the frame
that did it ends with success, and with it all frames that wait for it at that
moment: this is read off the part of the chronicle that follows the deed.

A transaction does not look ahead like this.  Each frame gathers its own deeds
and takes up those of the frames it has had entered when they end.  Told as a
machine on a stack of tallies, this gathers just the deeds that survive, and in
the order in which they were done.
-/

namespace ContractMachine

/-- Something that happens in a transaction. -/
inductive Event where
  /-- The frame that runs has done something. -/
  | did (deed : Deed)
  /-- A frame is entered, and runs from now on. -/
  | entered
  /-- The frame that runs has ended. -/
  | ended (succeeded : Bool)

namespace Event

/-- How the frames that are open end in the course of what follows, the
innermost first. -/
def endings : List Event → List Bool
  | [] => []
  | .did _ :: later => endings later
  | .entered :: later => (endings later).tail
  | .ended succeeded :: later => succeeded :: endings later

/-- The deeds of frames that end with success, as all frames around them do, in
order of time. -/
def surviving : List Event → List Deed
  | [] => []
  | .did deed :: later =>
    if (endings later).all id then deed :: surviving later else surviving later
  | .entered :: later | .ended _ :: later => surviving later

example (first second third : Deed) :
    surviving [.entered, .did first, .entered, .did second, .ended false,
      .did third, .ended true] = [first, third] := rfl

/-- Events in which each frame that is entered ends, and those that are open
before end in this way, the innermost first. -/
inductive Closes : List Event → List Bool → Prop where
  | nil : Closes [] []
  | did {deed : Deed} {later : List Event} {outcomes : List Bool}
      (h : Closes later outcomes) :
      Closes (.did deed :: later) outcomes
  | entered {succeeded : Bool} {later : List Event} {outcomes : List Bool}
      (h : Closes later (succeeded :: outcomes)) :
      Closes (.entered :: later) outcomes
  | ended {succeeded : Bool} {later : List Event} {outcomes : List Bool}
      (h : Closes later outcomes) :
      Closes (.ended succeeded :: later) (succeeded :: outcomes)

variable {events later : List Event} {outcomes : List Bool}

theorem Closes.endings_eq (h : Closes events outcomes) :
    endings events = outcomes := by
  induction h with
  | nil => rfl
  | did _ ih => exact ih
  | entered _ ih => rw [endings, ih, List.tail_cons]
  | ended _ ih => rw [endings, ih]

theorem Closes.dids (deeds : List Deed) (h : Closes later outcomes) :
    Closes (deeds.map .did ++ later) outcomes := by
  induction deeds with
  | nil => exact h
  | cons deed rest ih => exact .did ih

/-! ## Gathering deeds -/

/-- What an event makes of the tallies of the open frames, the innermost first.
A frame that succeeds hands on its tally, and one that fails takes it along. -/
def apply (tallies : List Tally) : Event → List Tally
  | .did deed => tallies.modifyHead (·.add deed)
  | .entered => {} :: tallies
  | .ended succeeded =>
    match tallies with
    | child :: parent :: below =>
      (if succeeded then parent.join child else parent) :: below
    | _ => tallies

/-- What has been handed on to where no frame is open. -/
def gathered (events : List Event) : Tally := (events.foldl apply [{}]).headD {}

theorem foldl_apply_dids (deeds : List Deed) (tally : Tally)
    (below : List Tally) :
    (deeds.map .did).foldl apply (tally :: below) =
      deeds.foldl Tally.add tally :: below := by
  induction deeds generalizing tally with
  | nil => rfl
  | cons deed rest ih => exact ih (tally.add deed)

/-- The deeds that survive of those that open frames have gathered, in order of
time, if the frames end in the given way. -/
def kept : List Bool → List Tally → List Deed
  | succeeded :: outcomes, tally :: below =>
    kept outcomes below ++ if (succeeded :: outcomes).all id then
      tally.deeds else []
  | _, _ => []

/-- What is gathered from tallies of the open frames on: what survives of these
tallies, and then what survives of the events. -/
theorem Closes.exists_tally (h : Closes events outcomes) (tallies : List Tally)
    (hlength : tallies.length = outcomes.length) (outside : Tally) :
    ∃ tally, events.foldl apply (tallies ++ [outside]) = [tally] ∧
      tally.deeds = outside.deeds ++ kept outcomes tallies ++
        surviving events := by
  induction h generalizing tallies outside with
  | nil =>
    obtain rfl := List.eq_nil_of_length_eq_zero hlength
    exact ⟨outside, rfl, by simp [kept, surviving]⟩
  | @did deed later outcomes h ih =>
    rw [surviving, h.endings_eq]
    cases tallies with
    | nil =>
      obtain rfl := List.eq_nil_of_length_eq_zero hlength.symm
      obtain ⟨tally, hfold, hdeeds⟩ := ih [] rfl (outside.add deed)
      refine ⟨tally, hfold, ?_⟩
      rw [hdeeds]
      simp [kept]
    | cons top below =>
      obtain ⟨succeeded, outer, rfl⟩ :=
        List.exists_cons_of_length_eq_add_one hlength.symm
      obtain ⟨tally, hfold, hdeeds⟩ :=
        ih (top.add deed :: below) hlength outside
      refine ⟨tally, hfold, ?_⟩
      rw [hdeeds, kept, kept]
      split_ifs <;> simp
  | @entered succeeded later outcomes h ih =>
    obtain ⟨tally, hfold, hdeeds⟩ :=
      ih ({} :: tallies) (congrArg Nat.succ hlength) outside
    refine ⟨tally, hfold, ?_⟩
    rw [hdeeds, kept, ite_self, List.append_nil, surviving]
  | @ended succeeded later outcomes h ih =>
    obtain ⟨top, below, rfl⟩ := List.exists_cons_of_length_eq_add_one hlength
    have hbelow : below.length = outcomes.length := Nat.succ.inj hlength
    cases below with
    | nil =>
      obtain rfl := List.eq_nil_of_length_eq_zero hbelow.symm
      obtain ⟨tally, hfold, hdeeds⟩ :=
        ih [] rfl (if succeeded then outside.join top else outside)
      refine ⟨tally, hfold, ?_⟩
      rw [hdeeds, surviving]
      cases succeeded <;> simp [kept]
    | cons parent rest =>
      obtain ⟨next, outer, rfl⟩ :=
        List.exists_cons_of_length_eq_add_one hbelow.symm
      obtain ⟨tally, hfold, hdeeds⟩ :=
        ih ((if succeeded then parent.join top else parent) :: rest)
          hbelow outside
      refine ⟨tally, hfold, ?_⟩
      rw [hdeeds, surviving]
      cases succeeded with
      | false => simp [kept]
      | true =>
        have hall : (true :: next :: outer).all id = (next :: outer).all id :=
          Bool.true_and _
        rw [if_pos rfl, kept, kept, kept, hall]
        split_ifs <;> simp

/-- What is gathered in the end are the deeds that survive. -/
theorem Closes.deeds_gathered (h : Closes events []) :
    (gathered events).deeds = surviving events := by
  obtain ⟨tally, hfold, hdeeds⟩ := h.exists_tally [] rfl {}
  have htally : gathered events = tally := by
    rw [gathered]
    exact congrArg (List.headD · {}) hfold
  rw [htally, hdeeds]
  rfl

end Event

/-- The entering or the end of a frame that a turn brings. -/
def Turn.events {σ : Type} : Turn σ → List Event
  | .enters _ _ _ => [.entered]
  | .concludes (.finished exit _) => [.ended (exit.outcome = .success)]
  | .continues _ _ | .concludes (.failed _ _ _) => []

namespace Transaction

open Actions Event

variable {σ : Type} [Ledger σ] {config : Config} {env : Environment}
  {ledger after : σ} {top child : Activation} {frame : Frame} {exit : Exit}
  {tally : Tally}

/-- What happens with the next instruction of a transaction. -/
def occurrences (config : Config) (env : Environment) (state : Running σ) :
    List Event :=
  (Execution.deedsAt config env ⟨state.top.frame, state.ledger⟩).map .did ++
    (turn config env state.top state.ledger).events

/-- What happens while a transaction is driven. -/
def chronicle (config : Config) (env : Environment) :
    (fuel : Nat) → Running σ → List Event
  | 0, _ => []
  | fuel + 1, state =>
    occurrences config env state ++
      match advance config env state with
      | .running next => chronicle config env fuel next
      | .concluded _ => []

/-- What happens in a transaction, from the entering of its first frame on. -/
def history (config : Config) (env : Environment) (fuel : Nat)
    (opening : EStateM LedgerError σ Opening) (ledger : σ) : List Event :=
  match opening ledger with
  | .ok (.entered root _) ledger =>
    .entered :: chronicle config env fuel ⟨root, [], ledger⟩
  | .ok (.settled _) _ | .error _ _ => []

/-! ## One turn -/

theorem tells_of_continues
    (h : turn config env top ledger = .continues frame after)
    (htells : top.frame.effects.Tells config.schedule tally) :
    frame.effects.Tells config.schedule
      ((Execution.deedsAt config env ⟨top.frame, ledger⟩).foldl Tally.add
        tally) := by
  obtain hstep | ⟨signal, live, response, hstep, _, hanswer⟩ :=
    turn_eq_continues h
  · exact Execution.tells_of_step hstep htells
  · have hstepped := Execution.tells_of_step hstep htells
    obtain ⟨_, hrefuse⟩ | ⟨_, hcollide⟩ := hanswer
    · rw [(Frame.refuse_eq_ok_iff.1 hrefuse).2]
      exact hstepped
    · rw [(Frame.answer_eq_ok_iff.1 hcollide).2]
      exact hstepped

theorem effects_of_enterCall {context : Context} {moves : Bool}
    {source target : Address} {gas : Nat} {window : Range}
    (h : enterCall context moves source target gas window ledger =
      .ok child after) :
    child.frame.effects = {} := by
  obtain ⟨code, hframe, _⟩ := enterCall_eq_ok h
  rw [hframe]
  rfl

theorem effects_of_enterCreation {creator address : Address} {value : Word}
    {initCode : Bytes} {gas depth : Nat}
    (h : enterCreation creator address value initCode gas depth ledger =
      .ok child after) :
    child.frame.effects = {} := by
  obtain ⟨hframe, _⟩ := enterCreation_eq_ok h
  rw [hframe]
  rfl

theorem effects_of_meets {live : Live σ} {signal : Signal}
    (h : Meets config live signal (.entered child) after) :
    child.frame.effects = {} := by
  obtain ⟨_, _, henter⟩ | ⟨_, _, _, _, _, _, henter⟩ := enters_of_meets h
  · exact effects_of_enterCall henter
  · exact effects_of_enterCreation henter

theorem tells_of_enters
    (h : turn config env top ledger = .enters frame child after)
    (htells : top.frame.effects.Tells config.schedule tally) :
    frame.effects.Tells config.schedule
      ((Execution.deedsAt config env ⟨top.frame, ledger⟩).foldl Tally.add
        tally) ∧
    child.frame.effects.Tells config.schedule {} := by
  obtain ⟨signal, live, hstep, rfl, hmeets⟩ := turn_eq_enters h
  refine ⟨Execution.tells_of_step hstep htells, ?_⟩
  rw [effects_of_meets hmeets]
  exact Effects.tells_nothing config.schedule

/-- Only a frame that has come to a success of its own can be left with one. -/
theorem succeeded_of_leave {outcome : Outcome} {output : Bytes}
    (h : leave config top outcome output ledger = .ok exit after)
    (hsuccess : exit.outcome = .success) : outcome = .success := by
  cases outcome with
  | success => rfl
  | revert | halt cause =>
    obtain ⟨_, _, _, hpure⟩ := bind_eq_ok_iff.1 h
    obtain ⟨rfl, _⟩ := pure_eq_ok_iff.1 hpure
    cases hsuccess

theorem tells_of_finished
    (h : turn config env top ledger = .concludes (.finished exit after))
    (htells : top.frame.effects.Tells config.schedule tally)
    (hsuccess : exit.outcome = .success) :
    exit.effects.Tells config.schedule
      ((Execution.deedsAt config env ⟨top.frame, ledger⟩).foldl Tally.add
        tally) := by
  rw [turn] at h
  cases hstep : Execution.step config env ⟨top.frame, ledger⟩ with
  | error failure live =>
    rw [hstep] at h
    cases failure with
    | halt cause => cases succeeded_of_leave (ofLeaving_eq_finished h) hsuccess
    | ledger cause => cases h
  | ok signal live =>
    have hstepped := Execution.tells_of_step hstep htells
    rw [hstep] at h
    cases signal with
    | none => cases h
    | some signal =>
      cases signal with
      | call request | create request => exact absurd h ofResponse_ne_finished
      | revert output =>
        cases succeeded_of_leave (ofLeaving_eq_finished h) hsuccess
      | «return» output =>
        obtain ⟨heffects, _⟩ :=
          leave_eq_success (ofLeaving_eq_finished h) hsuccess
        rw [heffects]
        exact hstepped

theorem tells_of_resume {parent : Frame} {role : Role} {others : Tally}
    (h : parent.resume role exit = .ok frame)
    (htells : parent.effects.Tells config.schedule tally)
    (hexit : exit.outcome = .success →
      exit.effects.Tells config.schedule others) :
    frame.effects.Tells config.schedule
      (if exit.outcome = .success then tally.join others else tally) := by
  obtain ⟨_, _, _, rfl⟩ := Frame.exists_of_resume h
  rw [Frame.effectsAfter]
  by_cases hsuccess : exit.outcome = .success
  · rw [if_pos hsuccess, if_pos hsuccess]
    exact htells.absorb (hexit hsuccess)
  · rw [if_neg hsuccess, if_neg hsuccess]
    exact htells

/-! ## Runs -/

/-- What live frames have gathered, the innermost first. -/
def Told (schedule : Schedule) : List Activation → List Tally → Prop :=
  List.Forall₂ fun activation tally =>
    activation.frame.effects.Tells schedule tally

/-- The tallies go on as the frames do. -/
theorem exists_told_of_advance {state next : Running σ} {tallies : List Tally}
    (h : advance config env state = .running next)
    (htold : Told config.schedule (state.top :: state.waiting) tallies)
    (outside : Tally) :
    ∃ told, (occurrences config env state).foldl apply (tallies ++ [outside]) =
        told ++ [outside] ∧
        Told config.schedule (next.top :: next.waiting) told := by
  obtain ⟨tally, below, htells, hwaiting, rfl⟩ :=
    List.forall₂_cons_left_iff.1 htold
  cases advances_of_advance h with
  | continues hturn =>
    refine ⟨_ :: below, ?_, .cons (tells_of_continues hturn htells) hwaiting⟩
    rw [occurrences, hturn, List.foldl_append, List.cons_append,
      foldl_apply_dids]
    rfl
  | enters hturn =>
    obtain ⟨hwaits, hchild⟩ := tells_of_enters hturn htells
    refine ⟨{} :: _ :: below, ?_, .cons hchild (.cons hwaits hwaiting)⟩
    rw [occurrences, hturn, List.foldl_append, List.cons_append,
      foldl_apply_dids]
    rfl
  | @resumes top parent rest ledger after exit frame hturn hresume =>
    obtain ⟨gathered, others, hparent, hrest, rfl⟩ :=
      List.forall₂_cons_left_iff.1 hwaiting
    refine ⟨_ :: others, ?_,
      .cons (tells_of_resume hresume hparent (tells_of_finished hturn htells))
        hrest⟩
    rw [occurrences, hturn, List.foldl_append, List.cons_append,
      foldl_apply_dids]
    by_cases hsuccess : exit.outcome = .success <;>
      simp [Turn.events, apply, hsuccess]

/-- Each frame that is entered ends, and so do those that were open. -/
theorem exists_closes_of_advance {state next : Running σ} {later : List Event}
    {outcomes : List Bool} (h : advance config env state = .running next)
    (hlater : Closes later outcomes)
    (hlength : outcomes.length = next.waiting.length + 1) :
    ∃ endings, Closes (occurrences config env state ++ later) endings ∧
      endings.length = state.waiting.length + 1 := by
  cases advances_of_advance h with
  | continues hturn =>
    rw [occurrences, hturn, List.append_assoc]
    exact ⟨outcomes, hlater.dids _, hlength⟩
  | enters hturn =>
    obtain ⟨succeeded, outer, rfl⟩ :=
      List.exists_cons_of_length_eq_add_one hlength
    rw [occurrences, hturn, List.append_assoc]
    exact ⟨outer, .dids _ (.entered hlater), Nat.succ.inj hlength⟩
  | resumes hturn hresume =>
    rw [occurrences, hturn, List.append_assoc]
    exact ⟨_ :: outcomes, .dids _ (.ended hlater), congrArg Nat.succ hlength⟩

/-- What holds of the last turn of a transaction that finishes, and is carried
back over every turn before it, holds of the whole chronicle. -/
theorem chronicle_of_drive {P : Running σ → List Event → Prop} {fuel : Nat}
    {state : Running σ}
    (h : drive config env fuel state = some (.finished exit after))
    (hlast : ∀ last, last.waiting = [] →
      turn config env last.top last.ledger = .concludes (.finished exit after) →
      P last (occurrences config env last))
    (hback : ∀ state next later, advance config env state = .running next →
      P next later →
      P state (occurrences config env state ++ later)) :
    P state (chronicle config env fuel state) := by
  induction fuel generalizing state with
  | zero => cases h
  | succ fuel ih =>
    rw [drive] at h
    rw [chronicle]
    cases hadvance : advance config env state with
    | running next =>
      simp only [hadvance] at h
      exact hback state next _ hadvance (ih h)
    | concluded conclusion =>
      simp only [hadvance, Option.some.injEq] at h
      subst h
      obtain ⟨hwaiting, hturn⟩ := finished_of_advance hadvance
      rw [List.append_nil]
      exact hlast state hwaiting hturn

theorem exists_closes_of_drive {fuel : Nat} {state : Running σ}
    (h : drive config env fuel state = some (.finished exit after)) :
    ∃ outcomes, Closes (chronicle config env fuel state) outcomes ∧
      outcomes.length = state.waiting.length + 1 := by
  refine chronicle_of_drive (P := fun state events => ∃ outcomes,
    Closes events outcomes ∧
    outcomes.length = state.waiting.length + 1) h ?_ ?_
  · intro last hwaiting hturn
    rw [occurrences, hturn, hwaiting]
    exact ⟨_, .dids _ (.ended .nil), rfl⟩
  · rintro state next later hadvance ⟨outcomes, hlater, hlength⟩
    exact exists_closes_of_advance hadvance hlater hlength

/-- What the last frame of a transaction leaves behind, if it succeeds, is what
has been gathered. -/
theorem exists_tally_of_drive {fuel : Nat} {state : Running σ}
    {tallies : List Tally}
    (h : drive config env fuel state = some (.finished exit after))
    (hsuccess : exit.outcome = .success)
    (htold : Told config.schedule (state.top :: state.waiting) tallies) :
    ∃ tally, (chronicle config env fuel state).foldl
      apply (tallies ++ [({} : Tally)]) = [tally] ∧
      exit.effects.Tells config.schedule tally := by
  refine chronicle_of_drive (P := fun state events => ∀ tallies,
    Told config.schedule (state.top :: state.waiting) tallies →
      ∃ tally, events.foldl apply (tallies ++ [({} : Tally)]) = [tally] ∧
        exit.effects.Tells config.schedule tally) h ?_ ?_ tallies htold
  · intro last hwaiting hturn tallies htold
    obtain ⟨tally, below, htells, hbelow, rfl⟩ :=
      List.forall₂_cons_left_iff.1 htold
    rw [hwaiting] at hbelow
    obtain rfl := List.forall₂_nil_left_iff.1 hbelow
    refine ⟨_, ?_, tells_of_finished hturn htells hsuccess⟩
    rw [occurrences, hturn, List.foldl_append, List.cons_append,
      foldl_apply_dids]
    simp [Turn.events, apply, hsuccess, Tally.nothing_join]
  · intro state next later hadvance hlater tallies htold
    obtain ⟨told, hfold, hnext⟩ := exists_told_of_advance hadvance htold {}
    rw [List.foldl_append, hfold]
    exact hlater told hnext

/-! ## Whole transactions -/

section Transactions

variable {fuel gas : Nat} {opening : EStateM LedgerError σ Opening}
  {root : Activation} {created : Option Address} {entered : σ}

theorem history_of_entered
    (h : opening ledger = .ok (.entered root created) entered) :
    history config env fuel opening ledger =
      .entered :: chronicle config env fuel ⟨root, [], entered⟩ := by
  rw [history, h]

theorem told_root (hopens : Opens config gas opening)
    (h : opening ledger = .ok (.entered root created) entered) :
    Told config.schedule [root] [{}] := by
  have heffects : root.frame.effects = {} := by
    obtain ⟨_, _, _, henter⟩ | ⟨_, _, _, _, _, _, _, henter⟩ :=
      enters_of_opens hopens h
    · exact effects_of_enterCall henter
    · exact effects_of_enterCreation henter
  refine .cons ?_ .nil
  rw [heffects]
  exact Effects.tells_nothing config.schedule

theorem closes_history
    (hopening : opening ledger = .ok (.entered root created) entered)
    (hdrive : drive config env fuel ⟨root, [], entered⟩ =
      some (.finished exit after)) :
    Closes (history config env fuel opening ledger) [] := by
  obtain ⟨outcomes, hcloses, hlength⟩ := exists_closes_of_drive hdrive
  obtain ⟨succeeded, rfl⟩ := List.length_eq_one_iff.1 hlength
  rw [history_of_entered hopening]
  exact .entered hcloses

/-- The effects of a transaction that succeeds tell the deeds that survive. -/
theorem tells_history (hopens : Opens config gas opening)
    (hopening : opening ledger = .ok (.entered root created) entered)
    (hdrive : drive config env fuel ⟨root, [], entered⟩ =
      some (.finished exit after))
    (hsuccess : exit.outcome = .success) :
    exit.effects.Tells config.schedule
      (gathered (history config env fuel opening ledger)) := by
  obtain ⟨tally, hfold, htells⟩ :=
    exists_tally_of_drive hdrive hsuccess (told_root hopens hopening)
  have htally : gathered (history config env fuel opening ledger) = tally := by
    rw [history_of_entered hopening, gathered]
    exact congrArg (List.headD · {}) hfold
  rw [htally]
  exact htells

end Transactions

end Transaction

end ContractMachine
