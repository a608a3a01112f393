import ContractMachine.Proofs.Transaction.Runs

/-!
# Driving is recursive evaluation

A transaction keeps its frames on an explicit stack.  The plain way to run
nested frames is a recursion: a frame runs its instructions, and a frame that
it enters is evaluated to completion before it goes on.  `evaluate` is that
recursion, and `unwind` goes through a stack of waiting frames with it.

The two agree because a frame does not notice who waits below it: whatever runs
on an empty floor runs the same way on any other, up to the moment when it
concludes, and its conclusion is then delivered to that floor.
-/

namespace ContractMachine.Transaction

variable {σ : Type} [Ledger σ] {config : Config} {env : Environment}

/-- Evaluates an activation to its conclusion; `none` if the fuel was not
enough. -/
def evaluate (config : Config) (env : Environment) :
    (fuel : Nat) → Activation → σ → Option (Conclusion σ)
  | 0, _, _ => none
  | fuel + 1, top, ledger =>
    match turn config env top ledger with
    | .continues frame ledger =>
      evaluate config env fuel { top with frame } ledger
    | .concludes conclusion => some conclusion
    | .enters frame child ledger =>
      match evaluate config env fuel child ledger with
      | none => none
      | some (.failed cause unfinished ledger) =>
        some (.failed cause (unfinished ++ [{ top with frame }]) ledger)
      | some (.finished exit ledger) =>
        match frame.resume child.role exit with
        | .ok frame => evaluate config env fuel { top with frame } ledger
        | .error cause =>
          some (.failed (.halt cause) [{ top with frame }] ledger)

/-- Evaluates an activation and then, one after the other, those that wait for
it. -/
def unwind (config : Config) (env : Environment) (fuel : Nat) :
    Activation → List Activation → σ → Option (Conclusion σ)
  | top, [], ledger => evaluate config env fuel top ledger
  | top, parent :: below, ledger =>
    match evaluate config env fuel top ledger with
    | none => none
    | some (.failed cause unfinished ledger) =>
      some (.failed cause (unfinished ++ parent :: below) ledger)
    | some (.finished exit ledger) =>
      match parent.frame.resume top.role exit with
      | .ok frame => unwind config env fuel { parent with frame } below ledger
      | .error cause => some (.failed (.halt cause) (parent :: below) ledger)

/-- Drives on from where a transaction has got to. -/
def driveFrom (config : Config) (env : Environment) (fuel : Nat) :
    Progress σ → Option (Conclusion σ)
  | .running state => drive config env fuel state
  | .concluded conclusion => some conclusion

theorem drive_succ (fuel : Nat) (state : Running σ) :
    drive config env (fuel + 1) state =
      driveFrom config env fuel (advance config env state) := by
  rw [drive]
  cases advance config env state <;> rfl

/-- A state with more frames waiting below its own. -/
def above (floor : List Activation) (state : Running σ) : Running σ :=
  { state with waiting := state.waiting ++ floor }

/-- The role of the activation at the bottom. -/
def rootRole (state : Running σ) : Role :=
  (state.waiting.getLastD state.top).role

omit [Ledger σ] in
theorem above_alone (floor : List Activation) (top : Activation) (ledger : σ) :
    above floor ⟨top, [], ledger⟩ = ⟨top, floor, ledger⟩ := rfl

/-- Frames below those of a state do not change how it advances. -/
theorem advance_above (floor : List Activation) (state : Running σ) :
    advance config env (above floor state) =
      match advance config env state with
      | .running next => .running (above floor next)
      | .concluded conclusion => deliver (rootRole state) conclusion floor := by
  rcases state with ⟨top, waiting, ledger⟩
  rw [advance_eq_progressOf, advance_eq_progressOf]
  simp only [above]
  cases turn config env top ledger with
  | continues frame left => rfl
  | enters frame child left => rfl
  | concludes conclusion =>
    cases conclusion with
    | failed cause unfinished left => simp [progressOf, deliver]
    | finished exit left =>
      cases waiting with
      | nil => rfl
      | cons parent below =>
        cases hresume : parent.frame.resume top.role exit <;>
          simp [progressOf, deliver, hresume]

theorem rootRole_of_advance {state next : Running σ}
    (h : advance config env state = .running next) :
    rootRole next = rootRole state := by
  rcases state with ⟨top, waiting, ledger⟩
  rw [advance_eq_progressOf] at h
  cases hturn : turn config env top ledger with
  | continues frame left =>
    simp only [hturn, progressOf, Progress.running.injEq] at h
    subst h
    cases waiting <;> rfl
  | enters frame child left =>
    simp only [hturn, progressOf, Progress.running.injEq] at h
    subst h
    cases waiting <;> rfl
  | concludes conclusion =>
    simp only [hturn, progressOf] at h
    cases conclusion with
    | failed cause unfinished left => cases h
    | finished exit left =>
      cases waiting with
      | nil => cases h
      | cons parent below =>
        rw [deliver] at h
        split at h <;> cases h
        cases below <;> rfl

/-! ## Moving a run to another floor -/

omit [Ledger σ] in
theorem waiting_of_deliver {role : Role} {conclusion : Conclusion σ}
    {parent : Activation} {below : List Activation} {next : Running σ}
    (h : deliver role conclusion (parent :: below) = .running next) :
    next.waiting = below := by
  cases conclusion with
  | failed cause unfinished left => cases h
  | finished exit left =>
    rw [deliver] at h
    split at h <;> cases h
    rfl

omit [Ledger σ] in
theorem not_suffix_of_deliver {role : Role} {conclusion : Conclusion σ}
    {floor : List Activation} {next : Running σ}
    (h : deliver role conclusion floor = .running next) :
    ¬ floor <:+ next.waiting := by
  cases floor with
  | nil => simp at h
  | cons parent below =>
    intro hsuffix
    have hlength := hsuffix.length_le
    simp [waiting_of_deliver h] at hlength

/-- What concludes on its own gets to the end of its last frame on any floor, in
as many instructions, and is then delivered. -/
theorem exists_last_of_drive {fuel : Nat} {state : Running σ}
    {conclusion : Conclusion σ}
    (h : drive config env fuel state = some conclusion)
    (floor : List Activation) :
    ∃ last, RunsAbove config env floor (above floor state) last ∧
      advance config env last = deliver (rootRole state) conclusion floor ∧
      ∃ n ≤ fuel, ∀ more, drive config env (more + n) (above floor state) =
        driveFrom config env more
          (deliver (rootRole state) conclusion floor) := by
  induction fuel generalizing state with
  | zero => cases h
  | succ fuel ih =>
    rw [drive_succ] at h
    have habove : advance config env (above floor state) = _ :=
      advance_above floor state
    cases hadvance : advance config env state with
    | concluded reached =>
      simp only [hadvance, driveFrom, Option.some.injEq] at h habove
      subst h
      refine ⟨above floor state, .refl, habove, 1, by omega, fun more => ?_⟩
      rw [drive_succ, habove]
    | running next =>
      simp only [hadvance, driveFrom] at h habove
      obtain ⟨last, hruns, hlast, n, hn, hdrive⟩ := ih h
      rw [rootRole_of_advance hadvance] at hlast hdrive
      have hfloor : floor <:+ (above floor next).waiting :=
        List.suffix_append ..
      refine ⟨last, .head ⟨habove, hfloor⟩ hruns, hlast, n + 1, by omega,
        fun more => ?_⟩
      rw [← Nat.add_assoc, drive_succ, habove]
      exact hdrive more

/-- What concludes on some floor concludes on its own. -/
theorem exists_drive_of_above {fuel : Nat} {state : Running σ}
    {floor : List Activation} {conclusion : Conclusion σ}
    (h : drive config env fuel (above floor state) = some conclusion) :
    ∃ own, drive config env fuel state = some own := by
  induction fuel generalizing state with
  | zero => cases h
  | succ fuel ih =>
    rw [drive_succ, advance_above] at h
    rw [drive_succ]
    cases hadvance : advance config env state with
    | concluded own => exact ⟨own, rfl⟩
    | running next =>
      rw [hadvance] at h
      exact ih h

/-- A run above a floor is a run of its own frames. -/
theorem exists_of_runsAbove {state last : Running σ} {floor : List Activation}
    (h : RunsAbove config env floor (above floor state) last) :
    ∃ own, last = above floor own ∧ Reaches config env state own := by
  induction h with
  | refl => exact ⟨state, rfl, .refl⟩
  | @tail last next _ hstep ih =>
    obtain ⟨own, rfl, hreaches⟩ := ih
    obtain ⟨hadvance, hfloor⟩ := hstep
    rw [advance_above] at hadvance
    cases hown : advance config env own with
    | running following =>
      simp only [hown, Progress.running.injEq] at hadvance
      exact ⟨following, hadvance.symm, hreaches.tail hown⟩
    | concluded conclusion =>
      -- The frame on top has ended, so the floor would have to go on.
      simp only [hown] at hadvance
      exact absurd hfloor (not_suffix_of_deliver hadvance)

/-- What a transaction reaches on the way does not change its conclusion. -/
theorem exists_drive_of_reaches {state next : Running σ} {fuel : Nat}
    {conclusion : Conclusion σ} (h : Reaches config env state next)
    (hdrive : drive config env fuel next = some conclusion) :
    ∃ fuel, drive config env fuel state = some conclusion := by
  induction h using Relation.ReflTransGen.head_induction_on with
  | refl => exact ⟨fuel, hdrive⟩
  | head hstep _ ih =>
    obtain ⟨fuel, hfuel⟩ := ih
    refine ⟨fuel + 1, ?_⟩
    rw [drive_succ, hstep]
    exact hfuel

/-- How a drive on some floor is made up: a drive on no floor, and a drive of
what its conclusion is delivered to. -/
theorem exists_split_of_drive {fuel : Nat} {child : Activation}
    {floor : List Activation} {ledger : σ} {conclusion : Conclusion σ}
    (h : drive config env fuel ⟨child, floor, ledger⟩ = some conclusion) :
    ∃ own rest, rest ≤ fuel ∧
      drive config env fuel ⟨child, [], ledger⟩ = some own ∧
      driveFrom config env rest (deliver child.role own floor) =
        some conclusion := by
  rw [← above_alone] at h
  obtain ⟨own, hown⟩ := exists_drive_of_above h
  obtain ⟨_, _, _, n, hn, hdrive⟩ := exists_last_of_drive hown floor
  refine ⟨own, fuel - n, Nat.sub_le .., hown, ?_⟩
  have hfuel := hdrive (fuel - n)
  rw [Nat.sub_add_cancel hn, h] at hfuel
  exact hfuel.symm

/-- A drive on some floor put together from its two parts. -/
theorem exists_drive_of_split {fuel rest : Nat} {child : Activation}
    {floor : List Activation} {ledger : σ} {own conclusion : Conclusion σ}
    (hown : drive config env fuel ⟨child, [], ledger⟩ = some own)
    (hrest : driveFrom config env rest (deliver child.role own floor) =
      some conclusion) :
    ∃ fuel, drive config env fuel ⟨child, floor, ledger⟩ = some conclusion := by
  obtain ⟨_, _, _, n, _, hdrive⟩ := exists_last_of_drive hown floor
  exact ⟨rest + n, (hdrive rest).trans hrest⟩

/-! ## Evaluation -/

/-- Evaluates on from where a transaction with one frame has got to. -/
def evaluateFrom (config : Config) (env : Environment) (fuel : Nat) :
    Progress σ → Option (Conclusion σ)
  | .running state => evaluate config env fuel state.top state.ledger
  | .concluded conclusion => some conclusion

/-- An evaluation delivers what a child comes to just as a drive does. -/
theorem evaluate_succ (fuel : Nat) (top : Activation) (ledger : σ) :
    evaluate config env (fuel + 1) top ledger =
      match turn config env top ledger with
      | .continues frame ledger =>
        evaluate config env fuel { top with frame } ledger
      | .concludes conclusion => some conclusion
      | .enters frame child ledger =>
        (evaluate config env fuel child ledger).bind fun conclusion =>
          evaluateFrom config env fuel
            (deliver child.role conclusion [{ top with frame }]) := by
  rw [evaluate]
  cases turn config env top ledger with
  | continues frame left => rfl
  | concludes conclusion => rfl
  | enters frame child left =>
    cases hchild : evaluate config env fuel child left with
    | none => simp [hchild]
    | some conclusion =>
      cases conclusion with
      | failed cause unfinished ended => simp [hchild, deliver, evaluateFrom]
      | finished exit ended =>
        cases hresume : frame.resume child.role exit <;>
          simp [hchild, hresume, deliver, evaluateFrom]

theorem evaluate_mono_succ {fuel : Nat} {top : Activation} {ledger : σ}
    {conclusion : Conclusion σ}
    (h : evaluate config env fuel top ledger = some conclusion) :
    evaluate config env (fuel + 1) top ledger = some conclusion := by
  induction fuel generalizing top ledger conclusion with
  | zero => cases h
  | succ fuel ih =>
    rw [evaluate_succ] at h ⊢
    cases hturn : turn config env top ledger with
    | continues frame left =>
      rw [hturn] at h
      exact ih h
    | concludes reached =>
      rw [hturn] at h
      exact h
    | enters frame child left =>
      simp only [hturn, Option.bind_eq_some_iff] at h ⊢
      obtain ⟨own, hown, hrest⟩ := h
      refine ⟨own, ih hown, ?_⟩
      cases hdeliver : deliver child.role own [{ top with frame }] with
      | running state =>
        rw [hdeliver] at hrest
        exact ih hrest
      | concluded reached =>
        rw [hdeliver] at hrest
        exact hrest

/-- More fuel does not change an evaluation that has concluded. -/
theorem evaluate_mono {fuel more : Nat} (hle : fuel ≤ more) {top : Activation}
    {ledger : σ} {conclusion : Conclusion σ}
    (h : evaluate config env fuel top ledger = some conclusion) :
    evaluate config env more top ledger = some conclusion := by
  induction hle with
  | refl => exact h
  | step _ ih => exact evaluate_mono_succ ih

theorem evaluateFrom_mono {fuel more : Nat} (hle : fuel ≤ more)
    {progress : Progress σ} {conclusion : Conclusion σ}
    (h : evaluateFrom config env fuel progress = some conclusion) :
    evaluateFrom config env more progress = some conclusion := by
  cases progress with
  | running state => exact evaluate_mono hle h
  | concluded reached => exact h

theorem drive_alone_succ (fuel : Nat) (top : Activation) (ledger : σ) :
    drive config env (fuel + 1) ⟨top, [], ledger⟩ =
      match turn config env top ledger with
      | .continues frame ledger =>
        drive config env fuel ⟨{ top with frame }, [], ledger⟩
      | .concludes conclusion => some conclusion
      | .enters frame child ledger =>
        drive config env fuel ⟨child, [{ top with frame }], ledger⟩ := by
  rw [drive_succ, advance_eq_progressOf]
  cases turn config env top ledger <;> simp [progressOf, driveFrom]

theorem exists_evaluate_of_drive {fuel : Nat} {top : Activation} {ledger : σ}
    {conclusion : Conclusion σ}
    (h : drive config env fuel ⟨top, [], ledger⟩ = some conclusion) :
    ∃ fuel, evaluate config env fuel top ledger = some conclusion := by
  induction fuel using Nat.strong_induction_on generalizing top ledger
    conclusion with
  | _ fuel ih =>
  cases fuel with
  | zero => cases h
  | succ fuel =>
    rw [drive_alone_succ] at h
    cases hturn : turn config env top ledger with
    | continues frame left =>
      rw [hturn] at h
      obtain ⟨n, hn⟩ := ih fuel (Nat.lt_succ_self fuel) h
      refine ⟨n + 1, ?_⟩
      rw [evaluate_succ, hturn]
      exact hn
    | concludes reached =>
      rw [hturn] at h
      refine ⟨1, ?_⟩
      rw [evaluate_succ, hturn]
      exact h
    | enters frame child left =>
      rw [hturn] at h
      obtain ⟨own, rest, hrest, hown, hdeliver⟩ := exists_split_of_drive h
      obtain ⟨n, hn⟩ := ih fuel (Nat.lt_succ_self fuel) hown
      obtain ⟨m, hm⟩ : ∃ m, evaluateFrom config env m
          (deliver child.role own [{ top with frame }]) = some conclusion := by
        cases hnext : deliver child.role own [{ top with frame }] with
        | concluded reached =>
          rw [hnext] at hdeliver
          exact ⟨0, hdeliver⟩
        | running next =>
          rw [hnext] at hdeliver
          have halone : next = ⟨next.top, [], next.ledger⟩ := by
            rw [← waiting_of_deliver hnext]
          rw [halone] at hdeliver
          exact ih rest (Nat.lt_succ_of_le hrest) hdeliver
      refine ⟨max n m + 1, ?_⟩
      rw [evaluate_succ, hturn]
      refine Option.bind_eq_some_iff.2 ⟨own,
        evaluate_mono (le_max_left ..) hn, ?_⟩
      exact evaluateFrom_mono (le_max_right ..) hm

theorem exists_drive_of_evaluate {fuel : Nat} {top : Activation} {ledger : σ}
    {conclusion : Conclusion σ}
    (h : evaluate config env fuel top ledger = some conclusion) :
    ∃ fuel, drive config env fuel ⟨top, [], ledger⟩ = some conclusion := by
  induction fuel generalizing top ledger conclusion with
  | zero => cases h
  | succ fuel ih =>
    rw [evaluate_succ] at h
    cases hturn : turn config env top ledger with
    | continues frame left =>
      rw [hturn] at h
      obtain ⟨n, hn⟩ := ih h
      refine ⟨n + 1, ?_⟩
      rw [drive_alone_succ, hturn]
      exact hn
    | concludes reached =>
      rw [hturn] at h
      refine ⟨1, ?_⟩
      rw [drive_alone_succ, hturn]
      exact h
    | enters frame child left =>
      rw [hturn] at h
      obtain ⟨own, hown, hrest⟩ := Option.bind_eq_some_iff.1 h
      obtain ⟨n, hn⟩ := ih hown
      obtain ⟨m, hm⟩ : ∃ m, driveFrom config env m
          (deliver child.role own [{ top with frame }]) = some conclusion := by
        cases hnext : deliver child.role own [{ top with frame }] with
        | concluded reached =>
          rw [hnext] at hrest
          exact ⟨0, hrest⟩
        | running next =>
          rw [hnext] at hrest
          obtain ⟨m, hm⟩ := ih hrest
          have halone : next = ⟨next.top, [], next.ledger⟩ := by
            rw [← waiting_of_deliver hnext]
          refine ⟨m, ?_⟩
          rw [halone]
          exact hm
      obtain ⟨k, hk⟩ := exists_drive_of_split hn hm
      refine ⟨k + 1, ?_⟩
      rw [drive_alone_succ, hturn]
      exact hk

/-- Driving a single frame and evaluating it come to the same conclusion. -/
theorem exists_drive_iff_exists_evaluate (top : Activation) (ledger : σ)
    (conclusion : Conclusion σ) :
    (∃ fuel, drive config env fuel ⟨top, [], ledger⟩ = some conclusion) ↔
      ∃ fuel, evaluate config env fuel top ledger = some conclusion :=
  ⟨fun ⟨_, h⟩ => exists_evaluate_of_drive h,
   fun ⟨_, h⟩ => exists_drive_of_evaluate h⟩

/-- Unwinds on from where a transaction has got to. -/
def unwindFrom (config : Config) (env : Environment) (fuel : Nat) :
    Progress σ → Option (Conclusion σ)
  | .running state =>
    unwind config env fuel state.top state.waiting state.ledger
  | .concluded conclusion => some conclusion

/-- Unwinding delivers what the topmost activation comes to just as a drive
does. -/
theorem unwind_eq_bind (fuel : Nat) (top : Activation)
    (waiting : List Activation) (ledger : σ) :
    unwind config env fuel top waiting ledger =
      (evaluate config env fuel top ledger).bind fun conclusion =>
        unwindFrom config env fuel (deliver top.role conclusion waiting) := by
  cases htop : evaluate config env fuel top ledger with
  | none => cases waiting <;> simp [unwind, htop]
  | some conclusion =>
    cases waiting with
    | nil => cases conclusion <;> simp [unwind, htop, unwindFrom]
    | cons parent below =>
      cases conclusion with
      | failed cause unfinished left => simp [unwind, htop, deliver, unwindFrom]
      | finished exit left =>
        cases hresume : parent.frame.resume top.role exit <;>
          simp [unwind, htop, deliver, unwindFrom, hresume]

theorem unwind_mono {fuel more : Nat} (hle : fuel ≤ more) {top : Activation}
    {waiting : List Activation} {ledger : σ} {conclusion : Conclusion σ}
    (h : unwind config env fuel top waiting ledger = some conclusion) :
    unwind config env more top waiting ledger = some conclusion := by
  induction waiting generalizing top ledger with
  | nil =>
    rw [unwind_eq_bind] at h ⊢
    simp only [deliver_nil] at h ⊢
    obtain ⟨own, hown, hrest⟩ := Option.bind_eq_some_iff.1 h
    exact Option.bind_eq_some_iff.2 ⟨own, evaluate_mono hle hown, hrest⟩
  | cons parent below ih =>
    rw [unwind_eq_bind] at h ⊢
    obtain ⟨own, hown, hrest⟩ := Option.bind_eq_some_iff.1 h
    refine Option.bind_eq_some_iff.2 ⟨own, evaluate_mono hle hown, ?_⟩
    cases hnext : deliver top.role own (parent :: below) with
    | concluded reached =>
      rw [hnext] at hrest
      exact hrest
    | running next =>
      rw [hnext, unwindFrom, waiting_of_deliver hnext] at hrest
      rw [unwindFrom, waiting_of_deliver hnext]
      exact ih hrest

/-- Driving a stack of frames and unwinding it come to the same conclusion. -/
theorem exists_drive_iff_exists_unwind (top : Activation)
    (waiting : List Activation) (ledger : σ) (conclusion : Conclusion σ) :
    (∃ fuel, drive config env fuel ⟨top, waiting, ledger⟩ = some conclusion) ↔
      ∃ fuel, unwind config env fuel top waiting ledger = some conclusion := by
  induction waiting generalizing top ledger with
  | nil =>
    rw [exists_drive_iff_exists_evaluate]
    simp [unwind_eq_bind, unwindFrom]
  | cons parent below ih =>
    have hfrom : ∀ own,
        (∃ rest,
          driveFrom config env rest (deliver top.role own (parent :: below)) =
          some conclusion) ↔
        ∃ rest,
          unwindFrom config env rest (deliver top.role own (parent :: below)) =
          some conclusion := by
      intro own
      cases hnext : deliver top.role own (parent :: below) with
      | concluded reached => exact Iff.rfl
      | running next =>
        rcases next with ⟨resumed, waiting, left⟩
        obtain rfl : waiting = below := waiting_of_deliver hnext
        exact ih resumed left
    constructor
    · rintro ⟨fuel, h⟩
      obtain ⟨own, rest, _, hown, hrest⟩ := exists_split_of_drive h
      obtain ⟨n, hn⟩ := exists_evaluate_of_drive hown
      obtain ⟨m, hm⟩ := (hfrom own).1 ⟨rest, hrest⟩
      refine ⟨max n m, ?_⟩
      rw [unwind_eq_bind]
      refine Option.bind_eq_some_iff.2 ⟨own,
        evaluate_mono (le_max_left ..) hn, ?_⟩
      cases hnext : deliver top.role own (parent :: below) with
      | concluded reached =>
        rw [hnext] at hm
        exact hm
      | running next =>
        rw [hnext] at hm
        exact unwind_mono (le_max_right ..) hm
    · rintro ⟨fuel, h⟩
      rw [unwind_eq_bind] at h
      obtain ⟨own, hown, hrest⟩ := Option.bind_eq_some_iff.1 h
      obtain ⟨n, hn⟩ := exists_drive_of_evaluate hown
      obtain ⟨m, hm⟩ := (hfrom own).2 ⟨fuel, hrest⟩
      exact exists_drive_of_split hn hm

/-! ## The stack of frames implements recursion -/

/-- A frame that finishes on its own finishes in the same way above waiting
frames; the one that waited for it is then resumed with its exit, on the ledger
that it left, and no other is touched. -/
theorem resumes_of_finished {fuel : Nat} {child : Activation} {ledger left : σ}
    {exit : Exit}
    (h : drive config env fuel ⟨child, [], ledger⟩ = some (.finished exit left))
    (parent : Activation) (below : List Activation) :
    (∃ last, RunsAbove config env (parent :: below) ⟨child, parent :: below,
      ledger⟩ last ∧
      advance config env last =
        match parent.frame.resume child.role exit with
        | .ok frame => .running ⟨{ parent with frame }, below, left⟩
        | .error cause =>
          .concluded (.failed (.halt cause) (parent :: below) left)) ∧
    ∃ n ≤ fuel, ∀ more,
      drive config env (more + n) ⟨child, parent :: below, ledger⟩ =
      match parent.frame.resume child.role exit with
      | .ok frame => drive config env more ⟨{ parent with frame }, below, left⟩
      | .error cause =>
        some (.failed (.halt cause) (parent :: below) left) := by
  obtain ⟨last, hruns, hlast, n, hn, hdrive⟩ :=
    exists_last_of_drive h (parent :: below)
  refine ⟨⟨last, hruns, hlast⟩, n, hn, fun more => ?_⟩
  refine (hdrive more).trans ?_
  cases hresume : parent.frame.resume child.role exit <;>
    simp [deliver, rootRole, hresume, driveFrom]

/-- A frame that fails on its own fails in the same way above waiting frames,
and leaves them as they are. -/
theorem drive_of_failed {fuel : Nat} {child : Activation} {ledger left : σ}
    {cause : Failure} {unfinished : List Activation}
    (h : drive config env fuel ⟨child, [], ledger⟩ =
      some (.failed cause unfinished left))
    (waiting : List Activation) :
    drive config env fuel ⟨child, waiting, ledger⟩ =
      some (.failed cause (unfinished ++ waiting) left) := by
  obtain ⟨_, _, _, n, hn, hdrive⟩ := exists_last_of_drive h waiting
  have hfuel := hdrive (fuel - n)
  rw [Nat.sub_add_cancel hn] at hfuel
  exact hfuel

/-- What a frame leaves when it ends above waiting frames is what it leaves when
it runs on its own. -/
theorem exists_drive_of_ends {child : Activation} {ledger left : σ}
    {waiting : List Activation} {last : Running σ} {exit : Exit}
    (hruns : RunsAbove config env waiting ⟨child, waiting, ledger⟩ last)
    (hwaiting : last.waiting = waiting)
    (hends : turn config env last.top last.ledger =
      .concludes (.finished exit left)) :
    ∃ fuel, drive config env fuel ⟨child, [], ledger⟩ =
      some (.finished exit left) := by
  rw [← above_alone] at hruns
  obtain ⟨⟨top, own, ended⟩, rfl, hreaches⟩ := exists_of_runsAbove hruns
  obtain rfl : own = [] := by simpa [above] using hwaiting
  have hdrive : drive config env 1 ⟨top, [], ended⟩ =
      some (.finished exit left) := by
    rw [drive_alone_succ]
    simp only [above] at hends
    rw [hends]
  exact exists_drive_of_reaches hreaches hdrive

/-- The explicit stack of frames implements recursion.  A frame that finishes on
its own finishes in the same way above any waiting frames, of which only the
next goes on, resumed with the exit; a frame that fails on its own fails in the
same way and touches none of them.  So driving a stack is unwinding it by
recursive evaluation, and what becomes of a frame does not depend on the frames
below it: above others it ends only as it ends on its own, and concludes only if
it does so on its own. -/
theorem frame_stack_implements_recursion (config : Config) (env : Environment)
    (child : Activation) (ledger : σ) :
    (∀ fuel exit left,
      drive config env fuel ⟨child, [], ledger⟩ = some (.finished exit left) →
      ∀ parent below,
        (∃ last, RunsAbove config env (parent :: below) ⟨child, parent :: below,
          ledger⟩ last ∧
          advance config env last =
            match parent.frame.resume child.role exit with
            | .ok frame => .running ⟨{ parent with frame }, below, left⟩
            | .error cause =>
              .concluded (.failed (.halt cause) (parent :: below) left)) ∧
        ∃ n ≤ fuel, ∀ more,
          drive config env (more + n) ⟨child, parent :: below, ledger⟩ =
          match parent.frame.resume child.role exit with
          | .ok frame =>
            drive config env more ⟨{ parent with frame }, below, left⟩
          | .error cause =>
            some (.failed (.halt cause) (parent :: below) left)) ∧
    (∀ fuel cause unfinished left,
      drive config env fuel ⟨child, [], ledger⟩ =
        some (.failed cause unfinished left) →
      ∀ waiting, drive config env fuel ⟨child, waiting, ledger⟩ =
        some (.failed cause (unfinished ++ waiting) left)) ∧
    (∀ waiting conclusion,
      (∃ fuel, drive config env fuel ⟨child, waiting, ledger⟩ =
        some conclusion) ↔
        ∃ fuel, unwind config env fuel child waiting ledger = some conclusion) ∧
    (∀ waiting last exit left,
      RunsAbove config env waiting ⟨child, waiting, ledger⟩ last →
      last.waiting = waiting →
      turn config env last.top last.ledger = .concludes (.finished exit left) →
      ∃ fuel, drive config env fuel ⟨child, [], ledger⟩ =
        some (.finished exit left)) ∧
    (∀ fuel waiting conclusion,
      drive config env fuel ⟨child, waiting, ledger⟩ = some conclusion →
      ∃ own, drive config env fuel ⟨child, [], ledger⟩ = some own) := by
  refine ⟨fun fuel exit left h => resumes_of_finished h,
    fun fuel cause unfinished left h => drive_of_failed h,
    fun waiting conclusion =>
      exists_drive_iff_exists_unwind child waiting ledger conclusion,
    fun waiting last exit left hruns hwaiting hends =>
      exists_drive_of_ends hruns hwaiting hends, ?_⟩
  intro fuel waiting conclusion h
  obtain ⟨own, _, _, hown, _⟩ := exists_split_of_drive h
  exact ⟨own, hown⟩

end ContractMachine.Transaction
