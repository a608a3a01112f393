import ContractMachine.Proofs.Execution.Failures
import ContractMachine.Proofs.Execution.Strict

/-!
# Strict execution agrees with execution

An instruction that has been authorized has its operands and the room for its
results, and every range of memory that it uses is one that it has paid for a
moment ago.  `Agrees` follows the two machines through an instruction with just
this knowledge: the stack as it is, and the ranges that are covered.  It has one
rule for each elementary action and one for each way in which actions are put
together, and also keeps account of what is paid, of how an instruction may
fail, and of what it leaves on the stack.
-/

namespace ContractMachine

/-- Failures for want of operands or of room on the stack. -/
def Failure.IsStackFault (failure : Failure) : Prop :=
  failure = .halt .stackUnderflow ∨ failure = .halt .stackOverflow

namespace Stack

variable {top rest : Stack} {n : Nat}

/-- A copy is taken from the words at the top, and the others do not matter. -/
theorem exists_dup (hpos : 1 ≤ n) (hn : n ≤ top.length)
    (hroom : (top ++ rest).length < limit) :
    ∃ results : Stack,
      results.length = top.length + 1 ∧ top.dup n = .ok results ∧
      dup (top ++ rest) n = .ok (results ++ rest) := by
  obtain ⟨depth, rfl⟩ := Nat.exists_eq_add_of_le' hpos
  have htop : top.length < limit := by
    rw [List.length_append] at hroom
    omega
  refine ⟨top.get ⟨depth, hn⟩ :: top, rfl, ?_, ?_⟩
  · simp only [dup, List.getElem?_eq_getElem hn, push, if_pos htop,
      List.get_eq_getElem]
  · simp only [dup, List.getElem?_append_left hn,
      List.getElem?_eq_getElem hn, push, if_pos hroom, List.get_eq_getElem,
      List.cons_append]

/-- A word is swapped with one of those at the top, and the others do not
matter. -/
theorem exists_swap (rest : Stack) (hpos : 1 ≤ n) (hn : n < top.length) :
    ∃ results : Stack, results.length = top.length ∧ top.swap n = .ok results ∧
      swap (top ++ rest) n = .ok (results ++ rest) := by
  obtain ⟨depth, rfl⟩ := Nat.exists_eq_add_of_le' hpos
  have hfirst : 0 < top.length := Nat.zero_lt_of_lt hn
  refine ⟨(top.set 0 (top.get ⟨depth + 1, hn⟩)).set (depth + 1)
    (top.get ⟨0, hfirst⟩), ?_, ?_, ?_⟩
  · simp only [List.length_set]
  · simp only [swap, List.getElem?_eq_getElem hn,
      List.getElem?_eq_getElem hfirst, List.get_eq_getElem]
  · simp only [swap, List.getElem?_append_left hn,
      List.getElem?_append_left hfirst, List.getElem?_eq_getElem hn,
      List.getElem?_eq_getElem hfirst, List.get_eq_getElem]
    rw [List.set_append_left _ _ hfirst, List.set_append_left]
    rw [List.length_set]
    exact hn

end Stack

namespace Strict

open Exec Execution Actions

variable {σ α β : Type} {schedule : Schedule} {stack : Stack}
  {ranges : List Range}

/-- What is known of a frame in the middle of an instruction: its stack, and
ranges that have been paid for. -/
structure At (stack : Stack) (ranges : List Range) (live : Live σ) : Prop where
  stack_eq : live.frame.stack = stack
  covers : ∀ range ∈ ranges, live.frame.memory.Covers range

theorem At.subset {fewer : List Range} {live : Live σ}
    (h : At stack ranges live) (hfewer : ∀ range ∈ fewer, range ∈ ranges) :
    At stack fewer live where
  stack_eq := h.stack_eq
  covers range hrange := h.covers range (hfewer range hrange)

theorem At.grown {live after : Live σ} (h : At stack ranges live)
    (hstack : after.frame.stack = live.frame.stack)
    (hsize : live.frame.memory.size ≤ after.frame.memory.size) :
    At stack ranges after where
  stack_eq := hstack.trans h.stack_eq
  covers range hrange := (h.covers range hrange).of_size_le hsize

/-- How an action on a frame may end: memory is paid for, and either something
holds of what comes out or the action has failed, but not on the stack. -/
def Ends (schedule : Schedule) (live : Live σ) (post : α → Live σ → Prop) :
    EStateM.Result Failure (Live σ) α → Prop
  | .ok a after => live.frame.Pays schedule after.frame ∧ post a after
  | .error cause after =>
    live.frame.Pays schedule after.frame ∧ ¬ cause.IsStackFault

theorem Ends.after {before live : Live σ} {post : α → Live σ → Prop}
    {result : EStateM.Result Failure (Live σ) α}
    (h : Ends schedule live post result)
    (hpays : before.frame.Pays schedule live.frame) :
    Ends schedule before post result := by
  cases result with
  | ok a after => exact ⟨hpays.trans h.1, h.2⟩
  | error cause after => exact ⟨hpays.trans h.1, h.2⟩

/-- Two actions that do the same wherever something is known of the frame, and
end well there. -/
def Agrees (schedule : Schedule) (pre : Live σ → Prop) (x y : Exec σ α)
    (post : α → Live σ → Prop) : Prop :=
  ∀ live, pre live → x live = y live ∧ Ends schedule live post (y live)

/-! ## Rules -/

section Rules

variable {pre : Live σ → Prop} {x y : Exec σ α} {post : α → Live σ → Prop}

theorem Agrees.bind {mid : α → Live σ → Prop} {f g : α → Exec σ β}
    {post : β → Live σ → Prop} (hxy : Agrees schedule pre x y mid)
    (hfg : ∀ a, Agrees schedule (mid a) (f a) (g a) post) :
    Agrees schedule pre (x >>= f) (y >>= g) post := by
  intro live hpre
  obtain ⟨hsame, hends⟩ := hxy live hpre
  cases hy : y live with
  | error cause reached =>
    rw [hy] at hsame hends
    rw [bind_of_error hsame, bind_of_error hy]
    exact ⟨rfl, hends⟩
  | ok a reached =>
    rw [hy] at hsame hends
    rw [bind_of_ok hsame, bind_of_ok hy]
    obtain ⟨hpays, hmid⟩ := hends
    obtain ⟨hrest, hlast⟩ := hfg a reached hmid
    exact ⟨hrest, hlast.after hpays⟩

theorem Agrees.weaken {weaker : α → Live σ → Prop}
    (h : Agrees schedule pre x y post)
    (hweaker : ∀ a live, post a live → weaker a live) :
    Agrees schedule pre x y weaker := by
  intro live hpre
  obtain ⟨hsame, hends⟩ := h live hpre
  refine ⟨hsame, ?_⟩
  cases hy : y live with
  | error cause after =>
    rw [hy] at hends
    exact hends
  | ok a after =>
    rw [hy] at hends
    exact ⟨hends.1, hweaker a after hends.2⟩

theorem agrees_pure {a : α} (h : ∀ live, pre live → post a live) :
    Agrees schedule pre (pure a) (pure a) post :=
  fun live hpre => ⟨rfl, .refl _, h live hpre⟩

theorem agrees_return (a : α) :
    Agrees schedule pre (pure a) (pure a) fun _ => pre :=
  agrees_pure fun _ => id

theorem agrees_halt {cause : Halt} (h : ¬ (Failure.halt cause).IsStackFault) :
    Agrees schedule pre (halt cause) (halt cause) post :=
  fun _ _ => ⟨rfl, .refl _, h⟩

theorem agrees_halt_bind {γ : Type} {cause : Halt}
    (h : ¬ (Failure.halt cause).IsStackFault) {f : β → Exec σ α}
    {g : γ → Exec σ α} :
    Agrees schedule pre (halt cause >>= f) (halt cause >>= g) post :=
  fun _ _ => ⟨rfl, .refl _, h⟩

theorem agrees_getFrame : Agrees schedule pre getFrame getFrame fun _ => pre :=
  fun _ hpre => ⟨rfl, .refl _, hpre⟩

theorem agrees_ask (read : σ → Except LedgerError α) :
    Agrees schedule pre (ask read) (ask read) fun _ => pre := by
  intro live hpre
  rw [ask]
  cases read live.ledger with
  | ok answer => exact ⟨rfl, .refl _, hpre⟩
  | error cause => exact ⟨rfl, .refl _, by simp [Failure.IsStackFault]⟩

theorem agrees_tell (write : EStateM LedgerError σ α) :
    Agrees schedule (At stack ranges) (tell write) (tell write) fun _ =>
      At stack ranges := by
  intro live hat
  unfold Exec.tell
  cases write live.ledger with
  | ok result after => exact ⟨rfl, .refl _, hat.stack_eq, hat.covers⟩
  | error cause after => exact ⟨rfl, .refl _, by simp [Failure.IsStackFault]⟩

theorem agrees_modifyEffects (f : Effects → Effects) :
    Agrees schedule (At stack ranges) (modifyEffects f : Exec σ Unit)
      (modifyEffects f)
      fun _ => At stack ranges :=
  fun _ hat => ⟨rfl, .of_size_eq rfl le_rfl, hat.stack_eq, hat.covers⟩

theorem agrees_charge (amount : Nat) :
    Agrees schedule (At stack ranges) (charge amount : Exec σ Unit)
      (charge amount)
      fun _ => At stack ranges := by
  intro live hat
  have hpays : live.frame.Pays schedule
      (left (Frame.charge amount live.frame)) :=
    Frame.pays_charge amount live.frame
  rw [charge, Exec.frame]
  cases hcharge : Frame.charge amount live.frame with
  | ok _ paid =>
    rw [hcharge] at hpays
    obtain ⟨_, rfl⟩ := Frame.charge_eq_ok hcharge
    exact ⟨rfl, hpays, hat.grown rfl le_rfl⟩
  | error cause paid =>
    rw [hcharge] at hpays
    refine ⟨rfl, hpays, ?_⟩
    rw [charge_eq_error hcharge]
    simp [Failure.IsStackFault]

/-- What is paid for is covered afterwards. -/
theorem agrees_touch {offset length : Word} {f g : Range → Exec σ α}
    (h : ∀ range, range.length = length.toNat →
      Agrees schedule (At stack (range :: ranges)) (f range) (g range) post) :
    Agrees schedule (At stack ranges) (touch schedule offset length >>= f)
      (touch schedule offset length >>= g) post := by
  have htouch : Agrees schedule (At stack ranges)
      (touch schedule offset length : Exec σ Range)
      (touch schedule offset length)
      fun range live => range.length = length.toNat ∧
        At stack (range :: ranges) live := by
    intro live hat
    have hpays := Frame.pays_touch schedule offset length live.frame
    rw [touch, Exec.frame]
    cases htouch : Frame.touch schedule offset length live.frame with
    | ok range touched =>
      rw [htouch] at hpays
      have htouches := Frame.touches_of_touch htouch
      have hstack : touched.stack = live.frame.stack := by
        rw [htouches.frame_eq]
      refine ⟨rfl, hpays, htouches.range_length, ?_⟩
      have hgrown : At stack ranges ({ live with frame := touched } : Live σ) :=
        hat.grown hstack htouches.grows
      exact ⟨hgrown.stack_eq,
        List.forall_mem_cons.2 ⟨htouches.covers, hgrown.covers⟩⟩
    | error cause touched =>
      rw [htouch] at hpays
      refine ⟨rfl, hpays, ?_⟩
      rw [touch_eq_error htouch]
      simp [Failure.IsStackFault]
  refine htouch.bind fun range live => ?_
  rintro ⟨hlength, hat⟩
  exact h range hlength live hat

theorem agrees_jump (destination : Word) :
    Agrees schedule (At stack ranges)
      (Exec.frame (Frame.jump destination) : Exec σ Unit)
        (Exec.frame (Frame.jump destination)) fun _ => At stack ranges := by
  intro live hat
  rw [Exec.frame, Frame.jump]
  by_cases hvalid : live.frame.jumps.isValid destination.toCount
  · rw [if_pos hvalid]
    exact ⟨rfl, .of_size_eq rfl le_rfl, hat.stack_eq, hat.covers⟩
  · rw [if_neg hvalid]
    exact ⟨rfl, .refl _, by simp [Failure.IsStackFault]⟩

theorem agrees_load (fault : Failure) {range : Range} (h : range ∈ ranges) :
    Agrees schedule (At stack ranges) (load fault range : Exec σ Bytes)
      (Exec.load range)
      fun _ => At stack ranges := by
  intro live hat
  have hcovers := hat.covers range h
  rw [load, Exec.load, Memory.load?, if_pos hcovers,
    Memory.load_of_covers hcovers]
  exact ⟨rfl, .refl _, hat⟩

/-- A change of memory that is possible where some ranges are covered, and
leaves its size. -/
theorem agrees_modifyMemory (fault : Failure) {change : Memory → Option Memory}
    {f : Memory → Memory}
    (h : ∀ memory : Memory, (∀ range ∈ ranges, memory.Covers range) →
      change memory = some (f memory) ∧ (f memory).size = memory.size) :
    Agrees schedule (At stack ranges) (modifyMemory fault change : Exec σ Unit)
      (Exec.modifyMemory f) fun _ => At stack ranges := by
  intro live hat
  obtain ⟨hchange, hsize⟩ := h live.frame.memory hat.covers
  rw [modifyMemory, hchange]
  exact ⟨rfl, .of_size_eq hsize le_rfl, hat.grown rfl hsize.ge⟩

theorem agrees_store (fault : Failure) {range : Range} (h : range ∈ ranges)
    {content : Bytes} (hsize : content.size ≤ range.length) :
    Agrees schedule (At stack ranges)
      (modifyMemory fault (·.store? range.offset content) : Exec σ Unit)
      (Exec.modifyMemory (·.store range.offset content)) fun _ =>
        At stack ranges := by
  refine agrees_modifyMemory fault fun memory hcovers => ?_
  have hstore := Memory.store?_of_covers ((hcovers range h).shorten hsize)
  exact ⟨hstore, Memory.size_of_store? hstore⟩

theorem agrees_ite {condition : Prop} [Decidable condition] {x' y' : Exec σ α}
    (hxy : condition → Agrees schedule pre x y post)
    (hxy' : ¬ condition → Agrees schedule pre x' y' post) :
    Agrees schedule pre (if condition then x else x')
      (if condition then y else y') post := by
  by_cases hcondition : condition
  · rw [if_pos hcondition, if_pos hcondition]
    exact hxy hcondition
  · rw [if_neg hcondition, if_neg hcondition]
    exact hxy' hcondition

theorem agrees_ite_bind {γ : Type} {condition : Prop} [Decidable condition]
    {x x' : Exec σ β} {y y' : Exec σ γ} {f : β → Exec σ α} {g : γ → Exec σ α}
    (hxy : condition → Agrees schedule pre (x >>= f) (y >>= g) post)
    (hxy' : ¬ condition → Agrees schedule pre (x' >>= f) (y' >>= g) post) :
    Agrees schedule pre ((if condition then x else x') >>= f)
      ((if condition then y else y') >>= g) post := by
  by_cases hcondition : condition
  · rw [if_pos hcondition, if_pos hcondition]
    exact hxy hcondition
  · rw [if_neg hcondition, if_neg hcondition]
    exact hxy' hcondition

/-- An action before which another is made under a condition. -/
theorem agrees_guarded {condition : Prop} [Decidable condition]
    {z : Exec σ Unit} {f g : Unit → Exec σ α}
    (hz : Agrees schedule pre z z fun _ => pre)
    (hfg : Agrees schedule pre (f ()) (g ()) post) :
    Agrees schedule pre (if condition then z >>= f else f ())
      (if condition then z >>= g else g ()) post :=
  agrees_ite (fun _ => hz.bind fun _ => hfg) fun _ => hfg

end Rules

/-! ## The stack -/

/-- The frame without the topmost `n` words of its stack. -/
def taken (n : Nat) (live : Live σ) : Live σ :=
  { live with frame := { live.frame with stack := live.frame.stack.drop n } }

theorem taken_zero (live : Live σ) : taken 0 live = live := by
  rw [taken, List.drop_zero]

theorem taken_taken (m n : Nat) (live : Live σ) :
    taken n (taken m live) = taken (m + n) live := by
  simp only [taken, List.drop_drop]

theorem onStack_of_ok {f : Stack → Except Halt (α × Stack)} {live : Live σ}
    {a : α} {rest : Stack} (h : f live.frame.stack = .ok (a, rest)) :
    onStack f live = .ok a { live with
      frame := { live.frame with stack := rest } } := by
  simp only [onStack, Exec.frame, h]

theorem pop_of_pos {live : Live σ} (h : 1 ≤ live.frame.stack.length) :
    pop live = .ok ((live.frame.stack.take 1).getD 0 0) (taken 1 live) := by
  apply onStack_of_ok
  cases hstack : live.frame.stack with
  | nil => simp [hstack] at h
  | cons word rest => rfl

theorem popEach_of_le {n : Nat} {live : Live σ}
    (h : n ≤ live.frame.stack.length) :
    popEach n live = .ok (live.frame.stack.take n) (taken n live) := by
  induction n generalizing live with
  | zero =>
    rw [taken_zero]
    rfl
  | succ n ih =>
    -- One word is taken here, and the others from what it leaves.
    obtain ⟨word, rest, hstack⟩ :=
      List.exists_cons_of_length_pos (Nat.zero_lt_of_lt h)
    have hrest : (taken 1 live).frame.stack = rest := by
      rw [taken, hstack]
      rfl
    have hword : (live.frame.stack.take 1).getD 0 0 = word := by
      rw [hstack]
      rfl
    rw [hstack, List.length_cons] at h
    rw [popEach,
      bind_of_ok (pop_of_pos (by rw [hstack]; exact Nat.le_add_left ..)),
      bind_of_ok (ih (by rw [hrest]; exact Nat.le_of_succ_le_succ h)),
      taken_taken, hrest, hword, hstack, Nat.add_comm 1 n]
    rfl

theorem operands_of_le {n : Nat} {live : Live σ}
    (h : n ≤ live.frame.stack.length) :
    operands n live = .ok (fun i => (live.frame.stack.take n).getD i 0)
      (taken n live) := by
  have hpops : onStack (·.popMany n) live =
      .ok (live.frame.stack.take n) (taken n live) := by
    apply onStack_of_ok
    rw [Stack.popMany, if_neg (Nat.not_lt.2 h)]
  rw [operands, bind_of_ok hpops]
  rfl

theorem push_of_lt {word : Word} {live : Live σ}
    (h : live.frame.stack.length < Stack.limit) :
    push word live =
      .ok () { live with
        frame := { live.frame with stack := word :: live.frame.stack } } := by
  apply onStack_of_ok
  rw [Stack.push, if_pos h]
  rfl

/-- The machine that takes the operands beforehand has caught up with the
other. -/
theorem agrees_of_taken {n : Nat} {x y z : Exec σ α} {post : α → Live σ → Prop}
    (hx : ∀ live : Live σ, live.frame.stack = stack → x live = z (taken n live))
    (hz : Agrees schedule (At (stack.drop n) []) z y post) :
    Agrees schedule (At stack []) x
      (modifyFrame (fun frame => { frame with stack := frame.stack.drop n }) >>=
        fun _ => y) post := by
  intro live hat
  have htaken : At (stack.drop n) [] (taken n live) := by
    refine ⟨?_, hat.covers⟩
    rw [← hat.stack_eq]
    rfl
  obtain ⟨hsame, hends⟩ := hz (taken n live) htaken
  rw [hx live hat.stack_eq, hsame]
  exact ⟨rfl, hends.after (.of_size_eq rfl le_rfl)⟩

/-- What an instruction leaves on the stack.  If it makes a request, its result
is still to come, and the range for the output of a call is covered; else all
its results are there. -/
def Replaces (opcode : Opcode) (stack : Stack) (signal : Option Signal)
    (after : Live σ) : Prop :=
  match signal with
  | some (.call request) => after.frame.stack = stack.drop opcode.inputs ∧
      after.frame.memory.Covers request.window
  | some (.create _) => after.frame.stack = stack.drop opcode.inputs
  | none | some (.return _) | some (.revert _) =>
    ∃ results : Stack, results.length = opcode.outputs ∧
      after.frame.stack = results ++ stack.drop opcode.inputs

/-- Words that are put in place of others at the top of the stack. -/
theorem agrees_replaced {opcode : Opcode} {replace : Stack → Except Halt Stack}
    {results : Stack}
    (hreplace : replace stack = .ok (results ++ stack.drop opcode.inputs))
    (houtputs : results.length = opcode.outputs) :
    Agrees schedule (At stack [])
      (onStack (fun stack => (replace stack).map ((), ·)) >>= fun _ =>
        proceed opcode .next :
        Exec σ (Option Signal))
      (modifyFrame (fun frame =>
        { frame with stack := frame.stack.drop opcode.inputs }) >>=
        fun _ => Execution.proceed opcode (.next results))
          (Replaces opcode stack) := by
  intro live hat
  have hreplaced : onStack (fun stack => (replace stack).map ((), ·)) live =
      .ok () { live with
        frame := { live.frame with
          stack := results ++ stack.drop opcode.inputs } } := by
    apply onStack_of_ok
    rw [hat.stack_eq, hreplace]
    rfl
  rw [bind_of_ok hreplaced, ← hat.stack_eq]
  exact ⟨rfl, .of_size_eq rfl le_rfl, results, houtputs, rfl⟩

section Operands

variable {x y : Exec σ α} {f : (Nat → Word) → Exec σ α} {g : Word → Exec σ α}
  {post : α → Live σ → Prop}

theorem agrees_operands {n : Nat} (h : n ≤ stack.length)
    (hf : Agrees schedule (At (stack.drop n) [])
      (f fun i => (stack.take n).getD i 0) y post) :
    Agrees schedule (At stack []) (operands n >>= f)
      (modifyFrame (fun frame => { frame with stack := frame.stack.drop n }) >>=
        fun _ => y) post := by
  refine agrees_of_taken (fun live hstack => ?_) hf
  rw [bind_of_ok (operands_of_le (hstack ▸ h)), hstack]

theorem agrees_pop (h : 1 ≤ stack.length)
    (hg : Agrees schedule (At (stack.drop 1) []) (g ((stack.take 1).getD 0 0))
      y post) :
    Agrees schedule (At stack []) (pop >>= g)
      (modifyFrame (fun frame => { frame with stack := frame.stack.drop 1 }) >>=
        fun _ => y) post := by
  refine agrees_of_taken (fun live hstack => ?_) hg
  rw [bind_of_ok (pop_of_pos (hstack ▸ h)), hstack]

/-- Two words are taken together, and then others one by one. -/
theorem agrees_operands_popEach {n : Nat}
    {f : (Nat → Word) → List Word → Exec σ α} (h : n + 2 ≤ stack.length)
    (hf : Agrees schedule (At (stack.drop (n + 2)) [])
      (f (fun i => (stack.take 2).getD i 0) ((stack.drop 2).take n)) y post) :
    Agrees schedule (At stack [])
      (operands 2 >>= fun operand => popEach n >>= fun words => f operand words)
      (modifyFrame (fun frame =>
        { frame with stack := frame.stack.drop (n + 2) }) >>= fun _ => y)
      post := by
  refine agrees_of_taken (fun live hstack => ?_) hf
  have htwo : 2 ≤ live.frame.stack.length := hstack ▸ Nat.le_of_add_left_le h
  have hrest : n ≤ (taken 2 live).frame.stack.length := by
    rw [taken, List.length_drop, hstack]
    exact Nat.le_sub_of_add_le h
  rw [bind_of_ok (operands_of_le htwo), bind_of_ok (popEach_of_le hrest),
    taken_taken, Nat.add_comm 2 n, taken, hstack]

theorem agrees_without_operands (hx : Agrees schedule (At stack []) x y post) :
    Agrees schedule (At stack []) x
      (modifyFrame (fun frame => { frame with stack := frame.stack.drop 0 }) >>=
        fun _ => y) post :=
  agrees_of_taken (fun live _ => by rw [taken_zero]) hx

end Operands

/-! ## Going on -/

section Going

variable {opcode : Opcode}

theorem agrees_answer (houtputs : opcode.outputs = 1)
    (hroom : (stack.drop opcode.inputs).length < Stack.limit) (word : Word) :
    Agrees schedule (At (stack.drop opcode.inputs) ranges)
      (answer word >>= proceed opcode : Exec σ (Option Signal))
      (Execution.proceed opcode (.next [word])) (Replaces opcode stack) := by
  intro live hat
  have hlength : live.frame.stack.length < Stack.limit := hat.stack_eq ▸ hroom
  rw [answer, bind_assoc, bind_of_ok (push_of_lt hlength)]
  refine ⟨rfl, .of_size_eq rfl le_rfl, [word], houtputs.symm, ?_⟩
  exact congrArg (word :: ·) hat.stack_eq

theorem agrees_next (houtputs : opcode.outputs = 0) :
    Agrees schedule (At (stack.drop opcode.inputs) ranges)
      (proceed opcode .next : Exec σ (Option Signal))
      (Execution.proceed opcode (.next [])) (Replaces opcode stack) :=
  fun _ hat => ⟨rfl, .of_size_eq rfl le_rfl, [], houtputs.symm, hat.stack_eq⟩

theorem agrees_jumped (houtputs : opcode.outputs = 0) (destination : Word) :
    Agrees schedule (At (stack.drop opcode.inputs) ranges)
      (jump destination >>= proceed opcode : Exec σ (Option Signal))
      (Execution.proceed opcode (.jump destination))
      (Replaces opcode stack) := by
  rw [jump, bind_assoc, Execution.proceed]
  refine (agrees_jump destination).bind fun _ => ?_
  exact agrees_pure fun _ hat => ⟨[], houtputs.symm, hat.stack_eq⟩

theorem agrees_ended (houtputs : opcode.outputs = 0) {signal : Signal}
    (hsignal : ¬ signal.IsRequest) :
    Agrees schedule (At (stack.drop opcode.inputs) ranges)
      (proceed opcode (.stop signal) : Exec σ (Option Signal))
      (Execution.proceed opcode (.stop signal)) (Replaces opcode stack) := by
  intro live hat
  refine ⟨rfl, .of_size_eq rfl le_rfl, ?_⟩
  cases signal with
  | call | create => exact absurd trivial hsignal
  | «return» | revert => exact ⟨[], houtputs.symm, hat.stack_eq⟩

theorem agrees_called (request : CallRequest) :
    Agrees schedule (At (stack.drop opcode.inputs) [request.window])
      (proceed opcode (.stop (.call request)) : Exec σ (Option Signal))
      (Execution.proceed opcode (.stop (.call request)))
      (Replaces opcode stack) :=
  fun _ hat => ⟨rfl, .of_size_eq rfl le_rfl, hat.stack_eq,
    hat.covers _ List.mem_cons_self⟩

theorem agrees_created (request : CreateRequest) :
    Agrees schedule (At (stack.drop opcode.inputs) ranges)
      (proceed opcode (.stop (.create request)) : Exec σ (Option Signal))
      (Execution.proceed opcode (.stop (.create request)))
      (Replaces opcode stack) :=
  fun _ hat => ⟨rfl, .of_size_eq rfl le_rfl, hat.stack_eq⟩

end Going

end Strict

end ContractMachine
