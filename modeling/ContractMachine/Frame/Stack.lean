import ContractMachine.Halt
import ContractMachine.Word.Basic

/-!
# The operand stack

A stack is the list of its words, the top first, and holds at most 1024 of
them.  Depths count from the top.
-/

namespace ContractMachine

/-- The operand stack, top first. -/
abbrev Stack := List Word

namespace Stack

/-- The largest number of words on a stack. -/
def limit : Nat := 1024

/-- Puts a word on top. -/
def push (stack : Stack) (word : Word) : Except Halt Stack :=
  if stack.length < limit then .ok (word :: stack) else .error .stackOverflow

/-- The top, and what is beneath it. -/
def pop : Stack → Except Halt (Word × Stack)
  | [] => .error .stackUnderflow
  | word :: rest => .ok (word, rest)

/-- Fails unless there are `n` words. -/
def require (stack : Stack) (n : Nat) : Except Halt Unit :=
  if stack.length < n then .error .stackUnderflow else .ok ()

/-- The topmost `n` words, top first, and what is beneath them. -/
def popMany (stack : Stack) (n : Nat) : Except Halt (List Word × Stack) :=
  if stack.length < n then .error .stackUnderflow
  else .ok (stack.take n, stack.drop n)

/-- The word at a depth; the top has depth zero. -/
def peek (stack : Stack) (depth : Nat) : Except Halt Word :=
  match stack[depth]? with
  | some word => .ok word
  | none => .error .stackUnderflow

/-- Swaps the top with the word at a depth, which must not be the top. -/
def swap (stack : Stack) (depth : Nat) : Except Halt Stack :=
  match depth, stack[0]?, stack[depth]? with
  | 0, _, _ => .error .stackUnderflow
  | _, some first, some deep => .ok ((stack.set 0 deep).set depth first)
  | _, _, _ => .error .stackUnderflow

/-- Pushes a copy of the `n`th word, counting the top as the first. -/
def dup (stack : Stack) (n : Nat) : Except Halt Stack :=
  match n with
  | 0 => .error .stackUnderflow
  | depth + 1 =>
    match stack[depth]? with
    | some word => stack.push word
    | none => .error .stackUnderflow

end Stack

end ContractMachine
