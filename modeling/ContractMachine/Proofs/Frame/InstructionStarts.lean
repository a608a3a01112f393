import ContractMachine.Frame.JumpTable
import Mathlib

/-!
# Where instructions start

Instructions start at the first byte of a code and, from there on, after each
instruction and the bytes that belong to it.  There is no choice in this walk,
so of two starts one is reached from the other, and no start lies between an
instruction and the next one: the bytes passed over are exactly those that some
`PUSH` takes as its number.

The table of jump destinations is found by one scan over all bytes, which counts
down the bytes to pass over; it marks the `JUMPDEST` bytes at which an
instruction starts, and no others.
-/

namespace ContractMachine

/-- An instruction at a position is followed by the one after the bytes that
belong to it. -/
def Follows (code : Bytes) (position next : Nat) : Prop :=
  ∃ byte, code[position]? = some byte ∧
    next = position + (1 + (Opcode.decode byte).immediateLength)

/-- The positions at which instructions start. -/
def IsStart (code : Bytes) : Nat → Prop :=
  Relation.ReflTransGen (Follows code) 0

/-- A position is passed over if it holds part of the number of a `PUSH`. -/
def IsPushed (code : Bytes) (position : Nat) : Prop :=
  ∃ start byte n, IsStart code start ∧ code[start]? = some byte ∧
    Opcode.decode byte = .push n ∧
    start < position ∧ position ≤ start + n

variable {code : Bytes} {position next : Nat}

theorem rightUnique_follows (code : Bytes) :
    Relator.RightUnique (Follows code) := by
  rintro position _ _ ⟨byte, hbyte, rfl⟩ ⟨other, hother, rfl⟩
  rw [hbyte] at hother
  cases hother
  rfl

theorem le_of_reaches (h : Relation.ReflTransGen (Follows code) position next) :
    position ≤ next := by
  induction h with
  | refl => exact le_rfl
  | tail _ hlast ih =>
    obtain ⟨_, _, rfl⟩ := hlast
    exact Nat.le_add_right_of_le ih

/-- Before a later start lies a whole instruction. -/
theorem IsStart.next_le {later : Nat} (h : IsStart code position)
    (hlater : IsStart code later) (hlt : position < later) :
    ∃ byte, code[position]? = some byte ∧
      position + (1 + (Opcode.decode byte).immediateLength) ≤ later := by
  have hreaches : Relation.ReflTransGen (Follows code) position later := by
    obtain hforward | hback :=
      Relation.ReflTransGen.total_of_right_unique (rightUnique_follows code)
        h hlater
    · exact hforward
    · exact absurd (le_of_reaches hback) (Nat.not_le.2 hlt)
  obtain rfl | ⟨_, ⟨byte, hbyte, rfl⟩, hrest⟩ := hreaches.cases_head
  · exact absurd hlt (Nat.lt_irrefl _)
  · exact ⟨byte, hbyte, le_of_reaches hrest⟩

/-- Every position of a code belongs to some instruction. -/
theorem exists_start_le (h : position < code.size) :
    ∃ start byte, IsStart code start ∧ code[start]? = some byte ∧
      start ≤ position ∧
      position < start + (1 + (Opcode.decode byte).immediateLength) := by
  induction position with
  | zero =>
    exact ⟨0, code[0], .refl, Array.getElem?_eq_getElem h, le_rfl, by omega⟩
  | succ position ih =>
    obtain ⟨start, byte, hstart, hbyte, hle, hlt⟩ := ih (Nat.lt_of_succ_lt h)
    by_cases hinside : position + 1 <
      start + (1 + (Opcode.decode byte).immediateLength)
    · exact ⟨start, byte, hstart, hbyte, Nat.le_succ_of_le hle, hinside⟩
    · have hnext : position + 1 =
          start + (1 + (Opcode.decode byte).immediateLength) := by omega
      have hfollows : IsStart code (position + 1) :=
        hstart.tail ⟨byte, hbyte, hnext⟩
      exact ⟨position + 1, code[position + 1], hfollows,
        Array.getElem?_eq_getElem h, le_rfl, by omega⟩

theorem eq_push_of_immediateLength_pos {opcode : Opcode}
    (h : 0 < opcode.immediateLength) :
    opcode = .push opcode.immediateLength := by
  cases opcode with
  | push n => rfl
  | _ => exact absurd h (Nat.lt_irrefl 0)

/-- Instructions start where no `PUSH` has its number. -/
theorem isStart_iff_not_isPushed (h : position < code.size) :
    IsStart code position ↔ ¬ IsPushed code position := by
  constructor
  · rintro hstart ⟨start, byte, n, hpush, hbyte, hopcode, hlt, hle⟩
    obtain ⟨found, hfound, hnext⟩ := hpush.next_le hstart hlt
    rw [hbyte] at hfound
    cases hfound
    rw [hopcode, Opcode.immediateLength] at hnext
    omega
  · intro hfree
    obtain ⟨start, byte, hstart, hbyte, hle, hlt⟩ := exists_start_le h
    obtain rfl | hbefore := Nat.eq_or_lt_of_le hle
    · exact hstart
    · have hpush : Opcode.decode byte =
          .push (Opcode.decode byte).immediateLength :=
        eq_push_of_immediateLength_pos (by omega)
      exact absurd ⟨start, byte, _, hstart, hbyte, hpush, hbefore,
        by omega⟩ hfree

/-! ## The table of jump destinations -/

theorem decode_eq_jumpDest_iff {byte : UInt8} :
    Opcode.decode byte = .jumpDest ↔ byte = Opcode.jumpDest.encode := by
  constructor
  · intro h
    rw [← h, Opcode.encode_decode]
  · rintro rfl
    rfl

namespace JumpTable

/-- What a scan finds from a position on, if the next start is as many bytes
ahead as are passed over. -/
theorem getElem?_scan {skipped : Nat}
    (hnext : IsStart code (position + skipped))
    (hgap : ∀ start, IsStart code start → position ≤ start →
      position + skipped ≤ start)
    (k : Nat) :
    (scan skipped (code.toList.drop position))[k]? = some true ↔
      code[position + k]? = some Opcode.jumpDest.encode ∧
      IsStart code (position + k) := by
  induction hbytes : code.toList.drop position generalizing position skipped
    k with
  | nil =>
    have hend : code.size ≤ position := by simpa using hbytes
    rw [scan, Array.getElem?_eq_none (hend.trans (Nat.le_add_right ..))]
    simp
  | cons byte rest ih =>
    have hbyte : code[position]? = some byte := by
      rw [← Array.getElem?_toList, ← List.head?_drop, hbytes, List.head?_cons]
    have hrest : code.toList.drop (position + 1) = rest := by
      rw [← List.tail_drop, hbytes, List.tail_cons]
    have hshift : ∀ k, position + (k + 1) = position + 1 + k := by omega
    cases skipped with
    | succ skipped =>
      cases k with
      | zero =>
        have hnot : ¬ IsStart code position := fun hstart =>
          absurd (hgap position hstart le_rfl) (by omega)
        simp [scan, hnot]
      | succ k =>
        rw [scan, List.getElem?_cons_succ, hshift k]
        refine ih ?_ (fun start hstart hle => ?_) k hrest
        · rwa [← hshift skipped]
        · have := hgap start hstart (by omega)
          omega
    | zero =>
      have hstart : IsStart code position := hnext
      cases k with
      | zero => simp [scan, hbyte, hstart, decode_eq_jumpDest_iff]
      | succ k =>
        rw [scan, List.getElem?_cons_succ, hshift k]
        refine ih ?_ (fun start hlater hle => ?_) k hrest
        · exact hstart.tail ⟨byte, hbyte, by omega⟩
        · obtain ⟨found, hfound, hnext⟩ := hstart.next_le hlater hle
          rw [hbyte] at hfound
          cases hfound
          omega

/-- The destinations of a code are the `JUMPDEST` bytes at which an instruction
starts. -/
theorem isValid_ofCode_iff :
    (ofCode code).isValid position = true ↔
      code[position]? = some Opcode.jumpDest.encode ∧
      IsStart code position := by
  have hstart : IsStart code (0 + 0) := .refl
  have hscan := getElem?_scan hstart (fun start _ _ => Nat.zero_le start)
    position
  rw [List.drop_zero, Nat.zero_add] at hscan
  rw [← hscan, isValid, ofCode, Array.getD_eq_getD_getElem?,
    List.getElem?_toArray]
  cases (scan 0 code.toList)[position]? <;> simp

theorem lt_size_of_isValid (h : (ofCode code).isValid position = true) :
    position < code.size := by
  obtain ⟨hbyte, _⟩ := isValid_ofCode_iff.1 h
  exact (Array.getElem?_eq_some_iff.1 hbyte).1

end JumpTable

end ContractMachine
