/-!
# Byte strings

Code, call data, memory and hashed messages are byte strings.  A byte string
is read as if zeros followed it without end: `window` cuts a piece of any
length out of that endless string, and `getElem?_window` says so byte by byte.
`overwrite` replaces a piece, and `getD_overwrite` says which.
-/

namespace ContractMachine

/-- A finite string of bytes. -/
abbrev Bytes := Array UInt8

namespace Bytes

/-- The `length` bytes from `offset` on, with zeros past the end of `source`. -/
def window (source : Bytes) (offset length : Nat) : Bytes :=
  let present := source.extract offset (offset + length)
  present ++ Array.replicate (length - present.size) 0

/-- Writes `content` over the bytes from `offset` on; what would stand past the
end is dropped, so the size never changes. -/
def overwrite (target : Bytes) (offset : Nat) : List UInt8 → Bytes
  | [] => target
  | byte :: rest =>
    overwrite (target.setIfInBounds offset byte) (offset + 1) rest

@[simp]
theorem size_window (source : Bytes) (offset length : Nat) :
    (source.window offset length).size = length := by
  simp [window]
  omega

/-- A window shows the bytes of its source, and zero where there are none. -/
theorem getElem?_window (source : Bytes) (offset length i : Nat)
    (hi : i < length) :
    (source.window offset length)[i]? = some (source.getD (offset + i) 0) := by
  simp only [window, Array.getElem?_append, Array.size_extract,
    Array.getElem?_extract, Array.getElem?_replicate,
    Array.getD_eq_getD_getElem?]
  by_cases h : offset + i < source.size
  · rw [if_pos (by omega), if_pos (by omega), Array.getElem?_eq_getElem h,
      Option.getD_some]
  · rw [if_neg (by omega), if_pos (by omega), Array.getElem?_eq_none (by omega),
      Option.getD_none]

@[simp]
theorem size_overwrite (target : Bytes) (offset : Nat) (content : List UInt8) :
    (target.overwrite offset content).size = target.size := by
  induction content generalizing target offset with
  | nil => rfl
  | cons byte rest ih => simp [overwrite, ih]

/-- Overwriting changes the bytes under the content and no others. -/
theorem getD_overwrite (target : Bytes) (offset : Nat) (content : List UInt8)
    (i : Nat) (h : offset + content.length ≤ target.size) :
    (target.overwrite offset content).getD i 0 =
      if offset ≤ i ∧ i < offset + content.length then
        content.getD (i - offset) 0
      else target.getD i 0 := by
  induction content generalizing target offset with
  | nil => simp [overwrite, show ¬(offset ≤ i ∧ i < offset) by omega]
  | cons byte rest ih =>
    rw [List.length_cons] at h
    rw [overwrite, ih _ _ (by rw [Array.size_setIfInBounds]; omega),
      List.length_cons]
    rcases Nat.lt_trichotomy i offset with hi | rfl | hi
    · rw [if_neg (by omega), if_neg (by omega)]
      simp [Array.getD_eq_getD_getElem?, show offset ≠ i by omega]
    · rw [if_neg (by omega), if_pos (by omega)]
      simp [Array.getD_eq_getD_getElem?, show i < target.size by omega]
    · by_cases hend : i < offset + (rest.length + 1)
      · rw [if_pos (by omega), if_pos (by omega),
          show i - offset = i - (offset + 1) + 1 by omega, List.getD_cons_succ]
      · rw [if_neg (by omega), if_neg (by omega)]
        simp [Array.getD_eq_getD_getElem?, show offset ≠ i by omega]

end Bytes

end ContractMachine
