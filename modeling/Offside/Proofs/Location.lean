import Offside.Location

/-!
# How far a text reaches

Line, offset and file of the place after a text. The line counts the line feeds and the offset the
characters of the text, while the column depends on where the text starts.
-/

namespace Offside.Location

@[simp]
theorem advance_line (location : Location) (c : Char) :
    (location.advance c).line = location.line + if c = '\n' then 1 else 0 := by
  unfold advance
  split
  · rfl
  · split <;> exact (Int.add_zero _).symm

@[simp]
theorem advance_offset (location : Location) (c : Char) :
    (location.advance c).offset = location.offset + 1 := by
  unfold advance
  split
  · rfl
  · split <;> rfl

@[simp]
theorem advance_file (location : Location) (c : Char) :
    (location.advance c).file = location.file := by
  unfold advance
  split
  · rfl
  · split <;> rfl

theorem advanceAll_line (location : Location) (chars : List Char) :
    (location.advanceAll chars).line = location.line + chars.count '\n' := by
  induction chars generalizing location with
  | nil => exact (Int.add_zero _).symm
  | cons c rest ih =>
      rw [advanceAll_cons, ih, advance_line, List.count_cons]
      split
      · rw [if_pos (by simpa using ‹c = '\n'›)]
        omega
      · rw [if_neg (by simpa using ‹¬c = '\n'›)]
        omega

theorem advanceAll_offset (location : Location) (chars : List Char) :
    (location.advanceAll chars).offset = location.offset + chars.length := by
  induction chars generalizing location with
  | nil => rfl
  | cons c rest ih =>
      rw [advanceAll_cons, ih, advance_offset, List.length_cons]
      omega

theorem advanceAll_file (location : Location) (chars : List Char) :
    (location.advanceAll chars).file = location.file := by
  induction chars generalizing location with
  | nil => rfl
  | cons c rest ih => rw [advanceAll_cons, ih, advance_file]

end Offside.Location
