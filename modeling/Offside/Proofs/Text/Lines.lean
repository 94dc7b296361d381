import Offside.Proofs.Location
import Offside.Text.Lines
import Mathlib.Data.List.DropRight

/-!
# Lines and columns

Line feeds cut a text into lines. The number of a place's line counts the line feeds before it, and
its column depends on what stands before it on that line. The lines to quote end at other boundaries
too. They are the same lines, but for a carriage return at the end, up to the first line in which
another boundary stands.
-/

namespace Offside

namespace Text

/-! ## Lines between line feeds -/

/-- The line of the character at `offset`: what stands between the line feeds around it. -/
def lineAt (chars : List Char) (offset : Nat) : List Char :=
  (chars.take offset).rtakeWhile (· ≠ '\n') ++ (chars.drop offset).takeWhile (· ≠ '\n')

theorem lineAt_append (before after : List Char) :
    lineAt (before ++ after) before.length =
      before.rtakeWhile (· ≠ '\n') ++ after.takeWhile (· ≠ '\n') := by
  rw [lineAt, List.take_left, List.drop_left]

theorem all_of_not_mem {chars : List Char} (inLine : '\n' ∉ chars) :
    ∀ c ∈ chars, decide (c ≠ '\n') = true :=
  fun _ member => decide_eq_true (ne_of_mem_of_not_mem member inLine)

theorem takeWhile_of_not_mem {chars : List Char} (inLine : '\n' ∉ chars) (after : List Char) :
    (chars ++ after).takeWhile (· ≠ '\n') = chars ++ after.takeWhile (· ≠ '\n') :=
  List.takeWhile_append_of_pos (all_of_not_mem inLine)

theorem rtakeWhile_of_not_mem {chars : List Char} (inLine : '\n' ∉ chars) :
    chars.rtakeWhile (· ≠ '\n') = chars :=
  List.rtakeWhile_eq_self_iff.mpr (all_of_not_mem inLine)

/-- After the last line feed only the end of a text is on its last line. -/
theorem rtakeWhile_append_cons {last : List Char} (inLine : '\n' ∉ last) (before : List Char) :
    (before ++ '\n' :: last).rtakeWhile (· ≠ '\n') = last := by
  induction last using List.reverseRecOn with
  | nil => exact List.rtakeWhile_concat_neg _ _ _ (by decide)
  | append_singleton last c ih =>
      obtain ⟨earlier, here⟩ : '\n' ∉ last ∧ c ≠ '\n' := by
        simpa [eq_comm] using inLine
      rw [← List.cons_append, ← List.append_assoc,
        List.rtakeWhile_concat_pos _ _ _ (by simpa using here), ih earlier]

/-- A text is one line, or there is a last line feed. -/
theorem exists_last_line (chars : List Char) :
    '\n' ∉ chars ∨ ∃ before last, chars = before ++ '\n' :: last ∧ '\n' ∉ last := by
  by_cases member : '\n' ∈ chars
  · obtain ⟨last, before, split, inLine⟩ := List.eq_append_cons_of_mem (List.mem_reverse.mpr member)
    refine .inr ⟨before.reverse, last.reverse, ?_, by simpa using inLine⟩
    rw [← List.reverse_reverse chars, split]
    simp
  · exact .inl member

theorem head?_splitOn (chars : List Char) :
    (chars.splitOn '\n').head? = some (chars.takeWhile (· ≠ '\n')) := by
  by_cases member : '\n' ∈ chars
  · obtain ⟨line, rest, rfl, inLine⟩ := List.eq_append_cons_of_mem member
    rw [List.splitOn_append_cons_self_of_not_mem inLine, takeWhile_of_not_mem inLine]
    simp
  · have whole := takeWhile_of_not_mem member []
    rw [List.append_nil] at whole
    rw [List.splitOn_eq_singleton member, whole]
    simp

theorem length_splitOn (chars : List Char) :
    (chars.splitOn '\n').length = chars.count '\n' + 1 := by
  induction chars with
  | nil => rfl
  | cons c rest ih =>
      rw [List.splitOn_cons_eq_if_modifyHead, List.count_cons, apply_ite List.length,
        List.length_cons, List.length_modifyHead, ih]
      split <;> rfl

/-- The line of a place has as many lines before it as there are line feeds. -/
theorem getElem?_splitOn (before after : List Char) :
    ((before ++ after).splitOn '\n')[before.count '\n']? =
      some (lineAt (before ++ after) before.length) := by
  rw [lineAt_append]
  rcases exists_last_line before with inLine | ⟨earlier, last, rfl, inLine⟩
  · rw [List.count_eq_zero_of_not_mem inLine, ← List.head?_eq_getElem?, head?_splitOn,
      takeWhile_of_not_mem inLine, rtakeWhile_of_not_mem inLine]
  · rw [rtakeWhile_append_cons inLine, List.append_assoc, List.cons_append,
      List.splitOn_append_cons_self, List.count_append, List.count_cons_self,
      List.count_eq_zero_of_not_mem inLine, Nat.zero_add, ← length_splitOn,
      List.getElem?_append_right (Nat.le_refl _), Nat.sub_self, ← List.head?_eq_getElem?,
      head?_splitOn, takeWhile_of_not_mem inLine]

/-! ## Lines to quote -/

/-- A line without a carriage return at its end. -/
def withoutReturn (line : List Char) : List Char :=
  if line.getLast? = some '\r' then line.dropLast else line

/-- No line boundary stands in a line, except for a carriage return at its end. -/
def Unbroken (line : List Char) : Prop := ∀ c ∈ withoutReturn line, isLineBreak c = false

instance (line : List Char) : Decidable (Unbroken line) :=
  decidable_of_iff ((withoutReturn line).all fun c => !isLineBreak c) (by simp [Unbroken])

theorem splitLines_cons {c : Char} (inside : isLineBreak c = false) (rest : List Char) :
    splitLines (c :: rest) = (c :: (splitLines rest).headD []) :: (splitLines rest).tail := by
  rw [splitLines, if_neg (Bool.eq_false_iff.mp inside)]
  · split <;> simp [*]
  · rintro _ rfl
    cases inside

theorem splitLines_append {line : List Char} (inside : ∀ c ∈ line, isLineBreak c = false)
    (filled : line ≠ []) (rest : List Char) :
    splitLines (line ++ rest) =
      (line ++ (splitLines rest).headD []) :: (splitLines rest).tail := by
  induction line with
  | nil => exact absurd rfl filled
  | cons c line ih =>
      obtain ⟨here, later⟩ := List.forall_mem_cons.mp inside
      rw [List.cons_append, splitLines_cons here]
      cases line with
      | nil => rfl
      | cons d line => rw [ih later (List.cons_ne_nil d line)]; rfl

/-- A boundary ends the line before it. -/
theorem splitLines_of_boundary {line rest : List Char} {later : List (List Char)}
    (inside : ∀ c ∈ line, isLineBreak c = false) (boundary : splitLines rest = [] :: later) :
    splitLines (line ++ rest) = line :: later := by
  by_cases filled : line = []
  · rw [filled, List.nil_append, boundary]
  · rw [splitLines_append inside filled, boundary, List.headD_cons, List.append_nil, List.tail_cons]

/-- A line is itself, or it has a carriage return at its end. -/
theorem withoutReturn_cases (line : List Char) :
    withoutReturn line = line ∨ line = withoutReturn line ++ ['\r'] := by
  unfold withoutReturn
  split
  case isTrue ends => exact .inr (List.dropLast_append_getLast? '\r' ends).symm
  case isFalse => exact .inl rfl

theorem splitLines_line {line : List Char} (unbroken : Unbroken line) (rest : List Char) :
    splitLines (line ++ '\n' :: rest) = withoutReturn line :: splitLines rest := by
  rcases withoutReturn_cases line with same | ends
  · rw [Unbroken, same] at unbroken
    rw [same]
    exact splitLines_of_boundary unbroken (by simp [splitLines, isLineBreak])
  · have boundary : splitLines ('\r' :: '\n' :: rest) = [] :: splitLines rest := by rw [splitLines]
    rw [← splitLines_of_boundary unbroken boundary]
    nth_rewrite 1 [ends]
    simp

theorem splitLines_last {line : List Char} (unbroken : Unbroken line) :
    splitLines line = [] ∨ splitLines line = [withoutReturn line] := by
  by_cases filled : line = []
  · exact .inl (by rw [filled, splitLines])
  · right
    rcases withoutReturn_cases line with same | ends
    · rw [Unbroken, same] at unbroken
      have whole := splitLines_append unbroken filled []
      simpa [same, splitLines] using whole
    · have boundary : splitLines ['\r'] = [[]] := rfl
      have whole := splitLines_of_boundary unbroken boundary
      rwa [← ends] at whole

/-- A line to quote is the line with its number, if there are no other boundaries up to its end. -/
theorem getElem?_splitLines {chars line : List Char} {number : Nat}
    (unbroken : ∀ earlier ∈ (chars.splitOn '\n').take (number + 1), Unbroken earlier)
    (found : (splitLines chars)[number]? = some line) :
    ((chars.splitOn '\n')[number]?).map withoutReturn = some line := by
  by_cases member : '\n' ∈ chars
  · obtain ⟨first, rest, rfl, inLine⟩ := List.eq_append_cons_of_mem member
    rw [List.splitOn_append_cons_self_of_not_mem inLine] at unbroken ⊢
    obtain ⟨here, later⟩ := List.forall_mem_cons.mp unbroken
    rw [splitLines_line here] at found
    cases number with
    | zero => exact found
    | succ number => exact getElem?_splitLines later found
  · rw [List.splitOn_eq_singleton member] at unbroken ⊢
    rcases splitLines_last (unbroken chars (by simp)) with none | one
    · rw [none] at found
      cases found
    · rw [one] at found
      cases number with
      | zero => exact found
      | succ number => cases found

/-! ## Columns -/

/-- The number of columns that the characters of a line take. A tab goes on to the next multiple of
four. -/
def width (line : List Char) : Nat :=
  line.foldl (fun columns c => if c = '\t' then (columns / 4 + 1) * 4 else columns + 1) 0

theorem width_append_singleton (line : List Char) (c : Char) :
    width (line ++ [c]) = if c = '\t' then (width line / 4 + 1) * 4 else width line + 1 := by
  simp [width]

theorem length_le_width (line : List Char) : line.length ≤ width line := by
  induction line using List.reverseRecOn with
  | nil => exact Nat.le_refl _
  | append_singleton line c ih =>
      rw [width_append_singleton, List.length_append, List.length_singleton]
      split <;> omega

theorem forall_tab_append_singleton {holds : Nat → Prop} (chars : List Char) (c : Char) :
    (∀ i, (chars ++ [c])[i]? = some '\t' → holds i) ↔
      (∀ i, chars[i]? = some '\t' → holds i) ∧ (c = '\t' → holds chars.length) := by
  constructor
  · intro each
    refine ⟨fun i found => each i ?_, fun isTab => each chars.length (by simp [isTab])⟩
    rwa [List.getElem?_append_left (List.getElem?_eq_some_iff.mp found).1]
  · rintro ⟨inner, last⟩ i found
    rcases Nat.lt_trichotomy i chars.length with inside | rfl | beyond
    · rw [List.getElem?_append_left inside] at found
      exact inner i found
    · exact last (by simpa using found)
    · rw [List.getElem?_eq_none (by simpa [Nat.succ_le_iff] using beyond)] at found
      cases found

/-- The characters of a line take one column each if every tab goes on by one column. -/
theorem width_eq_length_iff {chars : List Char} :
    width chars = chars.length ↔ ∀ i, chars[i]? = some '\t' → i % 4 = 3 := by
  induction chars using List.reverseRecOn with
  | nil => simp [width]
  | append_singleton chars c ih =>
      have lower := length_le_width chars
      rw [forall_tab_append_singleton, ← ih, width_append_singleton, List.length_append,
        List.length_singleton]
      split
      case isTrue isTab =>
          rw [forall_prop_of_true isTab]
          omega
      case isFalse other => simp [other]

end Text

namespace Location

/-- The column of a place counts the columns before it on its line. -/
theorem advanceAll_column (file : Option String) (chars : List Char) :
    ((start file).advanceAll chars).column = Text.width (chars.rtakeWhile (· ≠ '\n')) + 1 := by
  induction chars using List.reverseRecOn with
  | nil => rfl
  | append_singleton chars c ih =>
      rw [advanceAll_append, advanceAll_cons, advanceAll_nil, advance]
      by_cases ends : c = '\n'
      · rw [if_pos ends, List.rtakeWhile_concat_neg _ _ _ (by simpa using ends)]
        rfl
      · rw [if_neg ends, List.rtakeWhile_concat_pos _ _ _ (by simpa using ends),
          Text.width_append_singleton]
        split
        · rw [ih, tabWidth]
          simp
        · rw [ih]
          simp

end Location

end Offside
