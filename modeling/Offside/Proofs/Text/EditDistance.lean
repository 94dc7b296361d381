import Offside.Text.EditDistance
import Mathlib.Order.Bounds.Basic

/-!
# The edit distance is the length of a shortest edit script

A script is a list of edits, each of which inserts, deletes or substitutes one character at some
place of the text that the edits before it have left. The distance has a recursion over first
characters. Along it a script of that length is built, and no edit brings a text nearer to another
one by more than one, so no script is shorter. The same recursion holds for last characters, and
from prefix to prefix it gives the rows.
-/

namespace Offside.Text

/-! ## Edit scripts -/

/-- A change of one character at a position of a text. -/
inductive Edit where
  | insert (position : Nat) (c : Char)
  | delete (position : Nat)
  | substitute (position : Nat) (c : Char)
  deriving DecidableEq

namespace Edit

/-- The text after an edit, unless the position lies outside of the text. -/
def result? : Edit → List Char → Option (List Char)
  | .insert position c, chars =>
    if position ≤ chars.length then some (chars.take position ++ c :: chars.drop position) else none
  | .delete position, chars =>
    if position < chars.length then some (chars.take position ++ chars.drop (position + 1))
    else none
  | .substitute position c, chars =>
    if position < chars.length then some (chars.take position ++ c :: chars.drop (position + 1))
    else none

/-- The same edit one character further on. -/
def shift : Edit → Edit
  | .insert position c => .insert (position + 1) c
  | .delete position => .delete (position + 1)
  | .substitute position c => .substitute (position + 1) c

theorem result?_shift (edit : Edit) (x : Char) (chars : List Char) :
    edit.shift.result? (x :: chars) = (edit.result? chars).map (x :: ·) := by
  cases edit <;> simp only [shift, result?, List.length_cons, Nat.add_le_add_iff_right,
    Nat.add_lt_add_iff_right, List.take_succ_cons, List.drop_succ_cons, List.cons_append] <;>
    split <;> rfl

/-- An edit puts at most one character in the place of at most one. -/
theorem exists_of_result? {edit : Edit} {chars chars' : List Char}
    (applied : edit.result? chars = some chars') :
    ∃ (before after : List Char) (removed added : Option Char),
      chars = before ++ (removed.toList ++ after) ∧ chars' = before ++ (added.toList ++ after) := by
  have split {position : Nat} (inside : position < chars.length) : chars =
      chars.take position ++ ((some chars[position]).toList ++ chars.drop (position + 1)) := by
    rw [Option.toList_some, List.singleton_append, List.getElem_cons_drop, List.take_append_drop]
  cases edit with
  | insert position c =>
      obtain ⟨-, ⟨⟩⟩ := Option.ite_none_right_eq_some.mp applied
      exact ⟨chars.take position, chars.drop position, none, some c,
        (List.take_append_drop position chars).symm, rfl⟩
  | delete position =>
      obtain ⟨inside, ⟨⟩⟩ := Option.ite_none_right_eq_some.mp applied
      exact ⟨_, _, some chars[position], none, split inside, rfl⟩
  | substitute position c =>
      obtain ⟨inside, ⟨⟩⟩ := Option.ite_none_right_eq_some.mp applied
      exact ⟨_, _, some chars[position], some c, split inside, rfl⟩

end Edit

/-- The text after a script of edits, unless one of them does not apply. -/
def edited? (script : List Edit) (chars : List Char) : Option (List Char) :=
  script.foldlM (fun chars edit => edit.result? chars) chars

theorem edited?_append (first second : List Edit) (chars : List Char) :
    edited? (first ++ second) chars = (edited? first chars).bind (edited? second) :=
  List.foldlM_append

theorem edited?_shift (script : List Edit) (x : Char) (chars : List Char) :
    edited? (script.map Edit.shift) (x :: chars) = (edited? script chars).map (x :: ·) := by
  induction script generalizing chars with
  | nil => rfl
  | cons edit script ih =>
      simp only [edited?, List.map_cons, List.foldlM_cons, Edit.result?_shift] at ih ⊢
      cases edit.result? chars with
      | none => rfl
      | some chars' => exact ih chars'

/-- A script of `n` edits turns one text into another. -/
def Turns (n : Nat) (xs ys : List Char) : Prop :=
  ∃ script, edited? script xs = some ys ∧ script.length = n

namespace Turns

variable {m n : Nat} {xs ys zs : List Char}

theorem trans (first : Turns m xs ys) (second : Turns n ys zs) : Turns (m + n) xs zs := by
  obtain ⟨script, applied, rfl⟩ := first
  obtain ⟨script', applied', rfl⟩ := second
  refine ⟨script ++ script', ?_, List.length_append⟩
  rw [edited?_append, applied]
  exact applied'

theorem insert (y : Char) (turns : Turns n xs ys) : Turns (n + 1) xs (y :: ys) :=
  turns.trans ⟨[.insert 0 y], rfl, rfl⟩

theorem delete (x : Char) (turns : Turns n xs ys) : Turns (n + 1) (x :: xs) ys := by
  rw [Nat.add_comm]
  exact trans ⟨[.delete 0], rfl, rfl⟩ turns

/-- The first character stays, or another one takes its place. -/
theorem substitute (x y : Char) (turns : Turns n xs ys) :
    Turns (n + if x = y then 0 else 1) (x :: xs) (y :: ys) := by
  obtain ⟨script, applied, length⟩ := turns
  have later : Turns n (y :: xs) (y :: ys) :=
    ⟨script.map Edit.shift, by rw [edited?_shift, applied]; rfl, by rw [List.length_map, length]⟩
  split
  case isTrue same => exact same ▸ later
  case isFalse => exact Nat.add_comm 1 n ▸ trans ⟨[.substitute 0 y], rfl, rfl⟩ later

theorem least (first : Turns m xs ys) (second : Turns n xs ys) : Turns (min m n) xs ys := by
  rcases Nat.le_total m n with shorter | shorter
  · rwa [Nat.min_eq_left shorter]
  · rwa [Nat.min_eq_right shorter]

end Turns

/-! ## The recursion of the distance -/

/-- The distance of two texts: the first character is deleted, the other text's first character is
inserted, or the one takes the place of the other. -/
def distance : List Char → List Char → Nat
  | [], ys => ys.length
  | xs, [] => xs.length
  | x :: xs, y :: ys => min (distance xs (y :: ys) + 1)
    (min (distance (x :: xs) ys + 1) (distance xs ys + if x = y then 0 else 1))
termination_by xs ys => xs.length + ys.length

@[simp]
theorem distance_nil_left (ys : List Char) : distance [] ys = ys.length := by
  rw [distance]

@[simp]
theorem distance_nil_right (xs : List Char) : distance xs [] = xs.length := by
  cases xs <;> rw [distance]
  nofun

theorem distance_cons_cons (x y : Char) (xs ys : List Char) :
    distance (x :: xs) (y :: ys) = min (distance xs (y :: ys) + 1)
      (min (distance (x :: xs) ys + 1) (distance xs ys + if x = y then 0 else 1)) := by
  rw [distance]

theorem distance_self (xs : List Char) : distance xs xs = 0 := by
  induction xs with
  | nil => exact distance_nil_left []
  | cons x xs ih => rw [distance_cons_cons, ih, if_pos rfl, Nat.min_zero, Nat.min_zero]

theorem distance_comm (xs ys : List Char) : distance xs ys = distance ys xs := by
  induction xs generalizing ys with
  | nil => rw [distance_nil_left, distance_nil_right]
  | cons x xs ih =>
      induction ys with
      | nil => rw [distance_nil_left, distance_nil_right]
      | cons y ys ih' =>
          rw [distance_cons_cons, distance_cons_cons, ih, ih, ih', Nat.min_left_comm]
          simp only [eq_comm]

theorem distance_cons_le (x : Char) (xs zs : List Char) :
    distance (x :: xs) zs ≤ distance xs zs + 1 := by
  cases zs with
  | nil => simp [distance_nil_right]
  | cons z zs => exact distance_cons_cons x z xs zs ▸ Nat.min_le_left ..

theorem distance_le_cons (xs : List Char) (z : Char) (zs : List Char) :
    distance xs (z :: zs) ≤ distance xs zs + 1 := by
  rw [distance_comm xs, distance_comm xs]
  exact distance_cons_le z zs xs

/-! ## A script as long as the distance -/

theorem turns_distance (xs ys : List Char) : Turns (distance xs ys) xs ys := by
  induction xs generalizing ys with
  | nil =>
      rw [distance_nil_left]
      induction ys with
      | nil => exact ⟨[], rfl, rfl⟩
      | cons y ys ih => exact ih.insert y
  | cons x xs ih =>
      induction ys with
      | nil =>
          rw [distance_nil_right, List.length_cons, ← distance_nil_right]
          exact (ih []).delete x
      | cons y ys ih' =>
          rw [distance_cons_cons]
          exact ((ih (y :: ys)).delete x).least ((ih'.insert y).least ((ih ys).substitute x y))

/-! ## No script is shorter -/

/-- A text is at most one edit further than another one from any third. -/
def Near (xs ys : List Char) : Prop := ∀ zs, distance xs zs ≤ distance ys zs + 1

theorem Near.cons {xs ys : List Char} (near : Near xs ys) (x : Char) :
    Near (x :: xs) (x :: ys) := by
  intro zs
  induction zs with
  | nil =>
      have := near []
      simp only [distance_nil_right, List.length_cons] at this ⊢
      omega
  | cons z zs ih =>
      have := near (z :: zs)
      have := near zs
      rw [distance_cons_cons, distance_cons_cons]
      omega

theorem Near.append {xs ys : List Char} (near : Near xs ys) (before : List Char) :
    Near (before ++ xs) (before ++ ys) := by
  induction before with
  | nil => exact near
  | cons x before ih => exact ih.cons x

/-- At most one character may take the place of at most one at the start. -/
theorem near_start (removed added : Option Char) (after : List Char) :
    Near (removed.toList ++ after) (added.toList ++ after) := by
  intro zs
  cases removed with
  | none =>
      cases added with
      | none => exact Nat.le_succ _
      | some y =>
          change distance after zs ≤ distance (y :: after) zs + 1
          induction zs with
          | nil =>
              simp only [distance_nil_right, List.length_cons]
              omega
          | cons z zs ih =>
              have := distance_le_cons after z zs
              rw [distance_cons_cons]
              omega
  | some x =>
      cases added with
      | none => exact distance_cons_le x after zs
      | some y =>
          change distance (x :: after) zs ≤ distance (y :: after) zs + 1
          induction zs with
          | nil => simp only [distance_nil_right, List.length_cons, Nat.le_succ]
          | cons z zs ih =>
              rw [distance_cons_cons, distance_cons_cons]
              split <;> split <;> omega

theorem distance_le {n : Nat} {xs ys : List Char} (turns : Turns n xs ys) :
    distance xs ys ≤ n := by
  obtain ⟨script, applied, rfl⟩ := turns
  induction script generalizing xs with
  | nil =>
      obtain rfl := Option.some.inj applied
      exact (distance_self xs).le
  | cons edit script ih =>
      obtain ⟨chars, first, later⟩ := Option.bind_eq_some_iff.mp applied
      obtain ⟨before, after, removed, added, rfl, rfl⟩ := Edit.exists_of_result? first
      calc distance (before ++ (removed.toList ++ after)) ys
          ≤ distance (before ++ (added.toList ++ after)) ys + 1 :=
            (near_start removed added after).append before ys
        _ ≤ script.length + 1 := Nat.succ_le_succ (ih later)

/-! ## A distance -/

theorem distance_triangle (xs ys zs : List Char) :
    distance xs zs ≤ distance xs ys + distance ys zs :=
  distance_le ((turns_distance xs ys).trans (turns_distance ys zs))

theorem distance_eq_zero {xs ys : List Char} : distance xs ys = 0 ↔ xs = ys := by
  refine ⟨fun same => ?_, fun same => same ▸ distance_self xs⟩
  obtain ⟨script, applied, length⟩ := turns_distance xs ys
  obtain rfl := List.length_eq_zero_iff.mp (length.trans same)
  exact Option.some.inj applied

/-! ## Rows -/

/-- Two choices of an edit may be made in either order. -/
theorem min_interchange (m n a b c d e f g h i : Nat) :
    min (min (a + 1) (min (b + 1) (c + n)) + 1)
        (min (min (d + 1) (min (e + 1) (f + n)) + 1) (min (g + 1) (min (h + 1) (i + n)) + m)) =
      min (min (a + 1) (min (d + 1) (g + m)) + 1)
        (min (min (b + 1) (min (e + 1) (h + m)) + 1) (min (c + 1) (min (f + 1) (i + m)) + n)) := by
  simp only [← Nat.add_min_add_right, Nat.add_assoc, Nat.add_comm 1 m, Nat.add_comm 1 n,
    Nat.add_comm n m]
  ac_rfl

/-- What holds of first characters holds of last ones. -/
theorem distance_concat_concat (x y : Char) (xs ys : List Char) :
    distance (xs ++ [x]) (ys ++ [y]) = min (distance xs (ys ++ [y]) + 1)
      (min (distance (xs ++ [x]) ys + 1) (distance xs ys + if x = y then 0 else 1)) := by
  induction xs generalizing ys with
  | nil =>
      induction ys with
      | nil => simp [distance_cons_cons]
      | cons b ys ih =>
          simp only [List.nil_append, List.cons_append, distance_cons_cons, distance_nil_left,
            List.length_cons, List.length_append, List.length_nil] at ih ⊢
          omega
  | cons a xs ih =>
      induction ys with
      | nil =>
          have first := ih []
          simp only [List.nil_append, List.cons_append, distance_cons_cons, distance_nil_right,
            List.length_cons, List.length_append, List.length_nil] at first ⊢
          omega
      | cons b ys ih' =>
          have first := ih (b :: ys)
          simp only [List.cons_append] at first ih' ⊢
          simp only [distance_cons_cons a b, first, ih', ih ys, min_interchange]

/-- The distances from a text to `before` and to the longer prefixes of `before ++ ys`. -/
def prefixRow (xs before : List Char) : List Char → List Nat
  | [] => [distance xs before]
  | y :: ys => distance xs before :: prefixRow xs (before ++ [y]) ys

theorem prefixRow_nil_left (before ys : List Char) :
    prefixRow [] before ys = List.range' before.length (ys.length + 1) := by
  induction ys generalizing before with
  | nil => simp [prefixRow]
  | cons y ys ih => simp [prefixRow, ih, List.range'_succ]

theorem getLastD_prefixRow (xs before ys : List Char) (default : Nat) :
    (prefixRow xs before ys).getLastD default = distance xs (before ++ ys) := by
  induction ys generalizing before default with
  | nil => simp [prefixRow]
  | cons y ys ih => rw [prefixRow, List.getLastD_cons, ih, List.append_assoc, List.singleton_append]

/-- The entries of a row are made from those of the one before. -/
theorem nextEntries_prefixRow (x : Char) (xs before ys : List Char) :
    distance (xs ++ [x]) before ::
        nextEntries x (distance (xs ++ [x]) before) ys (prefixRow xs before ys) =
      prefixRow (xs ++ [x]) before ys := by
  induction ys generalizing before with
  | nil => rfl
  | cons y ys ih =>
      obtain ⟨rest, next⟩ : ∃ rest, prefixRow xs (before ++ [y]) ys =
          distance xs (before ++ [y]) :: rest := by cases ys <;> exact ⟨_, rfl⟩
      rw [prefixRow, prefixRow, next, nextEntries, ← distance_concat_concat, ← next, ih]

/-- The invariant of the rows: each belongs to the prefix that was read. -/
theorem lastRow_prefixRow (before xs ys : List Char) :
    lastRow ys (prefixRow before [] ys) (xs.zipIdx before.length) =
      prefixRow (before ++ xs) [] ys := by
  induction xs generalizing before with
  | nil => rw [List.append_nil, List.zipIdx_nil, lastRow]
  | cons x xs ih =>
      have first : before.length + 1 = distance (before ++ [x]) [] := by simp
      have later := ih (before ++ [x])
      rw [List.length_append, List.length_singleton, List.append_assoc,
        List.singleton_append] at later
      rw [List.zipIdx_cons, lastRow, nextRow, first, nextEntries_prefixRow, ← first, later]

theorem rowDistance_eq (xs ys : List Char) : rowDistance xs ys = distance xs ys := by
  rw [rowDistance]
  split
  · next empty => rw [List.isEmpty_iff.mp empty, distance_nil_right]
  · have rows := lastRow_prefixRow [] xs ys
    rw [prefixRow_nil_left, List.length_nil, ← List.range_eq_range'] at rows
    rw [rows, getLastD_prefixRow]
    rfl

/-- The shorter text may be taken as the second one. -/
theorem charDistance_eq (xs ys : List Char) : charDistance xs ys = distance xs ys := by
  rw [charDistance]
  split
  · rw [rowDistance_eq, distance_comm]
  · exact rowDistance_eq xs ys

/-- The lengths of two texts differ by no more than their distance. -/
theorem length_le_charDistance (xs ys : List Char) :
    ((xs.length : Int) - ys.length).natAbs ≤ charDistance xs ys := by
  have longer := distance_triangle xs ys []
  have shorter := distance_triangle ys xs []
  rw [distance_nil_right, distance_nil_right] at longer shorter
  rw [distance_comm] at shorter
  rw [charDistance_eq]
  omega

/-- The edit distance of two texts is the length of a shortest script that turns one into the
other, and so it is a distance in which texts are at least as far apart as their lengths. -/
theorem editDistance_isLeast (left right : String) :
    IsLeast {n | Turns n left.toList right.toList} (editDistance left right) ∧
      editDistance left right = editDistance right left ∧
      (editDistance left right = 0 ↔ left = right) ∧
      (∀ third, editDistance left third ≤ editDistance left right + editDistance right third) ∧
      ((left.length : Int) - right.length).natAbs ≤ editDistance left right := by
  have lengths := length_le_charDistance left.toList right.toList
  simp only [editDistance, charDistance_eq] at lengths ⊢
  refine ⟨⟨turns_distance _ _, fun n => distance_le⟩, distance_comm _ _, ?_, ?_, lengths⟩
  · exact distance_eq_zero.trans String.toList_inj
  · exact fun third => distance_triangle _ _ third.toList

example : editDistance "kitten" "sitting" = 3 := by decide

end Offside.Text
