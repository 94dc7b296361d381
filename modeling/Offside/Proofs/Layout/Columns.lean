import Offside.Proofs.Layout.Relocation

/-!
# Layout and the order of columns

Layout compares columns and does not calculate with them. So a text can be indented in another way:
if the columns of its tokens stay in order, its layout stays the same, and a fault of layout has the
same message and is found at the same token.
-/

namespace Offside

/-- A place in another column. -/
def Location.rescale (scale : Int → Int) (location : Location) : Location :=
  { location with column := scale location.column }

/-- A token in another column. -/
def Token.rescale (scale : Int → Int) (token : Token) : Token :=
  { token with location := token.location.rescale scale }

namespace Layout

theorem normalize_fault {tokens : List Token} (nonempty : tokens ≠ []) {fault : Fault}
    (failed : normalize tokens = .error fault) :
    ∃ token ∈ tokens, fault.location = some token.location := by
  have ordinary := ordinary_normalize_of_ne_nil nonempty
  rw [failed] at ordinary
  obtain ⟨defect, _, taken, rfl⟩ := ordinary
  obtain ⟨token, member, rfl⟩ := List.mem_map.mp taken
  exact ⟨token, member, rfl⟩

/-- Columns that change and stay in order. -/
def rescaling {scale : Int → Int}
    (increasing : ∀ column further, column < further → scale column < scale further) :
    Change where
  token := Token.rescale scale
  move := Location.rescale scale
  scale := scale
  Fit _ := True
  Keeps _ := True
  kind _ := rfl
  location _ := rfl
  inserted _ _ := rfl
  column _ := rfl
  increasing := increasing _ _
  shown _ _ := rfl
  step _ _ _ := trivial

/-- The tokens in other columns have the same layout in other columns, or the same fault at the same
token. -/
def SameLayout (scale : Int → Int) (tokens : List Token) : Prop :=
  match normalize tokens with
  | .ok output =>
      normalize (tokens.map (Token.rescale scale)) = .ok (output.map (Token.rescale scale))
  | .error fault => ∃ token ∈ tokens, fault.location = some token.location ∧
      normalize (tokens.map (Token.rescale scale)) =
        .error { fault with location := some (token.rescale scale).location }

/-- The layout of tokens depends on the order of their columns only. -/
theorem normalize_rescale {scale : Int → Int}
    (increasing : ∀ column further, column < further → scale column < scale further)
    {tokens : List Token} (nonempty : tokens ≠ []) : SameLayout scale tokens := by
  have same := (rescaling increasing).normalize_map nonempty (fun _ _ => trivial) trivial
  unfold SameLayout
  cases laid : normalize tokens with
  | ok output => exact same.trans (congrArg _ laid)
  | error fault =>
      obtain ⟨token, member, here⟩ := normalize_fault nonempty laid
      refine ⟨token, member, here, same.trans ((congrArg _ laid).trans ?_)⟩
      rw [relocateOutcome, Fault.relocate, here]
      rfl

/-- The sample in columns that are twice as far apart. -/
theorem normalize_rescale_sampleLines :
    (∀ column further : Int, column < further → 2 * column - 1 < 2 * further - 1) ∧
      sampleLines ≠ [] ∧
      normalize (sampleLines.map (Token.rescale fun column => 2 * column - 1)) =
        .ok (sampleLayout.map (Token.rescale fun column => 2 * column - 1)) := by
  have increasing (column further : Int) (less : column < further) :
      2 * column - 1 < 2 * further - 1 := by
    omega
  have nonempty : sampleLines ≠ [] := List.cons_ne_nil _ _
  exact ⟨increasing, nonempty, normalize_rescale increasing nonempty⟩

/-- The end of file that is put in place of no tokens at all stands in the first column, whatever
becomes of columns. -/
theorem endOfFile_unscaled :
    (∀ column further : Int, column < further → column + 1 < further + 1) ∧
      ¬SameLayout (fun column => column + 1) [] := by
  refine ⟨fun column further less => Int.add_lt_add_right less 1, fun same => ?_⟩
  have same : (.ok [.inserted .endOfFile ⟨1, 1, 0, none⟩] : Except Fault (List Token)) =
      .ok [.inserted .endOfFile ⟨1, 2, 0, none⟩] := same
  simp [Token.inserted] at same

end Layout

end Offside
