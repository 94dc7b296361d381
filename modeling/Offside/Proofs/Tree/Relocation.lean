import Offside.Proofs.Layout.Relocation
import Offside.Proofs.Tree.Stopping
import Offside.Source

/-!
# Parsing a moved text

The tokens of a text that is moved as a whole have the same syntax tree at other places, or the same
defect at another place.
-/

namespace Offside

/-! ## Depth -/

namespace Token

mutual

theorem depth_relocate (move : Location → Location) : ∀ token : Token,
    (token.relocate move).depth = token.depth
  | ⟨_, .segments segments, _⟩ => by
      simpa [depth, Payload.relocate] using depthOfSegments_relocate move segments
  | ⟨_, .absent, _⟩ => by simp [depth, Payload.relocate]
  | ⟨_, .text _, _⟩ => by simp [depth, Payload.relocate]
  | ⟨_, .integer _, _⟩ => by simp [depth, Payload.relocate]
  | ⟨_, .float _, _⟩ => by simp [depth, Payload.relocate]
  | ⟨_, .boolean _, _⟩ => by simp [depth, Payload.relocate]

theorem depthOfSegments_relocate (move : Location → Location) : ∀ segments : List Segment,
    depthOfSegments (Segment.relocateAll move segments) = depthOfSegments segments
  | [] => rfl
  | .text _ :: rest => by
      simpa [Segment.relocateAll, depthOfSegments] using depthOfSegments_relocate move rest
  | .expression tokens _ :: rest => by
      have inner := depthOfTokens_map move tokens
      have later := depthOfSegments_relocate move rest
      simp [Segment.relocateAll, depthOfSegments, inner, later]

theorem depthOfTokens_map (move : Location → Location) : ∀ tokens : List Token,
    depthOfTokens (tokens.map (relocate move)) = depthOfTokens tokens
  | [] => rfl
  | token :: rest => by
      have first := depth_relocate move token
      have later := depthOfTokens_map move rest
      simp [depthOfTokens, first, later]

end

/-- Reports name a moved token alike. -/
theorem Scanned.lexeme_relocate {token : Token} (scanned : token.Scanned)
    (move : Location → Location) : (token.relocate move).lexeme = token.lexeme := by
  rw [lexeme, lexeme, relocate_kind, Token.relocate_payload]
  by_cases isString : token.kind = .string
  · rw [isString]
  · rw [scanned.relocate_payload isString]

end Token

namespace Tree

open Token (Kind Complete Scanned)

/-! ## Defects -/

/-- A flaw with other places. -/
def Flaw.relocate (move : Location → Location) : Flaw → Flaw
  | .layout fault => .layout (fault.relocate move)
  | .invalid token => .invalid (token.relocate move)
  | .unexpected expectation token => .unexpected expectation (token.relocate move)
  | .unclosed delimiter opened token => .unclosed delimiter (move opened) (token.relocate move)

/-- A remark on other places. -/
def Remark.relocate (move : Location → Location) : Remark → Remark
  | .invalid message location => .invalid message (move location)
  | .unexpected expected found length location => .unexpected expected found length (move location)
  | .unclosed delimiter opened location => .unclosed delimiter (move opened) (move location)

namespace Defect

/-- A defect with other places. -/
def relocate (move : Location → Location) (defect : Defect) : Defect :=
  ⟨defect.flaw.relocate move, defect.recorded.map (Remark.relocate move)⟩

/-- A defect of a scanned token. -/
def Scanned (defect : Defect) : Prop :=
  match defect.flaw with
  | .layout fault => fault.OfLayout
  | .invalid token => token.Scanned
  | .unexpected _ token => token.Scanned
  | .unclosed _ _ token => token.Scanned

theorem relocate_ofToken (move : Location → Location) (expectation : Expectation) {token : Token}
    (scanned : token.Scanned) :
    (ofToken expectation token).relocate move = ofToken expectation (token.relocate move) := by
  unfold ofToken
  rw [Token.relocate_kind]
  split
  · next isInvalid =>
    simp [invalid, relocate, Flaw.relocate, Remark.relocate,
      scanned.relocate_payload (by simp [isInvalid]) move]
  · simp [relocate, Flaw.relocate, Remark.relocate, scanned.lexeme_relocate]

theorem scanned_ofToken (expectation : Expectation) {token : Token} (scanned : token.Scanned) :
    (ofToken expectation token).Scanned := by
  unfold ofToken
  split <;> exact scanned

end Defect

/-- A defect of a scanned token, and the same one at another place. -/
def Defect.Moves (move : Location → Location) (defect defect' : Defect) : Prop :=
  defect' = defect.relocate move ∧ defect.Scanned

theorem Defect.moves_ofToken (move : Location → Location) (expectation : Expectation)
    {token : Token} (scanned : token.Scanned) :
    Moves move (ofToken expectation token) (ofToken expectation (token.relocate move)) :=
  ⟨(relocate_ofToken move expectation scanned).symm, scanned_ofToken expectation scanned⟩

/-! ## The correspondence -/

/-- Interpolated expressions are parsed alike at another place. -/
def Relocates (move : Location → Location) (interpolate : List Token → Except Defect Node) :
    Prop :=
  ∀ inner, Complete inner → Outcomes (Defect.Moves move)
    (fun node node' => node' = node.relocate move) (interpolate inner)
    (interpolate (inner.map (Token.relocate move)))

section

variable {move : Location → Location} {interpolate : List Token → Except Defect Node}

/-- The tokens of a text correspond to those of the text at another place. -/
def relocation (interpolates : Relocates move interpolate) : Correspondence where
  move := move
  interpolate := interpolate
  interpolate' := interpolate
  Alike token token' := token.Scanned ∧ token' = token.relocate move
  Fails := Defect.Moves move
  moved := by
    rintro token _ ⟨scanned, rfl⟩
    refine ⟨token.relocate_kind move, fun _ => token.relocate_location move,
      fun _ _ => token.relocate_payload move, fun isName => ?_⟩
    rw [wordOf, wordOf, Token.relocate_payload, scanned.relocate_payload (by simp [isName])]
  literal := by
    rintro token _ ⟨scanned, rfl⟩ segments payload
    refine partsAgree_of_each fun inner member => interpolates inner (scanned.complete ?_)
    rwa [payload]
  unexpected := by
    rintro token _ ⟨scanned, rfl⟩ expectation
    exact Defect.moves_ofToken move expectation scanned
  unclosed := by
    rintro token _ ⟨scanned, rfl⟩ delimiter opened
    refine ⟨?_, scanned⟩
    simp [Defect.unclosed, Defect.relocate, Flaw.relocate, Remark.relocate]

theorem head_relocate (move : Location → Location) {tokens : List Token}
    (complete : Complete tokens) : (headToken tokens).Scanned ∧
      headToken (tokens.map (Token.relocate move)) = (headToken tokens).relocate move := by
  obtain ⟨⟨last, member, -⟩, each⟩ := complete
  cases tokens with
  | nil => cases member
  | cons token rest => exact ⟨each token List.mem_cons_self, rfl⟩

/-- A rule parses tokens at another place alike. -/
theorem agree_relocate (interpolates : Relocates move interpolate) {α : Type} {change : α → α}
    {rule : Level → Parser α} {tokens : List Token} (complete : Complete tokens)
    (runs : ∀ {level level'}, (relocation interpolates).Levels (tokens.length + 1) level level' →
      (relocation interpolates).Runs (tokens.length + 1) .part change (rule level) (rule level')
        tokens) :
    (relocation interpolates).Agree change (runRule interpolate rule tokens)
      (runRule interpolate rule (tokens.map (Token.relocate move))) := by
  have lists : (relocation interpolates).Lists tokens (tokens.map (Token.relocate move)) :=
    ⟨List.forall₂_map_right_iff.mpr (List.forall₂_same.mpr fun token member =>
      ⟨complete.each token member, rfl⟩), .inr complete.ended⟩
  rw [runRule, runRule, List.length_map]
  exact (runs ((relocation interpolates).levels_ofNat .bottom _)).1 lists (Nat.lt_succ_self _)

end

/-! ## Whole parses -/

section Parses

variable {move : Location → Location}

theorem relocates_parseInterpolation
    (column : ∀ location, (move location).column = location.column) (depth : Nat) :
    Relocates move (parseInterpolation depth) := by
  induction depth with
  | zero =>
      intro inner complete
      obtain ⟨scanned, same⟩ := head_relocate move complete
      rw [parseInterpolation, parseInterpolation, same]
      exact Defect.moves_ofToken move .expression scanned
  | succ depth ih =>
      intro inner complete
      have complete' := Layout.complete_normalize complete
      rw [parseInterpolation, parseInterpolation, Layout.normalize_relocate column complete]
      generalize Layout.normalize inner = normal at complete'
      cases normal with
      | error fault => exact ⟨rfl, complete'⟩
      | ok tokens =>
          exact Outcomes.bind (agree_relocate ih complete' fun levels =>
            levels.parseInterpolated tokens) fun _ _ _ results => results.1

/-- The program of moved tokens, or their defect. -/
theorem outcomes_parse (column : ∀ location, (move location).column = location.column)
    {tokens : List Token} (complete : Complete tokens) :
    Outcomes (Defect.Moves move)
      (fun program program' => program' = Node.relocateBlock move program)
      (parse tokens) (parse (tokens.map (Token.relocate move))) := by
  have agree := agree_relocate
    (relocates_parseInterpolation column (Token.depthOfTokens tokens)) complete fun levels =>
      levels.parseProgram tokens
  rw [parse_eq, parse_eq, Token.depthOfTokens_map, (head_relocate move complete).2,
    Token.relocate_location]
  refine Outcomes.bind agree fun result result' _ ⟨same, _⟩ => ?_
  change Block.mk result'.1 _ = Node.relocateBlock move ⟨result.1, _⟩
  rw [same, Node.relocateBlock, Node.relocateAll_eq_map]
  rfl

end Parses

end Tree

end Offside
