import Offside.Proofs.Token.Relocation
import Offside.Proofs.Tree.Running
import Offside.Proofs.Tree.Shape

/-!
# Lists of tokens side by side

A correspondence relates two lists of tokens that the parser cannot tell apart, but for the places
of their tokens: at corresponding tokens it decides the same, and what it builds differs in places
only.
-/

namespace Offside.Tree

open Token (Kind)

/-! ## Tokens and outcomes that correspond -/

/-- A token that the parser takes like another one, but for its place. The place of the end of a
block is nowhere in a tree. -/
structure Moved (move : Location → Location) (token token' : Token) : Prop where
  kind : token'.kind = token.kind
  location : token.kind ≠ .blockEnd → token'.location = move token.location
  payload : token.kind ≠ .blockEnd → token.kind ≠ .identifier →
    token'.payload = token.payload.relocate move
  word : token.kind = .identifier → wordOf token' = wordOf token

theorem exists_moved (move : Location → Location) (token : Token) :
    ∃ token', Moved move token token' := by
  by_cases isName : token.kind = .identifier
  · exact ⟨{ token with location := move token.location }, rfl, fun _ => rfl,
      fun _ other => absurd isName other, fun _ => rfl⟩
  · exact ⟨⟨token.kind, token.payload.relocate move, move token.location⟩, rfl, fun _ => rfl,
      fun _ _ => rfl, fun isName' => absurd isName' isName⟩

theorem Moved.refl (token : Token) : Moved id token token :=
  ⟨rfl, fun _ => rfl, fun _ _ => (Token.payload_relocate_id _).symm, fun _ => rfl⟩

/-- Outcomes that correspond, where `related` says when two results do. -/
def Outcomes {α : Type} (fails : Defect → Defect → Prop) (related : α → α → Prop) :
    Except Defect α → Except Defect α → Prop
  | .ok result, .ok result' => related result result'
  | .error defect, .error defect' => fails defect defect'
  | _, _ => False

theorem Outcomes.bind {α β : Type} {fails : Defect → Defect → Prop} {related : α → α → Prop}
    {related' : β → β → Prop} {outcome outcome' : Except Defect α}
    {next next' : α → Except Defect β} (first : Outcomes fails related outcome outcome')
    (goesOn : ∀ result result', outcome = .ok result → related result result' →
      Outcomes fails related' (next result) (next' result')) :
    Outcomes fails related' (outcome >>= next) (outcome' >>= next') := by
  cases outcome with
  | ok result =>
      cases outcome' with
      | ok result' => exact goesOn result result' rfl first
      | error defect' => exact first.elim
  | error defect =>
      cases outcome' with
      | ok result' => exact first.elim
      | error defect' => exact first

/-- Two ways to parse the expressions of a literal whose places differ. -/
abbrev PartsAgree (move : Location → Location) (fails : Defect → Defect → Prop)
    (interpolate interpolate' : List Token → Except Defect Node) (segments : List Segment) : Prop :=
  Outcomes fails (fun parts parts' => parts' = Node.relocateParts move parts)
    (parseParts interpolate segments) (parseParts interpolate' (Segment.relocateAll move segments))

theorem partsAgree_of_each {move : Location → Location} {fails : Defect → Defect → Prop}
    {interpolate interpolate' : List Token → Except Defect Node} {segments : List Segment}
    (each : ∀ inner ∈ segments.filterMap Segment.tokens?,
      Outcomes fails (fun node node' => node' = node.relocate move) (interpolate inner)
        (interpolate' (inner.map (Token.relocate move)))) :
    PartsAgree move fails interpolate interpolate' segments := by
  induction segments with
  | nil => exact rfl
  | cons segment rest ih =>
      cases segment with
      | text content =>
          refine Outcomes.bind (ih each) ?_
          rintro parts _ - rfl
          exact rfl
      | expression tokens source =>
          rw [PartsAgree, Segment.relocateAll, Token.relocateAll_eq_map]
          refine Outcomes.bind (each tokens (by simp [Segment.tokens?])) ?_
          rintro node _ - rfl
          refine Outcomes.bind (ih fun inner member => each inner (by simp_all)) ?_
          rintro parts _ - rfl
          exact rfl

theorem PartsAgree.of_eq {fails : Defect → Defect → Prop}
    {interpolate interpolate' : List Token → Except Defect Node} {segments : List Segment}
    (same : parseParts interpolate' segments = parseParts interpolate segments)
    (refl : ∀ defect, fails defect defect) :
    PartsAgree id fails interpolate interpolate' segments := by
  rw [PartsAgree, Token.segments_relocate_id, same]
  cases parseParts interpolate segments with
  | error defect => exact refl defect
  | ok parts => exact (Node.relocateParts_id fun node _ => node.relocate_id).symm

/-- A way in which lists of tokens may differ without the parser telling them apart, but for the
places of their tokens. -/
structure Correspondence where
  /-- How places differ. -/
  move : Location → Location
  /-- How the interpolated expressions of the first list are parsed. -/
  interpolate : List Token → Except Defect Node
  /-- How those of the second list are parsed. -/
  interpolate' : List Token → Except Defect Node
  /-- Which tokens correspond. -/
  Alike : Token → Token → Prop
  /-- How the defects of the two lists are related. -/
  Fails : Defect → Defect → Prop
  moved : ∀ {token token'}, Alike token token' → Moved move token token'
  literal : ∀ {token token'}, Alike token token' →
    ∀ segments, token.payload = .segments segments →
      PartsAgree move Fails interpolate interpolate' segments
  unexpected : ∀ {token token'}, Alike token token' → ∀ expectation,
    Fails (.ofToken expectation token) (.ofToken expectation token')
  unclosed : ∀ {token token'}, Alike token token' → ∀ delimiter opened,
    Fails (.unclosed delimiter opened token) (.unclosed delimiter (move opened) token')

/-! ## Lists that correspond -/

namespace Correspondence

variable (c : Correspondence)

/-- Lists whose tokens correspond. They go up to an end of file, or they may end anywhere. -/
structure Lists (tokens tokens' : List Token) : Prop where
  each : List.Forall₂ c.Alike tokens tokens'
  ended : c.Alike default default ∨ ∃ last ∈ tokens, last.kind = .endOfFile

section Lists

variable {c} {tokens tokens' : List Token}

theorem head_kind (each : List.Forall₂ c.Alike tokens tokens') :
    (headToken tokens').kind = (headToken tokens).kind := by
  cases each with
  | nil => rfl
  | cons alike => exact (c.moved alike).kind

theorem bindsTuple_eq (each : List.Forall₂ c.Alike tokens tokens') (depth : Nat) :
    bindsTuple depth tokens' = bindsTuple depth tokens := by
  induction each generalizing depth with
  | nil => rfl
  | cons alike rest ih => simp only [bindsTuple, (c.moved alike).kind, ih, head_kind rest]

namespace Lists

variable (lists : c.Lists tokens tokens')

include lists

theorem head : c.Alike (headToken tokens) (headToken tokens') := by
  obtain ⟨each, ended⟩ := lists
  cases each with
  | nil => exact ended.resolve_right (by simp)
  | cons alike => exact alike

theorem moved : Moved c.move (headToken tokens) (headToken tokens') := c.moved lists.head

theorem tail (inner : (headToken tokens).kind ≠ .endOfFile) :
    c.Lists tokens.tail tokens'.tail := by
  obtain ⟨each, ended⟩ := lists
  cases each with
  | nil => exact ⟨.nil, ended⟩
  | cons alike rest =>
      refine ⟨rest, ended.imp_right fun ⟨last, member, isEnd⟩ => ⟨last, ?_, isEnd⟩⟩
      exact (List.mem_cons.mp member).resolve_left fun same => inner (same ▸ isEnd)

theorem next : c.Lists (next tokens) (next tokens') := by
  rw [Tree.next, Tree.next, lists.moved.kind]
  split
  case isTrue => exact lists
  case isFalse inner => exact lists.tail inner

theorem second : secondKind tokens' = secondKind tokens := by
  rcases lists.each with _ | ⟨alike, _ | ⟨alike', _⟩⟩
  · rfl
  · exact (c.moved alike).kind
  · exact (c.moved alike').kind

theorem startsBinding : startsBinding tokens' = startsBinding tokens := by
  rw [Tree.startsBinding, Tree.startsBinding, lists.moved.kind, lists.second,
    bindsTuple_eq lists.each]

theorem skip : c.Lists (skip tokens) (skip tokens') := by
  induction tokens generalizing tokens' with
  | nil =>
      cases lists.each
      exact lists
  | cons token rest ih =>
      cases lists.each with
      | @cons _ token' _ rest' alike others =>
          have kind : token'.kind = token.kind := (c.moved alike).kind
          by_cases separates : token.kind = .statementEnd
          · simpa [Tree.skip, kind, separates] using ih (lists.tail (by simp [separates]))
          · simpa [Tree.skip, kind, separates] using lists

end Lists

end Lists

/-- Results of parsing that correspond: the second is the first one changed, and so are the tokens
that are left. -/
def Results {α : Type} (change : α → α) (result result' : α × List Token) : Prop :=
  result'.1 = change result.1 ∧ c.Lists result.2 result'.2

/-- Parses that correspond. -/
abbrev Agree {α : Type} (change : α → α) :
    Except Defect (α × List Token) → Except Defect (α × List Token) → Prop :=
  Outcomes c.Fails (c.Results change)

/-- Patterns with other places. -/
abbrev patterns : List Pattern → List Pattern := List.map (Pattern.relocate c.move)

/-- Nodes with other places. -/
abbrev nodes : List Node → List Node := List.map (Node.relocate c.move)

end Correspondence

/-! ## Nodes at other places -/

theorem relocate_binaryNode (move : Location → Location) (kind : Kind) (left right : Node)
    (location : Location) :
    (binaryNode kind left right location).relocate move =
      binaryNode kind (left.relocate move) (right.relocate move) (move location) := by
  unfold binaryNode
  split <;> rfl

theorem relocate_pipeNode (move : Location → Location) (left right : Node) (location : Location) :
    (pipeNode left right location).relocate move =
      pipeNode (left.relocate move) (right.relocate move) (move location) := by
  cases right <;> simp [pipeNode, Node.relocate]

end Offside.Tree
