import Offside.Proofs.Evaluation.Coupling
import Offside.Proofs.Source.Consumers
import Offside.Proofs.Token.Places

/-!
# Places of a program

Layout and parsing compare columns and do nothing else with places, so they make no places of their
own. Suppose that some places stay and all others move: tokens at places that stay are the same
tokens, so their program is the same program, or it is rejected in the same way. Hence every place
in it is one that stays.
-/

namespace Offside

/-! ## Moves that leave some places -/

namespace Location

/-- Move a place by one character if it is not one of some places. -/
def displace (places : List Location) (location : Location) : Location :=
  if location ∈ places then location else { location with offset := location.offset + 1 }

theorem column_displace (places : List Location) (location : Location) :
    (location.displace places).column = location.column := by
  unfold displace
  split <;> rfl

theorem displace_eq_self_iff {places : List Location} {location : Location} :
    location.displace places = location ↔ location ∈ places := by
  refine ⟨fun same => ?_, fun stays => if_pos stays⟩
  by_contra moves
  rw [displace, if_neg moves] at same
  exact Nat.succ_ne_self _ (congrArg Location.offset same)

end Location

/-! ## What stays where it is -/

namespace Token

variable {move move' : Location → Location}

mutual

/-- Moves that agree on the places of a token, to any depth, make the same token of it. -/
theorem relocate_congr : ∀ token : Token,
    (∀ inner ∈ token.nested, move inner.location = move' inner.location) →
    token.relocate move = token.relocate move'
  | ⟨kind, payload, location⟩, agree => by
      rw [nested_eq, List.forall_mem_cons] at agree
      rw [relocate_mk, relocate_mk, agree.1, payload_relocate_congr payload agree.2]

theorem payload_relocate_congr : ∀ payload : Payload,
    (∀ inner ∈ Segment.nestedAll payload.parts, move inner.location = move' inner.location) →
    payload.relocate move = payload.relocate move'
  | .segments segments, agree => by
      rw [Payload.relocate, Payload.relocate, segments_relocate_congr segments agree]
  | .absent, _ | .text _, _ | .integer _, _ | .float _, _ | .boolean _, _ => by
      rw [Payload.relocate, Payload.relocate]

theorem segments_relocate_congr : ∀ segments : List Segment,
    (∀ inner ∈ Segment.nestedAll segments, move inner.location = move' inner.location) →
    Segment.relocateAll move segments = Segment.relocateAll move' segments
  | [], _ => rfl
  | .text content :: rest, agree => by
      rw [Segment.nestedAll] at agree
      rw [Segment.relocateAll, Segment.relocateAll, segments_relocate_congr rest agree]
  | .expression tokens source :: rest, agree => by
      rw [Segment.nestedAll, List.forall_mem_append] at agree
      rw [Segment.relocateAll, Segment.relocateAll, segments_relocate_congr rest agree.2,
        tokens_relocate_congr tokens agree.1]

theorem tokens_relocate_congr : ∀ tokens : List Token,
    (∀ inner ∈ nestedAll tokens, move inner.location = move' inner.location) →
    relocateAll move tokens = relocateAll move' tokens
  | [], _ => rfl
  | token :: rest, agree => by
      rw [nestedAll, List.forall_mem_append] at agree
      rw [relocateAll, relocateAll, relocate_congr token agree.1,
        tokens_relocate_congr rest agree.2]

end

/-- Tokens stay as they are if the move leaves their places, to any depth. -/
theorem map_relocate_eq_self {tokens : List Token}
    (stays : ∀ token ∈ nestedAll tokens, move token.location = token.location) :
    tokens.map (relocate move) = tokens := by
  have same : relocateAll move tokens = relocateAll id tokens := tokens_relocate_congr tokens stays
  rw [← relocateAll_eq_map, same, tokens_relocate_id]

end Token

namespace Node

theorem parts_relocate (move : Location → Location) (node : Node) :
    (node.relocate move).parts = node.parts.map (relocate move) := by
  have statements (block : Block Node) :
      (relocateBlock move block).statements = block.statements.map (relocate move) := by
    cases block
    exact relocateAll_eq_map ..
  cases node with
  | template parts location =>
      simp only [relocate, Node.parts]
      induction parts with
      | nil => rfl
      | cons part rest ih => cases part <;> simp [relocateParts, ih]
  | list elements location | tuple elements location => exact relocateAll_eq_map move elements
  | call callee arguments location =>
      exact congrArg (relocate move callee :: ·) (relocateAll_eq_map move arguments)
  | lambda parameters body location => exact statements body
  | forLoop pattern iterable body location =>
      exact congrArg (relocate move iterable :: ·) (statements body)
  | whileLoop condition body location =>
      exact congrArg (relocate move condition :: ·) (statements body)
  | block inner => exact statements inner
  | _ => rfl

theorem patterns_relocate (move : Location → Location) (node : Node) :
    (node.relocate move).patterns = node.patterns.map (Pattern.relocate move) := by
  cases node with
  | lambda parameters body location => exact Pattern.relocateAll_eq_map move parameters
  | _ => rfl

/-- Induction over nodes with one hypothesis for each part. -/
theorem parts_induction {motive : Node → Prop}
    (step : ∀ node : Node, (∀ part ∈ node.parts, motive part) → motive node) (node : Node) :
    motive node := by
  induction node using Node.induction with
  | template parts location ih =>
      refine step _ fun part member => ?_
      obtain ⟨found, member, same⟩ := List.mem_filterMap.mp member
      cases found with
      | text => cases same
      | expression node =>
          cases same
          exact ih _ member
  | identifier | integer | float | boolean | unit => exact step _ (List.forall_mem_nil _)
  | unary _ _ _ ih | binding _ _ _ _ ih | update _ _ _ _ ih =>
      exact step _ (List.forall_mem_singleton.mpr ih)
  | range _ _ _ first second | binary _ _ _ _ first second =>
      exact step _ (List.forall_mem_cons.mpr ⟨first, List.forall_mem_singleton.mpr second⟩)
  | conditional _ _ _ _ first second third =>
      exact step _ (List.forall_mem_cons.mpr ⟨first,
        List.forall_mem_cons.mpr ⟨second, List.forall_mem_singleton.mpr third⟩⟩)
  | call _ _ _ first ih | forLoop _ _ _ _ first ih | whileLoop _ _ _ first ih =>
      exact step _ (List.forall_mem_cons.mpr ⟨first, ih⟩)
  | list _ _ ih | tuple _ _ ih | lambda _ _ _ ih | block _ ih => exact step _ ih

end Node

section

variable {move : Location → Location} {P : Location → Prop}
  (stays : ∀ {location}, move location = location → P location)

include stays

/-- The places of a pattern that stays as it is. -/
theorem Pattern.located_of_relocate {pattern : Pattern} (same : pattern.relocate move = pattern) :
    pattern.Located P := by
  induction pattern using Pattern.induction with
  | name bound location =>
      rw [relocate, Pattern.name.injEq] at same
      exact .name (stays same.2)
  | tuple elements location ih =>
      rw [relocate, relocateAll_eq_map, Pattern.tuple.injEq] at same
      have each := List.map_inj_left.mp (same.1.trans (List.map_id elements).symm)
      exact .tuple (stays same.2) fun element member => ih element member (each element member)

/-- The places of a node that stays as it is, those of its parts included. -/
theorem Node.located_of_relocate {node : Node} (same : node.relocate move = node) :
    node.All (Node.Located P) := by
  induction node using Node.parts_induction with
  | step node ih =>
      have location := node.location_relocate move
      have patterns := node.patterns_relocate move
      have parts := node.parts_relocate move
      rw [same] at location patterns parts
      have eachPattern := List.map_inj_left.mp (patterns.symm.trans (List.map_id _).symm)
      have eachPart := List.map_inj_left.mp (parts.symm.trans (List.map_id _).symm)
      refine .intro ⟨stays location.symm, fun pattern member => ?_⟩ fun part member => ?_
      · exact Pattern.located_of_relocate stays (eachPattern pattern member)
      · exact ih part member (eachPart part member)

end

/-! ## Programs and rejections -/

namespace Source

/-- A program at some places, or a rejection at one of them. -/
def LocatedResult (P : Location → Prop) : Except Rejection Program → Prop
  | .ok program => program.All (Node.Located P)
  | .error rejection => ∃ location, rejection.place? = some location ∧ P location

/-- All places of a program, and the place where a text is rejected, are places of tokens. -/
theorem located_program {source : String} {file : Option String} {tokens : List Token}
    (scans : Token.scan source file = .ok tokens) :
    LocatedResult (fun location => ∃ token ∈ Token.nestedAll tokens, token.location = location)
      (program source file) := by
  let places := (Token.nestedAll tokens).map Token.location
  have stays {location : Location} (same : location.displace places = location) :
      ∃ token ∈ Token.nestedAll tokens, token.location = location :=
    List.mem_map.mp (Location.displace_eq_self_iff.mp same)
  have fixed : tokens.map (Token.relocate (Location.displace places)) = tokens :=
    Token.map_relocate_eq_self fun token member =>
      Location.displace_eq_self_iff.mpr (List.mem_map_of_mem member)
  obtain ⟨same, scanned⟩ :=
    programOf_relocate (Location.column_displace places) (complete_scan scans)
  rw [fixed] at same
  rw [program_eq scans]
  generalize programOf tokens = result at same scanned
  cases result with
  | ok program =>
      have same := congrArg Block.statements (Except.ok.inj same)
      rw [Node.statements_relocateBlock] at same
      have each := List.map_inj_left.mp (same.symm.trans (List.map_id _).symm)
      exact fun statement member => Node.located_of_relocate stays (each statement member)
  | error rejection =>
      obtain ⟨location, here, -⟩ := Rejection.Scanned.counted scanned
      have moved := rejection.place?_relocate (Location.displace places)
      rw [← Except.error.inj same, here, Option.map_some, Option.some.injEq] at moved
      exact ⟨location, here, stays moved.symm⟩

end Source

end Offside
