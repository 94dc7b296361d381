import Offside.Proofs.Layout.Concatenation
import Offside.Proofs.Token.Places

/-!
# Leaves

The tokens of names and literals are the leaves of a text, to any depth of interpolation. Scanning
makes regular tokens: a name has a text, a truth value is that of its word, and only string literals
hold other tokens, which reach up to an end of file of their own. Layout keeps regular tokens
regular, and it keeps their leaves.
-/

namespace Offside

open Layout (normalize isLayout isDropped significant withoutLayout)

/-- What a name or a literal says, and where it stands. -/
inductive Leaf where
  | name (name : String) (location : Location)
  | integer (value : Int) (location : Location)
  | float (value : Float) (location : Location)
  | boolean (value : Bool) (location : Location)
  /-- A string literal: its texts, and nothing in the place of an interpolated expression. -/
  | string (texts : List (Option String)) (location : Location)

/-- The text of a segment that is no expression. -/
def Segment.text? : Segment → Option String
  | .text content => some content
  | .expression _ _ => none

namespace Token

open Lexeme (isRaw)

/-- The leaf of a token. -/
def leaf? (token : Token) : Option Leaf :=
  match token.kind, token.payload with
  | .identifier, .text name => some (.name name token.location)
  | .integer, .integer value => some (.integer value token.location)
  | .float, .float value => some (.float value token.location)
  | .trueWord, .boolean value | .falseWord, .boolean value => some (.boolean value token.location)
  | .string, .segments segments => some (.string (segments.map Segment.text?) token.location)
  | _, _ => none

/-- The leaves of tokens, those of interpolated expressions included. -/
def leaves (tokens : List Token) : List Leaf := (nestedAll tokens).filterMap leaf?

/-- The leaves of the interpolated expressions of a literal. -/
def leavesOfSegments (segments : List Segment) : List Leaf :=
  (Segment.nestedAll segments).filterMap leaf?

theorem leavesOfSegments_expression (inner : List Token) (text : String) (rest : List Segment) :
    leavesOfSegments (.expression inner text :: rest) = leaves inner ++ leavesOfSegments rest := by
  simp [leavesOfSegments, Segment.nestedAll, leaves]

theorem leaves_singleton (token : Token) :
    leaves [token] = token.leaf?.toList ++ leavesOfSegments token.payload.parts := by
  rw [leaves, nestedAll, nestedAll, List.append_nil, nested_eq, leavesOfSegments]
  cases found : token.leaf? with
  | none => rw [List.filterMap_cons_none found, Option.toList_none, List.nil_append]
  | some leaf => rw [List.filterMap_cons_some found, Option.toList_some, List.singleton_append]

theorem nestedAll_cons (token : Token) (rest : List Token) :
    nestedAll (token :: rest) = nestedAll [token] ++ nestedAll rest :=
  nestedAll_append [token] rest

theorem leaves_append (first second : List Token) :
    leaves (first ++ second) = leaves first ++ leaves second := by
  rw [leaves, nestedAll_append, List.filterMap_append, leaves, leaves]

theorem leaves_cons (token : Token) (rest : List Token) :
    leaves (token :: rest) = leaves [token] ++ leaves rest :=
  leaves_append [token] rest

/-! ## Regular tokens -/

/-- Tokens of a text: none is layout, and the last one is the only end of file. -/
def Raw (tokens : List Token) : Prop :=
  ∃ before last, tokens = before ++ [last] ∧ last.kind = .endOfFile ∧
    ∀ token ∈ before, isRaw token.kind

/-- The last token is the only end of file. -/
def Ended (tokens : List Token) : Prop :=
  ∃ before last, tokens = before ++ [last] ∧ last.kind = .endOfFile ∧
    ∀ token ∈ before, token.kind ≠ .endOfFile

/-- A token with a payload that fits its kind. -/
structure Genuine (token : Token) : Prop where
  scanned : token.Scanned
  name : token.kind = .identifier → ∃ text, token.payload = .text text
  trueWord : token.kind = .trueWord → token.payload = .boolean true
  falseWord : token.kind = .falseWord → token.payload = .boolean false
  /-- An interpolated expression has the tokens of a text. -/
  raw : ∀ inner text, .expression inner text ∈ token.payload.parts → Raw inner

/-- Tokens that are genuine to any depth. -/
def Regular (tokens : List Token) : Prop := ∀ token ∈ nestedAll tokens, token.Genuine

theorem regular_append {first second : List Token} :
    Regular (first ++ second) ↔ Regular first ∧ Regular second := by
  rw [Regular, nestedAll_append, List.forall_mem_append, Regular, Regular]

theorem regular_singleton {token : Token} : Regular [token] ↔ token.Genuine ∧
    ∀ inner text, .expression inner text ∈ token.payload.parts → Regular inner := by
  rw [Regular, nestedAll, nestedAll, List.append_nil, nested_eq, List.forall_mem_cons,
    forall_mem_segments]
  rfl

theorem regular_iff {tokens : List Token} :
    Regular tokens ↔ ∀ token ∈ tokens, Regular [token] := by
  rw [Regular, forall_mem_nestedAll]
  simp [Regular, nestedAll]

/-- Only string literals hold expressions. -/
theorem Scanned.not_mem_parts {token : Token} (scanned : token.Scanned)
    (other : token.kind ≠ .string) (inner : List Token) (text : String) :
    .expression inner text ∉ token.payload.parts := by
  intro part
  cases scanned with
  | intro _ literal =>
      refine other (literal ?_)
      obtain ⟨kind, payload, location⟩ := token
      cases payload with
      | segments parts =>
          exact List.ne_nil_of_mem (List.mem_filterMap.mpr ⟨_, part, rfl⟩)
      | _ => cases part

/-- The kinds of the leaves. -/
def holdsLeaf : Kind → Bool
  | .identifier | .integer | .float | .string | .trueWord | .falseWord => true
  | _ => false

theorem holdsLeaf_of_isLayout {kind : Kind} (layout : isLayout kind) : holdsLeaf kind = false := by
  cases kind <;> first | rfl | cases layout

theorem holdsLeaf_of_isDropped {depth : Nat} {kind : Kind} (dropped : isDropped depth kind) :
    holdsLeaf kind = false := by
  cases kind <;> first | rfl | cases dropped

theorem ne_of_blank {kind other : Kind} (blank : holdsLeaf kind = false) (held : holdsLeaf other) :
    kind ≠ other := by
  rintro rfl
  cases blank.symm.trans held

/-- A scanned token that is neither a name nor a literal. -/
theorem regular_of_blank {token : Token} (scanned : token.Scanned)
    (blank : holdsLeaf token.kind = false) : Regular [token] := by
  have none := scanned.not_mem_parts (ne_of_blank blank rfl)
  refine regular_singleton.mpr ⟨⟨scanned, fun isName => ?_, fun isTrue => ?_, fun isFalse => ?_,
    fun inner text part => absurd part (none inner text)⟩,
    fun inner text part => absurd part (none inner text)⟩
  · exact absurd isName (ne_of_blank blank rfl)
  · exact absurd isTrue (ne_of_blank blank rfl)
  · exact absurd isFalse (ne_of_blank blank rfl)

/-- A token other than a string literal holds no tokens but itself. -/
theorem Scanned.nestedAll_singleton {token : Token} (scanned : token.Scanned)
    (other : token.kind ≠ .string) : nestedAll [token] = [token] := by
  have none : Segment.nestedAll token.payload.parts = [] :=
    List.eq_nil_iff_forall_not_mem.mpr (forall_mem_segments.mpr fun inner text part =>
      absurd part (scanned.not_mem_parts other inner text))
  rw [nestedAll, nestedAll, List.append_nil, nested_eq, none]

/-- A token other than a string literal has at most one leaf. -/
theorem leaves_of_ne_string {token : Token} (scanned : token.Scanned)
    (other : token.kind ≠ .string) : leaves [token] = token.leaf?.toList := by
  rw [leaves, scanned.nestedAll_singleton other]
  cases found : token.leaf? with
  | none => exact List.filterMap_cons_none found
  | some leaf => exact List.filterMap_cons_some found

theorem leaf?_of_blank {token : Token} (blank : holdsLeaf token.kind = false) :
    token.leaf? = none := by
  unfold leaf?
  split <;> simp_all [holdsLeaf]

/-- A token other than a name or a literal has no leaves. -/
theorem leaves_of_blank {token : Token} (scanned : token.Scanned)
    (blank : holdsLeaf token.kind = false) : leaves [token] = [] := by
  rw [leaves_of_ne_string scanned (ne_of_blank blank rfl), leaf?_of_blank blank, Option.toList_none]

/-! ## Scanning -/

section Scanning

variable {previous : Option Char} {location : Location} {chars : List Char} {tokens : List Token}

theorem raw_scanFrom (found : scanFrom previous location chars = .ok tokens) : Raw tokens := by
  obtain ⟨before, rfl, raw, -⟩ := exists_scanFrom found
  exact ⟨before, _, rfl, rfl, raw⟩

/-- The interpolated expressions of a token are shorter texts. -/
theorem exists_of_mem_parts (counted : location.Counted)
    (found : scanFrom previous location chars = .ok tokens) {token : Token}
    (member : token ∈ tokens) {inner : List Token} {text : String}
    (part : .expression inner text ∈ token.payload.parts) :
    ∃ place chars', place.Counted ∧ chars'.length < chars.length ∧
      scanFrom none place chars' = .ok inner := by
  have whole : chars = [] ++ (chars ++ []) := (List.append_nil chars).symm
  have placed := forall_mem_nestedAll.mp (placed_scanFrom whole found) token member
  rw [nested_eq, List.forall_mem_cons] at placed
  obtain ⟨before, after, split, innerFound⟩ := placed.1.stands inner text part
  refine ⟨_, text.toList, counted.advanceAll _, ?_, innerFound⟩
  rw [split]
  simp only [List.length_append, List.length_cons]
  omega

theorem exists_spelled_of_tiled {offset : Nat} (tiled : Tiled offset chars tokens) :
    ∀ token ∈ tokens, ∃ slice, token.Spelled slice := by
  induction tiled with
  | done => exact fun _ member => nomatch member
  | tile _ _ spelled _ _ ih => exact List.forall_mem_cons.mpr ⟨⟨_, spelled⟩, ih⟩

/-- The tokens of a text are genuine. -/
theorem genuine_of_scanFrom (counted : location.Counted)
    (found : scanFrom previous location chars = .ok tokens) {token : Token}
    (member : token ∈ tokens) : token.Genuine := by
  have scanned := (complete_scanFrom counted found).each token member
  have raw (inner : List Token) (text : String)
      (part : .expression inner text ∈ token.payload.parts) : Raw inner := by
    obtain ⟨_, _, _, _, innerFound⟩ := exists_of_mem_parts counted found member part
    exact raw_scanFrom innerFound
  obtain ⟨before, rfl, tiled⟩ := tiled_scanFrom found
  rcases List.mem_append.mp member with inner | last
  · obtain ⟨slice, spelled⟩ := exists_spelled_of_tiled tiled token inner
    refine ⟨scanned, fun isName => ⟨_, spelled.name isName⟩, fun isTrue => ?_, fun isFalse => ?_,
      raw⟩
    · have fixed := (spelled.fixed "true" (by rw [isTrue]; decide)).2
      rwa [isTrue] at fixed
    · have fixed := (spelled.fixed "false" (by rw [isFalse]; decide)).2
      rwa [isFalse] at fixed
  · obtain rfl := List.mem_singleton.mp last
    exact (regular_singleton.mp (regular_of_blank scanned rfl)).1

/-- The tokens of a text are regular. -/
theorem regular_scanFrom {previous : Option Char} {location : Location} {chars : List Char}
    {tokens : List Token} (counted : location.Counted)
    (found : scanFrom previous location chars = .ok tokens) : Regular tokens := by
  refine regular_iff.mpr fun token member => ?_
  refine regular_singleton.mpr ⟨genuine_of_scanFrom counted found member, ?_⟩
  intro inner text part
  obtain ⟨place, chars', counted', shorter, innerFound⟩ :=
    exists_of_mem_parts counted found member part
  exact regular_scanFrom counted' innerFound
termination_by chars.length
decreasing_by exact shorter

end Scanning

/-! ## Layout -/

section Views

variable {β : Type} {view : Token → Option β} {tokens : List Token}

/-- What is seen of tokens to any depth, if nothing is seen of layout. -/
theorem filterMap_withoutLayout (scanned : ∀ token ∈ tokens, token.Scanned)
    (silent : ∀ token : Token, isLayout token.kind → view token = none) :
    (nestedAll (withoutLayout tokens)).filterMap view = (nestedAll tokens).filterMap view := by
  induction tokens with
  | nil => rfl
  | cons token rest ih =>
      obtain ⟨here, later⟩ := List.forall_mem_cons.mp scanned
      rw [nestedAll_cons token, List.filterMap_append, ← ih later]
      cases layout : isLayout token.kind with
      | true =>
          have alone := here.nestedAll_singleton (ne_of_blank (holdsLeaf_of_isLayout layout) rfl)
          rw [alone, List.filterMap_cons_none (silent token layout), List.filterMap_nil,
            List.nil_append, withoutLayout, List.filter_cons_of_neg (by simp [layout]),
            withoutLayout]
      | false =>
          rw [withoutLayout, List.filter_cons_of_pos (by simp [layout]), nestedAll_cons,
            List.filterMap_append, withoutLayout]

/-- What is seen of tokens to any depth, if nothing is seen of those that layout drops. -/
theorem filterMap_significant (scanned : ∀ token ∈ tokens, token.Scanned)
    (silent : ∀ depth (token : Token), isDropped depth token.kind → view token = none)
    (depth : Nat) :
    (nestedAll (significant depth tokens)).filterMap view = (nestedAll tokens).filterMap view := by
  induction tokens generalizing depth with
  | nil => rfl
  | cons token rest ih =>
      obtain ⟨here, later⟩ := List.forall_mem_cons.mp scanned
      rw [significant, nestedAll_append, List.filterMap_append, ih later, nestedAll_cons token,
        List.filterMap_append]
      split
      case isTrue dropped =>
          have alone := here.nestedAll_singleton (ne_of_blank (holdsLeaf_of_isDropped dropped) rfl)
          rw [alone, List.filterMap_cons_none (silent depth token dropped)]
          rfl
      case isFalse => rfl

end Views

theorem Regular.scanned {tokens : List Token} (regular : Regular tokens) :
    ∀ token ∈ tokens, token.Scanned :=
  fun token member => (regular_singleton.mp (regular_iff.mp regular token member)).1.scanned

theorem Raw.complete {tokens : List Token} (raw : Raw tokens) (regular : Regular tokens) :
    Complete tokens := by
  obtain ⟨before, last, rfl, isEnd, -⟩ := raw
  exact ⟨⟨last, by simp, isEnd⟩, regular.scanned⟩

/-- Layout keeps regular tokens, and all that is seen of other tokens than line breaks, semicolons
and layout. -/
theorem regular_normalize {tokens output : List Token} (raw : Raw tokens) (regular : Regular tokens)
    (found : normalize tokens = .ok output) :
    Regular output ∧ Ended output ∧ ∀ {β : Type} (view : Token → Option β),
      (∀ token : Token, isLayout token.kind → view token = none) →
      (∀ depth (token : Token), isDropped depth token.kind → view token = none) →
      (nestedAll output).filterMap view = (nestedAll tokens).filterMap view := by
  have complete := Layout.complete_normalize (raw.complete regular)
  rw [found] at complete
  obtain ⟨before, last, rfl, isEnd, raw⟩ := raw
  have layoutless (token : Token) (member : token ∈ before) : isLayout token.kind = false := by
    simpa using (Bool.and_eq_true_iff.mp (raw token member)).1
  have inner (token : Token) (member : token ∈ before) : token.kind ≠ .endOfFile := by
    simpa using (Bool.and_eq_true_iff.mp (raw token member)).2
  obtain ⟨written, rfl, inner', kept⟩ := Layout.exists_written layoutless inner isEnd found
  have scanned : ∀ token ∈ written, token.Scanned :=
    (List.forall_mem_append.mp complete.each).1
  obtain ⟨regularBefore, regularLast⟩ := regular_append.mp regular
  refine ⟨regular_append.mpr ⟨regular_iff.mpr fun token member => ?_, regularLast⟩,
    ⟨written, last, rfl, isEnd, inner'⟩, fun _ ofLayout ofDropped => ?_⟩
  · cases layout : isLayout token.kind with
    | true => exact regular_of_blank (scanned token member) (holdsLeaf_of_isLayout layout)
    | false =>
        have member : token ∈ withoutLayout written :=
          List.mem_filter.mpr ⟨member, by simp [layout]⟩
        rw [kept] at member
        exact regular_iff.mp regularBefore token (Layout.mem_of_mem_significant member)
  · rw [nestedAll_append, nestedAll_append, List.filterMap_append, List.filterMap_append,
      ← filterMap_withoutLayout scanned ofLayout, kept,
      filterMap_significant regularBefore.scanned ofDropped]

/-- Layout keeps leaves and regular tokens. -/
theorem leaves_normalize {tokens output : List Token} (raw : Raw tokens) (regular : Regular tokens)
    (found : normalize tokens = .ok output) :
    Regular output ∧ Ended output ∧ leaves output = leaves tokens := by
  obtain ⟨regular, ended, kept⟩ := regular_normalize raw regular found
  exact ⟨regular, ended, kept leaf? (fun _ layout => leaf?_of_blank (holdsLeaf_of_isLayout layout))
    fun _ _ dropped => leaf?_of_blank (holdsLeaf_of_isDropped dropped)⟩

end Token

end Offside
