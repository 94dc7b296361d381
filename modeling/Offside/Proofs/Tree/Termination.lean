import Offside.Proofs.Tree.Concatenation
import Offside.Proofs.Tree.Stopping

/-!
# Parsing ends by itself

The levels of the grammar bound how deeply rules call each other, and the depth of a list bounds how
deeply interpolations nest. Neither bound is ever met: whatever stands at the bottom, and however
many levels are put between, the answer is the same. So the rules could as well call each other
without a bound.
-/

namespace Offside

open Token (Kind)

/-! ## Depth -/

theorem Token.depthOfTokens_lt_of_mem {segments : List Segment} {inner : List Token} {text : String}
    (member : .expression inner text ∈ segments) :
    depthOfTokens inner < depthOfSegments segments := by
  induction segments with
  | nil => cases member
  | cons segment rest ih =>
      rcases List.mem_cons.mp member with rfl | later
      · exact Nat.le_max_left _ _
      · refine Nat.lt_of_lt_of_le (ih later) ?_
        cases segment with
        | text content => exact Nat.le_refl _
        | expression tokens source => exact Nat.le_max_right _ _

namespace Tree

theorem parseParts_congr {interpolate interpolate' : List Token → Except Defect Node}
    {segments : List Segment} (same : ∀ inner text, .expression inner text ∈ segments →
      interpolate' inner = interpolate inner) :
    parseParts interpolate' segments = parseParts interpolate segments := by
  induction segments with
  | nil => rfl
  | cons segment rest ih =>
      have later := ih fun inner text member => same inner text (List.mem_cons_of_mem _ member)
      cases segment with
      | text content => rw [parseParts, parseParts, later]
      | expression tokens source =>
          rw [parseParts, parseParts, later, same tokens source List.mem_cons_self]

/-! ## Other bottoms -/

/-- What stands under the rules: how many more levels there are and what is below them, and the same
for interpolations. -/
structure Bottom where
  levels : Nat
  level : Level
  depth : Nat
  interpolate : List Token → Except Defect Node

namespace Bottom

variable (bottom : Bottom)

/-- Run a rule of the grammar on a list of tokens, with levels for it over the bottom. -/
def runRule {α : Type} (interpolate : List Token → Except Defect Node) (rule : Level → Parser α)
    (tokens : List Token) : Except Defect (α × List Token) :=
  rule (Nat.repeat (Level.next interpolate) (tokens.length + 1 + bottom.levels) bottom.level) tokens

/-- An interpolated expression with this bottom. -/
def parseInterpolation : (depth : Nat) → List Token → Except Defect Node
  | 0, tokens => bottom.interpolate tokens
  | depth + 1, tokens =>
    match Layout.normalize tokens with
    | .error fault => .error (.layout fault)
    | .ok tokens => do
      let (node, _) ← bottom.runRule (parseInterpolation depth) parseInterpolated tokens
      return node

/-- The program of a list of tokens with this bottom. -/
def parse (tokens : List Token) : Except Defect Program := do
  let depth := Token.depthOfTokens tokens + bottom.depth
  let (statements, _) ← bottom.runRule (bottom.parseInterpolation depth) parseProgram tokens
  return ⟨statements, (headToken tokens).location⟩

end Bottom

theorem repeat_add {α : Type} (step : α → α) (first second : Nat) (start : α) :
    Nat.repeat step (first + second) start =
      Nat.repeat step first (Nat.repeat step second start) := by
  induction first with
  | zero => rw [Nat.zero_add]; rfl
  | succ first ih =>
      rw [Nat.add_right_comm]
      exact congrArg step ih

/-- Answers that correspond are the same if nothing moves. -/
theorem eq_of_agree {α : Type} {change : α → α} (unchanged : ∀ result, change result = result)
    {interpolate interpolate' : List Token → Except Defect Node}
    {outcome outcome' : Except Defect (α × List Token)}
    (agree : (Correspondence.settled interpolate interpolate').Agree change outcome outcome') :
    outcome' = outcome := by
  cases outcome with
  | error defect =>
      cases outcome' with
      | error defect' => exact congrArg Except.error agree
      | ok result' => exact agree.elim
  | ok result =>
      cases outcome' with
      | error defect' => exact agree.elim
      | ok result' =>
          obtain ⟨same, lists⟩ := agree
          have rest : List.Forall₂ Eq result.2 result'.2 :=
            lists.each.imp fun _ _ alike => alike.1.symm
          rw [List.forall₂_eq_eq_eq] at rest
          exact congrArg Except.ok (Prod.ext (same.trans (unchanged _)) rest.symm)

/-- A rule gives the same answer over any bottom. -/
theorem runRule_settled {α : Type} {change : α → α} (unchanged : ∀ result, change result = result)
    (interpolate interpolate' : List Token → Except Defect Node) (bottom : Bottom)
    {rule : Level → Parser α} {tokens : List Token}
    (runs : ∀ {level level'},
      (Correspondence.settled interpolate interpolate').Levels (tokens.length + 1) level level' →
      (Correspondence.settled interpolate interpolate').Runs (tokens.length + 1) .part change
        (rule level) (rule level') tokens)
    (parts : ∀ token ∈ tokens, ∀ segments, token.payload = .segments segments →
      parseParts interpolate' segments = parseParts interpolate segments) :
    bottom.runRule interpolate' rule tokens = runRule interpolate rule tokens := by
  have lists : (Correspondence.settled interpolate interpolate').Lists tokens tokens :=
    ⟨List.forall₂_same.mpr fun token member => ⟨rfl, parts token member⟩, .inl ⟨rfl, nofun⟩⟩
  rw [Bottom.runRule, repeat_add, runRule]
  exact eq_of_agree unchanged
    ((runs (Correspondence.levels_ofNat _ _ _)).1 lists (Nat.lt_succ_self _))

theorem explained_parseInterpolated (interpolate : List Token → Except Defect Node)
    (tokens : List Token) :
    Explained interpolate .part tokens (runRule interpolate parseInterpolated tokens) :=
  ((Level.consumes_ofNat interpolate _).parseInterpolated tokens).2

theorem explained_parseProgram (interpolate : List Token → Except Defect Node)
    (tokens : List Token) :
    Explained interpolate .part tokens (runRule interpolate parseProgram tokens) :=
  ((Level.consumes_ofNat interpolate _).parseProgram tokens).2

theorem parseParts_eq_of_depth {interpolate interpolate' : List Token → Except Defect Node}
    {tokens : List Token} (same : ∀ inner, Token.depthOfTokens inner < Token.depthOfTokens tokens →
      interpolate' inner = interpolate inner) {token : Token} (member : token ∈ tokens)
    {segments : List Segment} (payload : token.payload = .segments segments) :
    parseParts interpolate' segments = parseParts interpolate segments := by
  refine parseParts_congr fun inner text part => same inner ?_
  have depth : token.depth = Token.depthOfSegments segments := by
    obtain ⟨kind, _, location⟩ := token
    obtain rfl := payload
    rfl
  have deep := Token.depth_le_of_mem member
  rw [depth] at deep
  exact Nat.lt_of_lt_of_le (Token.depthOfTokens_lt_of_mem part) deep

/-- Layout nests interpolations no deeper. -/
theorem depthOfTokens_normalize {tokens output : List Token}
    (found : Layout.normalize tokens = .ok output) :
    Token.depthOfTokens output ≤ Token.depthOfTokens tokens := by
  have ordinary := Layout.ordinary_normalize tokens
  rw [found] at ordinary
  refine Token.depthOfTokens_le.mpr fun token member => ?_
  rcases ordinary token member with read | ⟨kind, place, -, rfl⟩
  · exact Token.depth_le_of_mem read
  · exact Nat.zero_le _

/-- Interpolations give the same answer over any bottom, if they nest less deep than provided
for. -/
theorem parseInterpolation_settled (bottom : Bottom) {depth depth' : Nat} {tokens : List Token}
    (deep : Token.depthOfTokens tokens < depth) (deep' : Token.depthOfTokens tokens < depth') :
    bottom.parseInterpolation depth' tokens = parseInterpolation depth tokens := by
  induction depth generalizing depth' tokens with
  | zero => exact absurd deep (Nat.not_lt_zero _)
  | succ depth ih =>
      obtain ⟨depth', rfl⟩ := Nat.exists_eq_add_one_of_ne_zero (Nat.ne_zero_of_lt deep')
      rw [Bottom.parseInterpolation, parseInterpolation]
      cases found : Layout.normalize tokens with
      | error fault => rfl
      | ok output =>
          -- What is interpolated below is less deep, so both sides provide for it.
          have shallow := depthOfTokens_normalize found
          have same := runRule_settled Node.relocate_id (parseInterpolation depth)
            (bottom.parseInterpolation depth') bottom
            (fun levels => levels.parseInterpolated output) fun token member segments =>
              parseParts_eq_of_depth (fun inner nested => ih (by omega) (by omega)) member
          exact congrArg (· >>= fun result => .ok result.1) same

/-- Parsing gives the same answer over any bottom. -/
theorem parse_settled (bottom : Bottom) (tokens : List Token) :
    bottom.parse tokens = parse tokens := by
  let depth := Token.depthOfTokens tokens
  have same := runRule_settled (fun nodes => Node.map_relocate_id fun node _ => node.relocate_id)
    (parseInterpolation depth) (bottom.parseInterpolation (depth + bottom.depth)) bottom
    (fun levels => levels.parseProgram tokens) fun token member segments =>
      parseParts_eq_of_depth (fun inner nested =>
        parseInterpolation_settled bottom nested (by omega)) member
  exact congrArg (· >>= fun result => .ok (Block.mk result.1 (headToken tokens).location)) same

end Tree

end Offside
