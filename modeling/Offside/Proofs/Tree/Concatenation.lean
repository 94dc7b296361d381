import Offside.Proofs.Layout.Concatenation
import Offside.Proofs.Tree.Extension
import Offside.Proofs.Tree.Written

/-!
# Parsing one text after another

The layout of two texts, one after the other, is that of the first up to its end, and that of the
second, with the end of a statement between them. So the program has the statements of the first and
then those of the second.
-/

namespace Offside

open Layout (Joined)

/-! ## Depth -/

namespace Token

theorem depth_le_of_mem {tokens : List Token} {token : Token} (member : token ∈ tokens) :
    token.depth ≤ depthOfTokens tokens :=
  depthOfTokens_le.mp (Nat.le_refl _) token member

theorem depthOfSegments_eq_zero {segments : List Segment}
    (none : segments.filterMap Segment.tokens? = []) : depthOfSegments segments = 0 := by
  induction segments with
  | nil => rfl
  | cons segment rest ih =>
      cases segment with
      | text content => exact ih none
      | expression tokens source => simp [Segment.tokens?] at none

/-- Only string literals have interpolations. -/
theorem Scanned.depth_eq_zero {token : Token} (scanned : token.Scanned)
    (other : token.kind ≠ .string) : token.depth = 0 := by
  obtain ⟨kind, payload, location⟩ := token
  cases scanned with
  | intro _ literal =>
      have none := not_imp_comm.mp literal other
      cases payload with
      | segments segments => exact depthOfSegments_eq_zero none
      | _ => rfl

end Token

namespace Tree

open Token (Kind)

/-! ## Whole programs -/

section Programs

variable {tokens written : List Token} {last : Token} {program : Program}

theorem parse_of_statements {statements : List Node} {rest : List Token}
    (found : (Level.ofNat (parseInterpolation (Token.depthOfTokens tokens))
      (tokens.length + 1)).statements .endOfFile tokens = .ok (statements, rest))
    (isEnd : (headToken rest).kind = .endOfFile) :
    parse tokens = .ok ⟨statements, (headToken tokens).location⟩ := by
  rw [parse_eq, runRule, parseProgram, run_bind, found, ok_bind, run_bind, run_expect, if_pos isEnd]
  rfl

theorem statements_of_parse (parsed : parse tokens = .ok program) :
    ∃ rest, (Level.ofNat (parseInterpolation (Token.depthOfTokens tokens))
      (tokens.length + 1)).statements .endOfFile tokens = .ok (program.statements, rest) ∧
      (headToken rest).kind = .endOfFile := by
  rw [parse_eq, runRule, parseProgram, run_bind] at parsed
  obtain ⟨⟨statements, later⟩, ran, parsed⟩ := Layout.exists_of_bind_eq_ok parsed
  obtain ⟨⟨others, rest⟩, found, ended⟩ := Layout.exists_of_bind_eq_ok ran
  obtain rfl := Except.ok.inj parsed
  rw [run_bind, run_expect] at ended
  split at ended
  case isTrue isEnd =>
      obtain ⟨rfl, -⟩ := Prod.mk.inj (Except.ok.inj ended)
      exact ⟨rest, found, isEnd⟩
  case isFalse => cases ended

theorem parseStatements_of_parse (parsed : parse tokens = .ok program) :
    ∃ interpolate rest, parseStatements (.ofNat interpolate tokens.length) interpolate .endOfFile
      tokens = .ok (program.statements, rest) :=
  ⟨_, _, (statements_of_parse parsed).choose_spec.1⟩

/-- A list is cut at its only end of file in one way. -/
theorem eq_of_append_endOfFile {used rest : List Token} (isEnd : last.kind = .endOfFile)
    (inner : ∀ token ∈ written, token.kind ≠ .endOfFile)
    (inner' : ∀ token ∈ used, token.kind ≠ .endOfFile)
    (ended : (headToken rest).kind = .endOfFile) (split : written ++ [last] = used ++ rest) :
    used = written ∧ rest = [last] := by
  rcases List.append_eq_append_iff.mp split with ⟨more, rfl, tail⟩ | ⟨more, rfl, rfl⟩
  · cases more with
    | nil => exact ⟨List.append_nil _, tail.symm⟩
    | cons token more =>
        obtain ⟨rfl, -⟩ := List.cons.inj tail
        exact absurd isEnd (inner' last (by simp))
  · cases more with
    | nil => exact ⟨(List.append_nil _).symm, rfl⟩
    | cons token more => exact absurd ended (inner token (by simp))

/-- What a parse of a whole text has read: all of it, with balanced brackets and without text that
forms no token. -/
theorem read_of_parse (inner : ∀ token ∈ written, token.kind ≠ .endOfFile)
    (isEnd : last.kind = .endOfFile) (parsed : parse (written ++ [last]) = .ok program) :
    (Level.ofNat (parseInterpolation (Token.depthOfTokens (written ++ [last])))
      ((written ++ [last]).length + 1)).statements .endOfFile (written ++ [last]) =
        .ok (program.statements, [last]) ∧
      (∀ token ∈ written, token.kind ≠ .invalid) ∧
      (written.map Token.kind).foldl Layout.depthAfter 0 = 0 := by
  obtain ⟨rest, found, ended⟩ := statements_of_parse parsed
  have consumed := ((Level.consumes_ofNat _ _).statements .endOfFile _).takes _ found
  obtain ⟨used, split, each, balanced⟩ := consumed.exists_append
  obtain ⟨rfl, rfl⟩ := eq_of_append_endOfFile isEnd inner (fun token member =>
    (each token member).1) ended split
  exact ⟨found, fun token member => (each token member).2, balanced 0⟩

/-- No program ends with a token that asks for more, the ends of its blocks apart. -/
theorem demands_last_of_parse {token : Token} (inner : ∀ token ∈ written, token.kind ≠ .endOfFile)
    (isEnd : last.kind = .endOfFile) (parsed : parse (written ++ [last]) = .ok program)
    (found : Token.lastBut? .blockEnd written = some token) : demands token.kind = false := by
  obtain ⟨read, -⟩ := read_of_parse inner isEnd parsed
  have crossed := ((Level.consumes_ofNat _ _).statements .endOfFile _).crossed read
  obtain ⟨used, split, fits⟩ := crossed.finished
  obtain rfl : written = used := List.append_cancel_right split
  simpa [found, Plan.tail, Finish.fits] using fits

theorem next_endOfFile (isEnd : last.kind = .endOfFile) : next [last] = [last] := if_pos isEnd

/-- The end of file, before which a statement may end, and other tokens in its place. -/
def Sequel.ofLast (isEnd : last.kind = .endOfFile) (others : List Token) : Sequel where
  ending := [last]
  others := others
  ends := by
    rw [headToken_cons, isEnd]
    rfl
  last := by rwa [next_endOfFile isEnd]

theorem statements_endOfFile (isEnd : last.kind = .endOfFile)
    (interpolate : List Token → Except Defect Node) (count : Nat) :
    (Level.ofNat interpolate (count + 1)).statements .endOfFile [last] = .ok ([], [last]) := by
  have stays : skip [last] = [last] := skip_of_endOfFile isEnd
  have none := parseStatements_at_end (.ofNat interpolate count) interpolate .endOfFile
    (by rwa [stays] : (headToken (skip [last])).kind = .endOfFile)
  rwa [stays] at none

/-- The statements of a whole text, with more levels and deeper nesting provided for. -/
theorem statements_of_enough (inner : ∀ token ∈ written, token.kind ≠ .endOfFile)
    (isEnd : last.kind = .endOfFile) {depth depth' count count' : Nat} (deeper : depth ≤ depth')
    (short : written.length < count) (bound : (written ++ [last]).length < count')
    {statements : List Node} {rest : List Token}
    (found : (Level.ofNat (parseInterpolation depth) count).statements .endOfFile
      (written ++ [last]) = .ok (statements, rest)) :
    (Level.ofNat (parseInterpolation depth') count').statements .endOfFile (written ++ [last]) =
      .ok (statements, [last]) := by
  let sequel := Sequel.ofLast isEnd [last]
  have stops : sequel.Stops := ⟨stops_of_ends sequel.ends, sequel.not_ahead⟩
  have continued (count : Nat) (more : (next [last]).length < count) :
      (Level.ofNat (parseInterpolation depth') count).statements .endOfFile (next [last]) =
        .ok ([], [last]) := by
    obtain ⟨count, rfl⟩ := Nat.exists_eq_add_one_of_ne_zero (Nat.ne_zero_of_lt more)
    rw [next_endOfFile isEnd, statements_endOfFile isEnd]
  have joined := statements_joined sequel.ends continued stops
    (fun _ _ => parseInterpolation_mono deeper) inner short bound found
  rwa [List.append_nil] at joined

end Programs

/-! ## Two texts -/

section Texts

variable {first second whole : List Token}

/-- Tokens correspond that are the same, but for the places of the ends of blocks. -/
def displacement (interpolate : List Token → Except Defect Node) : Correspondence where
  move := id
  interpolate := interpolate
  interpolate' := interpolate
  Alike := Moved id
  Fails _ _ := True
  moved := id
  literal _ _ _ := .of_eq rfl fun _ => trivial
  unexpected _ _ := trivial
  unclosed _ _ _ := trivial

/-- The places of the ends of blocks do not matter to statements. -/
theorem statements_displaced {interpolate : List Token → Except Defect Node} {count : Nat}
    {tokens tokens' : List Token} (each : List.Forall₂ (Moved id) tokens tokens')
    (short : tokens.length < count) {statements : List Node} {rest : List Token}
    (found : (Level.ofNat interpolate count).statements .endOfFile tokens =
      .ok (statements, rest)) :
    ∃ rest', (Level.ofNat interpolate count).statements .endOfFile tokens' =
      .ok (statements, rest') := by
  have agree := (((displacement interpolate).levels_ofNat .bottom count).statements .endOfFile
    tokens).1 ⟨each, .inl (.refl _)⟩ short
  change (displacement interpolate).Agree _ ((Level.ofNat interpolate count).statements _ tokens)
    ((Level.ofNat interpolate count).statements _ tokens') at agree
  rw [found] at agree
  generalize (Level.ofNat interpolate count).statements .endOfFile tokens' = outcome at agree ⊢
  cases outcome with
  | error defect => exact agree.elim
  | ok result =>
      obtain ⟨others, rest'⟩ := result
      obtain rfl : others = statements :=
        agree.1.trans (Node.map_relocate_id fun node _ => node.relocate_id)
      exact ⟨rest', rfl⟩

theorem alike_refl (tokens : List Token) : List.Forall₂ (Moved id) tokens tokens :=
  List.forall₂_same.mpr fun token _ => .refl token

theorem alike_blockEnds (written : List Token) (count : Nat) (location location' : Location)
    (rest : List Token) :
    List.Forall₂ (Moved id) (written ++ (Layout.blockEnds count location ++ rest))
      (written ++ Layout.blockEnds count location' ++ rest) := by
  rw [List.append_assoc]
  refine List.rel_append (alike_refl written) (List.rel_append ?_ (alike_refl rest))
  induction count with
  | zero => exact .nil
  | succ count ih =>
      exact .cons ⟨rfl, fun other => absurd rfl other, fun other => absurd rfl other, nofun⟩ ih

/-- If the tokens of one layout only have no interpolations, they do not count for the depth. -/
theorem depth_le_of_shared (shared : ∀ token ∈ first, token ∈ whole ∨ token.depth = 0) :
    Token.depthOfTokens first ≤ Token.depthOfTokens whole := by
  refine Token.depthOfTokens_le.mpr fun token member => ?_
  rcases shared token member with member' | flat
  · exact Token.depth_le_of_mem member'
  · rw [flat]
    exact Nat.zero_le _

theorem mem_or_depth_eq_zero {written : List Token} {count : Nat} {location : Location}
    {endOfFile token : Token} (flat : endOfFile.depth = 0)
    (member : token ∈ written ++ (Layout.blockEnds count location ++ [endOfFile])) :
    token ∈ written ∨ token.depth = 0 := by
  rcases List.mem_append.mp member with inWritten | inRest
  · exact .inl inWritten
  · rcases List.mem_append.mp inRest with inEnds | isLast
    · obtain rfl := List.eq_of_mem_replicate inEnds
      exact .inr rfl
    · obtain rfl := List.mem_singleton.mp isLast
      exact .inr flat

/-- A program starts with a statement, if with anything. -/
theorem head_of_parse {tokens : List Token} {program : Program}
    (parsed : parse tokens = .ok program) :
    (headToken (skip tokens)).kind = .endOfFile ∨
      startsStatement (headToken (skip tokens)).kind := by
  obtain ⟨interpolate, rest, found⟩ := parseStatements_of_parse parsed
  by_contra neither
  rw [not_or, Bool.not_eq_true] at neither
  obtain ⟨defect, fails⟩ := parseStatement_fails (.ofNat interpolate tokens.length) interpolate
    neither.2
  rw [parseStatements_of_inner _ _ neither.1, fails] at found
  cases found

section

variable {written : List Token} {last : Token} (closed : second = written ++ [last])
  (inner : ∀ token ∈ written, token.kind ≠ .endOfFile) (isEnd : last.kind = .endOfFile)
  {program program' : Program} (parsed : parse first = .ok program)
  (parsed' : parse second = .ok program')

include closed inner isEnd parsed parsed'

/-- A text that goes on has its own statements and those of what follows. -/
theorem parse_sequel {sequel : Sequel} {tokens : List Token}
    (isWhole : sequel.joined tokens = whole)
    (each : List.Forall₂ (Moved id) first (sequel.alone tokens))
    (after : next sequel.others = second)
    (ends : endsToplevel (headToken sequel.others).kind) (ahead : ¬ElseAhead sequel.others)
    (innerFirst : ∀ token ∈ tokens, token.kind ≠ .endOfFile)
    (deeper : Token.depthOfTokens first ≤ Token.depthOfTokens whole) :
    ∃ program'', parse whole = .ok program'' ∧
      program''.statements = program.statements ++ program'.statements := by
  subst isWhole
  obtain ⟨rest, found, -⟩ := statements_of_parse parsed
  obtain ⟨rest', found', -⟩ := statements_of_parse parsed'
  obtain ⟨left, found⟩ := statements_displaced each (Nat.lt_succ_self _) found
  have suffix : second <:+ sequel.joined tokens :=
    after ▸ (next_suffix sequel.others).trans (List.suffix_append ..)
  have deeper' : Token.depthOfTokens second ≤ Token.depthOfTokens (sequel.joined tokens) :=
    depth_le_of_shared fun token member => .inl (suffix.subset member)
  have continued (count : Nat) (bound : (next sequel.others).length < count) :
      (Level.ofNat (parseInterpolation (Token.depthOfTokens (sequel.joined tokens)))
        count).statements .endOfFile (next sequel.others) = .ok (program'.statements, [last]) := by
    rw [after, closed] at bound ⊢
    rw [closed] at found' deeper'
    exact statements_of_enough inner isEnd deeper' (by rw [List.length_append]; omega) bound found'
  have short : tokens.length < first.length + 1 := by
    rw [each.length_eq, Sequel.alone, List.length_append]
    omega
  have joined := statements_joined ends continued ⟨stops_of_ends ends, ahead⟩
    (fun _ _ => parseInterpolation_mono deeper) innerFirst short (Nat.lt_succ_self _) found
  exact ⟨_, parse_of_statements joined isEnd, rfl⟩

omit parsed in
/-- This also holds of a text that ends with the ends of blocks. -/
theorem parse_blockEnds {before others : List Token} {endOfFile : Token} {count : Nat}
    {location : Location} (location' : Location)
    (innerFirst : ∀ token ∈ before, token.kind ≠ .endOfFile) (isEnd' : endOfFile.kind = .endOfFile)
    (flat : endOfFile.depth = 0)
    (parsed : parse (before ++ (Layout.blockEnds count location ++ [endOfFile])) = .ok program)
    (after : next others = second) (ends : endsToplevel (headToken others).kind)
    (ahead : ¬ElseAhead others) :
    ∃ program'', parse (before ++ (Layout.blockEnds count location' ++ others)) = .ok program'' ∧
      program''.statements = program.statements ++ program'.statements := by
  let sequel := Sequel.ofLast isEnd' others
  let tokens := before ++ Layout.blockEnds count location'
  have isWhole : sequel.joined tokens = before ++ (Layout.blockEnds count location' ++ others) :=
    List.append_assoc ..
  refine parse_sequel closed inner isEnd parsed parsed' isWhole
    (alike_blockEnds ..) after ends ahead ?_
    (depth_le_of_shared fun token member =>
      (mem_or_depth_eq_zero flat member).imp_left (List.mem_append_left _))
  refine List.forall_mem_append.mpr ⟨innerFirst, fun token member => ?_⟩
  simp [List.eq_of_mem_replicate member, Token.inserted]

end

/-- A text after another one has the statements of both. -/
theorem parse_joined (joined : Joined second first whole) {written : List Token} {last : Token}
    (closed : second = written ++ [last]) (inner : ∀ token ∈ written, token.kind ≠ .endOfFile)
    (isEnd : last.kind = .endOfFile)
    (flat : ∀ token ∈ first, token.kind = .endOfFile → token.depth = 0)
    {program program' : Program} (parsed : parse first = .ok program)
    (parsed' : parse second = .ok program') :
    ∃ program'', parse whole = .ok program'' ∧
      program''.statements = program.statements ++ program'.statements := by
  have ahead (separator : Token) : ¬ElseAhead (separator :: second) := by
    intro ahead
    have head : (headToken second).kind = .elseWord :=
      headToken_tail_kind ahead.2 (by rw [ahead.1]; decide)
    have same : skip second = second := skip_eq_self (by simp [head])
    rcases head_of_parse parsed' with ended | starts
    · simp [same, head] at ended
    · simp [same, head, startsStatement, startsArgument] at starts
  cases joined with
  | @nothing endOfFile isEnd' =>
      obtain ⟨rest, found, -⟩ := statements_of_parse parsed
      rw [List.length_singleton, statements_endOfFile isEnd'] at found
      obtain ⟨nothing, -⟩ := Prod.mk.inj (Except.ok.inj found)
      exact ⟨program', parsed', by rw [← nothing, List.nil_append]⟩
  | separated count location location' innerFirst isEnd' =>
      exact parse_blockEnds closed inner isEnd parsed' location' innerFirst isEnd'
        (flat _ (by simp) isEnd') parsed rfl rfl (ahead _)
  | @ended before separator endOfFile innerFirst separates isEnd' =>
      let sequel : Sequel := ⟨[separator, endOfFile], separator :: second,
        by rw [headToken_cons, separates]; rfl, by rwa [next_cons (by simp [separates])]⟩
      have whole : sequel.joined before = before ++ separator :: second := rfl
      refine parse_sequel closed inner isEnd parsed parsed' whole
        (alike_refl _) (next_cons (by simp [separates]) _)
        (by rw [headToken_cons, separates]; rfl) (ahead _) innerFirst
        (depth_le_of_shared fun token member => ?_)
      rw [List.append_cons] at member ⊢
      rcases List.mem_append.mp member with inWritten | isLast
      · exact .inl (List.mem_append_left _ inWritten)
      · exact .inr (flat token (by simp_all) (by rwa [List.mem_singleton.mp isLast]))
  | last count location location' innerFirst isEnd' isLast same =>
      subst same
      refine parse_blockEnds closed inner isEnd parsed' location' innerFirst isEnd'
        (flat _ (by simp) isEnd') parsed (next_endOfFile isLast)
        (by rw [headToken_cons, isLast]; rfl) fun ahead => ?_
      cases isLast.symm.trans ahead.1

end Texts

end Tree

end Offside
