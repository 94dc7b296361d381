import Offside.Proofs.Layout.WellFormed
import Offside.Proofs.Tree.Following
import Mathlib.Data.List.DropRight

/-!
# Parsing what comes before more statements

A list of tokens may go on after its last statement. What was parsed before is then parsed as
before: no rule of the grammar looks past the end of a statement, but for an `else` after it. So the
statements of the longer list are those of the shorter one and those of the rest.
-/

namespace Offside.Tree

open Token (Kind)

/-! ## Interpolated expressions -/

/-- The tokens from the end of file on. -/
def fromEnd (tokens : List Token) : List Token := tokens.dropWhile (·.kind != .endOfFile)

theorem head_fromEnd (tokens : List Token) : (headToken (fromEnd tokens)).kind = .endOfFile := by
  induction tokens with
  | nil => rfl
  | cons token rest ih =>
      by_cases isEnd : token.kind = .endOfFile
      · simp [fromEnd, isEnd]
      · simpa [fromEnd, isEnd] using ih

/-- The end of a list stays as it is. -/
def Sequel.unchanged (tokens : List Token) : Sequel where
  ending := fromEnd tokens
  others := fromEnd tokens
  ends := by
    rw [head_fromEnd]
    rfl
  last := by rw [next, if_pos (head_fromEnd tokens), head_fromEnd]

/-- An expression is parsed in the same way if more can be interpolated. -/
theorem expression_mono {interpolate interpolate' : List Token → Except Defect Node}
    (interpolates : ∀ inner node, interpolate inner = .ok node → interpolate' inner = .ok node)
    {commas : Bool} {count : Nat} {tokens rest : List Token} {node : Node}
    (short : tokens.length < count)
    (found : (Level.ofNat interpolate count).expression commas tokens = .ok (node, rest)) :
    (Level.ofNat interpolate' count).expression commas tokens = .ok (node, rest) := by
  let sequel := Sequel.unchanged tokens
  let inner := tokens.takeWhile (·.kind != .endOfFile)
  have whole : sequel.alone inner = tokens := List.takeWhile_append_dropWhile
  have within : inner.length < count :=
    Nat.lt_of_le_of_lt (List.takeWhile_prefix _).length_le short
  have carries := (Level.carried_ofNat sequel interpolates (Nat.le_refl count)
    (Nat.le_refl count)).expression (id : commas → commas) within
  rw [← whole] at found
  obtain ⟨used, later, -, left, carry⟩ := carries _ found
  obtain rfl : rest = sequel.alone later := left
  rw [← whole]
  exact carry (fun _ => ⟨stops_of_ends sequel.ends, sequel.not_ahead⟩) (.inl rfl)

/-- An interpolated expression is parsed in the same way if deeper nesting is provided for. -/
theorem parseInterpolation_mono {depth depth' : Nat} (deeper : depth ≤ depth')
    {tokens : List Token} {node : Node} (found : parseInterpolation depth tokens = .ok node) :
    parseInterpolation depth' tokens = .ok node := by
  induction depth generalizing depth' tokens node with
  | zero => cases found
  | succ depth ih =>
      obtain ⟨depth', rfl⟩ := Nat.exists_eq_add_one_of_ne_zero (by omega : depth' ≠ 0)
      rw [parseInterpolation] at found ⊢
      generalize Layout.normalize tokens = normal at found ⊢
      cases normal with
      | error fault => cases found
      | ok laid =>
          obtain ⟨⟨result, left⟩, ran, found⟩ := Layout.exists_of_bind_eq_ok found
          obtain ⟨⟨value, rest⟩, parsed, ended⟩ := Layout.exists_of_bind_eq_ok ran
          have interpolates (inner : List Token) (node : Node)
              (read : parseInterpolation depth inner = .ok node) :
              parseInterpolation depth' inner = .ok node :=
            ih (Nat.le_of_succ_le_succ deeper) read
          have ended : (expect .endOfFile .closingBrace >>= fun _ => pure value : Parser Node)
              rest = .ok (result, left) := ended
          have parsed' := expression_mono interpolates (Nat.lt_succ_self _) parsed
          dsimp only
          rw [runRule, run_bind, parsed', ok_bind]
          dsimp only
          rw [ended]
          exact found

/-! ## Statements before more statements -/

theorem skip_skip (tokens : List Token) : skip (skip tokens) = skip tokens :=
  List.dropWhile_idempotent ..

theorem skip_next {tokens : List Token} (ends : endsToplevel (headToken tokens).kind) :
    skip (next tokens) = skip tokens := by
  by_cases isEnd : (headToken tokens).kind = .endOfFile
  · rw [next, if_pos isEnd]
  · exact (skip_of_statementEnd (kind_eq_statementEnd ends isEnd)).symm

theorem next_suffix (tokens : List Token) : next tokens <:+ tokens := by
  unfold next
  split
  · exact List.suffix_refl _
  · exact List.tail_suffix _

section Rules

variable (below : Level) (interpolate : List Token → Except Defect Node) {tokens : List Token}
  {statement : Node}

theorem parseStatements_skip (terminator : Kind) (tokens : List Token) :
    parseStatements below interpolate terminator (skip tokens) =
      parseStatements below interpolate terminator tokens := by
  rw [parseStatements_eq, run_bind, run_bind, run_skipSeparators, run_skipSeparators, skip_skip]

theorem parseStatements_of_inner (inner : (headToken (skip tokens)).kind ≠ .endOfFile) :
    parseStatements below interpolate .endOfFile tokens =
      (parseStatement below interpolate (skip tokens) >>= fun result =>
        parseFurther below .endOfFile result.1 result.2) := by
  rw [parseStatements_eq, run_bind, run_skipSeparators, ok_bind, run_bind, run_peekKind, ok_bind,
    if_neg (by simpa using inner)]
  rfl

theorem parseFurther_at_end (isEnd : (headToken tokens).kind = .endOfFile) :
    parseFurther below .endOfFile statement tokens = .ok ([statement], tokens) := by
  rw [parseFurther, run_bind, run_peekKind, ok_bind, if_pos (by simp [isEnd])]
  rfl

theorem parseFurther_of_inner (inner : (headToken tokens).kind ≠ .endOfFile) :
    parseFurther below .endOfFile statement tokens =
      if (headToken tokens).kind = .statementEnd then
        below.statements .endOfFile (next tokens) >>= fun result =>
          .ok (statement :: result.1, result.2)
      else fail .endOfStatement tokens := by
  rw [parseFurther, run_bind, run_peekKind, ok_bind, if_neg (by simpa using inner), run_bind,
    run_expect]
  split
  · rfl
  · rfl

end Rules

section Statements

variable {sequel : Sequel} {interpolate interpolate' : List Token → Except Defect Node}
  {statements' : List Node} {rest' : List Token}
  (ends : endsToplevel (headToken sequel.others).kind)
  (continued : ∀ count, (next sequel.others).length < count →
    (Level.ofNat interpolate' count).statements .endOfFile (next sequel.others) =
      .ok (statements', rest'))

include ends continued

/-- After ends of statements come the statements of what follows. -/
theorem statements_of_skip {count : Nat} (bound : sequel.others.length ≤ count)
    {tokens : List Token} (same : skip tokens = skip sequel.others) :
    parseStatements (.ofNat interpolate' count) interpolate' .endOfFile tokens =
      .ok (statements', rest') := by
  rw [← parseStatements_skip, same, ← skip_next ends, parseStatements_skip]
  exact continued (count + 1)
    (Nat.lt_succ_of_le ((next_suffix sequel.others).length_le.trans bound))

/-- After a statement at the end of the first list come the statements of what follows it. -/
theorem parseFurther_others {count : Nat} (bound : sequel.others.length ≤ count)
    (statement : Node) :
    parseFurther (.ofNat interpolate' count) .endOfFile statement sequel.others =
      .ok (statement :: statements', rest') := by
  by_cases isEnd : (headToken sequel.others).kind = .endOfFile
  · have none := statements_of_skip ends continued bound rfl
    rw [parseStatements_at_end _ _ _ (by rwa [skip_of_endOfFile isEnd]), skip_of_endOfFile isEnd]
      at none
    obtain ⟨rfl, rfl⟩ := Prod.mk.inj (Except.ok.inj none)
    exact parseFurther_at_end _ isEnd
  · have separates := kind_eq_statementEnd ends isEnd
    rw [parseFurther_of_inner _ isEnd, if_pos separates, continued count]
    · rfl
    · cases others : sequel.others with
      | nil => simp [others, headToken, default] at separates
      | cons token rest =>
          rw [others] at bound separates
          rwa [next_of_kind separates (by decide)]

omit ends continued in
/-- A statement at the end of a list is the last one. -/
theorem eq_of_parseFurther_ending {count : Nat} {statement : Node} {statements : List Node}
    {rest : List Token}
    (found : parseFurther (.ofNat interpolate count) .endOfFile statement sequel.ending =
      .ok (statements, rest)) : statements = [statement] := by
  by_cases isEnd : (headToken sequel.ending).kind = .endOfFile
  · rw [parseFurther_at_end _ isEnd] at found
    exact (Prod.mk.inj (Except.ok.inj found)).1.symm
  · rw [parseFurther_of_inner _ isEnd, if_pos (kind_eq_statementEnd sequel.ends isEnd)] at found
    obtain ⟨⟨others, later⟩, parsed, found⟩ := Layout.exists_of_bind_eq_ok found
    cases count with
    | zero => cases parsed
    | succ count =>
        have last : (headToken (skip (next sequel.ending))).kind = .endOfFile := by
          rw [skip_of_endOfFile sequel.last, sequel.last]
        have none := parseStatements_at_end (.ofNat interpolate count) interpolate .endOfFile last
        obtain ⟨rfl, -⟩ := Prod.mk.inj (Except.ok.inj (parsed.symm.trans none))
        exact (Prod.mk.inj (Except.ok.inj found)).1.symm

/-- What follows a statement, if the levels below do with statements what they should. -/
theorem parseFurther_joined {count count' : Nat} {tokens : List Token}
    (below : ∀ {later}, later.length < tokens.length →
      (∀ token ∈ later, token.kind ≠ .endOfFile) →
      ∀ {statements rest}, (Level.ofNat interpolate count).statements .endOfFile
        (sequel.alone later) = .ok (statements, rest) →
      (Level.ofNat interpolate' count').statements .endOfFile (sequel.joined later) =
        .ok (statements ++ statements', rest'))
    (bound : sequel.others.length ≤ count') (inner : ∀ token ∈ tokens, token.kind ≠ .endOfFile)
    {statement : Node} {statements : List Node} {rest : List Token}
    (found : parseFurther (.ofNat interpolate count) .endOfFile statement (sequel.alone tokens) =
      .ok (statements, rest)) :
    parseFurther (.ofNat interpolate' count') .endOfFile statement (sequel.joined tokens) =
      .ok (statements ++ statements', rest') := by
  cases tokens with
  | nil =>
      rw [eq_of_parseFurther_ending found]
      exact parseFurther_others ends continued bound statement
  | cons token later =>
      obtain ⟨here, innerLater⟩ := List.forall_mem_cons.mp inner
      rw [Sequel.alone, List.cons_append, parseFurther_of_inner _ (by simpa using here),
        next_cons here, headToken_cons] at found
      rw [Sequel.joined, List.cons_append, parseFurther_of_inner _ (by simpa using here),
        next_cons here, headToken_cons]
      split at found
      case isTrue separates =>
          obtain ⟨⟨others, left⟩, parsed, found⟩ := Layout.exists_of_bind_eq_ok found
          obtain ⟨rfl, -⟩ := Prod.mk.inj (Except.ok.inj found)
          have joined := below (Nat.lt_succ_self _) innerLater parsed
          rw [Sequel.joined] at joined
          rw [if_pos separates, joined]
          rfl
      case isFalse => cases found

variable (stops : sequel.Stops)
  (interpolates : ∀ inner node, interpolate inner = .ok node → interpolate' inner = .ok node)

include stops interpolates

/-- The statements of a list that goes on are those of the list and those of what follows it. -/
theorem statements_joined {count count' : Nat} {tokens : List Token}
    (inner : ∀ token ∈ tokens, token.kind ≠ .endOfFile) (short : tokens.length < count)
    (bound : (sequel.joined tokens).length < count')
    {statements : List Node} {rest : List Token}
    (found : (Level.ofNat interpolate count).statements .endOfFile (sequel.alone tokens) =
      .ok (statements, rest)) :
    (Level.ofNat interpolate' count').statements .endOfFile (sequel.joined tokens) =
      .ok (statements ++ statements', rest') := by
  induction count generalizing count' tokens statements rest with
  | zero => cases short
  | succ count ih =>
      obtain ⟨count', rfl⟩ := Nat.exists_eq_add_one_of_ne_zero (by omega : count' ≠ 0)
      change parseStatements (.ofNat interpolate count) interpolate .endOfFile _ = _ at found
      change parseStatements (.ofNat interpolate' count') interpolate' .endOfFile _ = _
      rw [Sequel.joined, List.length_append] at bound
      cases left : tokens.dropWhile fun token => token.kind = .statementEnd with
      | nil =>
          have idle (more : List Token) : skip (tokens ++ more) = skip more := by
            rw [skip, List.dropWhile_append, left]
            rfl
          rw [parseStatements_at_end _ _ _ (by rw [Sequel.alone, idle]; exact sequel.head_skip)]
            at found
          obtain ⟨rfl, -⟩ := Prod.mk.inj (Except.ok.inj found)
          exact statements_of_skip ends continued (by omega) (idle _)
      | cons token later =>
          have going (more : List Token) : skip (tokens ++ more) = token :: later ++ more := by
            rw [skip, List.dropWhile_append, left]
            rfl
          have suffix : token :: later <:+ tokens := left ▸ List.dropWhile_suffix _
          have here : token.kind ≠ .endOfFile := inner token (suffix.subset List.mem_cons_self)
          rw [Sequel.alone, parseStatements_of_inner _ _ (by rwa [going]), going] at found
          obtain ⟨⟨statement, remaining⟩, parsed, found⟩ := Layout.exists_of_bind_eq_ok found
          have carried := Level.carried_ofNat sequel interpolates
            (Nat.le_of_lt_succ short) (by omega : tokens.length ≤ count')
          obtain ⟨used, rest, split, rfl, carry⟩ :=
            carried.parseStatement (Level.consumes_ofNat interpolate count) interpolates
              (Nat.lt_succ_of_le suffix.length_le) _ parsed
          have parsed' := carry (fun _ => stops) (.inl trivial)
          have within : rest <:+ tokens := (split ▸ List.suffix_append used rest).trans suffix
          rw [Sequel.joined] at parsed'
          rw [Sequel.joined, parseStatements_of_inner _ _ (by rwa [going]), going, parsed']
          have := within.length_le
          refine parseFurther_joined ends continued (fun shorter inner _ _ => ?_) (by omega)
            (fun token member => inner token (within.subset member)) found
          refine ih inner (by omega) ?_
          rw [Sequel.joined, List.length_append]
          omega

end Statements

end Offside.Tree
