import Offside.Layout
import Mathlib.Data.List.Infix

/-!
# Well-formed layout

Layout inserts block structure and changes nothing else. Blocks are closed as often as they are
opened, a block starts right after its opener, a statement ends only after something that it can
end, and the other tokens stay in their order.
-/

namespace Offside.Layout

open Token (Kind)

/-- The tokens of block structure. -/
def isLayout : Kind → Bool
  | .blockStart | .blockEnd | .statementEnd => true
  | _ => false

/-! ## Order of the tokens written -/

/-- Whether a token of a kind may be written after one of the kind `before`, or at the start. -/
def MayFollow (before : Option Kind) : Kind → Prop
  | .blockStart => ∃ kind, before = some kind ∧ opensBlock kind
  | .statementEnd => ∃ kind, before = some kind ∧ kind ≠ .blockStart ∧ kind ≠ .statementEnd
  | _ => True

theorem mayFollow_of_not_isLayout {kind : Kind} (other : isLayout kind = false)
    (before : Option Kind) : MayFollow before kind := by
  cases kind <;> simp_all [isLayout, MayFollow]

/-- Each token may be written after the one before it, and the first one after `before`. -/
def Arranged (before : Option Kind) : List Token → Prop
  | [] => True
  | token :: rest => MayFollow before token.kind ∧ Arranged (some token.kind) rest

/-- The kind of the last one of some tokens, or of what was written before them. -/
def lastKind (before : Option Kind) (tokens : List Token) : Option Kind :=
  tokens.foldl (fun _ token => some token.kind) before

@[simp]
theorem lastKind_nil (before : Option Kind) : lastKind before [] = before := rfl

@[simp]
theorem lastKind_cons (before : Option Kind) (token : Token) (rest : List Token) :
    lastKind before (token :: rest) = lastKind (some token.kind) rest := rfl

theorem lastKind_append (before : Option Kind) (first second : List Token) :
    lastKind before (first ++ second) = lastKind (lastKind before first) second :=
  List.foldl_append

theorem lastKind_eq (before : Option Kind) (tokens : List Token) :
    lastKind before tokens = (tokens.getLast?.map (·.kind)).or before := by
  induction tokens generalizing before with
  | nil => simp
  | cons token rest ih =>
      rw [lastKind_cons, ih, List.getLast?_cons]
      cases rest.getLast? <;> rfl

theorem arranged_append {before : Option Kind} {first second : List Token} :
    Arranged before (first ++ second) ↔
      Arranged before first ∧ Arranged (lastKind before first) second := by
  induction first generalizing before with
  | nil => simp [Arranged]
  | cons token rest ih => simp [Arranged, ih, and_assoc]

/-! ## Nesting of the blocks written -/

/-- The number of blocks that start. -/
def starts (tokens : List Token) : Nat := tokens.countP (·.kind == .blockStart)

/-- The number of blocks that end. -/
def ends (tokens : List Token) : Nat := tokens.countP (·.kind == .blockEnd)

/-- Tokens that take the number of open blocks from one value to another without ending a block that
is not open. -/
structure Nested (before : Nat) (tokens : List Token) (after : Nat) : Prop where
  closed : ∀ front, front <+: tokens → ends front ≤ before + starts front
  total : before + starts tokens = after + ends tokens

namespace Nested

theorem nil (count : Nat) : Nested count [] count where
  closed front isPrefix := by simp [List.prefix_nil.mp isPrefix, ends]
  total := by simp [starts, ends]

theorem append {before middle after : Nat} {first second : List Token}
    (left : Nested before first middle) (right : Nested middle second after) :
    Nested before (first ++ second) after where
  closed front isPrefix := by
    rcases List.prefix_or_prefix_of_prefix isPrefix (List.prefix_append first second) with
      inFirst | ⟨part, rfl⟩
    · exact left.closed front inFirst
    · have inSecond := right.closed part ((List.prefix_append_right_inj first).mp isPrefix)
      have total := left.total
      simp only [starts, ends, List.countP_append] at inSecond total ⊢
      omega
  total := by
    have leftTotal := left.total
    have rightTotal := right.total
    simp only [starts, ends, List.countP_append] at leftTotal rightTotal ⊢
    omega

/-- One token other than the end of a block. -/
theorem single {token : Token} (other : token.kind ≠ .blockEnd) (count : Nat) :
    Nested count [token] (count + starts [token]) where
  closed front isPrefix := by
    have none : ends front = 0 := by
      refine Nat.le_zero.mp (Nat.le_trans (List.IsPrefix.sublist isPrefix |>.countP_le) ?_)
      simp [other]
    omega
  total := by simp [ends, other]

theorem blockEnds (count rest : Nat) (location : Location) :
    Nested (rest + count) (Layout.blockEnds count location) rest where
  closed front isPrefix := by
    have few : ends front ≤ count := by
      simpa [Layout.blockEnds, ends] using Nat.le_trans List.countP_le_length isPrefix.length_le
    omega
  total := by simp [starts, ends, Layout.blockEnds, List.countP_replicate, Token.inserted]

end Nested

/-! ## Steps -/

/-- Tokens that are written on the way from one state to another. -/
structure Writes (before : State) (tokens : List Token) (after : State) : Prop where
  arranged : Arranged before.written tokens
  last : after.written = lastKind before.written tokens
  nested : Nested (before.columns.length - 1) tokens (after.columns.length - 1)

theorem Writes.append {before middle after : State} {first second : List Token}
    (left : Writes before first middle) (right : Writes middle second after) :
    Writes before (first ++ second) after where
  arranged := arranged_append.mpr ⟨left.arranged, left.last ▸ right.arranged⟩
  last := by rw [lastKind_append, ← left.last, right.last]
  nested := left.nested.append right.nested

/-- What holds of the state between two tokens. -/
structure State.Sound (state : State) : Prop where
  /-- There is a reference column unless no token was read. -/
  started : state.columns ≠ [] ∨
    (state.previous = none ∧ state.atLineStart = true ∧ state.depth = 0)
  /-- If a block opener was read last, it was also written last. -/
  previous : ∀ token, state.previous = some token → opensBlock token.kind →
    state.written = some token.kind
  /-- A block opener that waits for its block was written last, and a line break followed it. -/
  opener : ∀ token, state.opener = some token →
    (opensBlock token.kind ∧ state.written = some token.kind) ∧ state.columns ≠ [] ∧
      state.atLineStart = true ∧ state.depth = 0

/-- A state in which the next token can be written. -/
structure State.Ready (state : State) : Prop where
  opener : state.opener = none
  columns : state.columns ≠ []

theorem wrote_eq (state : State) (tokens : List Token) :
    state.wrote tokens = { state with written := lastKind state.written tokens } := by
  rw [lastKind_eq, State.wrote]
  cases tokens.getLast? <;> rfl

@[simp]
theorem wrote_columns (state : State) (tokens : List Token) :
    (state.wrote tokens).columns = state.columns := by
  rw [wrote_eq]

@[simp]
theorem wrote_depth (state : State) (tokens : List Token) :
    (state.wrote tokens).depth = state.depth := by
  rw [wrote_eq]

@[simp]
theorem wrote_opener (state : State) (tokens : List Token) :
    (state.wrote tokens).opener = state.opener := by
  rw [wrote_eq]

@[simp]
theorem wrote_previous (state : State) (tokens : List Token) :
    (state.wrote tokens).previous = state.previous := by
  rw [wrote_eq]

theorem wrote_written (state : State) (tokens : List Token) :
    (state.wrote tokens).written = lastKind state.written tokens := by
  rw [wrote_eq]

theorem arranged_separator (written : Option Kind) (location : Location) :
    Arranged written (separator written location) := by
  unfold separator
  split
  · trivial
  · trivial
  · trivial
  · rename_i kind notEnd notStart
    exact ⟨⟨kind, rfl, by simpa using notStart, by simpa using notEnd⟩, trivial⟩

theorem isLayout_separator (written : Option Kind) (location : Location) :
    ∀ token ∈ separator written location, isLayout token.kind := by
  unfold separator
  split <;> simp [Token.inserted, isLayout]

theorem nested_separator (written : Option Kind) (location : Location) (count : Nat) :
    Nested count (separator written location) count := by
  unfold separator
  split
  · exact .nil count
  · exact .nil count
  · exact .nil count
  · exact .single (by simp [Token.inserted]) count

/-- A separator is written between two states that differ in nothing that counts here. -/
theorem writes_separator {before after : State} (location : Location)
    (columns : after.columns = before.columns) (written : after.written = before.written) :
    Writes before (separator before.written location)
      (after.wrote (separator before.written location)) where
  arranged := arranged_separator ..
  last := by rw [wrote_written, written]
  nested := by
    rw [wrote_columns, columns]
    exact nested_separator ..

theorem arranged_blockEnds (before : Option Kind) (count : Nat) (location : Location) :
    Arranged before (blockEnds count location) := by
  induction count generalizing before with
  | zero => trivial
  | succ count ih => exact ⟨trivial, ih _⟩

theorem isLayout_blockEnds (count : Nat) (location : Location) :
    ∀ token ∈ blockEnds count location, isLayout token.kind := by
  simp [blockEnds, Token.inserted, isLayout]

/-- Closing blocks takes their columns away, all but the outermost. -/
theorem close_spec (column : Int) (reference : Int) (outer : List Int) :
    (close column (reference :: outer)).2 ≠ [] ∧
      (close column (reference :: outer)).2.length + (close column (reference :: outer)).1 =
        outer.length + 1 := by
  induction outer generalizing reference with
  | nil => simp [close]
  | cons next outer ih =>
      have inner := ih next
      rw [close]
      split
      · simp only [List.length_cons]
        exact ⟨inner.1, by omega⟩
      · simp

/-- What the rules of indentation do at the first token of a line. -/
inductive Started (state : State) (token : Token) : Except Fault (List Token × State) → Prop where
  /-- The first line of all sets the column of the outermost block. -/
  | first : state.columns = [] →
      Started state token (.ok ([], { state with columns := [token.location.column] }))
  /-- A block starts. -/
  | opened {opener : Token} {reference : Int} {outer : List Int} :
      state.opener = some opener → state.columns = reference :: outer →
      reference < token.location.column →
      Started state token (.ok ([.inserted .blockStart token.location],
        { state with
          columns := token.location.column :: state.columns
          opener := none
          written := some .blockStart }))
  /-- The line goes on with the one before it. -/
  | continued : state.opener = none → state.columns ≠ [] →
      Started state token (.ok ([], state))
  /-- Blocks end, and perhaps a statement. -/
  | closed {result : Nat × List Int} {ends more : List Token} :
      state.opener = none → state.columns ≠ [] →
      close token.location.column state.columns = result →
      ends = blockEnds result.1 token.location →
      (more = [] ∨ more = separator (lastKind state.written ends) token.location) →
      Started state token (.ok (ends ++ more,
        { state with
          columns := result.2
          written := lastKind state.written (ends ++ more) }))
  | failed (defect : Defect) : Started state token (.error (defect.fault token.location))

theorem started (state : State) (token : Token) : Started state token (startLine state token) := by
  unfold startLine
  split
  case h_1 none => exact .first none
  case h_2 reference outer opener columns waiting =>
    dsimp only
    split
    case isTrue => exact .failed _
    case isFalse further =>
      rw [wrote_eq, ← columns]
      exact .opened waiting columns (Int.not_le.mp further)
  case h_3 reference outer columns ready =>
    have nonempty : state.columns ≠ [] := by simp [columns]
    have closed : Started state token _ := .closed ready nonempty rfl rfl (.inl rfl)
    rw [List.append_nil] at closed
    rw [← columns]
    dsimp only
    rw [wrote_eq]
    split
    · split
      · exact .continued ready nonempty
      · exact .failed _
    · split
      · split
        · exact closed
        · exact .failed _
      · split
        · rw [wrote_eq, ← lastKind_append]
          exact .closed ready nonempty rfl rfl (.inr rfl)
        · exact closed

/-- What the rules of indentation write before the first token of a line, and the state that they
leave. -/
theorem startLine_spec {state after : State} (sound : state.Sound) {token : Token}
    {written : List Token}
    (ok : startLine { state with atLineStart := false } token = .ok (written, after)) :
    Writes state written after ∧ after.Ready ∧ after.depth = state.depth ∧
      ∀ token ∈ written, isLayout token.kind := by
  have view := started { state with atLineStart := false } token
  rw [ok] at view
  cases view with
  | first none =>
      have ready : state.opener = .none := by
        cases waiting : state.opener with
        | none => rfl
        | some opener => exact absurd none (sound.opener opener waiting).2.1
      refine ⟨⟨trivial, rfl, ?_⟩, ⟨ready, List.cons_ne_nil _ _⟩, rfl, by simp⟩
      simpa [show state.columns = [] from none] using Nested.nil 0
  | @opened opener reference outer waiting columns =>
      have opens := (sound.opener opener waiting).1
      refine ⟨⟨⟨⟨opener.kind, opens.2, opens.1⟩, trivial⟩, rfl, ?_⟩,
        ⟨rfl, List.cons_ne_nil _ _⟩, rfl, by simp [Token.inserted, isLayout]⟩
      have columns : state.columns = reference :: outer := columns
      rw [columns]
      exact Nested.single (by simp [Token.inserted]) _
  | continued ready nonempty =>
      exact ⟨⟨trivial, rfl, .nil _⟩, ⟨ready, nonempty⟩, rfl, by simp⟩
  | @closed result ends more ready nonempty found isEnds isMore =>
      obtain ⟨reference, outer, columns⟩ := List.exists_cons_of_ne_nil nonempty
      obtain ⟨remaining, lengths⟩ := close_spec token.location.column reference outer
      rw [← columns, found] at remaining lengths
      have fewer : state.columns.length - 1 = result.2.length - 1 + result.1 := by
        have positive := List.length_pos_of_ne_nil remaining
        have length : state.columns.length = outer.length + 1 := congrArg List.length columns
        omega
      subst isEnds
      obtain ⟨arranged, nested, areLayout⟩ :
          Arranged (lastKind state.written (blockEnds result.1 token.location)) more ∧
            Nested (result.2.length - 1) more (result.2.length - 1) ∧
              ∀ token ∈ more, isLayout token.kind := by
        rcases isMore with rfl | rfl
        · exact ⟨trivial, .nil _, by simp⟩
        · exact ⟨arranged_separator .., nested_separator .., isLayout_separator _ _⟩
      refine ⟨⟨arranged_append.mpr ⟨arranged_blockEnds .., arranged⟩, rfl, ?_⟩,
        ⟨ready, remaining⟩, rfl, List.forall_mem_append.mpr ⟨isLayout_blockEnds _ _, areLayout⟩⟩
      rw [fewer]
      exact (Nested.blockEnds ..).append nested

/-- Whether a token is left out: line breaks, and semicolons outside brackets. -/
def isDropped (depth : Nat) (kind : Kind) : Bool :=
  kind == .newline || (kind == .semicolon && depth == 0)

/-- The tokens that layout keeps, in order, if `depth` brackets are open before them. -/
def significant (depth : Nat) : List Token → List Token
  | [] => []
  | token :: rest =>
    (if isDropped depth token.kind then [] else [token]) ++
      significant (depthAfter depth token.kind) rest

/-- Tokens without those of block structure. -/
def withoutLayout (tokens : List Token) : List Token := tokens.filter (!isLayout ·.kind)

@[simp]
theorem withoutLayout_append (first second : List Token) :
    withoutLayout (first ++ second) = withoutLayout first ++ withoutLayout second :=
  List.filter_append ..

theorem withoutLayout_eq_nil {tokens : List Token} (all : ∀ token ∈ tokens, isLayout token.kind) :
    withoutLayout tokens = [] := by
  simpa [withoutLayout] using all

/-- What a step writes, and the state that it leaves. -/
structure StepSpec (before : State) (token : Token) (written : List Token) (after : State) :
    Prop where
  writes : Writes before written after
  sound : after.Sound
  depth : after.depth = depthAfter before.depth token.kind
  kept : withoutLayout written = if isDropped before.depth token.kind then [] else [token]

/-- Tokens of block structure may be written first. -/
theorem StepSpec.after {before middle final : State} {token : Token} {inserted written : List Token}
    (step : StepSpec middle token written final) (writes : Writes before inserted middle)
    (depth : middle.depth = before.depth) (areLayout : ∀ token ∈ inserted, isLayout token.kind) :
    StepSpec before token (inserted ++ written) final where
  writes := writes.append step.writes
  sound := step.sound
  depth := by rw [step.depth, depth]
  kept := by rw [withoutLayout_append, withoutLayout_eq_nil areLayout, step.kept, depth]; rfl

theorem accept_spec {state : State} (ready : state.Ready) {token : Token}
    (raw : isLayout token.kind = false) (inLine : token.kind ≠ .newline) :
    StepSpec state token (state.accept token).1 (state.accept token).2 := by
  unfold State.accept
  split
  case isTrue dropped =>
      have outside : token.kind = .semicolon ∧ state.depth = 0 := by simpa using dropped
      refine ⟨writes_separator token.location rfl rfl, ⟨?_, ?_, ?_⟩, ?_, ?_⟩
      · simp [ready.columns]
      · rintro last same opens
        rw [wrote_previous] at same
        cases same
        simp [outside.1, opensBlock] at opens
      · simp [ready.opener]
      · simp [outside, depthAfter, Kind.isOpening, Kind.isClosing]
      · simp [withoutLayout_eq_nil (isLayout_separator state.written _), isDropped, outside]
  case isFalse kept =>
      refine ⟨⟨⟨mayFollow_of_not_isLayout raw _, trivial⟩, rfl, ?_⟩,
        ⟨.inl ready.columns, ?_, ?_⟩, rfl, ?_⟩
      · have notEnd : token.kind ≠ .blockEnd := by
          intro same
          simp [same, isLayout] at raw
        have notStart : token.kind ≠ .blockStart := by
          intro same
          simp [same, isLayout] at raw
        simpa [starts, notStart] using Nested.single notEnd (state.columns.length - 1)
      · rintro last same -
        cases same
        rfl
      · simp [ready.opener]
      · simp [withoutLayout, raw, isDropped, inLine]
        simpa using kept

theorem endLine_spec {state : State} (sound : state.Sound) {token : Token}
    (isBreak : token.kind = .newline) : StepSpec state token [] state.endLine where
  writes := ⟨trivial, rfl, .nil _⟩
  sound := by
    refine ⟨?_, sound.previous, ?_⟩
    · rcases sound.started with started | ⟨nothing, atStart, outside⟩
      · exact .inl started
      · exact .inr ⟨nothing, rfl, outside⟩
    · intro opener waiting
      rw [State.endLine] at waiting
      dsimp only at waiting
      split at waiting
      case isTrue opens =>
          simp only [State.follows, waiting, Bool.and_eq_true, beq_iff_eq] at opens
          have opensBlock := opens.1.2
          have started := sound.started.resolve_right fun nothing => by simp [waiting] at nothing
          exact ⟨⟨opensBlock, sound.previous opener waiting opensBlock⟩, started, rfl, opens.1.1⟩
      case isFalse =>
          obtain ⟨opens, columns, -, outside⟩ := sound.opener opener waiting
          exact ⟨opens, columns, rfl, outside⟩
  depth := by simp [isBreak, depthAfter, Kind.isOpening, Kind.isClosing, State.endLine]
  kept := by simp [isBreak, isDropped, withoutLayout]

/-- Apply the rules of indentation to a token if it is the first of its line. -/
def enter (state : State) (token : Token) : Except Fault (List Token × State) :=
  if state.atLineStart && state.depth == 0 then startLine { state with atLineStart := false } token
  else .ok ([], { state with atLineStart := false })

theorem step_newline {token : Token} (isBreak : token.kind = .newline) (state : State) :
    step state token = .ok ([], state.endLine) := by
  rw [step, if_pos isBreak]

theorem step_eq {token : Token} (inLine : token.kind ≠ .newline) (state : State) :
    step state token = (enter state token).map fun (before, entered) =>
      (before ++ (entered.accept token).1, (entered.accept token).2) := by
  rw [step, if_neg inLine, enter]
  split
  · cases startLine { state with atLineStart := false } token <;> rfl
  · rfl

theorem exists_enter {state after : State} {token : Token} {written : List Token}
    (inLine : token.kind ≠ .newline) (ok : step state token = .ok (written, after)) :
    ∃ before entered, enter state token = .ok (before, entered) ∧
      written = before ++ (entered.accept token).1 ∧ after = (entered.accept token).2 := by
  rw [step_eq inLine] at ok
  cases found : enter state token with
  | error fault =>
      rw [found] at ok
      cases ok
  | ok result =>
      rw [found] at ok
      obtain ⟨rfl, rfl⟩ := Prod.mk.inj (Except.ok.inj ok)
      exact ⟨_, _, rfl, rfl, rfl⟩

/-- What the rules of indentation leave as it is. -/
theorem enter_frame {state after : State} {token : Token} {written : List Token}
    (ok : enter state token = .ok (written, after)) :
    (after.opener = state.opener ∨ after.opener = none) ∧ after.depth = state.depth := by
  unfold enter at ok
  split at ok
  · have view := started { state with atLineStart := false } token
    rw [ok] at view
    cases view with
    | first | continued | closed => exact ⟨.inl rfl, rfl⟩
    | opened => exact ⟨.inr rfl, rfl⟩
  · obtain ⟨-, rfl⟩ := Prod.mk.inj (Except.ok.inj ok)
    exact ⟨.inl rfl, rfl⟩

theorem step_spec {state after : State} (sound : state.Sound) {token : Token}
    {written : List Token} (raw : isLayout token.kind = false)
    (ok : step state token = .ok (written, after)) : StepSpec state token written after := by
  by_cases isBreak : token.kind = .newline
  · rw [step_newline isBreak] at ok
    obtain ⟨rfl, rfl⟩ := Prod.mk.inj (Except.ok.inj ok)
    exact endLine_spec sound isBreak
  · obtain ⟨before, entered, found, rfl, rfl⟩ := exists_enter isBreak ok
    unfold enter at found
    split at found
    case isTrue =>
        obtain ⟨writes, ready, depth, areLayout⟩ := startLine_spec sound found
        exact (accept_spec ready raw isBreak).after writes depth areLayout
    case isFalse atStart =>
        obtain ⟨rfl, rfl⟩ := Prod.mk.inj (Except.ok.inj found)
        have noOpener : state.opener = none := by
          cases waiting : state.opener with
          | none => rfl
          | some opener =>
              obtain ⟨-, -, lineStart, outside⟩ := sound.opener opener waiting
              simp [lineStart, outside] at atStart
        have started := sound.started.resolve_right fun nothing => by simp [nothing] at atStart
        have ready : State.Ready { state with atLineStart := false } := ⟨noOpener, started⟩
        exact (accept_spec ready raw isBreak).after ⟨trivial, rfl, .nil _⟩ rfl (by simp)

/-! ## Whole runs -/

/-- The end of file of some tokens, or the one that is put after the last of them. -/
def ending (last : Location) (tokens : List Token) : Token :=
  (tokens.find? (·.kind == .endOfFile)).getD
    (.inserted .endOfFile ((tokens.getLast?.map (·.location)).getD last))

theorem ending_cons {token : Token} (other : token.kind ≠ .endOfFile) (last : Location)
    (rest : List Token) : ending last (token :: rest) = ending token.location rest := by
  rw [ending, ending, List.find?_cons_of_neg (by simpa using other), List.getLast?_cons]
  cases rest.getLast? <;> rfl

theorem finish_eq {state : State} {endOfFile : Token} {output : List Token}
    (ok : finish state endOfFile = .ok output) :
    output = blockEnds (state.columns.length - 1) endOfFile.location ++ [endOfFile] := by
  grind [finish]

theorem finish_spec {state : State} {endOfFile : Token} {output : List Token}
    (isEnd : endOfFile.kind = .endOfFile) (ok : finish state endOfFile = .ok output) :
    Arranged state.written output ∧ Nested (state.columns.length - 1) output 0 ∧
      withoutLayout output = [endOfFile] := by
  obtain rfl := finish_eq ok
  have notLayout : isLayout endOfFile.kind = false := by simp [isEnd, isLayout]
  refine ⟨arranged_append.mpr ⟨arranged_blockEnds .., mayFollow_of_not_isLayout notLayout _,
    trivial⟩, ?_, ?_⟩
  · have blocks := Nested.blockEnds (state.columns.length - 1) 0 endOfFile.location
    have single := Nested.single (by simp [isEnd] : endOfFile.kind ≠ .blockEnd) 0
    rw [Nat.zero_add] at blocks
    exact blocks.append (by simpa [starts, isEnd] using single)
  · rw [withoutLayout_append, withoutLayout_eq_nil (isLayout_blockEnds _ _)]
    simp [withoutLayout, notLayout]

theorem exists_of_bind_eq_ok {ε α β : Type} {first : Except ε α} {next : α → Except ε β}
    {result : β} (ok : first >>= next = .ok result) :
    ∃ middle, first = .ok middle ∧ next middle = .ok result := by
  cases first with
  | error fault => cases ok
  | ok middle => exact ⟨middle, rfl, ok⟩

theorem eq_ok_of_toOption {ε α : Type} {outcome : Except ε α} {result : α}
    (found : outcome.toOption = some result) : outcome = .ok result := by
  cases outcome with
  | error => cases found
  | ok value => exact congrArg _ (Option.some.inj found)

/-- What a run writes from a state on. -/
theorem run_spec {state : State} (sound : state.Sound) {last : Location}
    {tokens output : List Token} (raw : ∀ token ∈ tokens, isLayout token.kind = false)
    (ok : run state last tokens = .ok output) :
    Arranged state.written output ∧ Nested (state.columns.length - 1) output 0 ∧
      withoutLayout output =
        significant state.depth (tokens.takeWhile (·.kind != .endOfFile)) ++
          [ending last tokens] := by
  induction tokens generalizing state last output with
  | nil => exact finish_spec rfl ok
  | cons token rest ih =>
      rw [List.forall_mem_cons] at raw
      rw [run] at ok
      split at ok
      case isTrue isEnd =>
          have same : ending last (token :: rest) = token := by simp [ending, isEnd]
          simpa [isEnd, same, significant] using finish_spec isEnd ok
      case isFalse notEnd =>
          obtain ⟨⟨written, after⟩, stepped, ok⟩ := exists_of_bind_eq_ok ok
          obtain ⟨later, ran, ok⟩ := exists_of_bind_eq_ok ok
          obtain rfl := Except.ok.inj ok
          have spec := step_spec sound raw.1 stepped
          obtain ⟨arranged, nested, kept⟩ := ih spec.sound raw.2 ran
          refine ⟨arranged_append.mpr ⟨spec.writes.arranged, spec.writes.last ▸ arranged⟩,
            spec.writes.nested.append nested, ?_⟩
          rw [withoutLayout_append, spec.kept, kept, spec.depth, ending_cons notEnd]
          simp [notEnd, significant]

/-- The blocks and the statements of some tokens are made explicit in the right places. -/
structure WellFormed (tokens output : List Token) : Prop where
  /-- Without block structure, the tokens before the end of file are there in their order, all but
  the line breaks and the semicolons outside brackets, and then one end of file. -/
  kept : output.filter (!isLayout ·.kind) =
    significant 0 (tokens.takeWhile (·.kind != .endOfFile)) ++ [ending (.start none) tokens]
  /-- No block ends that was not started. -/
  closed : ∀ front, front <+: output → ends front ≤ starts front
  /-- Every block ends. -/
  balanced : starts output = ends output
  /-- A block starts right after a block opener. -/
  opened : ∀ front token back, output = front ++ token :: back → token.kind = .blockStart →
    ∃ opener, front.getLast? = some opener ∧ opensBlock opener.kind
  /-- A statement ends only if something came after the start of its block and after the statement
  before it. -/
  ended : ∀ front token back, output = front ++ token :: back → token.kind = .statementEnd →
    ∃ last, front.getLast? = some last ∧ last.kind ≠ .blockStart ∧ last.kind ≠ .statementEnd

theorem mayFollow_of_arranged {output front back : List Token} {token : Token}
    (arranged : Arranged none output) (split : output = front ++ token :: back) :
    MayFollow (front.getLast?.map (·.kind)) token.kind := by
  subst split
  have follows := (arranged_append.mp arranged).2.1
  rwa [lastKind_eq, Option.or_none] at follows

theorem sound_initial : State.initial.Sound where
  started := .inr ⟨rfl, rfl, rfl⟩
  previous token impossible := by cases impossible
  opener token impossible := by cases impossible

/-- The layout of tokens without block structure is well formed. -/
theorem normalize_wellFormed {tokens output : List Token}
    (raw : ∀ token ∈ tokens, isLayout token.kind = false) (ok : normalize tokens = .ok output) :
    WellFormed tokens output := by
  obtain ⟨arranged, nested, kept⟩ := run_spec sound_initial raw ok
  refine ⟨kept, fun front isPrefix => ?_, ?_, fun front token back split isStart => ?_,
    fun front token back split isEnd => ?_⟩
  · simpa [State.initial] using nested.closed front isPrefix
  · simpa [State.initial] using nested.total
  · have follows := mayFollow_of_arranged arranged split
    rw [isStart] at follows
    obtain ⟨kind, last, opens⟩ := follows
    obtain ⟨opener, found, rfl⟩ := Option.map_eq_some_iff.mp last
    exact ⟨opener, found, opens⟩
  · have follows := mayFollow_of_arranged arranged split
    rw [isEnd] at follows
    obtain ⟨kind, last, others⟩ := follows
    obtain ⟨token, found, rfl⟩ := Option.map_eq_some_iff.mp last
    exact ⟨token, found, others⟩

/-- A token of a kind in a column. -/
def tokenAt (column : Int) (kind : Kind) : Token :=
  ⟨kind, .absent, { Location.start none with column }⟩

/-- A loop over two statements on one line, and a bracket with a semicolon after it. -/
def sampleLines : List Token :=
  [tokenAt 1 .whileWord, tokenAt 7 .identifier, tokenAt 8 .colon, tokenAt 9 .newline,
    tokenAt 3 .identifier, tokenAt 4 .semicolon, tokenAt 6 .identifier, tokenAt 7 .newline,
    tokenAt 1 .leftParen, tokenAt 2 .newline, tokenAt 5 .semicolon, tokenAt 6 .rightParen,
    tokenAt 7 .semicolon, tokenAt 8 .endOfFile]

/-- The layout of the sample. -/
def sampleLayout : List Token :=
  [tokenAt 1 .whileWord, tokenAt 7 .identifier, tokenAt 8 .colon, tokenAt 3 .blockStart,
    tokenAt 3 .identifier, tokenAt 4 .statementEnd, tokenAt 6 .identifier, tokenAt 1 .blockEnd,
    tokenAt 1 .statementEnd, tokenAt 1 .leftParen, tokenAt 5 .semicolon, tokenAt 6 .rightParen,
    tokenAt 7 .statementEnd, tokenAt 8 .endOfFile]

theorem normalize_wellFormed_sampleLines :
    (∀ token ∈ sampleLines, isLayout token.kind = false) ∧
      normalize sampleLines = .ok sampleLayout ∧ WellFormed sampleLines sampleLayout :=
  ⟨by decide, rfl, normalize_wellFormed (by decide) rfl⟩

end Offside.Layout
