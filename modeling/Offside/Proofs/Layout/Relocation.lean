import Offside.Proofs.Token.Relocation
import Mathlib.Order.Monotone.Basic

/-!
# Layout of a moved text

Layout looks at the columns of tokens and at nothing else of their places. So the tokens of a text
that is moved as a whole get the same block structure, and a fault of layout moves with them.
-/

namespace Offside

/-- A fault with another place. -/
def Fault.relocate (move : Location → Location) (fault : Fault) : Fault :=
  { fault with location := fault.location.map move }

/-- A fault of layout at a place counted from one. -/
structure Fault.OfLayout (fault : Fault) : Prop where
  kind : fault.kind = .layout
  counted : ∃ location, fault.location = some location ∧ location.Counted

namespace Layout

open Token (Scanned Complete relocate)

/-! ## The parts of a step -/

theorem run_endOfFile {token : Token} (isEnd : token.kind = .endOfFile) (state : State)
    (last : Location) (rest : List Token) :
    run state last (token :: rest) = finish state token := by
  rw [run, if_pos isEnd]

theorem run_cons {token : Token} (other : token.kind ≠ .endOfFile) (state : State)
    (last : Location) (rest : List Token) :
    run state last (token :: rest) = step state token >>= fun result =>
      (run result.2 token.location rest).map (result.1 ++ ·) := by
  rw [run, if_neg other]
  cases step state token with
  | error fault => rfl
  | ok result => cases run result.2 token.location rest <;> rfl

theorem run_cons_eq_ok {token : Token} (other : token.kind ≠ .endOfFile) {state : State}
    {last : Location} {rest output : List Token} :
    run state last (token :: rest) = .ok output ↔ ∃ written after later,
      step state token = .ok (written, after) ∧ run after token.location rest = .ok later ∧
        output = written ++ later := by
  rw [run_cons other]
  constructor
  · intro ran
    obtain ⟨⟨written, after⟩, stepped, ran⟩ := exists_of_bind_eq_ok ran
    cases tail : run after token.location rest with
    | error fault =>
        rw [tail] at ran
        cases ran
    | ok later =>
        rw [tail] at ran
        exact ⟨written, after, later, stepped, tail, (Except.ok.inj ran).symm⟩
  · rintro ⟨written, after, later, stepped, tail, rfl⟩
    rw [stepped]
    change (run after token.location rest).map _ = _
    rw [tail]
    rfl

/-- The block opener that still waits for its block at the end of file. -/
def State.awaiting (state : State) : Option Token :=
  match state.opener with
  | some opener => some opener
  | none => if state.depth == 0 && state.follows opensBlock then state.previous else none

theorem finish_eq_match (state : State) (endOfFile : Token) :
    finish state endOfFile = match state.awaiting with
      | some opener => .error ((Defect.missingBlock opener).fault endOfFile.location)
      | none => .ok (blockEnds (state.columns.length - 1) endOfFile.location ++ [endOfFile]) := rfl

/-! ## What layout writes -/

/-- Layout writes tokens that it has read and inserts others at given places, or it reports a defect
at one of them. -/
def Ordinary {α : Type} (places : List Location) (read : List Token) (written : α → List Token) :
    Except Fault α → Prop
  | .ok result => ∀ token ∈ written result,
      token ∈ read ∨ ∃ kind, ∃ place ∈ places, token = .inserted kind place
  | .error fault => ∃ defect, ∃ place ∈ places, fault = Defect.fault defect place

theorem Ordinary.mono {α : Type} {places places' : List Location} {read read' : List Token}
    {written : α → List Token} {outcome : Except Fault α}
    (ordinary : Ordinary places read written outcome) (further : places ⊆ places')
    (more : ∀ token ∈ read, token ∈ read' ∨ ∃ kind, ∃ place ∈ places',
      token = .inserted kind place) :
    Ordinary places' read' written outcome := by
  cases outcome with
  | error fault =>
      obtain ⟨defect, place, member, same⟩ := ordinary
      exact ⟨defect, place, further member, same⟩
  | ok result =>
      intro token member
      rcases ordinary token member with known | ⟨kind, place, member, same⟩
      · exact more token known
      · exact .inr ⟨kind, place, further member, same⟩

theorem exists_inserted_of_mem_separator {written : Option Token.Kind} {location : Location}
    {token : Token} (member : token ∈ separator written location) :
    ∃ kind, ∃ place ∈ [location], token = .inserted kind place := by
  unfold separator at member
  split at member
  iterate 3 cases member
  exact ⟨_, location, List.mem_cons_self, List.mem_singleton.mp member⟩

theorem exists_inserted_of_mem_blockEnds {count : Nat} {location : Location} {token : Token}
    (member : token ∈ blockEnds count location) :
    ∃ kind, ∃ place ∈ [location], token = .inserted kind place :=
  ⟨_, location, List.mem_cons_self, List.eq_of_mem_replicate member⟩

theorem ordinary_enter (state : State) (token : Token) :
    Ordinary [token.location] [] (·.1) (enter state token) := by
  unfold enter
  split
  · generalize startLine _ token = outcome, started _ token = view
    cases view with
    | first | continued => exact List.forall_mem_nil _
    | opened => exact List.forall_mem_singleton.mpr (.inr ⟨_, _, List.mem_cons_self, rfl⟩)
    | closed _ _ _ isEnds isMore =>
        subst isEnds
        refine List.forall_mem_append.mpr
          ⟨fun _ member => .inr (exists_inserted_of_mem_blockEnds member), ?_⟩
        rcases isMore with rfl | rfl
        · exact List.forall_mem_nil _
        · exact fun _ member => .inr (exists_inserted_of_mem_separator member)
    | failed defect => exact ⟨defect, _, List.mem_cons_self, rfl⟩
  · exact List.forall_mem_nil _

theorem ordinary_step (state : State) (token : Token) :
    Ordinary [token.location] [token] (·.1) (step state token) := by
  by_cases isBreak : token.kind = .newline
  · rw [step_newline isBreak]
    exact List.forall_mem_nil _
  · rw [step_eq isBreak]
    have entered : Ordinary [token.location] [token] (·.1) (enter state token) :=
      (ordinary_enter state token).mono (List.Subset.refl _) nofun
    generalize enter state token = outcome at entered
    cases outcome with
    | error fault => exact entered
    | ok result =>
        refine List.forall_mem_append.mpr ⟨entered, ?_⟩
        unfold State.accept
        split
        · exact fun _ member => .inr (exists_inserted_of_mem_separator member)
        · exact fun _ member => .inl member

theorem ordinary_finish (state : State) (endOfFile : Token) :
    Ordinary [endOfFile.location] [endOfFile] id (finish state endOfFile) := by
  rw [finish_eq_match]
  split
  · exact ⟨_, _, List.mem_cons_self, rfl⟩
  · exact List.forall_mem_append.mpr
      ⟨fun _ member => .inr (exists_inserted_of_mem_blockEnds member), fun _ member => .inl member⟩

theorem ordinary_run (state : State) (last : Location) (tokens : List Token) :
    Ordinary (last :: tokens.map Token.location) tokens id (run state last tokens) := by
  induction tokens generalizing state last with
  | nil =>
      refine (ordinary_finish state (.inserted .endOfFile last)).mono (List.Subset.refl _) ?_
      exact List.forall_mem_singleton.mpr (.inr ⟨_, last, List.mem_cons_self, rfl⟩)
  | cons token rest ih =>
      have here {α : Type} {written : α → List Token} {outcome : Except Fault α}
          (ordinary : Ordinary [token.location] [token] written outcome) :
          Ordinary (last :: (token :: rest).map Token.location) (token :: rest) written outcome :=
        ordinary.mono (by simp) (by simp)
      by_cases isEnd : token.kind = .endOfFile
      · rw [run_endOfFile isEnd]
        exact here (ordinary_finish state token)
      · rw [run_cons isEnd]
        have stepped := here (ordinary_step state token)
        generalize step state token = outcome at stepped
        cases outcome with
        | error fault => exact stepped
        | ok result =>
            have later : Ordinary _ (token :: rest) id (run result.2 token.location rest) :=
              (ih result.2 token.location).mono (List.subset_cons_self last _)
                fun _ member => .inl (List.mem_cons_of_mem _ member)
            change Ordinary _ _ _ ((run result.2 token.location rest).map (result.1 ++ ·))
            generalize run result.2 token.location rest = ran at later
            cases ran with
            | error fault => exact later
            | ok output => exact List.forall_mem_append.mpr ⟨stepped, later⟩

theorem ordinary_normalize (tokens : List Token) :
    Ordinary (.start none :: tokens.map Token.location) tokens id (normalize tokens) :=
  ordinary_run ..

/-- Without any token there is no place to insert others at. -/
theorem ordinary_normalize_of_ne_nil {tokens : List Token} (nonempty : tokens ≠ []) :
    Ordinary (tokens.map Token.location) tokens id (normalize tokens) := by
  obtain ⟨token, rest, rfl⟩ := List.exists_cons_of_ne_nil nonempty
  exact (ordinary_run .initial token.location (token :: rest)).mono (by simp)
    fun _ member => .inl member

/-! ## Changes of tokens -/

/-- An outcome with other places: those of the tokens and of the state, or that of the fault. -/
def relocateOutcome {α : Type} (move : Location → Location) (change : α → α) :
    Except Fault α → Except Fault α
  | .ok result => .ok (change result)
  | .error fault => .error (fault.relocate move)

/-- Whether nothing was written that a separator could end. -/
def Blank (written : Option Token.Kind) : Prop := ∀ location, separator written location = []

/-- A change of tokens that layout does not notice. Tokens keep their kinds, their columns stay in
order, and block openers are shown as before. -/
structure Change where
  /-- What becomes of a token. -/
  token : Token → Token
  /-- What becomes of a place. -/
  move : Location → Location
  /-- What becomes of a column. -/
  scale : Int → Int
  /-- The tokens that may occur. -/
  Fit : Token → Prop
  /-- The states that such tokens lead to. -/
  Keeps : State → Prop
  kind : ∀ first, (token first).kind = first.kind
  location : ∀ first, (token first).location = move first.location
  inserted : ∀ kind location, token (.inserted kind location) = .inserted kind (move location)
  column : ∀ location, (move location).column = scale location.column
  increasing : ∀ {column further}, column < further → scale column < scale further
  shown : ∀ {state opener}, Keeps state → (state.opener = some opener ∨
    state.previous = some opener ∧ opensBlock opener.kind) →
    (token opener).payload.shown = opener.payload.shown
  step : ∀ {state first written after}, Keeps state → Fit first →
    step state first = .ok (written, after) → Keeps after

namespace Change

variable (change : Change)

/-- What becomes of a state. -/
def state (state : State) : State :=
  { state with
    columns := state.columns.map change.scale
    opener := state.opener.map change.token
    previous := state.previous.map change.token }

/-- A state that layout takes for the changed one. Something else may have been written last, if a
separator could end neither. -/
structure Related (state state' : State) : Prop where
  eq : state' = { change.state state with written := state'.written }
  written : state'.written = state.written ∨ (Blank state.written ∧ Blank state'.written)

/-- Outcomes of which the second is the first one changed. -/
def Agrees : Except Fault (List Token × State) → Except Fault (List Token × State) → Prop
  | .ok result, .ok result' =>
      result'.1 = result.1.map change.token ∧ change.Related result.2 result'.2
  | .error fault, .error fault' => fault' = fault.relocate change.move
  | _, _ => False

theorem scale_lt_scale {column further : Int} :
    change.scale column < change.scale further ↔ column < further :=
  StrictMono.lt_iff_lt fun _ _ => change.increasing

@[simp]
theorem follows_state (state : State) (p : Token.Kind → Bool) :
    (change.state state).follows p = state.follows p := by
  cases h : state.previous <;> simp [State.follows, Change.state, h, change.kind]

theorem lastKind_map (before : Option Token.Kind) (tokens : List Token) :
    lastKind before (tokens.map change.token) = lastKind before tokens := by
  induction tokens generalizing before with
  | nil => rfl
  | cons token rest ih => simp [ih, change.kind]

theorem separator_move (written : Option Token.Kind) (location : Location) :
    separator written (change.move location) = (separator written location).map change.token := by
  unfold separator
  split <;> simp [change.inserted]

theorem blockEnds_move (count : Nat) (location : Location) :
    blockEnds count (change.move location) = (blockEnds count location).map change.token := by
  simp [blockEnds, change.inserted]

theorem close_scale (column : Int) (columns : List Int) :
    close (change.scale column) (columns.map change.scale) =
      ((close column columns).1, (close column columns).2.map change.scale) := by
  fun_induction close column columns with
  | case1 reference next outer further count columns inner ih =>
      rw [inner] at ih
      simp only [List.map_cons] at ih ⊢
      rw [close, if_pos (change.increasing further), ih]
  | case2 reference next outer aligned =>
      rw [List.map_cons, List.map_cons, close, if_neg (by rwa [change.scale_lt_scale])]
  | case3 columns short =>
      rcases columns with _ | ⟨reference, _ | ⟨next, outer⟩⟩
      · rfl
      · rfl
      · exact absurd rfl (short reference next outer)

theorem head?_scale (column : Int) (columns : List Int) :
    (columns.map change.scale).head? = some (change.scale column) ↔
      columns.head? = some column := by
  cases columns with
  | nil => simp
  | cons reference outer =>
      have injective := StrictMono.injective fun _ _ => change.increasing
      simp [injective.eq_iff]

variable {change}

/-- The fault of a missing block names its opener. -/
theorem missingBlock {opener : Token}
    (shown : (change.token opener).payload.shown = opener.payload.shown) (location : Location) :
    (Defect.missingBlock (change.token opener)).fault (change.move location) =
      ((Defect.missingBlock opener).fault location).relocate change.move := by
  have message : (Defect.missingBlock (change.token opener)).message =
      (Defect.missingBlock opener).message :=
    congrArg (fun shown => "expected an indented block after '" ++ shown ++ "'") shown
  rw [Defect.fault, message]
  rfl

namespace Related

variable {state state' : State}

theorem refl (state : State) : change.Related state (change.state state) := ⟨rfl, .inl rfl⟩

theorem separator (related : change.Related state state') (location : Location) :
    Layout.separator state'.written (change.move location) =
      (Layout.separator state.written location).map change.token := by
  rw [← separator_move]
  rcases related.written with same | ⟨blank, blank'⟩
  · rw [same]
  · rw [blank, blank']

theorem wrote (related : change.Related state state') (tokens : List Token) :
    change.Related (state.wrote tokens) (state'.wrote (tokens.map change.token)) := by
  have same := related.eq
  constructor
  · rw [wrote_eq, wrote_eq, same]
    rfl
  · rw [wrote_written, wrote_written, lastKind_map, lastKind_eq, lastKind_eq]
    cases tokens.getLast? with
    | none => simpa using related.written
    | some token => exact .inl rfl

theorem follows (related : change.Related state state') (p : Token.Kind → Bool) :
    state'.follows p = state.follows p := by
  rw [related.eq]
  exact change.follows_state state p

theorem endLine (related : change.Related state state') :
    change.Related state.endLine state'.endLine := by
  refine ⟨?_, related.written⟩
  rw [State.endLine, State.endLine, related.follows, related.eq]
  simp only [Change.state, State.mk.injEq, true_and, and_true]
  exact (apply_ite (Option.map _) _ _ _).symm

theorem accept (related : change.Related state state') (token : Token) :
    change.Agrees (.ok (state.accept token)) (.ok (state'.accept (change.token token))) := by
  have separated := related.separator token.location
  obtain ⟨same, written⟩ := related
  generalize state'.written = last at same written separated
  subst same
  simp only [State.accept, change.kind, change.location]
  have depth : { change.state state with written := last }.depth = state.depth := rfl
  rw [depth]
  split
  · have related : change.Related { state with previous := some token }
        { change.state state with written := last, previous := some (change.token token) } :=
      ⟨rfl, written⟩
    exact ⟨separated, separated ▸ related.wrote _⟩
  · exact ⟨rfl, rfl, .inl rfl⟩

theorem startLine (related : change.Related state state')
    (shown : ∀ opener, state.opener = some opener →
      (change.token opener).payload.shown = opener.payload.shown) (token : Token) :
    change.Agrees (Layout.startLine state token)
      (Layout.startLine state' (change.token token)) := by
  have follows := related.follows expectsMore
  obtain ⟨same, written⟩ := related
  generalize state'.written = last at same written
  subst same
  obtain ⟨columns, depth, opener, previous, last', atStart⟩ := state
  have alike (columns : List Int) (opener : Option Token) :
      change.Related ⟨columns, depth, opener, previous, last', atStart⟩
        ⟨columns.map change.scale, depth, opener.map change.token, previous.map change.token, last,
          atStart⟩ := ⟨rfl, written⟩
  match columns, opener with
  | [], opener =>
      have first := alike [token.location.column] opener
      simp only [Layout.startLine, Change.state, change.location, change.column]
      exact ⟨rfl, first⟩
  | reference :: outer, some opener =>
      have opened := (alike (token.location.column :: reference :: outer) none).wrote
        [.inserted .blockStart token.location]
      simp only [Layout.startLine, Change.state, List.map_cons, Option.map_some, change.location,
        change.column, ← Int.not_lt, change.scale_lt_scale]
      split
      · exact missingBlock (shown opener rfl) _
      · simp only [List.map_cons, List.map_nil, change.inserted] at opened
        exact ⟨by simp [change.inserted], opened⟩
  | reference :: outer, none =>
      have closing := change.close_scale token.location.column (reference :: outer)
      simp only [Change.state, Layout.startLine, List.map_cons, Option.map_none, change.location,
        change.column, change.kind, change.scale_lt_scale] at closing follows ⊢
      rw [closing, follows]
      generalize close token.location.column (reference :: outer) = closed
      have closed' := (alike closed.2 none).wrote (blockEnds closed.1 token.location)
      rw [← blockEnds_move] at closed'
      have ends := change.blockEnds_move closed.1 token.location
      split
      · split
        · exact ⟨rfl, alike _ _⟩
        · rfl
      · simp only [ne_eq, change.head?_scale]
        split
        · split
          · exact ⟨ends, closed'⟩
          · rfl
        · split
          · have separated := closed'.separator token.location
            refine ⟨?_, ?_⟩
            · simpa [ends] using separated
            · exact separated ▸ closed'.wrote _
          · exact ⟨ends, closed'⟩

theorem enter (related : change.Related state state') (keeps : change.Keeps state)
    (token : Token) :
    change.Agrees (Layout.enter state token) (Layout.enter state' (change.token token)) := by
  have inside : change.Related { state with atLineStart := false }
      { state' with atLineStart := false } := by
    have same := related.eq
    exact ⟨by rw [same]; rfl, related.written⟩
  have start : (state'.atLineStart && state'.depth == 0) =
      (state.atLineStart && state.depth == 0) := by
    rw [related.eq]
    rfl
  rw [Layout.enter, Layout.enter, start]
  split
  · exact inside.startLine (fun opener waits => change.shown keeps (.inl waits)) token
  · exact ⟨rfl, inside⟩

theorem step (related : change.Related state state') (keeps : change.Keeps state) (token : Token) :
    change.Agrees (Layout.step state token) (Layout.step state' (change.token token)) := by
  by_cases isBreak : token.kind = .newline
  · rw [step_newline isBreak, step_newline ((change.kind token).trans isBreak)]
    exact ⟨rfl, related.endLine⟩
  · rw [step_eq isBreak, step_eq (by rwa [change.kind])]
    have entered := related.enter keeps token
    generalize Layout.enter state token = outcome, Layout.enter state' _ = outcome' at entered
    cases outcome <;> cases outcome'
    case error.error => exact entered
    case ok.ok result result' =>
        obtain ⟨accepted, after⟩ := entered.2.accept token
        exact ⟨by simp [entered.1, accepted], after⟩
    all_goals exact entered.elim

end Related

theorem awaiting_state (state : State) :
    (change.state state).awaiting = state.awaiting.map change.token := by
  rw [State.awaiting, State.awaiting, follows_state]
  cases waiting : state.opener with
  | some opener => simp [Change.state, waiting]
  | none =>
      simp only [Change.state, waiting, Option.map_none]
      rw [apply_ite (Option.map change.token), Option.map_none]

/-- An opener that waits for its block is the last token, or ended the last line. -/
theorem of_awaiting {state : State} {opener : Token} (waits : state.awaiting = some opener) :
    state.opener = some opener ∨ state.previous = some opener ∧ opensBlock opener.kind := by
  unfold State.awaiting at waits
  split at waits
  case h_1 _ waiting => exact .inl (waiting.trans waits)
  case h_2 =>
      split at waits
      case isTrue opens =>
          have follows : state.follows opensBlock := (Bool.and_eq_true_iff.mp opens).2
          exact .inr ⟨waits, by simpa [State.follows, waits] using follows⟩
      case isFalse => cases waits

theorem finish_state {state state' : State} (related : change.Related state state')
    (keeps : change.Keeps state) (endOfFile : Token) :
    finish state' (change.token endOfFile) =
      relocateOutcome change.move (List.map change.token) (finish state endOfFile) := by
  have awaiting : state'.awaiting = state.awaiting.map change.token := by
    rw [related.eq]
    exact awaiting_state state
  have columns : state'.columns.length = state.columns.length := by
    rw [related.eq]
    exact List.length_map _
  rw [finish_eq_match, finish_eq_match, awaiting, columns]
  cases waits : state.awaiting with
  | some opener =>
      simp only [Option.map_some, change.location]
      rw [missingBlock (change.shown keeps (of_awaiting waits))]
      rfl
  | none => simp [relocateOutcome, blockEnds_move, change.location]

/-- Changed tokens get the changed layout, or a fault at the changed place. -/
theorem Related.run {tokens : List Token} (fit : ∀ token ∈ tokens, change.Fit token)
    {state state' : State} (related : change.Related state state') (keeps : change.Keeps state)
    (last : Location) :
    Layout.run state' (change.move last) (tokens.map change.token) =
      relocateOutcome change.move (List.map change.token) (Layout.run state last tokens) := by
  induction tokens generalizing state state' last with
  | nil =>
      rw [List.map_nil, Layout.run, Layout.run, ← change.inserted]
      exact finish_state related keeps _
  | cons token rest ih =>
      obtain ⟨here, fit⟩ := List.forall_mem_cons.mp fit
      by_cases isEnd : token.kind = .endOfFile
      · rw [List.map_cons, run_endOfFile isEnd, run_endOfFile ((change.kind token).trans isEnd),
          finish_state related keeps]
      · rw [List.map_cons, run_cons isEnd, run_cons (by rwa [change.kind]), change.location]
        have stepped := related.step keeps token
        generalize Layout.step state' _ = outcome' at stepped
        cases found : Layout.step state token <;> rw [found] at stepped <;> cases outcome'
        case error.error => exact congrArg Except.error stepped
        case ok.ok result result' =>
            obtain ⟨same, related⟩ := stepped
            have later := ih fit related (change.step keeps here found) token.location
            change (Layout.run result'.2 _ _).map (result'.1 ++ ·) =
              relocateOutcome change.move (List.map change.token)
                ((Layout.run result.2 token.location rest).map (result.1 ++ ·))
            rw [later, same]
            cases Layout.run result.2 token.location rest with
            | error fault => rfl
            | ok output => simp [relocateOutcome, Except.map]
        all_goals exact stepped.elim

/-- The layout of changed tokens. Without any token there is no place to change. -/
theorem normalize_map {tokens : List Token} (nonempty : tokens ≠ [])
    (fit : ∀ token ∈ tokens, change.Fit token) (initial : change.Keeps .initial) :
    normalize (tokens.map change.token) =
      relocateOutcome change.move (List.map change.token) (normalize tokens) := by
  obtain ⟨token, rest, rfl⟩ := List.exists_cons_of_ne_nil nonempty
  exact (Related.refl .initial).run fit initial (.start none)

end Change

/-! ## Scanned tokens -/

/-- What a state remembers was scanned. -/
structure State.Scanned (state : State) : Prop where
  opener : ∀ token, state.opener = some token → token.Scanned ∧ opensBlock token.kind
  previous : ∀ token, state.previous = some token → token.Scanned

theorem State.Scanned.endLine {state : State} (scanned : state.Scanned) :
    state.endLine.Scanned := by
  refine ⟨fun opener waiting => ?_, scanned.previous⟩
  simp only [State.endLine] at waiting
  split at waiting
  case isTrue opens =>
      have follows : state.follows opensBlock :=
        (Bool.and_eq_true_iff.mp (Bool.and_eq_true_iff.mp opens).1).2
      exact ⟨scanned.previous opener waiting, by simpa [State.follows, waiting] using follows⟩
  case isFalse => exact scanned.opener opener waiting

theorem State.Scanned.step {state after : State} (scanned : state.Scanned) {token : Token}
    (tokenScanned : token.Scanned) {written : List Token}
    (ok : Layout.step state token = .ok (written, after)) : after.Scanned := by
  by_cases isBreak : token.kind = .newline
  · rw [step_newline isBreak] at ok
    obtain ⟨-, rfl⟩ := Prod.mk.inj (Except.ok.inj ok)
    exact scanned.endLine
  · obtain ⟨before, entered, found, -, rfl⟩ := exists_enter isBreak ok
    have opener : ∀ token, entered.opener = some token → token.Scanned ∧ opensBlock token.kind := by
      rcases (enter_frame found).1 with same | none
      · simpa [same] using scanned.opener
      · simp [none]
    unfold State.accept
    split
    · exact ⟨by simpa using opener, by simpa using tokenScanned⟩
    · exact ⟨opener, by simpa using tokenScanned⟩

/-- Whole tokens, or a fault at one of their places. -/
def CompleteOutcome : Except Fault (List Token) → Prop
  | .ok output => Complete output
  | .error fault => fault.OfLayout

/-! ## Whole runs -/

/-- The layout of a text goes up to an end of file. -/
theorem exists_endOfFile_of_run {state : State} {last : Location} {tokens output : List Token}
    (ran : run state last tokens = .ok output) : ∃ token ∈ output, token.kind = .endOfFile := by
  induction tokens generalizing state last output with
  | nil =>
      obtain rfl := finish_eq ran
      exact ⟨.inserted .endOfFile last, by simp, rfl⟩
  | cons token rest ih =>
      by_cases isEnd : token.kind = .endOfFile
      · rw [run_endOfFile isEnd] at ran
        obtain rfl := finish_eq ran
        exact ⟨token, by simp, isEnd⟩
      · obtain ⟨written, after, later, -, ranLater, rfl⟩ := (run_cons_eq_ok isEnd).mp ran
        obtain ⟨ended, member, isEnd⟩ := ih ranLater
        exact ⟨ended, List.mem_append_right _ member, isEnd⟩

/-- The tokens written are whole like those read, and a fault stands at a place of theirs. -/
theorem complete_normalize {tokens : List Token} (complete : Complete tokens) :
    CompleteOutcome (normalize tokens) := by
  obtain ⟨last, member, -⟩ := complete.ended
  have ordinary := ordinary_normalize_of_ne_nil (List.ne_nil_of_mem member)
  have counted (place : Location) (taken : place ∈ tokens.map Token.location) :
      place.Counted := by
    obtain ⟨token, member, rfl⟩ := List.mem_map.mp taken
    exact (complete.each token member).counted
  cases ran : normalize tokens with
  | error fault =>
      rw [ran] at ordinary
      obtain ⟨defect, place, taken, rfl⟩ := ordinary
      exact ⟨rfl, place, rfl, counted place taken⟩
  | ok output =>
      rw [ran] at ordinary
      refine ⟨exists_endOfFile_of_run ran, fun token member => ?_⟩
      rcases ordinary token member with read | ⟨kind, place, taken, rfl⟩
      · exact complete.each token read
      · exact Token.scanned_of_interpolations_eq_nil (counted place taken) rfl

theorem scanned_initial : State.initial.Scanned where
  opener token impossible := by cases impossible
  previous token impossible := by cases impossible

/-- Places that move and keep their columns. -/
def relocation {move : Location → Location}
    (column : ∀ location, (move location).column = location.column) : Change where
  token := Token.relocate move
  move := move
  scale := id
  Fit := Token.Scanned
  Keeps := State.Scanned
  kind := Token.relocate_kind move
  location := Token.relocate_location move
  inserted := Token.relocate_inserted move
  column := column
  increasing less := less
  shown {state opener} scanned waits := by
    have ⟨openerScanned, opens⟩ : opener.Scanned ∧ opensBlock opener.kind :=
      waits.elim (scanned.opener opener) fun ⟨last, opens⟩ => ⟨scanned.previous opener last, opens⟩
    have other : opener.kind ≠ .string := by
      intro isString
      simp [isString, opensBlock] at opens
    rw [Token.relocate_payload, openerScanned.relocate_payload other]
  step scanned first stepped := scanned.step first stepped

theorem normalize_relocate {move : Location → Location}
    (column : ∀ location, (move location).column = location.column) {tokens : List Token}
    (complete : Complete tokens) :
    normalize (tokens.map (Token.relocate move)) =
      relocateOutcome move (List.map (Token.relocate move)) (normalize tokens) := by
  obtain ⟨last, member, -⟩ := complete.ended
  exact (relocation column).normalize_map (List.ne_nil_of_mem member) complete.each scanned_initial

end Layout

end Offside
