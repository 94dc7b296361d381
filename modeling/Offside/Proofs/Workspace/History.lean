import Offside.Proofs.Scope
import Offside.Proofs.Token.Display
import Offside.Workspace
import Mathlib.Data.List.Induction

/-!
# The history of a workspace

A workspace is told of events on its documents, one after the other. What is kept of a document and
shown on it depends on the events on that document alone: its outline is that of the latest text
since it was last closed that was a program, and the notices on it are those of the latest text that
could be checked, or none after it was closed.
-/

namespace Offside.Workspace

/-- The document that an event is about. -/
def Event.name : Event → String
  | .edit name _ => name
  | .save name => name
  | .close name => name

/-! ## Runs -/

/-- A workspace and all that was published so far, the earliest first. -/
abbrev State := Workspace × List Published

/-- Handle an event and put down what is published. -/
def State.step (state : State) (event : Event) : State :=
  let (outcome, workspace) := state.1.handle event
  (workspace, state.2 ++ outcome.toOption.getD [])

/-- The state after events, the earliest first. -/
def run (events : List Event) : State := events.foldl State.step (empty, [])

/-- The notices that are shown on a document: those published last. -/
def State.shown (state : State) (name : String) : Option (List Document.Notice) :=
  state.2.reverse.lookup name

theorem run_append_singleton (events : List Event) (event : Event) :
    run (events ++ [event]) = (run events).step event := by
  simp [run]

/-! ## Single documents -/

/-- What there is of one document. -/
structure View where
  /-- The text that it has, if it is open. -/
  text : Option String
  /-- The program that is remembered of it. -/
  program : Option Program
  /-- The notices that are shown on it. -/
  notices : Option (List Document.Notice)

/-- One document of a workspace. -/
def State.view (state : State) (name : String) : View :=
  ⟨state.1.text? name, state.1.program? name, state.shown name⟩

/-- The program of a text of the document `name`, if it is one. -/
def programOf (name text : String) : Option Program := (Source.program text (some name)).toOption

/-- The notices on a text of the document `name`, if it can be checked. -/
def noticesOf (name text : String) : Option (List Document.Notice) :=
  (Document.check name text).toOption.map (·.1)

namespace View

/-- A document after its text was checked. -/
def refreshed (view : View) (name text : String) : View :=
  { view with
    program := (programOf name text).or view.program
    notices := (noticesOf name text).or view.notices }

/-- A document after an event on it. -/
def step (name : String) (view : View) : Event → View
  | .edit _ text => { view.refreshed name text with text := some text }
  | .save _ =>
    match view.text with
    | none => view
    | some text => view.refreshed name text
  | .close _ => ⟨none, none, some []⟩

end View

/-- A text is checked together with its program, or it cannot be checked and has none. -/
theorem check_cases (name text : String) :
    (∃ notices, Document.check name text = .ok (notices, programOf name text)) ∨
      ((∃ overflow, Document.check name text = .error overflow) ∧ programOf name text = none) := by
  unfold Document.check programOf
  cases Source.program text (some name) with
  | ok program => exact .inl ⟨[], rfl⟩
  | error rejection =>
      dsimp only
      cases Document.noticesOf name text rejection with
      | ok notices => exact .inl ⟨notices, rfl⟩
      | error overflow => exact .inr ⟨⟨overflow, rfl⟩, rfl⟩

theorem lookup_filter {α : Type} (closed name : String) (entries : List (String × α)) :
    (entries.filter (·.1 != closed)).lookup name =
      if closed = name then none else entries.lookup name := by
  induction entries with
  | nil => simp
  | cons entry rest ih =>
      obtain ⟨bound, value⟩ := entry
      rw [List.filter_cons, List.lookup_cons]
      grind

theorem shown_append (workspace : Workspace) (published : List Published) (name other : String)
    (notices : List Document.Notice) :
    State.shown (workspace, published ++ [(name, notices)]) other =
      if name = other then some notices else State.shown (workspace, published) other := by
  simp only [State.shown, List.reverse_append, List.reverse_singleton, List.singleton_append,
    List.lookup_cons]
  grind

/-- The workspace that remembers a program of the document `name`, if there is one. -/
def remember (workspace : Workspace) (name : String) : Option Program → Workspace
  | some program => { workspace with programs := Scope.bind name program workspace.programs }
  | none => workspace

theorem program?_remember (workspace : Workspace) (name other : String)
    (program : Option Program) :
    (workspace.remember name program).program? other =
      if name = other then program.or (workspace.program? other)
      else workspace.program? other := by
  cases program with
  | none => simp [remember]
  | some program => simp [remember, program?, Scope.lookup_bind, eq_comm]

theorem refresh_of_check {name text : String} {notices : List Document.Notice}
    (checked : Document.check name text = .ok (notices, programOf name text))
    (workspace : Workspace) :
    workspace.refresh name text =
      .ok ([(name, notices)], workspace.remember name (programOf name text)) := by
  simp only [refresh, check, checked]
  cases programOf name text <;> rfl

/-- Checking a text changes the document that it belongs to, and no other. -/
theorem view_refresh (workspace : Workspace) (published : List Published)
    (name text other : String) :
    State.view ((workspace.settle (workspace.refresh name text)).2,
        published ++ (workspace.settle (workspace.refresh name text)).1.toOption.getD []) other =
      if name = other then (State.view (workspace, published) other).refreshed name text
      else State.view (workspace, published) other := by
  rcases check_cases name text with ⟨notices, checked⟩ | ⟨⟨overflow, checked⟩, none⟩
  · have texts : (workspace.remember name (programOf name text)).text? other =
        workspace.text? other := by
      cases programOf name text <;> rfl
    have found : noticesOf name text = some notices := by rw [noticesOf, checked]; rfl
    rw [refresh_of_check checked]
    change View.mk ((workspace.remember name (programOf name text)).text? other)
      ((workspace.remember name (programOf name text)).program? other)
      (State.shown (workspace, published ++ [(name, notices)]) other) = _
    rw [texts, program?_remember, shown_append]
    split
    · rw [View.refreshed, found]
      rfl
    · rfl
  · have refreshed : workspace.refresh name text = .error overflow := by
      simp only [refresh, check, checked]
      rfl
    rw [refreshed]
    simp [settle, View.refreshed, noticesOf, checked, none, Except.toOption]

theorem view_hold (workspace : Workspace) (published : List Published)
    (name text other : String) :
    State.view (workspace.hold name text, published) other =
      if name = other then { State.view (workspace, published) other with text := some text }
      else State.view (workspace, published) other := by
  have texts : (workspace.hold name text).text? other =
      if name = other then some text else workspace.text? other := by
    simp [hold, text?, Scope.lookup_bind, eq_comm]
  rw [State.view, texts]
  split <;> rfl

theorem view_close (workspace : Workspace) (published : List Published) (name other : String) :
    State.view ((workspace.close name).2, published ++ (workspace.close name).1) other =
      if name = other then ⟨none, none, some []⟩ else State.view (workspace, published) other := by
  have texts := lookup_filter name other workspace.texts
  have programs := lookup_filter name other workspace.programs
  have shown := shown_append workspace published name other []
  simp only [State.view, close, text?, program?, texts, programs]
  change View.mk _ _ (State.shown (workspace, published ++ [(name, [])]) other) = _
  rw [shown]
  split <;> rfl

/-- An event changes the document that it is about, and no other. -/
theorem view_step (state : State) (event : Event) (name : String) :
    (state.step event).view name =
      if event.name = name then (state.view name).step name event else state.view name := by
  obtain ⟨workspace, published⟩ := state
  cases event with
  | edit edited text =>
      refine (view_refresh (workspace.hold edited text) published edited text name).trans ?_
      rw [view_hold, Event.name]
      by_cases same : edited = name
      · simp [same, View.step, View.refreshed]
      · simp [same]
  | save saved =>
      change State.view ((workspace.settle (workspace.recheck saved)).2,
        published ++ (workspace.settle (workspace.recheck saved)).1.toOption.getD []) name = _
      rw [recheck, Event.name]
      -- A document that is not open has no text to check again.
      cases held : workspace.text? saved with
      | none =>
          have quiet : State.view (workspace, published ++ []) name =
              State.view (workspace, published) name := by rw [List.append_nil]
          refine quiet.trans ?_
          by_cases same : saved = name
          · subst same
            simp [View.step, State.view, held]
          · simp [same]
      | some text =>
          refine (view_refresh workspace published saved text name).trans ?_
          by_cases same : saved = name
          · subst same
            simp [View.step, State.view, held]
          · simp [same]
  | close closed => exact view_close workspace published closed name

/-- The document that no event was about. -/
def View.unknown : View := ⟨none, none, none⟩

/-- A document depends on the events on it alone. -/
theorem view_run (events : List Event) (name : String) :
    (run events).view name =
      (events.filter (·.name = name)).foldl (View.step name) .unknown := by
  induction events using List.reverseRecOn with
  | nil => rfl
  | append_singleton events event ih =>
      rw [run_append_singleton, view_step, ih, List.filter_append, List.foldl_append]
      by_cases same : event.name = name
      · rw [if_pos same, List.filter_cons_of_pos (by simpa using same)]
        rfl
      · rw [if_neg same, List.filter_cons_of_neg (by simpa using same)]
        rfl

/-- A document that was checked since it got its text: another check changes nothing. -/
def View.Current (name : String) (view : View) : Prop :=
  ∀ text, view.text = some text → view.refreshed name text = view

theorem View.Current.save {name : String} {view : View} (current : view.Current name)
    (saved : String) : view.step name (.save saved) = view := by
  cases held : view.text with
  | none => simp [View.step, held]
  | some text => simpa [View.step, held] using current text held

theorem View.Current.step {name : String} {view : View} (current : view.Current name)
    (event : Event) : (view.step name event).Current name := by
  cases event with
  | edit edited text =>
      rintro _ ⟨rfl⟩
      simp [View.step, View.refreshed, ← Option.or_assoc]
  | save saved => rwa [current.save]
  | close closed => rintro text ⟨⟩

theorem current_run (events : List Event) (name : String) :
    ((run events).view name).Current name := by
  induction events using List.reverseRecOn with
  | nil => rintro text ⟨⟩
  | append_singleton events event ih =>
      rw [run_append_singleton, view_step]
      split
      · exact ih.step event
      · exact ih

/-! ## The latest event that counts -/

/-- The value is given by an event after which all others pass by. -/
def Latest {α : Type} (gives : Event → α → Prop) (passes : Event → Prop) (events : List Event)
    (value : α) : Prop :=
  ∃ before event later, events = before ++ event :: later ∧ gives event value ∧
    ∀ other ∈ later, passes other

theorem not_latest_nil {α : Type} {gives : Event → α → Prop} {passes : Event → Prop} {value : α} :
    ¬Latest gives passes [] value := by
  rintro ⟨before, event, later, same, -⟩
  simp at same

theorem latest_append_singleton {α : Type} {gives : Event → α → Prop} {passes : Event → Prop}
    {events : List Event} {event : Event} {value : α} :
    Latest gives passes (events ++ [event]) value ↔
      gives event value ∨ (passes event ∧ Latest gives passes events value) := by
  constructor
  · rintro ⟨before, found, later, same, given, passed⟩
    rcases List.eq_nil_or_concat later with rfl | ⟨later, last, rfl⟩
    · obtain ⟨-, last⟩ := List.append_inj' same rfl
      obtain rfl := List.singleton_inj.mp last
      exact .inl given
    · rw [List.concat_eq_append, ← List.cons_append, ← List.append_assoc] at same
      obtain ⟨rfl, last⟩ := List.append_inj' same rfl
      obtain rfl := List.singleton_inj.mp last
      rw [List.concat_eq_append, List.forall_mem_append] at passed
      exact .inr ⟨passed.2 _ List.mem_cons_self, before, found, later, rfl, given, passed.1⟩
  · rintro (given | ⟨passed, before, found, later, rfl, given, others⟩)
    · exact ⟨events, event, [], rfl, given, by simp⟩
    · refine ⟨before, found, later ++ [event], by simp, given, ?_⟩
      simpa [or_imp, forall_and] using ⟨others, passed⟩

/-- The program of the latest text that the document `name` was given since it was last closed and
that was a program. -/
def LatestProgram (name : String) : List Event → Program → Prop :=
  Latest (fun event program => ∃ text, event = .edit name text ∧
      Source.program text (some name) = .ok program)
    fun event => event ≠ .close name ∧
      ∀ text, event = .edit name text → ∀ program, Source.program text (some name) ≠ .ok program

/-- The notices on the latest text that the document `name` was given, or none if it was closed
after that; texts that cannot be checked do not count. -/
def LatestNotices (name : String) : List Event → List Document.Notice → Prop :=
  Latest (fun event notices => (event = .close name ∧ notices = []) ∨
      ∃ text program, event = .edit name text ∧ Document.check name text = .ok (notices, program))
    fun event => event ≠ .close name ∧
      ∀ text, event = .edit name text → ∀ result, Document.check name text ≠ .ok result

theorem programOf_eq_some {name text : String} {program : Program} :
    programOf name text = some program ↔ Source.program text (some name) = .ok program := by
  unfold programOf
  cases Source.program text (some name) <;> simp [Except.toOption]

theorem noticesOf_eq_some {name text : String} {notices : List Document.Notice} :
    noticesOf name text = some notices ↔
      ∃ program, Document.check name text = .ok (notices, program) := by
  unfold noticesOf
  cases Document.check name text with
  | error overflow => simp [Except.toOption]
  | ok result => simp [Except.toOption, Prod.ext_iff]

/-- What a document shows of its latest text follows from what a single event does to it. -/
theorem latest_of_view {α : Type} {name : String} (part : View → Option α)
    {gives : Event → α → Prop} {passes : Event → Prop} (unknown : part .unknown = none)
    (own : ∀ view : View, view.Current name → ∀ event : Event, event.name = name → ∀ value,
      part (view.step name event) = some value ↔
        gives event value ∨ (passes event ∧ part view = some value))
    (others : ∀ event : Event, event.name ≠ name → passes event ∧ ∀ value, ¬gives event value)
    (events : List Event) (value : α) :
    part ((run events).view name) = some value ↔ Latest gives passes events value := by
  induction events using List.reverseRecOn with
  | nil => exact iff_of_false (by simp [view_run, unknown]) not_latest_nil
  | append_singleton events event ih =>
      rw [run_append_singleton, view_step, latest_append_singleton, ← ih]
      by_cases same : event.name = name
      · rw [if_pos same]
        exact own _ (current_run events name) event same value
      · obtain ⟨passed, nothing⟩ := others event same
        simp [same, passed, nothing]

theorem program?_run (events : List Event) (name : String) (program : Program) :
    (run events).1.program? name = some program ↔ LatestProgram name events program := by
  refine latest_of_view View.program rfl ?_ ?_ events program
  · intro view current event same program
    subst same
    cases event with
    | edit edited text =>
        simp [View.step, View.refreshed, Event.name, Option.or_eq_some_iff, programOf_eq_some,
          Option.eq_none_iff_forall_ne_some]
    | save saved => simp [current.save]
    | close closed => simp [View.step, Event.name]
  · rintro event other
    refine ⟨⟨?_, ?_⟩, ?_⟩
    · rintro rfl
      exact other rfl
    · rintro text rfl
      exact absurd rfl other
    · rintro _ ⟨text, rfl, -⟩
      exact other rfl

theorem shown_run (events : List Event) (name : String) (notices : List Document.Notice) :
    (run events).shown name = some notices ↔ LatestNotices name events notices := by
  refine latest_of_view View.notices rfl ?_ ?_ events notices
  · intro view current event same notices
    subst same
    cases event with
    | edit edited text =>
        simp [View.step, View.refreshed, Event.name, Option.or_eq_some_iff, noticesOf_eq_some,
          Option.eq_none_iff_forall_ne_some]
    | save saved => simp [current.save]
    | close closed => simp [View.step, Event.name, eq_comm]
  · rintro event other
    refine ⟨⟨?_, ?_⟩, ?_⟩
    · rintro rfl
      exact other rfl
    · rintro text rfl
      exact absurd rfl other
    · rintro _ (⟨rfl, -⟩ | ⟨text, _, rfl, -⟩)
      · exact other rfl
      · exact other rfl

/-- What a workspace knows of a document follows from the history of that document: its outline is
the one of its latest program, and the notices on it are its latest notices. -/
theorem view_of_history (events : List Event) (name : String) :
    (∀ outline, (run events).1.symbols name = some outline ↔
      ∃ program, LatestProgram name events program ∧ Document.symbols program = outline) ∧
    (∀ notices, (run events).shown name = some notices ↔ LatestNotices name events notices) ∧
    (run events).view name = (run (events.filter (·.name = name))).view name := by
  refine ⟨fun outline => ?_, shown_run events name, ?_⟩
  · simp only [symbols, Option.map_eq_some_iff, program?_run]
  · simp only [view_run, List.filter_filter, Bool.and_self]

/-! ## Texts that cannot be checked -/

theorem shown_of_unchecked {name text : String} {overflow : Overflow}
    (unchecked : Document.check name text = .error overflow) (events : List Event) :
    (run (events ++ [.edit name text])).shown name = (run events).shown name := by
  change ((run (events ++ [.edit name text])).view name).notices = ((run events).view name).notices
  rw [run_append_singleton, view_step]
  simp [Event.name, View.step, View.refreshed, noticesOf, unchecked, Except.toOption]

/-- A row of ones, as a number. -/
def ones (count : Nat) : String := String.ofList (List.replicate count '1')

theorem scan_ones {count : Nat} (long : Overflow.digitLimit < count) (file : Option String) :
    Token.scan (ones count) file = .error (.literal count) := by
  obtain ⟨count, rfl⟩ : ∃ fewer, count = fewer + 1 := ⟨count - 1, by omega⟩
  have numerals (c : Char) (member : c ∈ List.replicate count '1') : Lexeme.isNumeral c := by
    obtain rfl := List.eq_of_mem_replicate member
    decide
  have digits : Lexeme.digitsOf (List.replicate (count + 1) '1') =
      List.replicate (count + 1) '1' :=
    List.filter_eq_self.mpr fun c member => by
      obtain rfl := List.eq_of_mem_replicate member
      decide
  have token : Lexeme.numberToken ('1' :: List.replicate count '1') none (.start file) =
      .error (.literal (count + 1)) := by
    rw [Lexeme.numberToken, ← List.replicate_succ, digits, List.length_replicate]
    exact if_pos long
  rw [Token.scan, Token.scanAt, ones, String.toList_ofList, List.replicate_succ, Token.scanFrom,
    Token.read_digit (by decide), List.takeWhile_eq_self_iff.mpr numerals,
    List.dropWhile_eq_nil_iff.mpr numerals]
  simp only [Lexeme.fraction?, Lexeme.items, Token.scanItems, Lexeme.token?, token]
  rfl

theorem check_ones {count : Nat} (long : Overflow.digitLimit < count) (name : String) :
    Document.check name (ones count) = .error (.literal count) := by
  simp only [Document.check, Source.program, Source.tokens, scan_ones long]
  rfl

/-- After a text that cannot be checked, a document still shows the notices on the text before. -/
theorem shown_unchecked :
    Document.check "u" (ones 4301) = .error (.literal 4301) ∧
      (run [.edit "u" "x := )", .edit "u" (ones 4301)]).shown "u" =
        (run [.edit "u" "x := )"]).shown "u" ∧
      (run [.edit "u" "x := )"]).shown "u" ≠ some [] := by
  have unchecked : Document.check "u" (ones 4301) = .error (.literal 4301) :=
    check_ones (by decide) "u"
  exact ⟨unchecked, shown_of_unchecked unchecked [.edit "u" "x := )"], by decide +kernel⟩

end Offside.Workspace
