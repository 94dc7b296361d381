import Offside.Proofs.Evaluation.Transport
import Offside.Proofs.Layout.Line
import Offside.Proofs.Source.Consumers
import Offside.Proofs.Token.Display
import Offside.Proofs.Tree.Data

/-!
# Displayed data reads back

A value without functions, ranges and doubles is shown as a text that runs to the same value. The
text of a value is followed from its characters to its tokens, from there to a tree, and from the
tree to the value; a list or a tuple is put together from its elements at each of these stages.
-/

namespace Offside

open Token (Scans EndsElement)
open Offside.Tree (ReadsDatum ReadsData)

/-- Truth values, integers that can be written, texts, the unit, and the lists and tuples of two or
more elements that are made of these. -/
inductive Value.IsData : Value → Prop where
  | bool (value : Bool) : IsData (.bool value)
  | int {value : Int} : value.natAbs < 10 ^ Overflow.digitLimit → IsData (.int value)
  | string (text : String) : IsData (.string text)
  | unit : IsData .unit
  | list {items : List Value} : (∀ item ∈ items, IsData item) → IsData (.list items)
  | tuple {items : List Value} : 2 ≤ items.length → (∀ item ∈ items, IsData item) →
      IsData (.tuple items)

/-! ## From trees to values -/

/-- The parts of a text without interpolations. -/
def textParts (text : List Char) : List (Part Node) :=
  if text = [] then [] else [.text (String.ofList text)]

/-- A tree evaluates to a value in every context, given some fuel. -/
def Node.Denotes (fuel : Nat) (node : Node) (value : Value) : Prop :=
  ∀ settings context enough, fuel ≤ enough → Eval.evaluate settings enough context node = pure value

namespace Node.Denotes

theorem mono {fuel more : Nat} {node : Node} {value : Value} (denotes : node.Denotes fuel value)
    (less : fuel ≤ more) : node.Denotes more value :=
  fun settings context enough bound => denotes settings context enough (less.trans bound)

/-- A tree is evaluated in one step over its parts. -/
theorem step {fuel : Nat} {node : Node} {value : Value}
    (stepped : ∀ settings context enough, fuel ≤ enough →
      Eval.evaluateStep settings (Eval.evaluate settings enough) enough
        (Eval.apply settings enough) context node = pure value) :
    node.Denotes (fuel + 1) value := by
  intro settings context enough bound
  obtain ⟨enough, rfl⟩ := Nat.exists_eq_add_of_le' (Nat.le_trans (Nat.le_add_left 1 fuel) bound)
  exact stepped settings context enough (Nat.le_of_succ_le_succ bound)

theorem boolean (value : Bool) (location : Location) :
    (Node.boolean value location).Denotes 1 (.bool value) :=
  step fun _ _ _ _ => rfl

theorem integer (value : Int) (location : Location) :
    (Node.integer value location).Denotes 1 (.int value) :=
  step fun _ _ _ _ => rfl

theorem unit (location : Location) : (Node.unit location).Denotes 1 .unit :=
  step fun _ _ _ _ => rfl

theorem negative (value : Int) (location location' : Location) :
    (Node.unary .negate (.integer value location') location).Denotes 2 (.int (-value)) := by
  refine step fun settings context enough bound => ?_
  rw [Eval.evaluateStep, integer value location' settings context enough bound, pure_bind]
  rfl

theorem text (chars : List Char) (location : Location) :
    (Node.template (textParts chars) location).Denotes 1 (.string (String.ofList chars)) := by
  refine step fun settings context enough bound => ?_
  cases chars with
  | nil => rfl
  | cons c rest =>
      have parts : Eval.evaluateParts (Eval.evaluate settings enough) context
          (textParts (c :: rest)) = pure (String.ofList (c :: rest)) := by
        simp [textParts, Eval.evaluateParts]
      rw [Eval.evaluateStep, parts, pure_bind]

theorem all {fuel : Nat} {nodes : List Node} {values : List Value}
    (each : List.Forall₂ (Node.Denotes fuel) nodes values) (settings : Settings) (context : Context)
    {enough : Nat} (bound : fuel ≤ enough) :
    Eval.evaluateAll (Eval.evaluate settings enough) context nodes = pure values := by
  induction each with
  | nil => rfl
  | cons first _ ih =>
      rw [Eval.evaluateAll, first settings context enough bound, pure_bind, ih, pure_bind]

theorem list {fuel : Nat} {nodes : List Node} {values : List Value}
    (each : List.Forall₂ (Node.Denotes fuel) nodes values) (location : Location) :
    (Node.list nodes location).Denotes (fuel + 1) (.list values) := by
  refine step fun settings context enough bound => ?_
  rw [Eval.evaluateStep, all each settings context bound, pure_bind]

theorem tuple {fuel : Nat} {nodes : List Node} {values : List Value}
    (each : List.Forall₂ (Node.Denotes fuel) nodes values) (location : Location) :
    (Node.tuple nodes location).Denotes (fuel + 1) (.tuple values) := by
  refine step fun settings context enough bound => ?_
  rw [Eval.evaluateStep, all each settings context bound, pure_bind]

end Node.Denotes

/-! ## From texts to values -/

theorem Tree.parseParts_textSegments (interpolate : List Token → Except Defect Node)
    (text : List Char) :
    parseParts interpolate (Token.textSegments text) = .ok (textParts text) := by
  cases text with
  | nil => rfl
  | cons c rest => rfl

/-- A text is read as a value wherever it stands. -/
def Value.ShownAs (value : Value) (chars : List Char) : Prop :=
  ∀ location, ∃ tokens node, Scans EndsElement location chars tokens ∧ ReadsDatum tokens node ∧
    node.Denotes chars.length value

/-- Texts with commas between them are read as values wherever they stand. -/
def Value.AllShownAs (values : List Value) (chars : List Char) : Prop :=
  ∀ location, ∃ tokens nodes, Scans EndsElement location chars tokens ∧ ReadsData tokens nodes ∧
    List.Forall₂ (Node.Denotes chars.length) nodes values

namespace Value

theorem shownAs_bool (value : Bool) :
    (Value.bool value).ShownAs (if value then "true" else "false").toList := by
  intro location
  refine ⟨_, _, Token.scans_boolean value location, .boolean value location, ?_⟩
  exact (Node.Denotes.boolean value location).mono (by cases value <;> decide)

theorem shownAs_natural {n : Nat} (short : n < 10 ^ Overflow.digitLimit) :
    (Value.int n).ShownAs (Nat.toDigits 10 n) := by
  intro location
  refine ⟨_, _, Token.scans_natural short location, .integer n location, ?_⟩
  exact (Node.Denotes.integer n location).mono (List.length_pos_iff.mpr Nat.toDigits_ne_nil)

theorem shownAs_negative {n : Nat} (short : n < 10 ^ Overflow.digitLimit) :
    (Value.int (-n)).ShownAs ('-' :: Nat.toDigits 10 n) := by
  intro location
  -- The sign is followed by a digit, whatever comes after the number.
  have first (rest : List Char) : ∃ d more, Nat.toDigits 10 n ++ rest = d :: more ∧ d.isDigit := by
    obtain ⟨d, others, split⟩ := List.exists_cons_of_ne_nil (@Nat.toDigits_ne_nil n 10)
    refine ⟨d, others ++ rest, by rw [split, List.cons_append], ?_⟩
    exact Nat.isDigit_of_mem_toDigits (by decide) (by decide) (split ▸ List.mem_cons_self)
  refine ⟨_, _, (Token.scans_minus location).append (Token.scans_natural short _)
    fun rest _ => first rest, .negative n _ _, ?_⟩
  refine (Node.Denotes.negative n _ _).mono ?_
  exact Nat.succ_le_succ (List.length_pos_iff.mpr Nat.toDigits_ne_nil)

theorem intText_of_lt {value : Int} (short : value.natAbs < 10 ^ Overflow.digitLimit) :
    intText value = .ok (toString value) := by
  have tenTo (exponent : Nat) : Number.tenTo exponent = 10 ^ exponent := rfl
  rw [intText, tenTo, if_neg (Nat.not_le.mpr short)]

theorem shownAs_int {value : Int} (short : value.natAbs < 10 ^ Overflow.digitLimit) :
    (Value.int value).ShownAs (toString value).toList := by
  cases value with
  | ofNat n =>
      have chars : (toString (Int.ofNat n)).toList = Nat.toDigits 10 n := String.toList_ofList
      rw [chars]
      exact shownAs_natural short
  | negSucc n =>
      have chars : (toString (Int.negSucc n)).toList = '-' :: Nat.toDigits 10 (n + 1) := by
        change ("-" ++ String.ofList (Nat.toDigits 10 (n + 1))).toList = _
        simp
      rw [chars]
      exact shownAs_negative short

theorem shownAs_string (text : String) : (Value.string text).ShownAs (quotedText text).toList := by
  intro location
  refine ⟨_, _, (Token.scans_quoted text location).mono fun _ _ => trivial,
    .text (fun interpolate => Tree.parseParts_textSegments interpolate text.toList) location, ?_⟩
  have denotes := Node.Denotes.text text.toList location
  rw [String.ofList_toList] at denotes
  exact denotes.mono (by simp [quotedText])

theorem shownAs_unit : Value.unit.ShownAs "()".toList := by
  intro location
  obtain ⟨opening, closing, opens, closes, scans⟩ := Scans.bracketed ('(', .leftParen)
    (')', .rightParen) (by decide) (by decide) (by simp [EndsElement]) (.nil (location.advance '('))
  refine ⟨_, _, scans.mono fun _ _ => trivial, .unit opens closes, ?_⟩
  exact (Node.Denotes.unit opening.location).mono (by decide)

/-! ## Elements -/

theorem AllShownAs.single {value : Value} {chars : List Char} (shown : value.ShownAs chars) :
    AllShownAs [value] chars := by
  intro location
  obtain ⟨tokens, node, scans, datum, denotes⟩ := shown location
  exact ⟨tokens, [node], scans, .single datum, .cons denotes .nil⟩

theorem AllShownAs.cons {value : Value} {values : List Value} {chars chars' : List Char}
    (shown : value.ShownAs chars) (later : AllShownAs values chars') :
    AllShownAs (value :: values) (chars ++ ([',', ' '] ++ chars')) := by
  intro location
  obtain ⟨tokens, node, scans, datum, denotes⟩ := shown location
  obtain ⟨tokens', nodes, scans', data, denote⟩ :=
    later ((location.advanceAll chars).advanceAll [',', ' '])
  obtain ⟨comma, isComma, separated⟩ := scans.separated scans'
  refine ⟨_, _, separated, .cons datum isComma data, .cons (denotes.mono ?_) (denote.imp ?_)⟩
  · simp
  · intro node value denotes
    exact denotes.mono (by simp; omega)

theorem allShownAs_intercalate {value : Value} {values : List Value} {text : String}
    {texts : List String} (shown : value.ShownAs text.toList)
    (each : List.Forall₂ (fun value text => ShownAs value text.toList) values texts) :
    AllShownAs (value :: values) (String.intercalate ", " (text :: texts)).toList := by
  rw [String.toList_intercalate]
  induction each generalizing value text with
  | nil => simpa using AllShownAs.single shown
  | cons first _ ih =>
      rw [List.map_cons, List.map_cons, List.intercalate_cons_cons, List.append_assoc]
      exact .cons shown (ih first)

theorem shownAs_list {items : List Value} {texts : List String}
    (each : List.Forall₂ (fun value text => ShownAs value text.toList) items texts) :
    (Value.list items).ShownAs ("[" ++ String.intercalate ", " texts ++ "]").toList := by
  intro location
  have chars : ("[" ++ String.intercalate ", " texts ++ "]").toList =
      '[' :: ((String.intercalate ", " texts).toList ++ [']']) := by simp
  have bracketed {chars : List Char} {tokens : List Token} :=
    @Scans.bracketed ('[', .leftBracket) (']', .rightBracket) (by decide) (by decide)
      (by simp [EndsElement]) location chars tokens
  rw [chars]
  cases each with
  | nil =>
      obtain ⟨opening, closing, opens, closes, scans⟩ := bracketed (.nil _)
      refine ⟨_, _, scans.mono fun _ _ => trivial, .emptyList opens closes, ?_⟩
      have denote : List.Forall₂ (Node.Denotes 0) [] [] := .nil
      exact (Node.Denotes.list denote opening.location).mono (by decide)
  | cons first others =>
      obtain ⟨tokens, nodes, inner, data, denote⟩ :=
        allShownAs_intercalate first others (location.advance '[')
      obtain ⟨opening, closing, opens, closes, scans⟩ := bracketed inner
      refine ⟨_, _, scans.mono fun _ _ => trivial, .list opens closes data.data data.elements, ?_⟩
      exact (Node.Denotes.list denote opening.location).mono (by simp)

theorem shownAs_tuple {items : List Value} {texts : List String} (several : 2 ≤ items.length)
    (each : List.Forall₂ (fun value text => ShownAs value text.toList) items texts) :
    (Value.tuple items).ShownAs ("(" ++ String.intercalate ", " texts ++ ")").toList := by
  intro location
  have chars : ("(" ++ String.intercalate ", " texts ++ ")").toList =
      '(' :: ((String.intercalate ", " texts).toList ++ [')']) := by simp
  rw [chars]
  cases each with
  | nil => cases several
  | cons first others =>
      obtain ⟨tokens, nodes, inner, data, denote⟩ :=
        allShownAs_intercalate first others (location.advance '(')
      obtain ⟨opening, closing, opens, closes, scans⟩ := Scans.bracketed ('(', .leftParen)
        (')', .rightParen) (by decide) (by decide) (by simp [EndsElement]) inner
      refine ⟨_, .tuple nodes opening.location, scans.mono fun _ _ => trivial, ?_, ?_⟩
      · cases data with
        | single =>
            -- One element alone would be read as an expression in parentheses.
            obtain _ | ⟨_, _ | _⟩ := denote
            exact absurd several (by simp)
        | cons datum isComma data => exact .tuple opens closes datum isComma data
      · exact (Node.Denotes.tuple denote opening.location).mono (by simp)

/-! ## Runs -/

theorem exists_nestedTexts {items : List Value}
    (each : ∀ item ∈ items, ∃ text, item.nestedText = .ok text ∧ item.ShownAs text.toList) :
    ∃ texts, nestedTexts items = .ok texts ∧
      List.Forall₂ (fun value text => ShownAs value text.toList) items texts := by
  induction items with
  | nil => exact ⟨[], rfl, .nil⟩
  | cons item rest ih =>
      rw [List.forall_mem_cons] at each
      obtain ⟨⟨text, found, shown⟩, others⟩ := each
      obtain ⟨texts, founds, showns⟩ := ih others
      exact ⟨text :: texts, by rw [nestedTexts, found, founds]; rfl, .cons shown showns⟩

/-- Data has a text, which is read as the value it shows. -/
theorem IsData.shownAs {value : Value} (data : value.IsData) :
    ∃ text, value.nestedText = .ok text ∧ value.ShownAs text.toList := by
  induction data with
  | bool value => exact ⟨_, rfl, shownAs_bool value⟩
  | int short => exact ⟨_, intText_of_lt short, shownAs_int short⟩
  | string text => exact ⟨_, rfl, shownAs_string text⟩
  | unit => exact ⟨_, rfl, shownAs_unit⟩
  | list _ ih =>
      obtain ⟨texts, found, shown⟩ := exists_nestedTexts ih
      exact ⟨_, by rw [nestedText, found]; rfl, shownAs_list shown⟩
  | tuple several _ ih =>
      obtain ⟨texts, found, shown⟩ := exists_nestedTexts ih
      exact ⟨_, by rw [nestedText, found]; rfl, shownAs_tuple several shown⟩

end Value

theorem Tree.isDatum_layout {kind : Token.Kind} (datum : Tree.isDatum kind) :
    Layout.isPlain kind ∧ Layout.opensBlock kind = false := by
  cases kind <;> simp_all [Tree.isDatum, Layout.isPlain, Layout.opensBlock]

/-- The program of a text that is read as a value. -/
theorem Value.ShownAs.program {value : Value} {text : String} (shown : value.ShownAs text.toList)
    (file : Option String) :
    ∃ node location, Source.program text file = .ok ⟨[node], location⟩ ∧
      node.Denotes text.length value := by
  obtain ⟨tokens, node, scans, datum, denotes⟩ := shown (Location.start file)
  obtain ⟨last, isEnd, scanned⟩ : ∃ last, Token.kind last = .endOfFile ∧
      Token.scan text file = .ok (tokens ++ [last]) :=
    ⟨_, rfl, scans.whole (by simp [EndsElement])⟩
  have layout (token : Token) (member : token ∈ tokens) :=
    Tree.isDatum_layout (datum.data token member)
  have normalized := Layout.normalize_line (fun token member => (layout token member).1) isEnd
    fun token final => (layout token (List.mem_of_getLast? final)).2
  obtain ⟨location, parsed⟩ := datum.parse isEnd
  refine ⟨node, location, ?_, denotes⟩
  rw [Source.program_eq scanned, Source.programOf, normalized]
  exact congrArg (Except.mapError Rejection.defect) parsed

theorem Eval.tick_of_allowed {settings : Settings} {world : World}
    (allowed : ∀ limit, settings.maxSteps = some limit → world.steps + 1 ≤ limit)
    (location : Location) :
    Eval.tick settings location world = .ok () { world with steps := world.steps + 1 } := by
  rw [Eval.tick_eq]
  cases limited : settings.maxSteps with
  | none => rfl
  | some limit => exact if_neg (Int.not_lt.mpr (allowed limit limited))

/-- A program of one statement that denotes a value, within the limit of steps. -/
theorem Node.Denotes.run {fuel : Nat} {node : Node} {value : Value}
    (denotes : node.Denotes fuel value) {settings : Settings}
    (allowed : ∀ limit, settings.maxSteps = some limit → 1 ≤ limit)
    (reserved : settings.reserve = .ok ()) (location : Location) {enough : Nat}
    (bound : fuel ≤ enough) :
    (Interpreter.new settings).run ⟨[node], location⟩ enough =
      (.ok value, ⟨settings, ⟨Interpreter.initialScopes, 1, "", 0, []⟩, 1⟩) := by
  have ticked : Eval.tick settings node.location (Interpreter.new settings).start = .ok () _ :=
    Eval.tick_of_allowed allowed node.location
  have executed : (Interpreter.new settings).executed ⟨[node], location⟩ enough =
      .ok value ⟨Interpreter.initialScopes, 1, "", 0, []⟩ := by
    change (Eval.tick settings node.location >>= fun _ =>
      Eval.evaluate settings enough ⟨1, .top⟩ node >>= fun value => pure value) _ = _
    rw [Eval.bind_of_ok ticked, denotes settings _ enough bound]
    rfl
  rw [Interpreter.run_eq, Interpreter.ending_of_reserve reserved, executed]
  rfl

/-- Data is shown as a text that runs to the same value and writes nothing, if it is run at all. One
step is enough, and so is fuel up to the length of the text. -/
theorem runSource_nestedText {value : Value} (data : value.IsData) :
    ∃ text, value.nestedText = .ok text ∧ ∀ settings file fuel,
      (∀ limit, settings.maxSteps = some limit → 1 ≤ limit) → text.length ≤ fuel →
        (settings.reserve = .ok () → runSource settings text file fuel = (.ok value, "")) ∧
        ∀ refused, settings.reserve = .error refused →
          runSource settings text file fuel = (.error (.overflow refused), "") := by
  obtain ⟨text, found, shown⟩ := data.shownAs
  refine ⟨text, found, fun settings file fuel allowed bound => ?_⟩
  obtain ⟨node, location, program, denotes⟩ := shown.program file
  constructor
  · intro reserved
    simp only [runSource, program, denotes.run allowed reserved location bound]
    rfl
  · intro refused reserved
    have ending : (Interpreter.new settings).ending ⟨[node], location⟩ fuel =
        .error (.overflow refused) _ := Interpreter.ending_of_refused reserved _ fuel
    simp only [runSource, program, Interpreter.run_eq, ending]
    rfl

/-- A tuple of a negative number, a list with a text that is escaped, and a tuple of units. -/
def nestedTuple : Value :=
  .tuple [.int (-5), .list [.string "a\\\"\n", .unit], .tuple [.unit, .unit]]

theorem isData_nestedTuple : nestedTuple.IsData := by
  have short : (-5 : Int).natAbs < 10 ^ Overflow.digitLimit :=
    Nat.lt_of_lt_of_le (by decide) (Nat.pow_le_pow_right (by decide) (show 1 ≤ 4300 by decide))
  have list : (Value.list [.string "a\\\"\n", .unit]).IsData :=
    .list (by simp [Value.IsData.string, Value.IsData.unit])
  have units : (Value.tuple [.unit, .unit]).IsData :=
    .tuple (by decide) (by simp [Value.IsData.unit])
  exact .tuple (by decide) (by simp [Value.IsData.int short, list, units])

theorem runSource_nestedText_nestedTuple :
    ∃ text, text = "(-5, [\"a\\\\\\\"\\n\", ()], ((), ()))" ∧ nestedTuple.nestedText = .ok text ∧
      runSource Settings.default text none Interpreter.ampleFuel = (.ok nestedTuple, "") := by
  obtain ⟨text, shown, runs⟩ := runSource_nestedText isData_nestedTuple
  have same : nestedTuple.nestedText.toOption = some "(-5, [\"a\\\\\\\"\\n\", ()], ((), ()))" := by
    decide +kernel
  rw [shown] at same
  obtain rfl := Option.some.inj same
  exact ⟨_, rfl, shown,
    (runs Settings.default none Interpreter.ampleFuel nofun (by decide)).1 rfl⟩

end Offside
