import Offside.Proofs.Evaluation.Transport
import Offside.Proofs.Scope

/-!
# Destructuring that fails

A pattern is bound from left to right, and the shape of a value is compared where a tuple pattern is
reached. So if a value does not have the shape of a pattern, the names to the left of the first part
that does not fit are bound already, and they stay bound. Nothing else changes.
-/

namespace Offside

/-! ## Patterns and values -/

namespace Pattern

mutual

/-- A value has the shape of a pattern, the names of which go with these parts of the value, from
left to right. -/
inductive Matches : Pattern → Value → List (String × Value) → Prop where
  | name (name : String) (location : Location) (value : Value) :
      Matches (.name name location) value [(name, value)]
  | tuple (location : Location) {elements : List Pattern} {items : List Value}
      {parts : List (String × Value)} : MatchesAll elements items parts →
      Matches (.tuple elements location) (.tuple items) parts

/-- Values have the shapes of as many patterns. -/
inductive MatchesAll : List Pattern → List Value → List (String × Value) → Prop where
  | nil : MatchesAll [] [] []
  | cons {pattern : Pattern} {value : Value} {parts : List (String × Value)}
      {patterns : List Pattern} {values : List Value} {parts' : List (String × Value)} :
      Matches pattern value parts → MatchesAll patterns values parts' →
      MatchesAll (pattern :: patterns) (value :: values) (parts ++ parts')

end

mutual

/-- A value does not have the shape of a pattern. The names to the left of the first part that does
not fit go with these parts of the value. -/
inductive Misses : Pattern → Value → List (String × Value) → Prop where
  /-- The value is no tuple of as many elements. -/
  | shape (location : Location) {elements : List Pattern} {value : Value} :
      (∀ items, value = .tuple items → items.length ≠ elements.length) →
      Misses (.tuple elements location) value []
  | tuple (location : Location) {elements : List Pattern} {items : List Value}
      {parts : List (String × Value)} : MissesAll elements items parts →
      Misses (.tuple elements location) (.tuple items) parts

/-- Some value does not have the shape of its pattern, and those to the left of it do. -/
inductive MissesAll : List Pattern → List Value → List (String × Value) → Prop where
  | here {pattern : Pattern} {value : Value} {parts : List (String × Value)}
      {patterns : List Pattern} {values : List Value} :
      Misses pattern value parts → values.length = patterns.length →
      MissesAll (pattern :: patterns) (value :: values) parts
  | later {pattern : Pattern} {value : Value} {parts : List (String × Value)}
      {patterns : List Pattern} {values : List Value} {parts' : List (String × Value)} :
      Matches pattern value parts → MissesAll patterns values parts' →
      MissesAll (pattern :: patterns) (value :: values) (parts ++ parts')

end

theorem MatchesAll.length_eq {patterns : List Pattern} {values : List Value}
    {parts : List (String × Value)} (found : MatchesAll patterns values parts) :
    values.length = patterns.length := by
  induction values generalizing patterns parts with
  | nil =>
      cases found
      rfl
  | cons value values ih =>
      cases found with
      | cons first rest => rw [List.length_cons, List.length_cons, ih rest]

theorem MissesAll.length_eq {patterns : List Pattern} {values : List Value}
    {parts : List (String × Value)} (found : MissesAll patterns values parts) :
    values.length = patterns.length := by
  induction values generalizing patterns parts with
  | nil => cases found
  | cons value values ih =>
      cases found with
      | here first length => rw [List.length_cons, List.length_cons, length]
      | later first rest => rw [List.length_cons, List.length_cons, ih rest]

mutual

/-- All names of a pattern go with parts of a value that has its shape. -/
theorem Matches.names_eq {pattern : Pattern} {value : Value} {parts : List (String × Value)}
    (found : pattern.Matches value parts) : parts.map (·.1) = pattern.names.map (·.1) := by
  cases found with
  | name => rfl
  | tuple location each => rw [each.names_eq, names]

theorem MatchesAll.names_eq {patterns : List Pattern} {values : List Value}
    {parts : List (String × Value)} (found : MatchesAll patterns values parts) :
    parts.map (·.1) = (namesOfAll patterns).map (·.1) := by
  cases found with
  | nil => rfl
  | cons first rest =>
      rw [List.map_append, first.names_eq, rest.names_eq, namesOfAll, List.map_append]

end

mutual

/-- The names to the left are the first names of the pattern. -/
theorem Misses.names_prefix {pattern : Pattern} {value : Value} {parts : List (String × Value)}
    (found : pattern.Misses value parts) : parts.map (·.1) <+: pattern.names.map (·.1) := by
  cases found with
  | shape => exact List.nil_prefix
  | tuple location some => exact some.names_prefix

theorem MissesAll.names_prefix {patterns : List Pattern} {values : List Value}
    {parts : List (String × Value)} (found : MissesAll patterns values parts) :
    parts.map (·.1) <+: (namesOfAll patterns).map (·.1) := by
  cases found with
  | here first =>
      rw [namesOfAll, List.map_append]
      exact first.names_prefix.trans (List.prefix_append _ _)
  | later first rest =>
      rw [namesOfAll, List.map_append, List.map_append, first.names_eq,
        List.prefix_append_right_inj]
      exact rest.names_prefix

end

end Pattern

/-! ## Names that are bound one after the other -/

namespace World

/-- What a scope binds a name to. -/
def bound? (world : World) (position : Nat) (name : String) : Option Value :=
  (world.scopes.get? position).bind (·.get? name)

/-- The world in which a name is bound as a part of a pattern. -/
def bind (rebind : Bool) (scope : Nat) (world : World) (part : String × Value) : World :=
  let target :=
    match if rebind then world.scopes.find? part.1 scope else none with
    | some owner => if owner = Eval.builtinScope then scope else owner
    | none => scope
  { world with scopes := world.scopes.define target part.1 part.2 }

/-- The world in which names are bound in order. -/
def bindAll (rebind : Bool) (scope : Nat) (parts : List (String × Value)) (world : World) : World :=
  parts.foldl (bind rebind scope) world

theorem bindAll_append (rebind : Bool) (scope : Nat) (first second : List (String × Value))
    (world : World) : world.bindAll rebind scope (first ++ second) =
      (world.bindAll rebind scope first).bindAll rebind scope second :=
  List.foldl_append

theorem bound?_define (world : World) (target position : Nat) {name other : String} (value : Value)
    (ne : other ≠ name) :
    bound? { world with scopes := world.scopes.define target name value } position other =
      world.bound? position other := by
  unfold bound?
  by_cases same : target = position
  · subst same
    cases found : world.scopes.get? target with
    | none => rw [Scopes.get?_define_of_none found]
    | some scope => simp [Scopes.get?_define_self found, ne]
  · rw [Scopes.get?_define_of_ne same]

/-- Other names stay bound to what they were bound to, in every scope. -/
theorem bound?_bindAll (rebind : Bool) (scope position : Nat) {parts : List (String × Value)}
    (world : World) {name : String} (other : name ∉ parts.map (·.1)) :
    (world.bindAll rebind scope parts).bound? position name = world.bound? position name := by
  induction parts generalizing world with
  | nil => rfl
  | cons part rest ih =>
      rw [List.map_cons, List.mem_cons, not_or] at other
      exact (ih (world.bind rebind scope part) other.2).trans
        (world.bound?_define _ position part.2 other.1)

end World

namespace Eval

theorem bindName_eq_bind (rebind : Bool) (scope : Nat) (name : String) (value : Value)
    (world : World) :
    bindName rebind scope name value world = .ok () (world.bind rebind scope (name, value)) := by
  rw [bindName_eq]
  rfl

end Eval

namespace Pattern

open Eval

mutual

/-- A value of the right shape has all its parts bound. -/
theorem Matches.bindPattern_eq {pattern : Pattern} {value : Value} {parts : List (String × Value)}
    (found : pattern.Matches value parts) (rebind : Bool) (scope : Nat) (world : World) :
    bindPattern rebind scope pattern value world = .ok () (world.bindAll rebind scope parts) := by
  cases found with
  | name name location =>
      rw [bindPattern, bindName_eq_bind]
      rfl
  | tuple location all =>
      rw [bindPattern, if_pos all.length_eq]
      exact all.bindPatterns_eq rebind scope world

theorem MatchesAll.bindPatterns_eq {patterns : List Pattern} {values : List Value}
    {parts : List (String × Value)} (found : MatchesAll patterns values parts) (rebind : Bool)
    (scope : Nat) (world : World) : bindPatterns rebind scope patterns values world =
      .ok () (world.bindAll rebind scope parts) := by
  cases found with
  | nil => rfl
  | cons first rest =>
      rw [bindPatterns, bind_of_ok (first.bindPattern_eq rebind scope world),
        rest.bindPatterns_eq rebind scope, World.bindAll_append]

end

mutual

/-- A value of another shape has the parts to the left bound before the mismatch is found. -/
theorem Misses.bindPattern_eq {pattern : Pattern} {value : Value} {parts : List (String × Value)}
    (found : pattern.Misses value parts) (rebind : Bool) (scope : Nat) (world : World) :
    ∃ message location, bindPattern rebind scope pattern value world =
      .error (.fault (.atLocation .patternMismatch message location))
        (world.bindAll rebind scope parts) := by
  cases found with
  | shape location other =>
      cases value with
      | tuple items =>
          rw [bindPattern, if_neg (other items rfl)]
          exact ⟨_, _, rfl⟩
      | _ => exact ⟨_, _, rfl⟩
  | tuple location some =>
      rw [bindPattern, if_pos some.length_eq]
      exact some.bindPatterns_eq rebind scope world

theorem MissesAll.bindPatterns_eq {patterns : List Pattern} {values : List Value}
    {parts : List (String × Value)} (found : MissesAll patterns values parts) (rebind : Bool)
    (scope : Nat) (world : World) : ∃ message location,
      bindPatterns rebind scope patterns values world =
        .error (.fault (.atLocation .patternMismatch message location))
          (world.bindAll rebind scope parts) := by
  cases found with
  | here first =>
      obtain ⟨message, location, failed⟩ := first.bindPattern_eq rebind scope world
      exact ⟨message, location, bind_of_error failed⟩
  | later first rest =>
      rw [bindPatterns, bind_of_ok (first.bindPattern_eq rebind scope world),
        World.bindAll_append]
      exact rest.bindPatterns_eq rebind scope _

end

theorem matchesAll_or_missesAll {patterns : List Pattern}
    (each : ∀ pattern ∈ patterns, ∀ value, ∃ parts,
      pattern.Matches value parts ∨ pattern.Misses value parts)
    {values : List Value} (length : values.length = patterns.length) :
    ∃ parts, MatchesAll patterns values parts ∨ MissesAll patterns values parts := by
  induction patterns generalizing values with
  | nil =>
      obtain rfl := List.eq_nil_of_length_eq_zero length
      exact ⟨[], .inl .nil⟩
  | cons pattern patterns ih =>
      obtain ⟨value, values, rfl⟩ := List.exists_cons_of_length_eq_add_one length
      have length := Nat.succ.inj length
      rw [List.forall_mem_cons] at each
      obtain ⟨parts, matching | missing⟩ := each.1 value
      · obtain ⟨others, rest | rest⟩ := ih each.2 length
        · exact ⟨parts ++ others, .inl (.cons matching rest)⟩
        · exact ⟨parts ++ others, .inr (.later matching rest)⟩
      · exact ⟨parts, .inr (.here missing length)⟩

/-- Every value has the shape of a pattern or does not. -/
theorem matches_or_misses (pattern : Pattern) (value : Value) :
    ∃ parts, pattern.Matches value parts ∨ pattern.Misses value parts := by
  induction pattern using Pattern.induction generalizing value with
  | name name location => exact ⟨_, .inl (.name name location value)⟩
  | tuple elements location ih =>
      -- The number of elements is compared before any of them is bound.
      by_cases fits : ∃ items, value = .tuple items ∧ items.length = elements.length
      · obtain ⟨items, rfl, length⟩ := fits
        obtain ⟨parts, all | some⟩ := matchesAll_or_missesAll ih length
        · exact ⟨parts, .inl (.tuple location all)⟩
        · exact ⟨parts, .inr (.tuple location some)⟩
      · exact ⟨[], .inr (.shape location fun items equal length => fits ⟨items, equal, length⟩)⟩

end Pattern

/-! ## Bindings of a session -/

namespace Eval

theorem runStatements_append (settings : Settings) (evaluate : Context → Node → Eval Value)
    (context : Context) (first second : List Node) (last : Value) :
    runStatements settings evaluate context (first ++ second) last = (do
      let value ← runStatements settings evaluate context first last
      runStatements settings evaluate context second value) := by
  induction first generalizing last with
  | nil => exact (pure_bind last _).symm
  | cons statement rest ih =>
      simp only [List.cons_append, runStatements, ih, bind_assoc]

/-- Only a function that a name is bound to gets a name. -/
theorem named_of_misses {pattern : Pattern} {value : Value} {parts : List (String × Value)}
    (found : pattern.Misses value parts) (world : World) :
    named pattern value world = .ok value world := by
  cases found with
  | shape => rfl
  | tuple => rfl

end Eval

namespace Interpreter

/-- What is evaluated before a binding at the top level, and then the value that it is to bind. -/
def upToValue (interpreter : Interpreter) (before : List Node) (expression : Node)
    (location : Location) (fuel : Nat) : Eval Value := do
  let settings := interpreter.settings
  let context : Context := ⟨interpreter.globals, .top⟩
  Eval.ofNumbers settings.reserve
  let _ ← Eval.runStatements settings (Eval.evaluate settings (fuel + 1)) context before .unit
  Eval.tick settings location
  Eval.evaluate settings fuel context expression

theorem evaluation_binding (interpreter : Interpreter) (before rest : List Node)
    (pattern : Pattern) (expression : Node) (declares : Bool) (location place : Location)
    (fuel : Nat) : interpreter.evaluation
      ⟨before ++ .binding pattern expression declares location :: rest, place⟩ (fuel + 1) = (do
        let value ← interpreter.upToValue before expression location fuel
        let value ← Eval.named pattern value
        Eval.bindPattern (!declares && interpreter.settings.rebindOnAssign) interpreter.globals
          pattern value
        Eval.runStatements interpreter.settings (Eval.evaluate interpreter.settings (fuel + 1))
          ⟨interpreter.globals, .top⟩ rest .unit) := by
  simp only [evaluation, execution, Eval.runBlock, Eval.runStatements_append, Eval.runStatements,
    upToValue, Node.location, Eval.evaluate, Eval.evaluateStep, bind_assoc, pure_bind]

/-- A program stops where a binding fails. -/
theorem run_of_misses {interpreter : Interpreter} {before : List Node} {expression : Node}
    {location : Location} {fuel : Nat} {value : Value} {world later : World} {stop : Stop}
    {pattern : Pattern} {parts : List (String × Value)} {declares : Bool}
    (evaluated : interpreter.upToValue before expression location fuel interpreter.start =
      .ok value world)
    (found : pattern.Misses value parts)
    (failed : Eval.bindPattern (!declares && interpreter.settings.rebindOnAssign)
      interpreter.globals pattern value world = .error stop later)
    (rest : List Node) (place : Location) :
    interpreter.run ⟨before ++ .binding pattern expression declares location :: rest, place⟩
      (fuel + 1) = (.error stop, { interpreter with world := later }) := by
  rw [run_eq, ending, evaluation_binding, Eval.bind_of_ok evaluated,
    Eval.bind_of_ok (Eval.named_of_misses found world), Eval.bind_of_error failed]
  rfl

end Interpreter

namespace Eval

/-- If a destructuring fails then the names to the left of the first part that does not fit, and no
other names, are bound to their parts in order. So is the session left by a program that a binding
at the top level stops. -/
theorem bindPattern_mismatch (rebind : Bool) (scope : Nat) (pattern : Pattern) (value : Value)
    (world : World) {stop : Stop} {later : World}
    (failed : bindPattern rebind scope pattern value world = .error stop later) :
    ∃ parts, pattern.Misses value parts ∧
      (∃ message location, stop = .fault (.atLocation .patternMismatch message location)) ∧
      later = world.bindAll rebind scope parts ∧
      parts.map (·.1) <+: pattern.names.map (·.1) ∧
      (∀ position name, name ∉ parts.map (·.1) →
        later.bound? position name = world.bound? position name) ∧
      ∀ (interpreter : Interpreter) (before : List Node) (expression : Node) (declares : Bool)
        (location : Location) (fuel : Nat), interpreter.globals = scope →
        (!declares && interpreter.settings.rebindOnAssign) = rebind →
        interpreter.upToValue before expression location fuel interpreter.start = .ok value world →
        ∀ rest place,
          interpreter.run ⟨before ++ .binding pattern expression declares location :: rest, place⟩
            (fuel + 1) = (.error stop, { interpreter with world := later }) := by
  obtain ⟨parts, matching | missing⟩ := pattern.matches_or_misses value
  · rw [matching.bindPattern_eq rebind scope world] at failed
    cases failed
  · obtain ⟨message, location, ended⟩ := missing.bindPattern_eq rebind scope world
    rw [ended] at failed
    cases failed
    refine ⟨parts, missing, ⟨message, location, rfl⟩, rfl, missing.names_prefix,
      fun position name other => world.bound?_bindAll rebind scope position other, ?_⟩
    rintro interpreter before expression declares place fuel rfl rfl evaluated rest around
    exact Interpreter.run_of_misses evaluated missing ended rest around

/-- Two elements, the second of which is to be a pair. -/
def nestedPattern : Pattern :=
  let here := Location.start none
  .tuple [.name "a" here, .tuple [.name "b" here, .name "c" here] here] here

/-- The pair of 1 and 2. -/
def numberPair : Node :=
  let here := Location.start none
  .tuple [.integer 1 here, .integer 2 here] here

/-- A program that would bind the pattern to the pair. -/
def nestedProgram : Program :=
  let here := Location.start none
  ⟨[.binding nestedPattern numberPair true here], here⟩

theorem bindPattern_mismatch_nestedPattern :
    let world := { (Interpreter.new .default).world with steps := 1 }
    ∃ stop parts, nestedPattern.Misses (.tuple [.int 1, .int 2]) parts ∧
      bindPattern false 1 nestedPattern (.tuple [.int 1, .int 2]) world =
        .error stop (world.bindAll false 1 parts) ∧
      (Interpreter.new .default).run nestedProgram 3 =
        (.error stop, { Interpreter.new .default with world := world.bindAll false 1 parts }) := by
  intro world
  obtain ⟨parts, missing, -, equal, -, -, session⟩ := bindPattern_mismatch false 1 nestedPattern
    (.tuple [.int 1, .int 2]) world rfl
  have ran := session (.new .default) [] numberPair true (.start none) 2 rfl rfl rfl
    [] (.start none)
  exact ⟨_, parts, missing, equal ▸ rfl, equal ▸ ran⟩

/-- The first name of a destructuring that fails can stay bound. -/
theorem bound_by_mismatch :
    (∃ message location later, bindPattern false 1 nestedPattern (.tuple [.int 1, .int 2])
        (Interpreter.new .default).world =
          .error (.fault (.atLocation .patternMismatch message location)) later ∧
      (Interpreter.new .default).world.bound? 1 "a" = none ∧
      later.bound? 1 "a" = some (.int 1)) ∧
    ((Interpreter.new .default).run nestedProgram 3).2.bindings = [("a", .int 1)] :=
  ⟨⟨_, _, _, rfl, rfl, rfl⟩, rfl⟩

end Eval

end Offside
