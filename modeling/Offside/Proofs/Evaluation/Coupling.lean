import Offside.Evaluation
import Offside.Proofs.Tree.Shape
import Offside.Proofs.Value.Linked
import Mathlib.Order.Basic

/-!
# Evaluations side by side

Many properties of evaluation compare two evaluations of the same program, under other settings,
with another amount of fuel or in another world, and others speak of the worlds and values of one
evaluation alone. They all follow the same pattern: what the primitive operations on the world do is
related, and relations carry over from operations to whole evaluations. A coupling says what is
related, and a regime has laws for the primitive operations. From the laws alone it follows that the
parts of an evaluation are related.
-/

namespace Offside

/-- How an evaluation ends. -/
abbrev Ending (α : Type) := EStateM.Result Stop World α

/-- The world that an evaluation leaves. -/
def Ending.world {α : Type} : Ending α → World
  | .ok _ world => world
  | .error _ world => world

/-- The result of an evaluation, or why it stops. -/
def Ending.result {α : Type} : Ending α → Except Stop α
  | .ok value _ => .ok value
  | .error stop _ => .error stop

/-! ## Operations on the world -/

theorem Eval.bind_of_ok {α β : Type} {first : Eval α} {next : α → Eval β} {world later : World}
    {value : α} (ended : first world = .ok value later) :
    (first >>= next) world = next value later := by
  change EStateM.bind first next world = _
  rw [EStateM.bind, ended]

theorem Eval.bind_of_error {α β : Type} {first : Eval α} {next : α → Eval β} {world later : World}
    {stop : Stop} (ended : first world = .error stop later) :
    (first >>= next) world = .error stop later := by
  change EStateM.bind first next world = _
  rw [EStateM.bind, ended]

theorem Eval.tick_eq (settings : Settings) (location : Location) (world : World) :
    Eval.tick settings location world =
      match settings.maxSteps with
      | none => .ok () { world with steps := world.steps + 1 }
      | some limit =>
        if limit < ↑(world.steps + 1) then
          Eval.fail .limitExceeded ("step limit of " ++ toString limit ++ " exceeded") location
            { world with steps := world.steps + 1 }
        else .ok () { world with steps := world.steps + 1 } := by
  unfold Eval.tick
  cases settings.maxSteps with
  | none => rfl
  | some limit =>
      change (if limit < ↑(world.steps + 1) then _ else _ : Eval Unit) _ = _
      dsimp only
      split <;> rfl

theorem Eval.world_tick (settings : Settings) (location : Location) (world : World) :
    Ending.world (Eval.tick settings location world) = { world with steps := world.steps + 1 } := by
  rw [Eval.tick_eq]
  split
  · rfl
  · split <;> rfl

theorem Eval.note_eq (call : Call) (world : World) :
    Eval.note call world = .ok () { world with calls := call :: world.calls } := rfl

theorem Eval.bindName_eq (rebind : Bool) (scope : Nat) (name : String) (value : Value)
    (world : World) :
    Eval.bindName rebind scope name value world =
      Eval.define
        (match if rebind then world.scopes.find? name scope else none with
        | some owner => if owner = Eval.builtinScope then scope else owner
        | none => scope) name value world := by
  change (match if rebind then world.scopes.find? name scope else none with
    | some owner => Eval.define (if owner = Eval.builtinScope then scope else owner) name value
    | none => Eval.define scope name value) world = _
  generalize (if rebind then world.scopes.find? name scope else none) = found
  cases found <;> rfl

theorem Eval.assign_eq (scope : Nat) (name : String) (value : Value) (location : Location)
    (world : World) :
    Eval.assign scope name value location world =
      match world.scopes.find? name scope with
      | some owner => Eval.define owner name value world
      | none => .error (.fault (world.scopes.unbound name scope (some location))) world := by
  change (Eval.ofScopes (world.scopes.assign name value scope (some location)) >>= fun scopes =>
    modify fun world => { world with scopes := scopes }) world = _
  unfold Scopes.assign
  cases world.scopes.find? name scope <;> rfl

/-! ## Parts of nodes and their places -/

/-- Immediate parts of a node; those of a function or a loop are the statements of its body too. -/
def Node.parts : Node → List Node
  | .identifier _ _ | .integer _ _ | .float _ _ | .boolean _ _ | .unit _ => []
  | .template parts _ => parts.filterMap fun
    | .text _ => none
    | .expression node => some node
  | .list elements _ | .tuple elements _ => elements
  | .range low high _ => [low, high]
  | .binary _ left right _ => [left, right]
  | .unary _ operand _ => [operand]
  | .call callee arguments _ => callee :: arguments
  | .conditional condition thenBranch elseBranch _ => [condition, thenBranch, elseBranch]
  | .lambda _ body _ => body.statements
  | .binding _ value _ _ => [value]
  | .update _ _ value _ => [value]
  | .forLoop _ iterable body _ => iterable :: body.statements
  | .whileLoop condition body _ => condition :: body.statements
  | .block inner => inner.statements

/-- A property of a node and of all nodes in it, those in bodies of functions included. -/
inductive Node.All (P : Node → Prop) : Node → Prop
  | intro {node : Node} (here : P node) (parts : ∀ part ∈ node.parts, All P part) : All P node

/-- A property of all nodes in a block. -/
abbrev Block.All (P : Node → Prop) (block : Block Node) : Prop :=
  ∀ statement ∈ block.statements, statement.All P

/-- Immediate patterns of a node. -/
def Node.patterns : Node → List Pattern
  | .lambda parameters _ _ => parameters
  | .binding pattern _ _ _ | .forLoop pattern _ _ _ => [pattern]
  | _ => []

/-- The places of a pattern and of the patterns in it have a property. -/
inductive Pattern.Located (P : Location → Prop) : Pattern → Prop
  | name {bound : String} {location : Location} (here : P location) :
      Located P (.name bound location)
  | tuple {elements : List Pattern} {location : Location} (here : P location)
      (each : ∀ element ∈ elements, Located P element) : Located P (.tuple elements location)

/-- The places of a node and of its patterns have a property. -/
structure Node.Located (P : Location → Prop) (node : Node) : Prop where
  location : P node.location
  patterns : ∀ pattern ∈ node.patterns, pattern.Located P

theorem Pattern.located_anywhere (pattern : Pattern) : pattern.Located fun _ => True := by
  induction pattern using Pattern.induction with
  | name bound location => exact .name trivial
  | tuple elements location ih => exact .tuple trivial ih

theorem Node.located_anywhere (node : Node) : node.Located fun _ => True :=
  ⟨trivial, fun pattern _ => pattern.located_anywhere⟩

/-- The second value is the first one, or a text or list that begins with it. -/
inductive Value.Extended : Value → Value → Prop
  | same (value : Value) : Extended value value
  | text (text more : String) : Extended (.string text) (.string (text ++ more))
  | items (items more : List Value) : Extended (.list items) (.list (items ++ more))

theorem Value.Extended.trans {first second third : Value} (left : first.Extended second)
    (right : second.Extended third) : first.Extended third := by
  cases left with
  | same => exact right
  | text text more =>
      cases right with
      | same => exact .text text more
      | text _ more' =>
          rw [String.append_assoc]
          exact .text text _
  | items items more =>
      cases right with
      | same => exact .items items more
      | items _ more' =>
          rw [List.append_assoc]
          exact .items items _

/-! ## Couplings -/

/-- A way to relate evaluations. They pass through stages, and related evaluations go from one stage
to a later one. -/
structure Relator (Stage : Type) [Preorder Stage] where
  /-- Evaluations are related at a stage if related results come out of them at a later stage. -/
  Related : {α β : Type} → Stage → (Stage → α → β → Prop) → Eval α → Eval β → Prop
  pure : ∀ {α β : Type} {stage} {R : Stage → α → β → Prop} {a b}, R stage a b →
    Related stage R (pure a) (pure b)
  bind : ∀ {α β γ δ : Type} {stage} {R : Stage → α → β → Prop} {S : Stage → γ → δ → Prop}
    {first first' next next'}, Related stage R first first' →
    (∀ later a b, stage ≤ later → R later a b → Related later S (next a) (next' b)) →
    Related stage S (first >>= next) (first' >>= next')

/-- A way to relate evaluations and the values in them. -/
structure Coupling (Stage : Type) [Preorder Stage] extends Relator Stage where
  /-- How values correspond at a stage. -/
  matching : Stage → Value.Matching
  /-- The places that faults may have. -/
  Located : Location → Prop
  value_later : ∀ {stage later value value'}, stage ≤ later →
    (matching stage).Values value value' → (matching later).Values value value'
  fail : ∀ {α β : Type} {stage location} {R : Stage → α → β → Prop}, Located location →
    ∀ (kind : Fault.Kind) (message : String),
      Related stage R (Eval.fail kind message location) (Eval.fail kind message location)
  overflow : ∀ {α β : Type} {stage} {R : Stage → α → β → Prop} (overflow : Overflow),
    Related stage R (throw (.overflow overflow)) (throw (.overflow overflow))

/-- A coupling with laws for the operations on the world, and with what may be evaluated and applied
where. What corresponds at one stage still corresponds at later ones. -/
structure Regime (Stage : Type) [Preorder Stage] (left right : Settings) extends
    Coupling Stage where
  /-- The scopes that correspond at a stage and that nodes may be evaluated in. -/
  Scope : Stage → Nat → Nat → Prop
  /-- A name had a value in a scope of the first evaluation. -/
  Had : Stage → (scope : Nat) → (name : String) → Value → Prop
  /-- The first stage is followed by the second after some statement was counted. -/
  Ticked : Stage → Stage → Prop
  /-- The nodes that may be evaluated at a stage, with so much fuel and within so many calls. -/
  Evaluates : Stage → (fuel : Nat) → Depth → Node → Prop
  /-- The values that may be applied to so many arguments at a stage, with so much fuel and within
  so many calls. -/
  Applies : Stage → (fuel : Nat) → Depth → Value → (count : Nat) → Prop
  /-- The fuel that the second evaluation has in excess of the first. -/
  surplus : Nat
  scope_later : ∀ {stage later scope scope'}, stage ≤ later → Scope stage scope scope' →
    Scope later scope scope'
  had_later : ∀ {stage later scope name value}, stage ≤ later → Had stage scope name value →
    Had later scope name value
  evaluates_later : ∀ {stage later fuel depth node}, stage ≤ later →
    Evaluates stage fuel depth node → Evaluates later fuel depth node
  applies_later : ∀ {stage later fuel depth function count}, stage ≤ later →
    Applies stage fuel depth function count → Applies later fuel depth function count
  le_of_ticked : ∀ {stage later}, Ticked stage later → stage ≤ later
  ticked_later : ∀ {stage middle later}, Ticked stage middle → middle ≤ later → Ticked stage later
  ticked_earlier : ∀ {stage middle later}, stage ≤ middle → Ticked middle later →
    Ticked stage later
  located : ∀ {stage fuel depth node}, Evaluates stage fuel depth node → node.Located Located
  part : ∀ {stage fuel depth node}, Evaluates stage (fuel + 1) depth node →
    ∀ part ∈ node.parts, Evaluates stage fuel depth part
  /-- After a round in which a statement was counted, if there is one, a loop may go on. -/
  again : ∀ {stage later fuel depth test body location},
    Evaluates stage (fuel + 1) depth (.whileLoop test body location) →
    Ticked stage later ∨ stage ≤ later ∧ body.statements = [] →
    Evaluates later fuel depth (.whileLoop test body location)
  callee : ∀ {stage fuel depth callee arguments location} (function : Value),
    Evaluates stage (fuel + 1) depth (.call callee arguments location) →
    Applies stage fuel depth function arguments.length
  closes : ∀ {stage fuel depth parameters body location scope scope'},
    Evaluates stage (fuel + 1) depth (.lambda parameters body location) →
    Scope stage scope scope' → (matching stage).Closes parameters body scope scope'
  exhausted : ∀ {α β : Type} {stage depth} {R : Stage → α → β → Prop} {evaluation : Eval β},
    (∃ node, Evaluates stage 0 depth node) ∨
      (∃ function count, Applies stage 0 depth function count) →
    (surplus = 0 → evaluation = throw .exhausted) → Related stage R (throw .exhausted) evaluation
  tick : ∀ {stage location}, Located location →
    Related stage (fun later _ _ => Ticked stage later) (Eval.tick left location)
      (Eval.tick right location)
  newIdentity : ∀ {stage},
    Related stage (fun later => (matching later).Same) Eval.newIdentity Eval.newIdentity
  newScope : ∀ {stage parent parent'}, (Scope stage parent parent' ∨
      ∃ parameters body, (matching stage).Closes parameters body parent parent') →
    Related stage Scope (Eval.newScope parent) (Eval.newScope parent')
  lookup : ∀ {stage scope scope' location} (name : String), Scope stage scope scope' →
    Located location →
    Related stage
      (fun later value value' => (matching later).Values value value' ∧ Had later scope name value)
      (Eval.lookup scope name location) (Eval.lookup scope' name location)
  /-- A value that a name had may be replaced later by one that begins with it. -/
  assign : ∀ {stage scope scope' location name current value value'}, Scope stage scope scope' →
    Located location → Had stage scope name current → current.Extended value →
    (∀ function bound identity, current ≠ .builtin function bound identity) →
    (matching stage).Values value value' →
    Related stage (fun _ _ _ => True) (Eval.assign scope name value location)
      (Eval.assign scope' name value' location)
  bindName : ∀ {stage scope scope' value value'} (declares : Bool) (name : String),
    Scope stage scope scope' → (matching stage).Values value value' →
    Related stage (fun _ _ _ => True)
      (Eval.bindName (!declares && left.rebindOnAssign) scope name value)
      (Eval.bindName (!declares && right.rebindOnAssign) scope' name value')
  write : ∀ {stage} (text : String),
    Related stage (fun _ _ _ => True) (Eval.write text) (Eval.write text)
  /-- A built-in function may call values on at most two arguments, and what it gives may be applied
  to the arguments that are left. -/
  enterBuiltin : ∀ {stage fuel depth builtin bound identity count},
    Applies stage (fuel + 1) depth (.builtin builtin bound identity) count →
    Related stage
      (fun later _ _ => ∀ function,
        (∀ given ≤ 2, Applies later fuel depth.inBuiltin function given) ∧
          ∀ rest < count, Applies later fuel depth function rest)
      (Eval.enterBuiltin left depth builtin) (Eval.enterBuiltin right depth builtin)

namespace Coupling

variable {Stage : Type} [Preorder Stage] (c : Coupling Stage)

/-- Values that correspond at a stage. -/
abbrev Values (stage : Stage) : Value → Value → Prop := (c.matching stage).Values

/-- Lists of values that correspond at a stage. -/
abbrev Lists (stage : Stage) : List Value → List Value → Prop := List.Forall₂ (c.Values stage)

/-- The same results, whatever the stage. -/
abbrev Same {α : Type} (_ : Stage) (a b : α) : Prop := a = b

/-- Any results at all. -/
abbrev Any {α β : Type} (_ : Stage) (_ : α) (_ : β) : Prop := True

variable {stage : Stage}

theorem lists_later {later : Stage} (le : stage ≤ later) {values values' : List Value}
    (alike : c.Lists stage values values') : c.Lists later values values' :=
  alike.imp fun _ _ => c.value_later le

/-- The value of an evaluation, where values of the same form correspond. -/
theorem give {value value' : Value} (alike : Value.Parallel (c.Values stage)
    (c.matching stage).Closes (c.matching stage).Same value value') :
    c.Related stage c.Values (Pure.pure value) (Pure.pure value') :=
  c.pure ((c.matching stage).make alike)

variable {c}

theorem mono {α β : Type} {R S : Stage → α → β → Prop} {first : Eval α} {second : Eval β}
    (related : c.Related stage R first second)
    (implies : ∀ later a b, stage ≤ later → R later a b → S later a b) :
    c.Related stage S first second := by
  rw [← bind_pure first, ← bind_pure second]
  exact c.bind related fun later a b le holds => c.pure (implies later a b le holds)

theorem ofNumbers {α β : Type} {R : Stage → α → β → Prop} {result : Except Overflow α}
    {result' : Except Overflow β} (related : ExceptRel (R stage) result result') :
    c.Related stage R (Eval.ofNumbers result) (Eval.ofNumbers result') := by
  cases related with
  | ok holds => exact c.pure holds
  | error overflow => exact c.overflow overflow

theorem ofNumbers_same {α : Type} (result : Except Overflow α) :
    c.Related stage Same (Eval.ofNumbers result) (Eval.ofNumbers result) := by
  cases result with
  | ok value => exact c.pure rfl
  | error overflow => exact c.overflow overflow

/-! ## Operators -/

theorem arithmetic_eq {operator : BinaryOperator} {value other : Value} {location : Location}
    (plain : operator ≠ .add ∨ ∀ text, value ≠ .string text) :
    Eval.arithmetic operator value other location =
      match value.numeral?, other.numeral? with
        | some first, some second => Eval.calculate operator first second location
        | _, _ => Eval.unsupported operator value other location := by
  unfold Eval.arithmetic
  split
  · simp at plain
  · rename_i isFirst isSecond
    rw [isFirst, isSecond]
  · rename_i noNumbers
    split
    · rename_i isFirst isSecond
      exact (noNumbers _ _ isFirst isSecond).elim
    · rfl

section Operators

variable {location : Location} (located : c.Located location)

include located

theorem calculate (operator : BinaryOperator) (first second : Numeral) :
    c.Related stage c.Values (Eval.calculate operator first second location)
      (Eval.calculate operator first second location) := by
  have result (number : Except Overflow Numeral) :
      c.Related stage c.Values ((Eval.ofNumbers number).map .ofNumeral)
        ((Eval.ofNumbers number).map .ofNumeral) :=
    c.bind (ofNumbers_same number) fun _ _ _ _ same => c.pure (same ▸ Value.Matching.ofNumeral _)
  have quotient (number : Except Overflow Numeral) : c.Related stage c.Values
      (if second.isZero then
        Eval.fail .divisionByZero ("division by zero in '" ++ operator.text ++ "'") location
      else (Eval.ofNumbers number).map .ofNumeral)
      (if second.isZero then
        Eval.fail .divisionByZero ("division by zero in '" ++ operator.text ++ "'") location
      else (Eval.ofNumbers number).map .ofNumeral) := by
    split
    · exact c.fail located ..
    · exact result number
  cases operator <;> first | exact result _ | exact quotient _

variable {value value' other other' : Value} (alike : c.Values stage value value')
  (alikeOther : c.Values stage other other')

include alike alikeOther

theorem unsupported (operator : BinaryOperator) :
    c.Related stage c.Values (Eval.unsupported operator value other location)
      (Eval.unsupported operator value' other' location) := by
  rw [Eval.unsupported, Eval.unsupported, alike.typeName, alikeOther.typeName]
  exact c.fail located ..

theorem comparison (operator : BinaryOperator) :
    c.Related stage c.Values (Eval.comparison operator value other location)
      (Eval.comparison operator value' other' location) := by
  have wrong := unsupported located alike alikeOther operator
  cases (c.matching stage).view alike with
  | string | int | float =>
      cases (c.matching stage).view alikeOther with
      | string | int | float => first | exact c.give (.bool _) | exact wrong
      | _ => exact wrong
  | _ => exact wrong

theorem concatenation :
    c.Related stage c.Values (Eval.concatenation value other location)
      (Eval.concatenation value' other' location) := by
  have wrong := unsupported located alike alikeOther .concat
  have items := alike.writtenOut?
  have others := alikeOther.writtenOut?
  unfold Eval.concatenation
  generalize Eval.writtenOut? value = left, Eval.writtenOut? value' = left' at items
  generalize Eval.writtenOut? other = right, Eval.writtenOut? other' = right' at others
  cases items with
  | none => exact wrong
  | some items =>
      cases others with
      | none => exact wrong
      | some others =>
          refine c.bind (R := c.Lists) (ofNumbers items) fun later first first' le each => ?_
          have others : ExceptRel (c.Lists later) _ _ := others.mono fun _ _ => c.lists_later le
          refine c.bind (R := c.Lists) (ofNumbers others) ?_
          intro final second second' le' each'
          exact c.give (.list (List.rel_append (c.lists_later le' each) each'))

theorem numbers (operator : BinaryOperator) :
    c.Related stage c.Values
      (match value.numeral?, other.numeral? with
        | some first, some second => Eval.calculate operator first second location
        | _, _ => Eval.unsupported operator value other location)
      (match value'.numeral?, other'.numeral? with
        | some first, some second => Eval.calculate operator first second location
        | _, _ => Eval.unsupported operator value' other' location) := by
  have wrong := unsupported located alike alikeOther operator
  rw [alike.numeral?, alikeOther.numeral?]
  cases value'.numeral? with
  | none => exact wrong
  | some first =>
      cases other'.numeral? with
      | none => exact wrong
      | some second => exact calculate located operator first second

theorem arithmetic (operator : BinaryOperator) :
    c.Related stage c.Values (Eval.arithmetic operator value other location)
      (Eval.arithmetic operator value' other' location) := by
  have wrong := unsupported located alike alikeOther operator
  have result := numbers located alike alikeOther operator
  by_cases isAdd : operator = .add
  · subst isAdd
    cases (c.matching stage).view alike with
    | string =>
        cases (c.matching stage).view alikeOther with
        | string => exact c.give (.string _)
        | _ => exact wrong
    | _ =>
        rw [arithmetic_eq (.inr (by simp)), arithmetic_eq (.inr (by simp))]
        exact result
  · rw [arithmetic_eq (.inl isAdd), arithmetic_eq (.inl isAdd)]
    exact result

theorem operation (operator : BinaryOperator) :
    c.Related stage c.Values (Eval.operation operator value other location)
      (Eval.operation operator value' other' location) := by
  have equality := alike.equal alikeOther
  cases operator with
  | equal | notEqual =>
      rw [Eval.operation, Eval.operation, equality]
      exact c.bind (ofNumbers_same _) fun _ _ _ _ same => same ▸ c.give (.bool _)
  | concat => exact concatenation located alike alikeOther
  | less | greater | lessEqual | greaterEqual => exact comparison located alike alikeOther _
  | _ => exact arithmetic located alike alikeOther _

omit alikeOther in
theorem unaryOperation (operator : UnaryOperator) :
    c.Related stage c.Values (Eval.unaryOperation operator value location)
      (Eval.unaryOperation operator value' location) := by
  cases operator with
  | negate =>
      rw [Eval.unaryOperation, Eval.unaryOperation, alike.numeral?, alike.typeName]
      cases value'.numeral? with
      | none => exact c.fail located ..
      | some number => exact c.pure (Value.Matching.ofNumeral _)
  | not =>
      cases (c.matching stage).view alike with
      | bool => exact c.give (.bool _)
      | _ => exact c.fail located ..

theorem rangeBetween :
    c.Related stage c.Values (Eval.rangeBetween value other location)
      (Eval.rangeBetween value' other' location) := by
  cases (c.matching stage).view alike with
  | int =>
      cases (c.matching stage).view alikeOther with
      | int => exact c.give (.range _ _)
      | _ => exact c.fail located ..
  | _ => exact c.fail located ..

/-- The new value of an update begins with the current one, which is no function. -/
theorem updated (operator : UpdateOperator) (name : String) {valueLocation : Location}
    (locatedValue : c.Located valueLocation) :
    c.Related stage
      (fun later result result' => c.Values later result result' ∧ value.Extended result ∧
        ∀ function bound identity, value ≠ .builtin function bound identity)
      (Eval.updated operator name value other location valueLocation)
      (Eval.updated operator name value' other' location valueLocation) := by
  cases operator with
  | append =>
      cases (c.matching stage).view alike with
      | string =>
          cases (c.matching stage).view alikeOther with
          | string => exact c.pure ⟨(c.matching stage).make (.string _), .text _ _, by simp⟩
          | _ => exact c.fail locatedValue ..
      | _ => exact c.fail located ..
  | concat =>
      cases (c.matching stage).view alike with
      | list each =>
          have items := alikeOther.writtenOut?
          unfold Eval.updated
          rw [alikeOther.typeName]
          generalize Eval.writtenOut? other = found, Eval.writtenOut? other' = found' at items
          cases items with
          | none => exact c.fail locatedValue ..
          | some items =>
              refine c.bind (R := c.Lists) (ofNumbers items) fun later _ _ le each' => ?_
              exact c.pure ⟨(c.matching later).make
                (.list (List.rel_append (c.lists_later le each) each')), .items _ _, by simp⟩
      | _ => exact c.fail located ..

end Operators

/-! ## Going through elements -/

section Folds

variable {α β : Type} {R : Stage → α → β → Prop} {step : α → Value → Eval α}
  {step' : β → Value → Eval β}

theorem foldItems {items items' : List Value} {initial : α} {initial' : β}
    (steps : ∀ later a b item item', stage ≤ later → R later a b → c.Values later item item' →
      c.Related later R (step a item) (step' b item'))
    (each : c.Lists stage items items') (start : R stage initial initial') :
    c.Related stage R (Elements.foldItems step items initial)
      (Elements.foldItems step' items' initial') := by
  induction items generalizing stage items' initial initial' with
  | nil =>
      cases each
      exact c.pure start
  | cons item items ih =>
      cases each with
      | cons first others =>
          refine c.bind (steps stage _ _ _ _ le_rfl start first) fun later _ _ le related => ?_
          exact ih (fun final _ _ _ _ le' => steps final _ _ _ _ (le.trans le'))
            (c.lists_later le others) related

theorem foldM {elements elements' : Elements} {initial : α} {initial' : β}
    (steps : ∀ later a b item item', stage ≤ later → R later a b → c.Values later item item' →
      c.Related later R (step a item) (step' b item'))
    (each : c.Lists stage elements.toList elements'.toList) (start : R stage initial initial') :
    c.Related stage R (elements.foldM step initial) (elements'.foldM step' initial') := by
  rw [Elements.foldM_eq, Elements.foldM_eq]
  exact foldItems steps each start

end Folds

/-! ## Built-in functions -/

/-- Functions that call a value on one or two arguments are related from a stage on. -/
def Calls (c : Coupling Stage) (stage : Stage) (call call' : Value → List Value → Eval Value) :
    Prop :=
  ∀ {later function function' arguments arguments'}, stage ≤ later → arguments.length ≤ 2 →
    c.Values later function function' → c.Lists later arguments arguments' →
    c.Related later c.Values (call function arguments) (call' function' arguments')

theorem Calls.later {later : Stage} {call call' : Value → List Value → Eval Value}
    (calls : c.Calls stage call call') (le : stage ≤ later) : c.Calls later call call' :=
  fun le' => calls (le.trans le')

section Builtins

variable {location : Location} (located : c.Located location)

include located

theorem expectSequence (function : Builtin) {value value' : Value}
    (alike : c.Values stage value value') :
    c.Related stage (fun later => Elements.Matched (c.matching later))
      (Eval.expectSequence function value location)
      (Eval.expectSequence function value' location) := by
  have elements := alike.ofSequence?
  rw [Eval.expectSequence, Eval.expectSequence, alike.typeName]
  generalize Elements.ofSequence? value = found, Elements.ofSequence? value' = found' at elements
  cases elements with
  | none => exact c.fail located ..
  | some elements => exact c.pure elements

theorem expectString (function : Builtin) {value value' : Value}
    (alike : c.Values stage value value') :
    c.Related stage Same (Eval.expectString function value location)
      (Eval.expectString function value' location) := by
  cases (c.matching stage).view alike with
  | string => exact c.pure rfl
  | _ => exact c.fail located ..

theorem expectInt (function : Builtin) {value value' : Value}
    (alike : c.Values stage value value') :
    c.Related stage Same (Eval.expectInt function value location)
      (Eval.expectInt function value' location) := by
  cases (c.matching stage).view alike with
  | int => exact c.pure rfl
  | _ => exact c.fail located ..

variable {call call' : Value → List Value → Eval Value} {elements elements' : Elements}
  (each : c.Lists stage elements.toList elements'.toList)

include each

omit located in
theorem mapElements (calls : c.Calls stage call call') {function function' : Value}
    (functions : c.Values stage function function') :
    c.Related stage c.Values (Eval.mapElements call elements function)
      (Eval.mapElements call' elements' function') := by
  refine c.bind (R := c.Lists) (foldM ?_ each .nil) fun _ _ _ _ each =>
    c.give (.list (List.rel_reverse each))
  intro later _ _ _ _ le each item
  refine c.bind (calls le (by simp) (c.value_later le functions) (.cons item .nil)) ?_
  exact fun _ _ _ le' result => c.pure (.cons result (c.lists_later le' each))

theorem filterElements (calls : c.Calls stage call call') {predicate predicate' : Value}
    (predicates : c.Values stage predicate predicate') :
    c.Related stage c.Values (Eval.filterElements call elements predicate location)
      (Eval.filterElements call' elements' predicate' location) := by
  refine c.bind (R := c.Lists) (foldM ?_ each .nil) fun _ _ _ _ each =>
    c.give (.list (List.rel_reverse each))
  intro later _ _ _ _ le each item
  refine c.bind (calls le (by simp) (c.value_later le predicates) (.cons item .nil)) ?_
  intro final _ _ le' verdict
  cases (c.matching final).view verdict with
  | bool holds =>
      cases holds with
      | true => exact c.pure (.cons (c.value_later le' item) (c.lists_later le' each))
      | false => exact c.pure (c.lists_later le' each)
  | _ => exact c.fail located ..

theorem textsOf :
    c.Related stage Same (Eval.textsOf elements location) (Eval.textsOf elements' location) := by
  refine c.bind (R := Same) (foldM ?_ each rfl) fun _ _ _ _ same => c.pure (same ▸ rfl)
  rintro later texts _ _ _ le rfl item
  cases (c.matching later).view item with
  | string => exact c.pure rfl
  | _ => exact c.fail located ..

theorem sumElements :
    c.Related stage c.Values (Eval.sumElements elements location)
      (Eval.sumElements elements' location) := by
  refine c.bind (R := Same) (foldM ?_ each rfl) fun _ _ _ _ same =>
    c.pure (same ▸ Value.Matching.ofNumeral _)
  rintro later total _ _ _ le rfl item
  rw [item.numeral?, item.typeName]
  split
  · exact ofNumbers_same _
  · exact c.fail located ..

omit each

theorem reverseSequence {value value' : Value} (alike : c.Values stage value value') :
    c.Related stage c.Values
      (do
        let elements ← Eval.expectSequence .reverse value location
        let _ ← Eval.ofNumbers (Eval.countElements elements)
        return .list elements.toList.reverse)
      (do
        let elements ← Eval.expectSequence .reverse value' location
        let _ ← Eval.ofNumbers (Eval.countElements elements)
        return .list elements.toList.reverse) := by
  refine c.bind (expectSequence located .reverse alike) fun later _ _ le ⟨each, count⟩ => ?_
  rw [count]
  refine c.bind (ofNumbers_same _) fun _ _ _ le' _ => ?_
  exact c.give (.list (List.rel_reverse (c.lists_later le' each)))

theorem countSequence {value value' : Value} (alike : c.Values stage value value') :
    c.Related stage c.Values
      (do
        let elements ← Eval.expectSequence .length value location
        let count ← Eval.ofNumbers (Eval.countElements elements)
        return .int count)
      (do
        let elements ← Eval.expectSequence .length value' location
        let count ← Eval.ofNumbers (Eval.countElements elements)
        return .int count) := by
  refine c.bind (expectSequence located .length alike) fun later _ _ le ⟨each, count⟩ => ?_
  rw [count]
  exact c.bind (ofNumbers_same _) fun _ _ _ _ same => same ▸ c.give (.int _)

end Builtins

end Coupling

namespace Regime

open Coupling (Any)

variable {Stage : Type} [Preorder Stage] {left right : Settings}
  {regime : Regime Stage left right} {stage : Stage}

theorem writeLine {value value' : Value} (alike : regime.Values stage value value') :
    regime.Related stage regime.Values (Eval.writeLine value) (Eval.writeLine value') := by
  rw [Eval.writeLine, Eval.writeLine, alike.display]
  refine regime.bind (Coupling.ofNumbers_same _) fun _ _ _ _ same => ?_
  cases same
  exact regime.bind (regime.write _) fun _ _ _ _ _ => regime.give .unit

theorem runBuiltin {call call' : Value → List Value → Eval Value}
    (calls : regime.Calls stage call call') (function : Builtin) {arguments arguments' : List Value}
    (alike : regime.Lists stage arguments arguments') {location : Location}
    (located : regime.Located location) :
    regime.Related stage regime.Values (Eval.runBuiltin call function arguments location)
      (Eval.runBuiltin call' function arguments' location) := by
  cases function with
  | map =>
      match alike with
      | .cons items (.cons mapper .nil) =>
          refine regime.bind (Coupling.expectSequence located .map items) ?_
          intro later _ _ le ⟨each, _⟩
          exact Coupling.mapElements each (calls.later le) (regime.value_later le mapper)
      | .nil | .cons _ .nil | .cons _ (.cons _ (.cons _ _)) => exact regime.give .unit
  | filter =>
      match alike with
      | .cons items (.cons predicate .nil) =>
          refine regime.bind (Coupling.expectSequence located .filter items) ?_
          intro later _ _ le ⟨each, _⟩
          exact Coupling.filterElements located each (calls.later le)
            (regime.value_later le predicate)
      | .nil | .cons _ .nil | .cons _ (.cons _ (.cons _ _)) => exact regime.give .unit
  | fold =>
      match alike with
      | .cons items (.cons initial (.cons combine .nil)) =>
          refine regime.bind (Coupling.expectSequence located .fold items) ?_
          intro later _ _ le ⟨each, _⟩
          refine Coupling.foldM ?_ each (regime.value_later le initial)
          intro final _ _ _ _ le' result item
          exact calls (le.trans le') (by simp) (regime.value_later (le.trans le') combine)
            (.cons result (.cons item .nil))
      | .nil | .cons _ .nil | .cons _ (.cons _ .nil) | .cons _ (.cons _ (.cons _ (.cons _ _))) =>
          exact regime.give .unit
  | join =>
      match alike with
      | .cons items (.cons separator .nil) =>
          refine regime.bind (Coupling.expectSequence located .join items) ?_
          intro later _ _ le ⟨each, _⟩
          refine regime.bind
            (Coupling.expectString located .join (regime.value_later le separator)) ?_
          rintro middle text _ le' rfl
          refine regime.bind (Coupling.textsOf located (regime.lists_later le' each)) ?_
          rintro final texts _ - rfl
          exact regime.give (.string _)
      | .nil | .cons _ .nil | .cons _ (.cons _ (.cons _ _)) => exact regime.give .unit
  | reverse =>
      match alike with
      | .cons items .nil =>
          have sequence := Coupling.reverseSequence located items
          cases (regime.matching stage).view items with
          | string => exact regime.give (.string _)
          | _ => exact sequence
      | .nil => exact regime.give .unit
      | .cons _ (.cons _ _) =>
          simp only [Eval.runBuiltin]
          exact regime.give .unit
  | range =>
      match alike with
      | .cons low (.cons high .nil) =>
          refine regime.bind (Coupling.expectInt located .range low) ?_
          rintro later first _ le rfl
          refine regime.bind (Coupling.expectInt located .range (regime.value_later le high)) ?_
          rintro final second _ le' rfl
          exact regime.give (.range first second)
      | .nil | .cons _ .nil | .cons _ (.cons _ (.cons _ _)) => exact regime.give .unit
  | length =>
      match alike with
      | .cons items .nil =>
          have sequence := Coupling.countSequence located items
          cases (regime.matching stage).view items with
          | string => exact regime.give (.int _)
          | _ => exact sequence
      | .nil => exact regime.give .unit
      | .cons _ (.cons _ _) =>
          simp only [Eval.runBuiltin]
          exact regime.give .unit
  | sum =>
      match alike with
      | .cons items .nil =>
          refine regime.bind (Coupling.expectSequence located .sum items) ?_
          exact fun later _ _ le elements => Coupling.sumElements located elements.1
      | .nil | .cons _ (.cons _ _) => exact regime.give .unit
  | str =>
      match alike with
      | .cons value .nil =>
          rw [Eval.runBuiltin, Eval.runBuiltin, value.display]
          exact regime.bind (Coupling.ofNumbers_same _) fun _ _ _ _ same =>
            same ▸ regime.give (.string _)
      | .nil | .cons _ (.cons _ _) => exact regime.give .unit
  | print | println =>
      match alike with
      | .cons value .nil => exact writeLine value
      | .nil | .cons _ (.cons _ _) => exact regime.give .unit

/-! ## Bindings -/

theorem bindPatterns_of_each {patterns : List Pattern} {rebind rebind' : Bool}
    (each : ∀ pattern ∈ patterns, ∀ {stage scope scope'}, regime.Scope stage scope scope' →
      ∀ {value value'}, regime.Values stage value value' →
        regime.Related stage Any (Eval.bindPattern rebind scope pattern value)
          (Eval.bindPattern rebind' scope' pattern value'))
    {stage : Stage} {scope scope' : Nat} (scopes : regime.Scope stage scope scope')
    {values values' : List Value} (alike : regime.Lists stage values values') :
    regime.Related stage Any (Eval.bindPatterns rebind scope patterns values)
      (Eval.bindPatterns rebind' scope' patterns values') := by
  induction patterns generalizing stage values values' with
  | nil => exact regime.pure trivial
  | cons pattern patterns ih =>
      rw [List.forall_mem_cons] at each
      cases alike with
      | nil => exact regime.pure trivial
      | cons first others =>
          refine regime.bind (each.1 scopes first) fun later _ _ le _ => ?_
          exact ih each.2 (regime.scope_later le scopes) (regime.lists_later le others)

theorem bindPattern (declares : Bool) {pattern : Pattern}
    (located : pattern.Located regime.Located) {stage : Stage} {scope scope' : Nat}
    (scopes : regime.Scope stage scope scope') {value value' : Value}
    (alike : regime.Values stage value value') :
    regime.Related stage Any
      (Eval.bindPattern (!declares && left.rebindOnAssign) scope pattern value)
      (Eval.bindPattern (!declares && right.rebindOnAssign) scope' pattern value') := by
  induction located generalizing stage scope scope' value value' with
  | @name bound location here => exact regime.bindName declares bound scopes alike
  | @tuple elements location here _ ih =>
      cases (regime.matching stage).view alike with
      | tuple each =>
          rw [Eval.bindPattern, Eval.bindPattern, each.length_eq]
          split
          · exact bindPatterns_of_each ih scopes each
          · exact regime.fail here ..
      | _ => exact regime.fail here ..

theorem named (pattern : Pattern) {value value' : Value}
    (alike : regime.Values stage value value') :
    regime.Related stage regime.Values (Eval.named pattern value) (Eval.named pattern value') := by
  cases pattern with
  | tuple elements location => exact regime.pure alike
  | name name location =>
      cases (regime.matching stage).view alike with
      | @closure _ _ _ _ _ _ bound _ _ closes each same =>
          cases bound with
          | some bound => exact regime.pure alike
          | none =>
              refine regime.bind regime.newIdentity fun later _ _ le same => ?_
              cases (regime.matching later).view (regime.value_later le alike) with
              | closure closes each _ => exact regime.give (.closure closes each same)
      | _ => exact regime.pure alike

end Regime

end Offside
