import Mathlib.Data.Nat.Basic
import Offside.Proofs.Evaluation.Frame
import Offside.Proofs.Evaluation.Store

/-!
# Evaluations that come to an end

Under a limit on steps, an evaluation can go on for ever in one way only: in a loop that has no
statement in its body. Without such loops there is an amount of fuel that lasts. Each statement that
is executed uses up a budget, and each call of a built-in function within others uses up room on the
stack. Between two of them no more fuel is needed than the nodes are high, and than functions are
given arguments.
-/

namespace Offside

/-! ## Heights of nodes -/

/-- A property of a node and of all nodes in it, which are nested less than `height` deep and have
at most as many parts as nodes can be nested in them. -/
def Node.Within (P : Node → Prop) : (height : Nat) → Node → Prop
  | 0, _ => False
  | height + 1, node =>
    P node ∧ node.parts.length ≤ height ∧ ∀ part ∈ node.parts, Within P height part

instance Node.decidableWithin {P : Node → Prop} [DecidablePred P] :
    (height : Nat) → (node : Node) → Decidable (node.Within P height)
  | 0, _ => isFalse id
  | height + 1, node =>
    have := decidableWithin (P := P) height
    inferInstanceAs (Decidable
      (P node ∧ node.parts.length ≤ height ∧ ∀ part ∈ node.parts, part.Within P height))

theorem Node.Within.all {P : Node → Prop} {height : Nat} {node : Node}
    (within : node.Within P height) : node.All P := by
  induction height generalizing node with
  | zero => exact within.elim
  | succ height ih => exact ⟨within.1, fun part member => ih (within.2.2 part member)⟩

theorem Node.Within.mono {P : Node → Prop} {height larger : Nat} {node : Node}
    (le : height ≤ larger) (within : node.Within P height) : node.Within P larger := by
  induction height generalizing larger node with
  | zero => exact within.elim
  | succ height ih =>
      obtain ⟨larger, rfl⟩ := Nat.exists_eq_add_of_le' (Nat.lt_of_lt_of_le height.succ_pos le)
      have le := Nat.le_of_succ_le_succ le
      exact ⟨within.1, within.2.1.trans le, fun part member => ih le (within.2.2 part member)⟩

/-- If each item of a list has a bound, there is one for all of them. -/
theorem exists_common_bound {α : Type} {P : Nat → α → Prop} {items : List α}
    (each : ∀ item ∈ items, ∃ bound, P bound item)
    (mono : ∀ bound larger item, bound ≤ larger → P bound item → P larger item) :
    ∃ bound, ∀ item ∈ items, P bound item := by
  induction items with
  | nil => exact ⟨0, by simp⟩
  | cons first rest ih =>
      rw [List.forall_mem_cons] at each
      obtain ⟨⟨bound, holds⟩, others⟩ := each
      obtain ⟨bound', holds'⟩ := ih others
      refine ⟨max bound bound', List.forall_mem_cons.mpr ⟨?_, fun item member => ?_⟩⟩
      · exact mono _ _ _ (Nat.le_max_left ..) holds
      · exact mono _ _ _ (Nat.le_max_right ..) (holds' item member)

theorem Node.All.exists_within {P : Node → Prop} {node : Node} (all : node.All P) :
    ∃ height, node.Within P height := by
  induction all with
  | @intro node here _ ih =>
      obtain ⟨height, within⟩ := exists_common_bound ih fun _ _ _ => Node.Within.mono
      refine ⟨max height node.parts.length + 1, here, Nat.le_max_right _ _, fun part member => ?_⟩
      exact (within part member).mono (Nat.le_max_left _ _)

/-- All statements of a block are nested less than `height` deep. -/
abbrev Block.Within (P : Node → Prop) (height : Nat) (block : Block Node) : Prop :=
  ∀ statement ∈ block.statements, statement.Within P height

theorem Block.Within.mono {P : Node → Prop} {height larger : Nat} {block : Block Node}
    (le : height ≤ larger) (within : block.Within P height) : block.Within P larger :=
  fun statement member => (within statement member).mono le

theorem Block.All.exists_within {P : Node → Prop} {block : Block Node} (all : block.All P) :
    ∃ height, block.Within P height :=
  exists_common_bound (fun statement member => (all statement member).exists_within)
    fun _ _ _ => Node.Within.mono

/-! ## Heights of worlds -/

theorem Value.Holds.higher {P : Node → Prop} (height larger : Nat) (value : Value)
    (le : height ≤ larger) (holds : value.Holds fun _ body _ => body.Within P height) :
    value.Holds fun _ body _ => body.Within P larger :=
  holds.mono fun _ _ _ within => Block.Within.mono le within

theorem Value.Holds.exists_within {P : Node → Prop} {value : Value}
    (holds : value.Holds fun _ body _ => body.All P) :
    ∃ height, value.Holds fun _ body _ => body.Within P height := by
  induction holds with
  | bool | int | float | string | unit | range => exact ⟨0, by constructor⟩
  | list _ ih =>
      obtain ⟨height, each⟩ := exists_common_bound ih Value.Holds.higher
      exact ⟨height, .list each⟩
  | tuple _ ih =>
      obtain ⟨height, each⟩ := exists_common_bound ih Value.Holds.higher
      exact ⟨height, .tuple each⟩
  | closure here _ ih =>
      obtain ⟨height, each⟩ := exists_common_bound ih Value.Holds.higher
      obtain ⟨height', within⟩ := Block.All.exists_within here
      refine ⟨max height height', .closure ?_ fun value member => ?_⟩
      · exact Block.Within.mono (Nat.le_max_right ..) within
      · exact (each value member).higher _ _ _ (Nat.le_max_left ..)
  | builtin _ ih =>
      obtain ⟨height, each⟩ := exists_common_bound ih Value.Holds.higher
      exact ⟨height, .builtin each⟩

namespace World

theorem Holds.exists_within {P : Node → Prop} {world : World}
    (holds : world.Holds fun _ body _ => body.All P) :
    ∃ height, world.Holds fun _ body _ => body.Within P height := by
  have bounded (position) (_ : position ∈ List.range world.scopes.size) : ∃ height,
      ∀ scope, world.scopes.get? position = some scope →
        ∀ binding ∈ scope.bindings, binding.2.Holds fun _ body _ => body.Within P height := by
    cases found : world.scopes.get? position with
    | none => exact ⟨0, by simp⟩
    | some scope =>
        obtain ⟨height, each⟩ := exists_common_bound
          (fun binding bound => (holds position scope found binding bound).exists_within)
          fun height larger binding => Value.Holds.higher height larger binding.2
        refine ⟨height, ?_⟩
        rintro _ ⟨⟩
        exact each
  obtain ⟨height, each⟩ := exists_common_bound bounded
    fun height larger _ le each scope found binding bound =>
      (each scope found binding bound).higher height larger binding.2 le
  refine ⟨height, fun position scope found => each position ?_ scope found⟩
  exact List.mem_range.mpr (Scopes.lt_size_of_get? found)

end World

/-! ## Budgets -/

/-- Whether a node is something else than a loop under a condition without statements. -/
def Node.hasBody : Node → Bool
  | .whileLoop _ body _ => !body.statements.isEmpty
  | _ => true

/-- A node that is no loop under a condition without statements. -/
abbrev Node.HasBody (node : Node) : Prop := node.hasBody = true

/-- Settings with a limit on steps, and how deep the nodes of statements may be nested. -/
structure Budget where
  settings : Settings
  steps : Int
  height : Nat
  limited : settings.maxSteps = some steps

namespace Budget

variable (budget : Budget)

/-- The number of statements that may still be executed. -/
def stepsLeft (world : World) : Nat := budget.steps.toNat - world.steps

/-- The number of statements and of calls within each other that are left. -/
def left (world : World) (depth : Depth) : Nat :=
  budget.stepsLeft world + (budget.settings.room.toNat - depth.calls)

/-- An amount of fuel that lasts for nodes of some height, and for so many arguments. -/
def fuel (world : World) (depth : Depth) (size : Nat) : Nat :=
  size + 2 + budget.left world depth * (budget.height + 4)

/-- The closures of the worlds to be considered. -/
abbrev Closure (_ : List Pattern) (body : Block Node) (_ : Nat) : Prop :=
  body.Within Node.HasBody budget.height ∧ True

/-- Steps are only ever added, and fuel does not run out. -/
def frame : Frame where
  Sound := World.Holds budget.Closure
  Leads world later := later.Holds budget.Closure ∧ world.steps ≤ later.steps
  Code _ body := body.Within Node.HasBody budget.height
  Captured _ _ := True
  Exhausts _ := False
  Located _ := True
  Faults _ _ := True
  sound leads := leads.1
  refl holds := ⟨holds, le_rfl⟩
  trans first second := ⟨second.1, first.2.trans second.2⟩
  captured_later _ captured := captured
  faults _ _ _ := trivial

variable {budget} {world later : World} {depth depth' : Depth}

theorem stepsLeft_le (leads : budget.frame.Leads world later) :
    budget.stepsLeft later ≤ budget.stepsLeft world :=
  Nat.sub_le_sub_left leads.2 _

theorem fuel_le (leads : budget.frame.Leads world later) (depth : Depth) (size : Nat) :
    budget.fuel later depth size ≤ budget.fuel world depth size :=
  Nat.add_le_add_left (Nat.mul_le_mul_right _ (Nat.add_le_add_right (stepsLeft_le leads) _)) _

theorem fuel_pos (budget : Budget) (world : World) (depth : Depth) (size : Nat) :
    0 < budget.fuel world depth size :=
  Nat.add_pos_left (Nat.succ_pos _) _

/-- What is used up of the budget pays for the statements of a body and for two arguments. -/
theorem fuel_le_of_left_lt (lt : budget.left later depth' < budget.left world depth)
    {size size' : Nat} (le : size' ≤ size + (budget.height + 2)) :
    budget.fuel later depth' size' + 2 ≤ budget.fuel world depth size := by
  have product := Nat.mul_le_mul_right (budget.height + 4) (Nat.succ_le_of_lt lt)
  rw [Nat.succ_mul] at product
  unfold fuel
  omega

/-- Statements that are executed are left no longer, however many calls are entered. -/
theorem left_lt_of_stepsLeft_lt (lt : budget.stepsLeft later < budget.stepsLeft world)
    (deeper : depth.calls ≤ depth'.calls) :
    budget.left later depth' < budget.left world depth :=
  Nat.add_lt_add_of_lt_of_le lt (Nat.sub_le_sub_left deeper _)

theorem leads_define (target : Nat) (name : String) {value : Value}
    (holds : world.Holds budget.Closure) (held : budget.frame.Held world value) :
    budget.frame.Leads world { world with scopes := world.scopes.define target name value } :=
  ⟨holds.define target name held, le_rfl⟩

theorem keeps_tick (location : Location) (holds : world.Holds budget.Closure) :
    budget.frame.Keeps world
      (fun _ later => budget.frame.Leads world later ∧
        budget.stepsLeft later < budget.stepsLeft world)
      (Eval.tick budget.settings location) := by
  have leads : budget.frame.Leads world { world with steps := world.steps + 1 } :=
    ⟨holds, Nat.le_succ _⟩
  refine Frame.keeps_tick budget.settings trivial leads fun room => ⟨leads, ?_⟩
  have room := room _ budget.limited
  unfold stepsLeft
  dsimp only
  omega

/-- A call of a built-in function leaves less room on the stack. -/
theorem keeps_enterBuiltin (depth : Depth) (builtin : Builtin)
    (holds : world.Holds budget.Closure) :
    budget.frame.Keeps world
      (fun _ later => budget.frame.Leads world later ∧
        budget.left later depth.inBuiltin < budget.left world depth)
      (Eval.enterBuiltin budget.settings depth builtin) := by
  have leads : budget.frame.Leads world
      { world with calls := .builtin builtin.name :: world.calls } := ⟨holds, le_rfl⟩
  refine Frame.keeps_enterBuiltin holds budget.settings depth builtin leads fun room => ?_
  refine ⟨leads, Nat.add_lt_add_left ?_ _⟩
  rw [depth.calls_inBuiltin]
  omega

/-- Nodes without empty loops are evaluated within the budget. -/
def regime (budget : Budget) : Regime budget.frame.Stage budget.settings budget.settings where
  toCoupling := budget.frame.coupling
  Scope _ scope scope' := scope' = scope
  Had _ _ _ _ := True
  Ticked stage later := stage ≤ later ∧ budget.stepsLeft later.1 < budget.stepsLeft stage.1
  Evaluates stage fuel depth node := ∃ height ≤ budget.height, node.Within Node.HasBody height ∧
    budget.fuel stage.1 depth height ≤ fuel
  Applies stage fuel depth function count :=
    0 < fuel ∧ (function = .unit ∨ budget.fuel stage.1 depth count ≤ fuel)
  surplus := 0
  scope_later _ same := same
  had_later _ had := had
  evaluates_later leads := fun ⟨height, le, within, enough⟩ =>
    ⟨height, le, within, (fuel_le leads _ height).trans enough⟩
  applies_later leads := fun ⟨positive, enough⟩ =>
    ⟨positive, enough.imp_right (fuel_le leads _ _).trans⟩
  le_of_ticked ticked := ticked.1
  ticked_later ticked leads := ⟨ticked.1.trans leads, (stepsLeft_le leads).trans_lt ticked.2⟩
  ticked_earlier leads ticked := ⟨leads.trans ticked.1, ticked.2.trans_le (stepsLeft_le leads)⟩
  located {_ _ _ node} _ := node.located_anywhere
  part := by
    rintro stage fuel depth node ⟨height, le, within, enough⟩ part member
    cases height with
    | zero => exact within.elim
    | succ height =>
        refine ⟨height, Nat.le_of_succ_le le, within.2.2 part member, ?_⟩
        unfold Budget.fuel at enough ⊢
        omega
  again := by
    rintro stage later fuel depth test body location ⟨height, le, within, enough⟩ goesOn
    cases height with
    | zero => exact within.elim
    | succ height =>
        have ticked := goesOn.resolve_right fun ⟨_, empty⟩ => by
          have body := within.1
          rw [Node.HasBody, Node.hasBody, empty] at body
          cases body
        have less := fuel_le_of_left_lt (left_lt_of_stepsLeft_lt ticked.2 depth.calls.le_refl)
          (Nat.le_add_right (height + 1) _)
        exact ⟨height + 1, le, within, by omega⟩
  callee := by
    rintro stage fuel depth callee arguments location function ⟨height, le, within, enough⟩
    cases height with
    | zero => exact within.elim
    | succ height =>
        have few : arguments.length + 1 ≤ height := within.2.1
        have enough : budget.fuel stage.1 depth arguments.length ≤ fuel := by
          unfold Budget.fuel at enough ⊢
          omega
        exact ⟨(budget.fuel_pos ..).trans_le enough, .inr enough⟩
  closes := by
    rintro stage fuel depth parameters body location scope scope' ⟨height, le, within, -⟩ same
    cases height with
    | zero => exact within.elim
    | succ height =>
        exact ⟨same, fun statement member =>
          (within.2.2 statement member).mono (Nat.le_of_succ_le le), trivial⟩
  exhausted := by
    rintro α β stage depth R evaluation
      (⟨node, height, -, -, enough⟩ | ⟨function, count, enough, -⟩)
    · exact absurd (enough.trans_lt (budget.fuel_pos ..)) (Nat.lt_irrefl _)
    · exact absurd enough (Nat.lt_irrefl 0)
  tick {stage _} _ := Frame.Keeps.related (keeps_tick _ stage.2) fun _ _ _ counted => ⟨(), counted⟩
  newIdentity {stage} := Frame.related_ok rfl ⟨stage.2, le_rfl⟩ ⟨_, rfl⟩
  newScope {stage _ _} _ := Frame.related_ok rfl ⟨stage.2.push _, le_rfl⟩ ⟨_, rfl⟩
  lookup {stage _ _ _} name _ _ := Frame.Keeps.related (P := budget.frame.Values)
    (Frame.keeps_lookup stage.2 (fun _ => stage.2.value?) trivial)
    fun value _ _ held => ⟨value, ⟨rfl, held⟩, trivial⟩
  assign {stage _ _ _ _ _ _ _} _ _ _ _ _ alike := Frame.Keeps.related (Frame.keeps_assign stage.2
    (fun owner _ => leads_define owner _ stage.2 alike.2) trivial) fun _ _ _ _ => ⟨(), trivial⟩
  bindName {stage _ _ _ _} _ name _ alike := Frame.Keeps.related
    (Frame.keeps_bindName (leads_define _ name stage.2 alike.2) fun owner _ _ _ =>
      leads_define owner name stage.2 alike.2) fun _ _ _ _ => ⟨(), trivial⟩
  write {stage} _ := Frame.related_ok rfl ⟨stage.2, le_rfl⟩ ⟨(), trivial⟩
  enterBuiltin := by
    rintro stage fuel depth builtin bound identity count ⟨-, enough⟩
    have enough := enough.resolve_left nofun
    refine Frame.Keeps.related (keeps_enterBuiltin depth builtin stage.2) ?_
    intro _ later leads ⟨_, lt⟩
    refine ⟨(), fun function => ⟨fun given few => ?_, fun rest fewer => ?_⟩⟩
    · have less : budget.fuel later depth.inBuiltin given + 2 ≤ budget.fuel stage.1 depth count :=
        fuel_le_of_left_lt lt (by omega)
      have enough : budget.fuel later depth.inBuiltin given ≤ fuel := by omega
      exact ⟨(budget.fuel_pos ..).trans_le enough, .inr enough⟩
    · have less := fuel_le leads depth count
      have enough : budget.fuel later depth rest ≤ fuel := by
        unfold Budget.fuel at less enough ⊢
        omega
      exact ⟨(budget.fuel_pos ..).trans_le enough, .inr enough⟩

theorem entersCalls (budget : Budget) : budget.regime.EntersCalls := by
  -- The statements that a call executes pay for its body and for its result.
  have paid {stage later : budget.frame.Stage} {fuel : Nat} {depth depth' : Depth}
      {parameters : List Pattern} {body : Block Node} {scope : Nat} {bound : List Value}
      {name : Option String} {identity count size : Nat}
      (permitted : budget.regime.Applies stage (fuel + 1) depth
        (.closure parameters body scope bound name identity) count)
      (ticked : budget.regime.Ticked stage later) (deeper : depth.calls ≤ depth'.calls)
      (le : size ≤ count + (budget.height + 2)) : budget.fuel later.1 depth' size ≤ fuel := by
    have enough := permitted.2.resolve_left nofun
    have less := fuel_le_of_left_lt (left_lt_of_stepsLeft_lt ticked.2 deeper) le
    omega
  refine Regime.NotesCalls.entersCalls ⟨fun _ => ?_, ?_, ?_, fun _ => .inl rfl⟩
  · exact ⟨fun pattern _ => pattern.located_anywhere, fun _ _ => trivial⟩
  · intro stage middle fuel depth parameters body scope scope' bound name identity count title given
      permitted closes leads
    have noted : budget.frame.Leads middle.1
        { middle.1 with calls := .closure title given depth.closures :: middle.1.calls } :=
      ⟨middle.2, le_rfl⟩
    refine Frame.related_ok rfl noted ⟨(), fun final ticked statement member => ?_⟩
    have ticked := budget.regime.ticked_earlier (leads.trans noted) ticked
    have deeper : depth.calls ≤ depth.inClosure.calls := by
      rw [depth.calls_inClosure]
      exact Nat.le_succ _
    exact ⟨budget.height, le_rfl, closes.2.1 statement member,
      paid permitted ticked deeper (by omega)⟩
  · rintro stage later fuel depth parameters body scope bound name identity count result permitted
      (ticked | ⟨leads, rfl⟩) rest fewer
    · have enough := paid permitted ticked le_rfl (fewer.trans (Nat.le_add_right _ _))
      exact ⟨(budget.fuel_pos ..).trans_le enough, .inr enough⟩
    · have enough := permitted.2.resolve_left nofun
      unfold Budget.fuel at enough
      exact ⟨by omega, .inl rfl⟩

end Budget

end Offside
