import Offside.Proofs.Evaluation.Renaming
import Offside.Proofs.Interpreter.Heap

/-!
# Interpreters after a reset

A reset leaves behind scopes that nothing leads to any more and identities that were given out. It
cannot be told from a new interpreter: the same programs give the same results there.
-/

namespace Offside

/-- Values of the same type with the same text. -/
structure Value.Resembles (value value' : Value) : Prop where
  typeName : value.typeName = value'.typeName
  display : value.display = value'.display

theorem Value.Linked.resembles {above start gap bound : Nat} {value value' : Value}
    (linked : value.Linked (shiftedLinks above start gap bound) value') : value.Resembles value' :=
  have alike : (Links.matching _ (shiftedLinks_unique above start gap bound)).Values value value' :=
    linked
  ⟨alike.typeName, alike.display⟩

namespace Interpreter

/-- Values of the same type with the same text, or the same reason to stop. -/
inductive SameResult : Except Stop Value → Except Stop Value → Prop
  | ok {value value' : Value} (values : value.Resembles value') :
      SameResult (.ok value) (.ok value')
  | error (stop : Stop) : SameResult (.error stop) (.error stop)

/-- Runs that cannot be told apart by what comes out of them. -/
structure SameRun (first second : Except Stop Value × Interpreter) : Prop where
  result : SameResult first.1 second.1
  output : first.2.world.output = second.2.world.output
  steps : first.2.world.steps = second.2.world.steps
  bindings : List.Forall₂
    (fun binding binding' => binding.1 = binding'.1 ∧ binding.2.Resembles binding'.2)
    first.2.bindings second.2.bindings

theorem Reached.settings_eq {settings : Settings} {tops : List Nat} {interpreter : Interpreter}
    (reached : Reached settings tops interpreter) : interpreter.settings = settings := by
  induction reached with
  | new => rfl
  | run program fuel _ ih =>
      rw [run_eq]
      exact ih
  | reset _ ih => exact ih

section Settled

variable {tops : List Nat} {interpreter : Interpreter} (settled : interpreter.Settled tops)
  {above : Nat} (size : interpreter.world.scopes.size = above + 1)

include settled size

/-- The scopes of a new interpreter and of one after a reset, where they stand behind all others. -/
theorem Settled.placed_reset (links : Links) :
    Scopes.Placed above (Value.Linked links) initialScopes interpreter.reset.world.scopes := by
  let root : Scopes Value := ⟨#[⟨none, Builtin.bindings⟩]⟩
  have placed : Scopes.Placed above (Value.Linked links) root interpreter.world.scopes := by
    refine ⟨by rw [size, Nat.add_comm]; rfl, place_of_pos Nat.zero_lt_one, fun position => ?_⟩
    by_cases outermost : position = Eval.builtinScope
    · rw [outermost, place_builtinScope, settled.rooted.builtins]
      refine .some ⟨rfl, List.forall₂_same.mpr fun binding member => ⟨rfl, ?_⟩⟩
      obtain ⟨function, -, rfl⟩ := List.mem_map.mp member
      exact .builtin .nil .none
    · have inner : 0 < position := Nat.pos_of_ne_zero outermost
      have missing : root.get? position = none := Scopes.get?_eq_none inner
      rw [missing, place_of_pos inner, Scopes.get?_eq_none (by omega)]
      exact .none
  have pushed := placed.push Eval.builtinScope
  rwa [place_builtinScope] at pushed

/-- A reset leads to the state of a new interpreter, with more scopes and identities before it. -/
theorem Settled.shifted_reset (settings : Settings) :
    World.Shifted above 0 interpreter.world.identities 0 (new settings).start
      interpreter.reset.start where
  steps := rfl
  output := rfl
  calls := rfl
  identities := rfl
  identities' := (Nat.zero_add _).symm
  started := le_rfl
  scopes := settled.placed_reset size _

end Settled

theorem forall₂_bindings {above start gap bound : Nat} {interpreter interpreter' : Interpreter}
    (worlds : World.Shifted above start gap bound interpreter.world interpreter'.world)
    (globals : interpreter'.globals = place above interpreter.globals) :
    List.Forall₂ (fun binding binding' => binding.1 = binding'.1 ∧ binding.2.Resembles binding'.2)
      interpreter.bindings interpreter'.bindings := by
  unfold bindings
  rw [globals]
  cases present : interpreter.world.scopes.get? interpreter.globals with
  | none =>
      rw [worlds.scopes.get?_none present]
      exact .nil
  | some scope =>
      obtain ⟨scope', present', -, related⟩ := worlds.scopes.get?_some present
      rw [present']
      exact related.bindings.imp fun _ _ binding => ⟨binding.1, binding.2.resembles⟩

/-- After any programs and resets, a reset gives an interpreter that does with every program what a
new one does. -/
theorem run_reset {settings : Settings} {tops : List Nat} {interpreter : Interpreter}
    (reached : Reached settings tops interpreter) (program : Program) (fuel : Nat) :
    SameRun ((new settings).run program fuel) (interpreter.reset.run program fuel) := by
  obtain rfl := reached.settings_eq
  have settled := reached.settled
  obtain ⟨above, size⟩ := Nat.exists_eq_succ_of_ne_zero (Nat.ne_of_gt settled.rooted.zero_lt_size)
  have globals : interpreter.reset.globals = place above (new interpreter.settings).globals :=
    size.trans (Nat.add_comm above 1)
  have related :
      (shiftedSimulation interpreter.settings above 0 interpreter.world.identities).Related
      0 _ ((new interpreter.settings).evaluation program fuel)
      (interpreter.reset.evaluation program fuel) :=
    Simulation.evaluation (new interpreter.settings) interpreter.reset
      (shiftedSimulation_entersCalls ..) rfl trivial globals program
  have endings : Ending.Shifted above 0 _ 0 _ ((new interpreter.settings).ending program fuel)
    (interpreter.reset.ending program fuel) := related _ _ (settled.shifted_reset size _)
  rw [run_eq, run_eq]
  generalize (new interpreter.settings).ending program fuel = ending,
    interpreter.reset.ending program fuel = ending' at endings
  cases endings with
  | ok _ linked worlds =>
      exact ⟨.ok linked.resembles, worlds.output, worlds.steps, forall₂_bindings worlds globals⟩
  | error stop _ worlds =>
      exact ⟨.error stop, worlds.output, worlds.steps, forall₂_bindings worlds globals⟩

/-- A name that was bound before the reset, with a function in it. -/
theorem run_reset_binding :
    let place := Location.start none
    let function := Node.lambda [.name "x" place] ⟨[.identifier "x" place], place⟩ place
    let binds : Program := ⟨[.binding (.name "f" place) function true place], place⟩
    let reads : Program := ⟨[.call (.identifier "f" place) [function] place], place⟩
    let used := ((new .default).run binds 2).2
    Reached .default [1] used ∧ used.bindings.map (·.1) = ["f"] ∧
      SameRun ((new .default).run reads 3) (used.reset.run reads 3) := by
  intro place function binds reads used
  have reached : Reached .default [1] used := .run binds 2 .new
  exact ⟨reached, rfl, run_reset reached reads 3⟩

end Interpreter

end Offside
