import Offside.Proofs.Evaluation.Rooted

/-!
# The scopes of an interpreter

Whatever programs an interpreter runs, whether they end with a value or not, and however often it is
reset, from every scope one comes to the built-in functions, through the top level of the program
that opened it. This is so between two programs and at every moment of a program.
-/

namespace Offside

namespace World

/-- What holds of the scopes of a world and of the closures in it, those in the values at hand
included. -/
structure Anchored (tops : List Nat) (world : World) (values : List Value) : Prop where
  /-- The root binds the built-in functions and nothing else. -/
  builtins : world.scopes.get? Eval.builtinScope = some ⟨none, Builtin.bindings⟩
  /-- The way outwards ends, and it goes through no scope twice. -/
  finite : ∀ position < world.scopes.size,
    world.scopes.Path position (world.scopes.chain position) ∧
      (world.scopes.chain position).Nodup
  /-- The way outwards leads through a top level to the root. -/
  ends : ∀ position, world.Inner position → ∃ inner, ∃ top ∈ tops,
    world.scopes.chain position = inner ++ [top, Eval.builtinScope]
  /-- The closures that are bound hold on to scopes of the program. -/
  bound : world.Holds fun _ _ scope => world.Inner scope
  /-- The closures at hand hold on to scopes of the program. -/
  atHand : ∀ value ∈ values, value.Holds fun _ _ scope => world.Inner scope
  /-- The search of a name ends. -/
  finds : ∀ position < world.scopes.size, ∀ name,
    world.scopes.Finds name position (world.scopes.find? name position)
  /-- The names of built-in functions have values everywhere. -/
  named : ∀ position < world.scopes.size, ∀ (function : Builtin) location,
    ∃ value, world.scopes.lookup function.name position location = .ok value

section

variable {tops : List Nat} {world : World} (rooted : world.Rooted tops)

include rooted

theorem Rooted.chain_builtinScope : world.scopes.chain Eval.builtinScope = [Eval.builtinScope] := by
  rw [Scopes.chain, rooted.builtins]

theorem Rooted.chain_inner {position : Nat} (inner : world.Inner position) :
    ∃ rest, ∃ top ∈ tops, world.scopes.chain position = rest ++ [top, Eval.builtinScope] := by
  induction position using Nat.strongRecOn with
  | ind position ih =>
      obtain ⟨scope, found⟩ := Scopes.exists_get? inner.lt_size
      obtain ⟨parent, lt, inside, top⟩ := rooted.parents found inner.ne_builtinScope
      have step : world.scopes.chain position = position :: world.scopes.chain parent := by
        rw [Scopes.chain, found]
        simp only [inside, if_pos lt]
      by_cases outermost : parent = Eval.builtinScope
      · refine ⟨[], position, top outermost, ?_⟩
        rw [step, outermost, rooted.chain_builtinScope]
        rfl
      · obtain ⟨rest, top, member, same⟩ := ih parent lt ⟨outermost, Nat.lt_trans lt inner.lt_size⟩
        exact ⟨position :: rest, top, member, by rw [step, same, List.cons_append]⟩

theorem Rooted.builtinScope_mem_chain {position : Nat} (lt : position < world.scopes.size) :
    Eval.builtinScope ∈ world.scopes.chain position := by
  by_cases outermost : position = Eval.builtinScope
  · rw [outermost, rooted.chain_builtinScope]
    exact List.mem_singleton_self _
  · obtain ⟨rest, top, -, same⟩ := rooted.chain_inner ⟨outermost, lt⟩
    simp [same]

theorem Rooted.exists_lookup {position : Nat} (lt : position < world.scopes.size)
    (function : Builtin) (location : Option Location) :
    ∃ value, world.scopes.lookup function.name position location = .ok value := by
  have named : ((Scope.mk none Builtin.bindings).get? function.name).isSome := by
    cases function <;> rfl
  have found := (Scopes.finds_find? rooted.descending function.name lt).of_path
    (Scopes.path_chain rooted.descending lt) (rooted.builtinScope_mem_chain lt) rooted.builtins
    named
  obtain ⟨owner, found⟩ := Option.isSome_iff_exists.mp found
  obtain ⟨value, read⟩ := Scopes.exists_value? found
  exact ⟨value, by rw [Scopes.lookup, read]⟩

theorem Rooted.anchored {values : List Value}
    (atHand : ∀ value ∈ values, value.Holds fun _ _ scope => world.Inner scope) :
    world.Anchored tops values where
  builtins := rooted.builtins
  finite _ lt :=
    have way := Scopes.path_chain rooted.descending lt
    ⟨way, way.nodup rooted.descending⟩
  ends _ := rooted.chain_inner
  bound := rooted.closures
  atHand := atHand
  finds _ lt name := Scopes.finds_find? rooted.descending name lt
  named _ := rooted.exists_lookup

end

end World

namespace Interpreter

/-- The interpreters that can come of any programs and resets, with the top levels that they have
had. -/
inductive Reached (settings : Settings) : List Nat → Interpreter → Prop
  | new : Reached settings [(new settings).globals] (new settings)
  | run {tops : List Nat} {interpreter : Interpreter} (program : Program) (fuel : Nat)
      (earlier : Reached settings tops interpreter) :
      Reached settings tops (interpreter.run program fuel).2
  | reset {tops : List Nat} {interpreter : Interpreter}
      (earlier : Reached settings tops interpreter) :
      Reached settings (interpreter.reset.globals :: tops) interpreter.reset

/-- The store has one root, and the top level is a scope of the program. -/
structure Settled (tops : List Nat) (interpreter : Interpreter) : Prop where
  rooted : interpreter.world.Rooted tops
  globals : interpreter.world.Inner interpreter.globals

theorem settled_new (settings : Settings) :
    (new settings).Settled [(new settings).globals] := by
  have root : initialScopes.get? Eval.builtinScope = some ⟨none, Builtin.bindings⟩ := rfl
  have top : initialScopes.get? 1 = some ⟨some Eval.builtinScope, []⟩ := rfl
  refine ⟨⟨root, ?_, holds_new settings _⟩, Nat.one_ne_zero, Scopes.lt_size_of_get? top⟩
  intro position scope found inner
  have lt : position < 2 := Scopes.lt_size_of_get? found
  have pos : 0 < position := Nat.pos_of_ne_zero inner
  obtain rfl : position = 1 := by omega
  cases found.symm.trans top
  exact ⟨Eval.builtinScope, Nat.zero_lt_one, rfl, fun _ => List.mem_singleton_self _⟩

section Settled

variable {tops : List Nat} {interpreter : Interpreter} (settled : interpreter.Settled tops)

include settled

theorem Settled.reset : interpreter.reset.Settled (interpreter.reset.globals :: tops) := by
  have rooted : interpreter.world.Rooted (interpreter.reset.globals :: tops) := by
    refine ⟨settled.rooted.builtins, fun found inner => ?_, settled.rooted.closures⟩
    obtain ⟨parent, lt, inside, top⟩ := settled.rooted.parents found inner
    exact ⟨parent, lt, inside, fun outermost => List.mem_cons_of_mem _ (top outermost)⟩
  refine ⟨rooted.push rooted.zero_lt_size fun _ => List.mem_cons_self, ?_, ?_⟩
  · exact Nat.ne_of_gt rooted.zero_lt_size
  · exact (Scopes.size_push ..).symm ▸ Nat.lt_succ_self _

theorem Settled.run (program : Program) (fuel : Nat) :
    (interpreter.run program fuel).2.Settled tops := by
  have start : interpreter.start.Rooted tops := settled.rooted.of_scopes_eq rfl
  have ends := (Offside.rooted interpreter.settings tops fun _ => True).ending start
    ⟨settled.globals.1, settled.globals.2⟩ program (fun _ _ => trivial) fuel
  rw [run_eq]
  generalize interpreter.ending program fuel = ending at ends
  cases ends with
  | ok leads => exact ⟨leads.1, settled.globals.of_persists leads.2⟩
  | error leads => exact ⟨leads.1, settled.globals.of_persists leads.2⟩

/-- Every moment of a run. -/
theorem Settled.meets {program : Program} {fuel : Nat} {moment : Moment} {world : World}
    (meets : interpreter.Meets program fuel moment world) :
    world.Rooted tops ∧ (∀ scope ∈ moment.scopes, world.Inner scope) ∧
      ∀ value ∈ moment.values, value.Holds fun _ _ scope => world.Inner scope := by
  classical
  -- The run is stopped at this moment by a fault without a place, which no program has.
  let mark : Stop := .fault ⟨.general, "", none, none⟩
  let reason (other : Moment) : Stop := if other = moment then mark else .exhausted
  have reason_self : reason moment = mark := if_pos rfl
  let upkeep := Offside.rooted interpreter.settings tops fun world =>
    (∀ scope ∈ moment.scopes, world.Inner scope) ∧
      ∀ value ∈ moment.values, value.Holds fun _ _ scope => world.Inner scope
  obtain ⟨chosen, stopped⟩ := meets
  have allowed : upkeep.Interrupts
      fun moment world => if chosen moment world then some (reason moment) else none := by
    intro world other stop _ scopes values found
    dsimp only at found
    split at found
    · cases found
      by_cases same : other = moment
      · subst same
        rw [reason_self]
        exact fun _ => ⟨scopes, fun value member => rootedFrame_holds (values value member)⟩
      · rw [show reason other = .exhausted from if_neg same]
        trivial
    · cases found
  have start : interpreter.start.Rooted tops := settled.rooted.of_scopes_eq rfl
  have ends := upkeep.endingUntil start ⟨settled.globals.1, settled.globals.2⟩ program
    (fun _ _ => trivial) allowed fuel
  rw [stopped reason, reason_self] at ends
  cases ends with
  | error leads stops => exact ⟨leads.1, stops rfl⟩

end Settled

theorem Reached.settled {settings : Settings} {tops : List Nat} {interpreter : Interpreter}
    (reached : Reached settings tops interpreter) : interpreter.Settled tops := by
  induction reached with
  | new => exact settled_new settings
  | run program fuel _ ih => exact ih.run program fuel
  | reset _ ih => exact ih.reset

/-- Between two programs and at every moment of a program, whether it ends with a value or not, from
every scope one comes through a top level to the built-in functions. -/
theorem anchored_of_reached {settings : Settings} {tops : List Nat} {interpreter : Interpreter}
    (reached : Reached settings tops interpreter) :
    interpreter.world.Anchored tops [] ∧
      ∀ program fuel moment world, interpreter.Meets program fuel moment world →
        world.Anchored tops moment.values ∧ ∀ scope ∈ moment.scopes, world.Inner scope := by
  have settled := reached.settled
  refine ⟨settled.rooted.anchored (List.forall_mem_nil _), ?_⟩
  intro program fuel moment world meets
  obtain ⟨rooted, scopes, values⟩ := settled.meets meets
  exact ⟨rooted.anchored values, scopes⟩

/-- The body of a function that is called after a reset. -/
theorem anchored_of_reached_call :
    let place := Location.start none
    let called := Node.lambda [.name "x" place] ⟨[.identifier "x" place], place⟩ place
    let program : Program := ⟨[.call called [.integer 1 place] place], place⟩
    let interpreter := (new .default).reset
    ∃ world, Reached .default [2, 1] interpreter ∧
      interpreter.Meets program 3 (.evaluating ⟨3, ⟨1, 0⟩⟩ (.identifier "x" place)) world ∧
      world.scopes.size = 4 ∧ world.Anchored [2, 1] [] ∧ world.Inner 3 := by
  intro place called program interpreter
  have reached : Reached .default [2, 1] interpreter := .reset .new
  let chosen (moment : Moment) (_ : World) : Bool :=
    match moment with
    | .evaluating _ (.identifier ..) => true
    | _ => false
  let world := (interpreter.endingUntil
    (fun moment world => if chosen moment world then some .exhausted else none) program 3).world
  have meets :
      interpreter.Meets program 3 (.evaluating ⟨3, ⟨1, 0⟩⟩ (.identifier "x" place)) world :=
    ⟨chosen, fun _ => rfl⟩
  obtain ⟨anchored, inner⟩ := (anchored_of_reached reached).2 _ _ _ _ meets
  exact ⟨world, reached, meets, rfl, anchored, inner 3 List.mem_cons_self⟩

end Interpreter

end Offside
