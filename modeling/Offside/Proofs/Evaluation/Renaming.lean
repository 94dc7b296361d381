import Mathlib.Data.Nat.Basic
import Offside.Proofs.Evaluation.Simulation
import Offside.Proofs.Scope.Placement

/-!
# Identities of functions and positions of scopes

Identities are only ever compared, and new ones are always larger than all that were given out. So
an evaluation that starts with more identities given out does the same, with the new identities
renamed. In the same way an evaluation does not depend on how many scopes there are between the root
and its own ones.
-/

namespace Offside

theorem forall₂_left {α β : Type} {R : α → β → Prop} {P : α → Prop} {left : List α} {right : List β}
    (each : List.Forall₂ R left right) (implies : ∀ a b, R a b → P a) : ∀ a ∈ left, P a :=
  ((List.forall₂_and_left left right).mp (each.imp fun a b holds => ⟨implies a b holds, holds⟩)).1

/-! ## Renamed identities -/

/-- Identities from `start` on, moved up by `gap`. -/
def shift (start gap identity : Nat) : Nat := if identity < start then identity else identity + gap

theorem shift_injective (start gap : Nat) : Function.Injective (shift start gap) := by
  intro first second same
  unfold shift at same
  split at same <;> split at same <;> omega

/-- The identities below `bound` correspond to the shifted ones, and scopes to those that stand
`above` positions later. -/
def shiftedLinks (above start gap bound : Nat) : Links :=
  ⟨fun position position' => position' = place above position,
    fun identity identity' => identity < bound ∧ identity' = shift start gap identity⟩

/-- Worlds of which the second one has `gap` more identities given out, and `above` more scopes. -/
structure World.Shifted (above start gap bound : Nat) (world world' : World) : Prop where
  steps : world.steps = world'.steps
  output : world.output = world'.output
  calls : world.calls = world'.calls
  identities : world.identities = bound
  identities' : world'.identities = bound + gap
  started : start ≤ bound
  scopes : Scopes.Placed above (Value.Linked (shiftedLinks above start gap bound)) world.scopes
    world'.scopes

/-- Endings with related results, or with the same reason to stop, in worlds shifted likewise. -/
inductive Ending.Shifted {α β : Type} (above start gap bound : Nat) (R : Nat → α → β → Prop) :
    Ending α → Ending β → Prop
  | ok {a : α} {b : β} {world world' : World} {later : Nat} (le : bound ≤ later)
      (related : R later a b) (worlds : world.Shifted above start gap later world') :
      Shifted above start gap bound R (.ok a world) (.ok b world')
  | error (stop : Stop) {world world' : World} {later : Nat} (le : bound ≤ later)
      (worlds : world.Shifted above start gap later world') :
      Shifted above start gap bound R (.error stop world) (.error stop world')

theorem shiftedLinks_mono (above start gap : Nat) {bound later : Nat} (le : bound ≤ later) :
    (shiftedLinks above start gap bound).Le (shiftedLinks above start gap later) where
  scope same := same
  identity := fun ⟨below, same⟩ => ⟨Nat.lt_of_lt_of_le below le, same⟩

theorem shiftedLinks_unique (above start gap bound : Nat) :
    (shiftedLinks above start gap bound).Unique := by
  rintro first _ second _ ⟨-, rfl⟩ ⟨-, rfl⟩
  exact (shift_injective start gap).eq_iff.symm

theorem Ending.Shifted.earlier {α β : Type} {above start gap bound later : Nat}
    {R : Nat → α → β → Prop} {ending : Ending α} {ending' : Ending β} (le : bound ≤ later)
    (shifted : Ending.Shifted above start gap later R ending ending') :
    Ending.Shifted above start gap bound R ending ending' := by
  cases shifted with
  | ok le' related worlds => exact .ok (le.trans le') related worlds
  | error stop le' worlds => exact .error stop (le.trans le') worlds

section Operations

variable {above start gap bound : Nat} {world world' : World}
  (worlds : world.Shifted above start gap bound world')

include worlds

theorem World.Shifted.tick (settings : Settings) (location : Location) :
    Ending.Shifted above start gap bound (fun _ _ _ => True) (Eval.tick settings location world)
      (Eval.tick settings location world') := by
  have counted : World.Shifted above start gap bound { world with steps := world.steps + 1 }
      { world' with steps := world'.steps + 1 } := { worlds with steps := by rw [worlds.steps] }
  rw [Eval.tick_eq, Eval.tick_eq, worlds.steps]
  rw [worlds.steps] at counted
  cases settings.maxSteps with
  | none => exact .ok le_rfl trivial counted
  | some limit =>
      dsimp only
      split
      · exact .error _ le_rfl counted
      · exact .ok le_rfl trivial counted

theorem World.Shifted.newIdentity :
    Ending.Shifted above start gap bound
      (fun later => (shiftedLinks above start gap later).identity)
      (Eval.newIdentity world) (Eval.newIdentity world') := by
  have new : (shiftedLinks above start gap (bound + 1)).identity world.identities
      world'.identities := by
    rw [worlds.identities, worlds.identities']
    refine ⟨Nat.lt_succ_self bound, ?_⟩
    rw [shift, if_neg (Nat.not_lt.mpr worlds.started)]
  refine .ok (Nat.le_succ bound) new ?_
  exact {
    worlds with
    identities := by simp [worlds.identities]
    identities' := by simp [worlds.identities']; omega
    started := worlds.started.trans (Nat.le_succ bound)
    scopes := worlds.scopes.mono fun _ _ => Value.Linked.mono
      (shiftedLinks_mono above start gap (Nat.le_succ bound)) }

theorem World.Shifted.newScope (parent : Nat) :
    Ending.Shifted above start gap bound (fun later => (shiftedLinks above start gap later).scope)
      (Eval.newScope parent world) (Eval.newScope (place above parent) world') :=
  .ok le_rfl (worlds.scopes.size.trans worlds.scopes.next.symm)
    { worlds with scopes := worlds.scopes.push parent }

theorem World.Shifted.define (scope : Nat) (name : String) {value value' : Value}
    (linked : Value.Linked (shiftedLinks above start gap bound) value value') :
    Ending.Shifted above start gap bound (fun _ _ _ => True) (Eval.define scope name value world)
      (Eval.define (place above scope) name value' world') :=
  .ok le_rfl trivial { worlds with scopes := worlds.scopes.define scope name linked }

theorem World.Shifted.bindName (rebind : Bool) (scope : Nat) (name : String) {value value' : Value}
    (linked : Value.Linked (shiftedLinks above start gap bound) value value') :
    Ending.Shifted above start gap bound (fun _ _ _ => True)
      (Eval.bindName rebind scope name value world)
      (Eval.bindName rebind (place above scope) name value' world') := by
  rw [Eval.bindName_eq, Eval.bindName_eq, worlds.scopes.find?]
  cases rebind with
  | false => exact worlds.define scope name linked
  | true =>
      simp only [if_true]
      cases world.scopes.find? name scope with
      | none => exact worlds.define scope name linked
      | some owner =>
          simp only [Option.map_some, place_eq_builtinScope]
          split
          · exact worlds.define scope name linked
          · exact worlds.define owner name linked

theorem World.Shifted.lookup (scope : Nat) (name : String) (location : Location) :
    Ending.Shifted above start gap bound
      (fun later => Value.Linked (shiftedLinks above start gap later))
      (Eval.lookup scope name location world)
      (Eval.lookup (place above scope) name location world') := by
  change Ending.Shifted above start gap bound _
    (Eval.ofScopes (world.scopes.lookup name scope (some location)) world)
    (Eval.ofScopes (world'.scopes.lookup name (place above scope) (some location)) world')
  have found := worlds.scopes.value? name scope
  unfold Scopes.lookup
  rw [worlds.scopes.unbound]
  generalize world.scopes.value? name scope = value,
    world'.scopes.value? name (place above scope) = value' at found
  cases found with
  | none => exact .error _ le_rfl worlds
  | some linked => exact .ok le_rfl linked worlds

theorem World.Shifted.assign (scope : Nat) (name : String) {value value' : Value}
    (linked : Value.Linked (shiftedLinks above start gap bound) value value')
    (location : Location) :
    Ending.Shifted above start gap bound (fun _ _ _ => True)
      (Eval.assign scope name value location world)
      (Eval.assign (place above scope) name value' location world') := by
  rw [Eval.assign_eq, Eval.assign_eq, worlds.scopes.find?, worlds.scopes.unbound]
  cases world.scopes.find? name scope with
  | none => exact .error _ le_rfl worlds
  | some owner => exact worlds.define owner name linked

theorem World.Shifted.write (text : String) :
    Ending.Shifted above start gap bound (fun _ _ _ => True) (Eval.write text world)
      (Eval.write text world') :=
  .ok le_rfl trivial { worlds with output := by simp [worlds.output] }

theorem World.Shifted.note (call : Call) :
    Ending.Shifted above start gap bound (fun _ _ _ => True) (Eval.note call world)
      (Eval.note call world') :=
  .ok le_rfl trivial { worlds with calls := by simp [worlds.calls] }

theorem World.Shifted.enterBuiltin (settings : Settings) (depth : Depth) (builtin : Builtin) :
    Ending.Shifted above start gap bound (fun _ _ _ => True)
      (Eval.enterBuiltin settings depth builtin world)
      (Eval.enterBuiltin settings depth builtin world') := by
  unfold Eval.enterBuiltin
  split
  · exact .error _ le_rfl worlds
  · exact worlds.note _

end Operations

/-- Evaluations in worlds with shifted identities and scopes do the same. -/
def shiftedSimulation (settings : Settings) (above start gap : Nat) :
    Simulation Nat settings settings where
  Permits _ _ _ := True
  surplus := 0
  Related bound R first second := ∀ world world', world.Shifted above start gap bound world' →
    Ending.Shifted above start gap bound R (first world) (second world')
  rebind := rfl
  permits_mono _ permits := permits
  permits_less permits := permits
  permits_inBuiltin permits := permits
  pure related _ _ worlds := .ok le_rfl related worlds
  bind := by
    intro α β γ δ bound R S first first' next next' related each world world' worlds
    change Ending.Shifted above start gap bound S (EStateM.bind first next world)
      (EStateM.bind first' next' world')
    have endings := related world world' worlds
    unfold EStateM.bind
    generalize first world = ending, first' world' = ending' at endings
    cases endings with
    | ok le holds worlds => exact (each _ _ _ le holds _ _ worlds).earlier le
    | error stop le worlds => exact .error stop le worlds
  stop reason _ _ worlds := .error reason le_rfl worlds
  exhausted some := absurd some (Nat.lt_irrefl 0)
  tick location _ _ worlds := worlds.tick settings location
  enterBuiltin builtin _ _ _ worlds := worlds.enterBuiltin settings _ builtin
  links := shiftedLinks above start gap
  links_mono := shiftedLinks_mono above start gap
  unique := shiftedLinks_unique above start gap
  newIdentity _ _ worlds := worlds.newIdentity
  newScope := by
    rintro bound parent _ rfl world world' worlds
    exact worlds.newScope parent
  lookup := by
    rintro bound scope _ name location rfl world world' worlds
    exact worlds.lookup scope name location
  assign := by
    rintro bound scope _ name value value' location rfl linked world world' worlds
    exact worlds.assign scope name linked location
  bindName := by
    rintro bound scope _ rebind name value value' rfl linked world world' worlds
    exact worlds.bindName rebind scope name linked
  write text _ _ worlds := worlds.write text

theorem shiftedSimulation_entersCalls (settings : Settings) (above start gap : Nat) :
    (shiftedSimulation settings above start gap).EntersCalls :=
  Simulation.entersCalls (fun _ _ _ _ _ worlds => worlds.note _) fun _ => .inl rfl

/-! ## Coherent worlds -/

/-- The functions in a value have identities below a bound. -/
def Value.Within (bound : Nat) (value : Value) : Prop :=
  ∀ identity ∈ value.identities, identity < bound

instance (bound : Nat) (value : Value) : Decidable (value.Within bound) :=
  inferInstanceAs (Decidable (∀ identity ∈ value.identities, identity < bound))

/-- The functions that names are bound to have identities that were given out. -/
def World.Coherent (world : World) : Prop :=
  ∀ scope ∈ world.scopes.table, ∀ binding ∈ scope.bindings, binding.2.Within world.identities

theorem Value.Within.linked {bound : Nat} {value : Value} (within : value.Within bound)
    (gap : Nat) :
    Value.Linked (shiftedLinks 0 bound gap bound) value value :=
  Value.linked_self (fun position => (place_zero position).symm) fun identity found =>
    ⟨within identity found, (if_pos (within identity found)).symm⟩

theorem Value.Linked.within {above start gap bound : Nat} {value value' : Value}
    (linked : Value.Linked (shiftedLinks above start gap bound) value value') :
    value.Within bound := by
  intro identity found
  obtain ⟨_, below, -⟩ := linked.exists_identity identity found
  exact below

theorem World.Coherent.shifted {world : World} (coherent : world.Coherent) (gap : Nat) :
    world.Shifted 0 world.identities gap world.identities
      { world with identities := world.identities + gap } where
  steps := rfl
  output := rfl
  calls := rfl
  identities := rfl
  identities' := rfl
  started := le_rfl
  scopes := Scopes.placed_zero.mpr <| List.forall₂_same.mpr fun scope found =>
    ⟨rfl, List.forall₂_same.mpr fun binding bound =>
      ⟨rfl, (coherent scope (by simpa using found) binding bound).linked gap⟩⟩

theorem World.Shifted.coherent {start gap bound : Nat} {world world' : World}
    (worlds : world.Shifted 0 start gap bound world') : world.Coherent := by
  intro scope found
  rw [worlds.identities]
  refine forall₂_left (P := fun scope => ∀ binding ∈ scope.bindings, binding.2.Within bound)
    (Scopes.placed_zero.mp worlds.scopes) (fun _ _ related => ?_) scope (by simpa using found)
  exact forall₂_left related.bindings fun _ _ binding => binding.2.within

/-- An application does the same if more identities were given out before it. -/
theorem World.Coherent.apply {world : World} (coherent : world.Coherent) {function : Value}
    (within : function.Within world.identities) {arguments : List Value}
    (each : ∀ argument ∈ arguments, argument.Within world.identities) (settings : Settings)
    (gap fuel : Nat) (depth : Depth) (location : Location) :
    Ending.Shifted 0 world.identities gap world.identities
      (fun later => Value.Linked (shiftedLinks 0 world.identities gap later))
      (Eval.apply settings fuel depth function arguments location world)
      (Eval.apply settings fuel depth function arguments location
        { world with identities := world.identities + gap }) := by
  have enters := shiftedSimulation_entersCalls settings 0 world.identities gap
  exact Simulation.apply enters trivial (within.linked gap)
    (List.forall₂_same.mpr fun argument found => (each argument found).linked gap) location _ _
    (coherent.shifted gap)

/-! ## Coherent interpreters -/

namespace Interpreter

theorem coherent_new (settings : Settings) : (new settings).world.Coherent := by
  have defined (functions : List Builtin) (scopes : Scopes Value)
      (related : Scopes.Placed 0 (Value.Linked (shiftedLinks 0 0 0 0)) scopes scopes) :
      let define (scopes : Scopes Value) (function : Builtin) :=
        scopes.define Eval.builtinScope function.name (.builtin function [] none)
      Scopes.Placed 0 (Value.Linked (shiftedLinks 0 0 0 0)) (functions.foldl define scopes)
        (functions.foldl define scopes) := by
    induction functions generalizing scopes with
    | nil => exact related
    | cons function rest ih =>
        exact ih _ (related.define Eval.builtinScope function.name (.builtin .nil .none))
  have root : Scopes.Placed 0 (Value.Linked (shiftedLinks 0 0 0 0)) Scopes.root Scopes.root :=
    Scopes.placed_zero.mpr (.cons ⟨rfl, .nil⟩ .nil)
  have worlds : World.Shifted 0 0 0 0 (new settings).world (new settings).world :=
    ⟨rfl, rfl, rfl, rfl, rfl, le_rfl, (defined Builtin.all _ root).push Eval.builtinScope⟩
  exact worlds.coherent

/-- Every program leaves an interpreter coherent, whether it ends with a value or not. -/
theorem coherent_run {interpreter : Interpreter} (coherent : interpreter.world.Coherent)
    (program : Program) (fuel : Nat) : (interpreter.run program fuel).2.world.Coherent := by
  have coherent : interpreter.start.Coherent := coherent
  have related : (shiftedSimulation interpreter.settings 0 interpreter.world.identities 0).Related
      interpreter.world.identities _ (interpreter.evaluation program fuel)
      (interpreter.evaluation program fuel) :=
    Simulation.evaluation interpreter interpreter (shiftedSimulation_entersCalls ..) rfl trivial
      (place_zero interpreter.globals).symm program
  have shifted : Ending.Shifted 0 _ 0 _ _ (interpreter.ending program fuel)
      (interpreter.ending program fuel) := related _ _ (coherent.shifted 0)
  rw [run_eq]
  generalize interpreter.ending program fuel = ending at shifted
  cases shifted with
  | ok _ _ worlds => exact worlds.coherent
  | error _ _ worlds => exact worlds.coherent

end Interpreter

end Offside
