import Offside.Proofs.Evaluation.Simulation

/-!
# Evaluations in lockstep

Two evaluations in lockstep go through the same worlds as long as both go on. Only limits tell them
apart: the fuel, the number of steps and the depth of calls. All other operations are quiet, which
means that they count no step and enter no call, and what they write comes after what was written.
-/

namespace Offside

/-- The largest number of calls of closures within each other, among the calls made. -/
def peak : List Call → Nat
  | [] => 0
  | .builtin _ :: rest => peak rest
  | .closure _ _ depth :: rest => max (depth + 1) (peak rest)

/-- What is written only grows. -/
def World.Extends (world later : World) : Prop := ∃ text, later.output = world.output ++ text

theorem World.Extends.refl (world : World) : world.Extends world := ⟨"", by simp⟩

theorem World.Extends.trans {first second third : World} (left : first.Extends second)
    (right : second.Extends third) : first.Extends third := by
  obtain ⟨text, written⟩ := left
  obtain ⟨text', written'⟩ := right
  exact ⟨text ++ text', by rw [written', written, String.append_assoc]⟩

/-- Evaluations that count no step and enter no call. -/
structure Quiet {α : Type} (evaluation : Eval α) : Prop where
  steps : ∀ world : World, (Ending.world (evaluation world)).steps = world.steps
  calls : ∀ world : World, peak (Ending.world (evaluation world)).calls = peak world.calls
  output : ∀ world : World, world.Extends (Ending.world (evaluation world))

namespace Quiet

/-- It is enough that nothing but scopes and identities changes. -/
theorem of_same {α : Type} {evaluation : Eval α}
    (same : ∀ world, ∃ scopes identities,
      Ending.world (evaluation world) = { world with scopes, identities }) : Quiet evaluation where
  steps world := by
    obtain ⟨_, _, eq⟩ := same world
    rw [eq]
  calls world := by
    obtain ⟨_, _, eq⟩ := same world
    rw [eq]
  output world := by
    obtain ⟨_, _, eq⟩ := same world
    rw [eq]
    exact .refl world

theorem newIdentity : Quiet Eval.newIdentity := .of_same fun _ => ⟨_, _, rfl⟩

theorem newScope (parent : Nat) : Quiet (Eval.newScope parent) := .of_same fun _ => ⟨_, _, rfl⟩

theorem bindName (rebind : Bool) (scope : Nat) (name : String) (value : Value) :
    Quiet (Eval.bindName rebind scope name value) := by
  refine .of_same fun world => ?_
  rw [Eval.bindName_eq]
  exact ⟨_, _, rfl⟩

theorem lookup (scope : Nat) (name : String) (location : Location) :
    Quiet (Eval.lookup scope name location) := by
  refine .of_same fun world => ⟨world.scopes, world.identities, ?_⟩
  change Ending.world
    (Eval.ofScopes (world.scopes.lookup name scope (some location)) world) = world
  cases world.scopes.lookup name scope (some location) <;> rfl

theorem assign (scope : Nat) (name : String) (value : Value) (location : Location) :
    Quiet (Eval.assign scope name value location) := by
  refine .of_same fun world => ?_
  rw [Eval.assign_eq]
  cases world.scopes.find? name scope <;> exact ⟨_, _, rfl⟩

theorem write (text : String) : Quiet (Eval.write text) where
  steps _ := rfl
  calls _ := rfl
  output _ := ⟨text, rfl⟩

theorem noteBuiltin (name : String) : Quiet (Eval.note (.builtin name)) where
  steps _ := rfl
  calls _ := rfl
  output world := .refl world

theorem enterBuiltin (settings : Settings) (depth : Depth) (builtin : Builtin) :
    Quiet (Eval.enterBuiltin settings depth builtin) := by
  unfold Eval.enterBuiltin
  split
  · exact .of_same fun world => ⟨world.scopes, world.identities, rfl⟩
  · exact noteBuiltin builtin.name

end Quiet

/-- A comparison of evaluations that go through the same worlds. -/
structure Lockstep (Stage : Type) [Preorder Stage] (left right : Settings) extends
    Comparison Stage left right where
  quiet : ∀ {α : Type} {stage} {R : Stage → α → α → Prop} {evaluation : Eval α},
    Quiet evaluation → (∀ later a, stage ≤ later → R later a a) →
    Related stage R evaluation evaluation

/-- Evaluations in lockstep have the same scopes, identities and values. -/
def Lockstep.simulation {Stage : Type} [Preorder Stage] {left right : Settings}
    (lockstep : Lockstep Stage left right) : Simulation Stage left right where
  toComparison := lockstep.toComparison
  links _ := .same
  links_mono _ := ⟨id, id⟩
  unique _ := Links.unique_same
  newIdentity := lockstep.quiet .newIdentity fun _ _ _ => rfl
  newScope := by
    rintro stage parent _ rfl
    exact lockstep.quiet (.newScope parent) fun _ _ _ => rfl
  lookup := by
    rintro stage scope _ name location rfl
    exact lockstep.quiet (.lookup scope name location) fun _ value _ => value.linked_refl
  assign := by
    rintro stage scope _ name value value' location rfl linked
    obtain rfl := Value.linked_same linked
    exact lockstep.quiet (.assign scope name value location) fun _ _ _ => trivial
  bindName := by
    rintro stage scope _ rebind name value value' rfl linked
    obtain rfl := Value.linked_same linked
    exact lockstep.quiet (.bindName rebind scope name value) fun _ _ _ => trivial
  write text := lockstep.quiet (.write text) fun _ _ _ => trivial

end Offside
