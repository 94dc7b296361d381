import Offside.Interpreter
import Offside.Proofs.Scope
import Offside.Proofs.Value.Holding

/-!
# What a store keeps

Worlds of which one follows the other: scopes stay where they are, with the names that they bind.
And worlds in which all closures have a property: they keep it if the values that names are bound to
have it.
-/

namespace Offside

namespace World

/-! ## Scopes that stay -/

/-- All scopes of the first world are in the second one, at the same place, and bind all names that
they have bound. -/
def Persists (world later : World) : Prop :=
  ∀ position scope, world.scopes.get? position = some scope →
    ∃ scope', later.scopes.get? position = some scope' ∧ scope'.parent = scope.parent ∧
      ∀ name, (scope.get? name).isSome → (scope'.get? name).isSome

section

variable {world later : World}

theorem Persists.refl (world : World) : world.Persists world := fun _ scope found =>
  ⟨scope, found, rfl, fun _ bound => bound⟩

theorem Persists.trans {final : World} (first : world.Persists later)
    (second : later.Persists final) : world.Persists final := by
  intro position scope found
  obtain ⟨scope', found', parent, names⟩ := first position scope found
  obtain ⟨scope'', found'', parent', names'⟩ := second position scope' found'
  exact ⟨scope'', found'', parent'.trans parent, fun name bound => names' name (names name bound)⟩

theorem Persists.lt_size (persists : world.Persists later) {position : Nat}
    (lt : position < world.scopes.size) : position < later.scopes.size := by
  obtain ⟨scope, found⟩ := Scopes.exists_get? lt
  obtain ⟨scope', found', -⟩ := persists position scope found
  exact Scopes.lt_size_of_get? found'

theorem Persists.of_scopes_eq (same : later.scopes = world.scopes) :
    world.Persists later := by
  unfold Persists
  rw [same]
  exact Persists.refl world

theorem persists_push (world : World) (parent : Nat) :
    world.Persists { world with scopes := world.scopes.push parent } := fun _ scope found =>
  ⟨scope, Scopes.get?_push_of_get? found, rfl, fun _ bound => bound⟩

theorem persists_define (world : World) (target : Nat) (name : String) (value : Value) :
    world.Persists { world with scopes := world.scopes.define target name value } := by
  intro position scope found
  by_cases same : target = position
  · subst same
    refine ⟨scope.define name value, Scopes.get?_define_self found name value, rfl, ?_⟩
    intro other bound
    rw [Scope.get?_define]
    split
    · rfl
    · exact bound
  · exact ⟨scope, (Scopes.get?_define_of_ne same name value).trans found, rfl,
      fun _ bound => bound⟩

end

/-! ## Closures of a store -/

/-- All closures that are bound in a world have a property. -/
def Holds (P : List Pattern → Block Node → Nat → Prop) (world : World) : Prop :=
  ∀ position scope, world.scopes.get? position = some scope →
    ∀ binding ∈ scope.bindings, binding.2.Holds P

variable {P Q : List Pattern → Block Node → Nat → Prop} {world : World}

theorem Holds.mono (holds : world.Holds P) (implies : ∀ parameters body scope,
    P parameters body scope → Q parameters body scope) : world.Holds Q :=
  fun position scope found binding bound => (holds position scope found binding bound).mono implies

theorem Holds.push (holds : world.Holds P) (parent : Nat) :
    Holds P { world with scopes := world.scopes.push parent } := by
  intro position scope found binding bound
  rw [Scopes.get?_push] at found
  split at found
  · cases found
    cases bound
  · exact holds position scope found binding bound

theorem Holds.define (holds : world.Holds P) (target : Nat) (name : String) {value : Value}
    (held : value.Holds P) :
    Holds P { world with scopes := world.scopes.define target name value } := by
  intro position scope found binding bound
  obtain ⟨scope', found', -, bindings⟩ := Scopes.exists_of_get?_define found
  rcases bindings binding bound with bound | same
  · exact holds position scope' found' binding bound
  · exact same ▸ held

theorem Holds.value? (holds : world.Holds P) {name : String} {position : Nat} {value : Value}
    (read : world.scopes.value? name position = some value) : value.Holds P := by
  obtain ⟨owner, scope, -, present, bound⟩ := Scopes.value?_eq read
  exact holds owner scope present _ (Scope.mem_of_get? bound)

end World

/-- At the start there are no closures. -/
theorem Interpreter.holds_new (settings : Settings) (P : List Pattern → Block Node → Nat → Prop) :
    (new settings).world.Holds P := by
  have defined (functions : List Builtin) (world : World) (holds : world.Holds P) :
      World.Holds P { world with
        scopes := functions.foldl (fun scopes function =>
          scopes.define Eval.builtinScope function.name (.builtin function [] none))
          world.scopes } := by
    induction functions generalizing world with
    | nil => exact holds
    | cons function rest ih =>
        have held : Value.Holds P (.builtin function [] none) := .builtin (List.forall_mem_nil _)
        exact ih _ (holds.define Eval.builtinScope function.name held)
  have root : World.Holds P ⟨Scopes.root, 0, "", 0, []⟩ := by
    intro position scope found binding bound
    rw [Scopes.get?, Scopes.root, List.getElem?_toArray] at found
    obtain ⟨rfl⟩ := List.mem_singleton.mp (List.mem_of_getElem? found)
    cases bound
  exact (defined Builtin.all _ root).push Eval.builtinScope

end Offside
