import Offside.Proofs.Evaluation.Store
import Offside.Proofs.Evaluation.Upkeep
import Offside.Proofs.Scope.Chain

/-!
# Stores with one root

The scope of the built-in functions is the root of a store, and nothing is ever bound in it. Every
other scope is a top level, which lies in the root, or lies in a scope of the program that comes
before it. Closures hold on to scopes of the program.
-/

namespace Offside

/-- The built-in functions under their names. -/
def Builtin.bindings : List (String × Value) :=
  all.map fun function => (function.name, .builtin function [] none)

namespace World

/-- A scope of the program. -/
structure Inner (world : World) (position : Nat) : Prop where
  ne_builtinScope : position ≠ Eval.builtinScope
  lt_size : position < world.scopes.size

/-- The scopes of a world have one root, in which only the given top levels lie. -/
structure Rooted (tops : List Nat) (world : World) : Prop where
  builtins : world.scopes.get? Eval.builtinScope = some ⟨none, Builtin.bindings⟩
  parents : ∀ {position scope}, world.scopes.get? position = some scope →
    position ≠ Eval.builtinScope → ∃ parent < position, scope.parent = some parent ∧
      (parent = Eval.builtinScope → position ∈ tops)
  closures : world.Holds fun _ _ scope => world.Inner scope

section

variable {tops : List Nat} {world later : World}

theorem Inner.of_persists {position : Nat} (inner : world.Inner position)
    (persists : world.Persists later) : later.Inner position :=
  ⟨inner.ne_builtinScope, persists.lt_size inner.lt_size⟩

theorem Rooted.descending (rooted : world.Rooted tops) : world.scopes.Descending := by
  intro position scope parent found inside
  by_cases outermost : position = Eval.builtinScope
  · subst outermost
    cases rooted.builtins.symm.trans found
    cases inside
  · obtain ⟨parent', lt, inside', -⟩ := rooted.parents found outermost
    cases inside.symm.trans inside'
    exact lt

theorem Rooted.zero_lt_size (rooted : world.Rooted tops) :
    Eval.builtinScope < world.scopes.size :=
  Scopes.lt_size_of_get? rooted.builtins

/-! ## Operations -/

theorem Rooted.of_scopes_eq (rooted : world.Rooted tops) (same : later.scopes = world.scopes) :
    later.Rooted tops := by
  have persists : world.Persists later := .of_scopes_eq same
  refine ⟨same ▸ rooted.builtins, fun found => rooted.parents (same ▸ found), ?_⟩
  intro position scope found
  rw [same] at found
  exact fun binding bound => (rooted.closures position scope found binding bound).mono
    fun _ _ _ inner => inner.of_persists persists

/-- A scope may be opened in a scope of the program, or in the root if it is a top level. -/
theorem Rooted.push (rooted : world.Rooted tops) {parent : Nat} (lt : parent < world.scopes.size)
    (top : parent = Eval.builtinScope → world.scopes.size ∈ tops) :
    Rooted tops { world with scopes := world.scopes.push parent } where
  builtins := Scopes.get?_push_of_get? rooted.builtins
  parents := by
    intro position scope found other
    rw [Scopes.get?_push] at found
    split at found
    · next new =>
      cases found
      exact ⟨parent, new ▸ lt, rfl, new ▸ top⟩
    · exact rooted.parents found other
  closures := (rooted.closures.push parent).mono fun _ _ _ inner =>
    inner.of_persists (world.persists_push parent)

theorem Rooted.define (rooted : world.Rooted tops) {target : Nat}
    (other : target ≠ Eval.builtinScope) (name : String) {value : Value}
    (held : value.Holds fun _ _ scope => world.Inner scope) :
    Rooted tops { world with scopes := world.scopes.define target name value } where
  builtins := (Scopes.get?_define_of_ne other name value).trans rooted.builtins
  parents := by
    intro position scope found inner
    obtain ⟨scope', found', same, -⟩ := Scopes.exists_of_get?_define found
    rw [same]
    exact rooted.parents found' inner
  closures := (rooted.closures.define target name held).mono fun _ _ _ inner =>
    inner.of_persists (world.persists_define target name value)

/-- A name that a scope of the program has bound is found in a scope of the program from then on. -/
theorem Rooted.find?_later (rooted : world.Rooted tops) (persists : world.Persists later)
    {name : String} {position owner : Nat}
    (found : world.scopes.find? name position = some owner) (inner : owner ≠ Eval.builtinScope)
    {owner' : Nat} (found' : later.scopes.find? name position = some owner') :
    owner' ≠ Eval.builtinScope := by
  fun_induction world.scopes.find? name position with
  | case1 => cases found
  | case2 position scope present bound =>
      cases found
      obtain ⟨scope', present', -, names⟩ := persists _ scope present
      rw [Scopes.find?, present'] at found'
      dsimp only at found'
      rw [if_pos (names name bound)] at found'
      cases found'
      exact inner
  | case3 => cases found
  | case4 position scope present unbound parent inside lt ih =>
      obtain ⟨scope', present', inside', names⟩ := persists position scope present
      rw [Scopes.find?, present'] at found'
      dsimp only at found'
      split at found'
      · cases found'
        rintro rfl
        cases rooted.builtins.symm.trans present
        cases inside
      · rw [inside', inside] at found'
        dsimp only at found'
        rw [if_pos lt] at found'
        exact ih found found'
  | case5 => cases found

/-- A name that is bound to something else than a built-in function is bound in the program. -/
theorem Rooted.owner_ne (rooted : world.Rooted tops) {owner : Nat} {scope : Scope Value}
    {name : String} {value : Value} (present : world.scopes.get? owner = some scope)
    (bound : scope.get? name = some value)
    (proper : ∀ function bound identity, value ≠ .builtin function bound identity) :
    owner ≠ Eval.builtinScope := by
  rintro rfl
  cases rooted.builtins.symm.trans present
  have member := Scope.mem_of_get? bound
  obtain ⟨function, -, same⟩ := List.mem_map.mp member
  cases same
  exact proper function [] none rfl

end

end World

/-! ## Evaluation -/

/-- Worlds with one root. Faults without a place are those of an interruption, which may happen in
some worlds only. -/
def rootedFrame (tops : List Nat) (Marked : World → Prop) : Frame where
  Sound := World.Rooted tops
  Leads world later := later.Rooted tops ∧ world.Persists later
  Code _ _ := True
  Captured := World.Inner
  Exhausts _ := True
  Located _ := True
  Faults world fault := fault.location = none → Marked world
  sound := And.left
  refl rooted := ⟨rooted, .refl _⟩
  trans first second := ⟨second.1, first.2.trans second.2⟩
  captured_later leads inner := inner.of_persists leads.2
  faults _ _ _ unplaced := absurd unplaced (Option.some_ne_none _)

theorem rootedFrame_holds {tops : List Nat} {Marked : World → Prop} {world : World} {value : Value}
    (held : (rootedFrame tops Marked).Held world value) :
    value.Holds fun _ _ scope => world.Inner scope :=
  held.mono fun _ _ _ here => here.2

/-- Evaluations in scopes of the program leave the root as it is. -/
def rooted (settings : Settings) (tops : List Nat) (Marked : World → Prop) : Upkeep settings where
  toFrame := rootedFrame tops Marked
  Scope := World.Inner
  Fit _ := True
  exhausts _ := trivial
  scope_later leads inner := inner.of_persists leads.2
  scope_captured inner := inner
  located {node} _ := node.located_anywhere
  located_code _ pattern _ := pattern.located_anywhere
  part _ _ _ := trivial
  code _ := trivial
  body _ _ _ := trivial
  unbound _ _ _ unplaced := absurd unplaced (Option.some_ne_none _)
  quiet rooted same := ⟨rooted.of_scopes_eq same, .of_scopes_eq same⟩
  opened := by
    intro world parent rooted captured
    have new : world.scopes.size ≠ Eval.builtinScope := Nat.ne_of_gt rooted.zero_lt_size
    refine ⟨⟨rooted.push captured.lt_size ?_, world.persists_push parent⟩, new, by simp⟩
    exact fun outermost => absurd outermost captured.ne_builtinScope
  value rooted _ read := (rooted.closures.value? read).mono fun _ _ _ inner => ⟨trivial, inner⟩
  defined name rooted within held :=
    ⟨rooted.define within.ne_builtinScope name (rootedFrame_holds held),
      World.persists_define _ _ name _⟩
  rebound _ rooted _ _ other held :=
    ⟨rooted.define other _ (rootedFrame_holds held), World.persists_define _ _ _ _⟩
  updated := by
    intro world later name scope owner current value rooted leads _ read proper _ found held
    obtain ⟨owner', scope', found', present, bound⟩ := Scopes.value?_eq read
    have inner := rooted.find?_later leads.2 found' (rooted.owner_ne present bound proper) found
    exact ⟨leads.1.define inner name (rootedFrame_holds held), later.persists_define _ name value⟩

end Offside
