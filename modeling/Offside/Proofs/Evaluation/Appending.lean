import Offside.Proofs.Scope.Placement
import Offside.Proofs.Evaluation.Store
import Offside.Proofs.Evaluation.Upkeep

/-!
# What calls change

A call and a block have scopes of their own. What they bind, they bind there. Scopes that exist
before keep their names; their values are changed by updates alone, which only ever append, unless
`=` may bind names anew.

An update reads the old value before it evaluates its operand, and the operand may well update the
same name. So a world is compared with the one at the start of the call, not with the one before a
step: the value that is read begins with the value at the start, and so does the new one.
-/

namespace Offside

/-- How a call may change the value of a name. -/
def Settings.Changes (settings : Settings) (value value' : Value) : Prop :=
  settings.rebindOnAssign = false → value.Extended value'

/-- All scopes of the first world are in the second one, with the same names, and their values were
changed in no other way than calls may. -/
def World.Appends (settings : Settings) (world later : World) : Prop :=
  ∀ position scope, world.scopes.get? position = some scope →
    ∃ scope', later.scopes.get? position = some scope' ∧ Scope.Rel settings.Changes scope scope'

theorem Scope.Rel.refl {α : Type} {R : α → α → Prop} (each : ∀ value, R value value)
    (scope : Scope α) : Scope.Rel R scope scope :=
  ⟨rfl, List.forall₂_same.mpr fun binding _ => ⟨rfl, each binding.2⟩⟩

/-- A name that is bound already may be bound anew, to a value that is related to the first one. -/
theorem Scope.Rel.define_right {α β : Type} {R : α → β → Prop} {scope : Scope α} {scope' : Scope β}
    (related : Scope.Rel R scope scope') {name : String} {old : α}
    (bound : scope.get? name = some old) {value : β} (values : R old value) :
    Scope.Rel R scope (scope'.define name value) where
  parent := related.parent
  bindings := by
    have each := related.bindings
    unfold Scope.get? at bound
    unfold Scope.define
    generalize scope.bindings = bindings, scope'.bindings = bindings' at each bound
    induction each with
    | nil => cases bound
    | @cons binding binding' _ _ first others ih =>
        obtain ⟨key, first⟩ := binding
        obtain ⟨key', first'⟩ := binding'
        obtain ⟨rfl, firsts⟩ := first
        rw [Scope.bind]
        by_cases same : key = name
        · subst same
          rw [List.lookup_cons_self] at bound
          cases bound
          rw [if_pos (beq_self_eq_true key)]
          exact .cons ⟨rfl, values⟩ others
        · rw [List.lookup_cons, beq_false_of_ne (Ne.symm same)] at bound
          rw [if_neg (by simpa using same)]
          exact .cons ⟨rfl, firsts⟩ (ih bound)

section Worlds

variable {settings : Settings} {base world later : World}

theorem World.Appends.refl (world : World) : world.Appends settings world := fun _ scope found =>
  ⟨scope, found, .refl (fun value _ => .same value) scope⟩

theorem World.Appends.size_le (appends : base.Appends settings world) :
    base.scopes.size ≤ world.scopes.size := by
  by_contra short
  obtain ⟨scope, found⟩ := Scopes.exists_get? (Nat.lt_of_not_le short)
  obtain ⟨scope', found', -⟩ := appends _ scope found
  exact Nat.lt_irrefl _ (Scopes.lt_size_of_get? found')

/-- The names of the first scopes are those at the start. -/
theorem World.Appends.bound_iff (appends : base.Appends settings world) {position : Nat}
    {scope scope' : Scope Value} (found : base.scopes.get? position = some scope)
    (found' : world.scopes.get? position = some scope') (name : String) :
    (scope.get? name).isSome = (scope'.get? name).isSome := by
  obtain ⟨scope'', found'', related⟩ := appends position scope found
  cases found'.symm.trans found''
  exact optionRel_isSome (related.get? name)

/-- Where a name is found in one of the first scopes, it was found there earlier too. -/
theorem find?_of_persists (appends : base.Appends settings world)
    (appends' : base.Appends settings later) (persists : world.Persists later) {name : String}
    {position owner : Nat} (found : later.scopes.find? name position = some owner)
    (old : owner < base.scopes.size) (lt : position < world.scopes.size) :
    world.scopes.find? name position = some owner := by
  induction position using Nat.strongRecOn with
  | ind position ih =>
      obtain ⟨scope, present⟩ := Scopes.exists_get? lt
      obtain ⟨scope', present', parent, names⟩ := persists position scope present
      unfold Scopes.find? at found ⊢
      simp only [present, present', parent] at found ⊢
      by_cases bound : (scope'.get? name).isSome
      · rw [if_pos bound] at found
        cases found
        obtain ⟨scope'', first⟩ := Scopes.exists_get? old
        rw [if_pos]
        rw [← appends.bound_iff first present name, appends'.bound_iff first present' name]
        exact bound
      · rw [if_neg bound] at found
        rw [if_neg (fun bound' => bound (names name bound'))]
        generalize scope.parent = outer at found ⊢
        cases outer with
        | none => cases found
        | some parent =>
            dsimp only at found ⊢
            split at found
            · next smaller =>
              rw [if_pos smaller]
              exact ih parent smaller found (smaller.trans lt)
            · cases found

/-! ## Operations -/

theorem World.Appends.of_scopes_eq (appends : base.Appends settings world)
    (same : later.scopes = world.scopes) : base.Appends settings later := by
  unfold World.Appends
  rw [same]
  exact appends

theorem World.Appends.push (appends : base.Appends settings world) (parent : Nat) :
    base.Appends settings { world with scopes := world.scopes.push parent } := by
  intro position scope found
  obtain ⟨scope', found', related⟩ := appends position scope found
  exact ⟨scope', Scopes.get?_push_of_get? found', related⟩

/-- A name may be bound in a new scope, or in one of the first ones where it was bound at the start
to a value that may be changed so. -/
theorem World.Appends.define (appends : base.Appends settings world) {target : Nat} {name : String}
    {value : Value}
    (allowed : ∀ scope, base.scopes.get? target = some scope →
      ∃ old, scope.get? name = some old ∧ settings.Changes old value) :
    base.Appends settings { world with scopes := world.scopes.define target name value } := by
  intro position scope found
  obtain ⟨scope', found', related⟩ := appends position scope found
  by_cases same : target = position
  · subst same
    obtain ⟨old, bound, changes⟩ := allowed scope found
    exact ⟨_, Scopes.get?_define_self found' name value, related.define_right bound changes⟩
  · exact ⟨scope', (Scopes.get?_define_of_ne same name value).trans found', related⟩

end Worlds

/-- Worlds are compared with the one at the start. -/
def appendingFrame (settings : Settings) (base : World) : Frame where
  Sound := base.Appends settings
  Leads world later := base.Appends settings later ∧ world.Persists later
  Code _ _ := True
  Captured _ _ := True
  Exhausts _ := True
  Located _ := True
  Faults _ _ := True
  sound := And.left
  refl appends := ⟨appends, .refl _⟩
  trans first second := ⟨second.1, first.2.trans second.2⟩
  captured_later _ captured := captured
  faults _ _ _ := trivial

section Laws

variable {settings : Settings} {base world : World}

theorem appendingFrame_held (value : Value) : (appendingFrame settings base).Held world value :=
  Value.holds_of_forall (fun _ _ _ => ⟨trivial, trivial⟩) value

theorem appendingFrame_define {target : Nat} {name : String} {value : Value}
    (appends : base.Appends settings world)
    (allowed : ∀ scope, base.scopes.get? target = some scope →
      ∃ old, scope.get? name = some old ∧ settings.Changes old value) :
    (appendingFrame settings base).Leads world
      { world with scopes := world.scopes.define target name value } :=
  ⟨appends.define allowed, world.persists_define target name value⟩

/-- New scopes may bind anything. -/
theorem allowed_of_le {target : Nat} {name : String} {value : Value}
    (new : base.scopes.size ≤ target) (scope : Scope Value)
    (found : base.scopes.get? target = some scope) :
    ∃ old, scope.get? name = some old ∧ settings.Changes old value :=
  absurd (Scopes.lt_size_of_get? found) (Nat.not_lt.mpr new)

/-- A scope that binds a name may bind it anew where that is allowed at all. -/
theorem allowed_of_find? {scope owner : Nat} {name : String} {value : Value}
    (rebinds : settings.rebindOnAssign) (appends : base.Appends settings world)
    (found : world.scopes.find? name scope = some owner) (first : Scope Value)
    (present : base.scopes.get? owner = some first) :
    ∃ old, first.get? name = some old ∧ settings.Changes old value := by
  obtain ⟨scope', _, present', bound'⟩ := Scopes.get?_of_find? found
  have bound := appends.bound_iff present present' name
  rw [bound', Option.isSome_some] at bound
  obtain ⟨old, bound⟩ := Option.isSome_iff_exists.mp bound
  refine ⟨old, bound, fun never => ?_⟩
  rw [rebinds] at never
  cases never

/-- What an update reads begins with the value at the start, if the name belongs to one of the first
scopes. -/
theorem allowed_of_lookup {later : World} {scope : Nat} {name : String} {current result : Value}
    (appends : base.Appends settings world) (appends' : base.Appends settings later)
    (persists : world.Persists later) (lt : scope < world.scopes.size)
    (read : world.scopes.value? name scope = some current) (extended : current.Extended result)
    {owner : Nat} (found : later.scopes.find? name scope = some owner) (first : Scope Value)
    (present : base.scopes.get? owner = some first) :
    ∃ old, first.get? name = some old ∧ settings.Changes old result := by
  have same := find?_of_persists appends appends' persists found (Scopes.lt_size_of_get? present) lt
  obtain ⟨owner', scope', found', present', bound'⟩ := Scopes.value?_eq read
  cases same.symm.trans found'
  obtain ⟨scope'', present'', related⟩ := appends owner first present
  cases present'.symm.trans present''
  have values := related.get? name
  rw [bound'] at values
  generalize first.get? name = bound at values
  cases values with
  | some changes => exact ⟨_, rfl, fun never => (changes never).trans extended⟩

end Laws

/-- Evaluations in new scopes keep to the frame. -/
def appending (settings : Settings) (base : World) : Upkeep settings where
  toFrame := appendingFrame settings base
  Scope world scope := base.scopes.size ≤ scope ∧ scope < world.scopes.size
  Fit _ := True
  exhausts _ := trivial
  scope_later leads within := ⟨within.1, leads.2.lt_size within.2⟩
  scope_captured _ := trivial
  located {node} _ := node.located_anywhere
  located_code _ pattern _ := pattern.located_anywhere
  part _ _ _ := trivial
  code _ := trivial
  body _ _ _ := trivial
  unbound _ _ _ := trivial
  quiet appends same := ⟨appends.of_scopes_eq same, .of_scopes_eq same⟩
  opened {world parent} appends _ :=
    ⟨⟨appends.push parent, world.persists_push parent⟩, appends.size_le, by simp⟩
  value _ _ _ := appendingFrame_held _
  defined _ appends within _ := appendingFrame_define appends (allowed_of_le within.1)
  rebound rebinds appends _ found _ _ :=
    appendingFrame_define appends (allowed_of_find? rebinds appends found)
  updated appends leads within read _ extended found _ :=
    appendingFrame_define leads.1
      (allowed_of_lookup appends leads.1 leads.2 within.2 read extended found)

theorem World.appends_block (settings : Settings) (fuel : Nat) (context : Context)
    (block : Block Node) (world : World) :
    world.Appends settings
      (Ending.world (Eval.evaluate settings fuel context (.block block) world)) := by
  cases fuel with
  | zero => exact .refl world
  | succ fuel =>
      let upkeep := appending settings world
      have performs := (Regime.performs_and_runs upkeep.entersCalls fuel context.depth).1
      let block' : Eval Value := do
        let inner ← Eval.newScope context.scope
        Eval.runBlock settings (Eval.evaluate settings fuel) ⟨inner, context.depth⟩ block
      have related : upkeep.regime.Related ⟨world, .refl world⟩ _ block' block' :=
        Regime.innerBlock performs (.inr ⟨[], block, rfl, trivial, trivial⟩) fun _ _ => trivial
      exact Frame.Keeps.sound related

theorem World.appends_apply (settings : Settings) (fuel : Nat) (depth : Depth) (function : Value)
    (arguments : List Value) (location : Location) (world : World) :
    world.Appends settings
      (Ending.world (Eval.apply settings fuel depth function arguments location world)) := by
  let upkeep := appending settings world
  have related : upkeep.regime.Related ⟨world, .refl world⟩ _
      (Eval.apply settings fuel depth function arguments location)
      (Eval.apply settings fuel depth function arguments location) :=
    (Regime.performs_and_runs upkeep.entersCalls fuel depth).2 trivial
      ⟨rfl, appendingFrame_held function⟩
      (Frame.forall₂_eq_and.mpr ⟨rfl, fun value _ => appendingFrame_held value⟩) trivial
  exact Frame.Keeps.sound related

/-- Calls and blocks append to what existed before, and do nothing else to it. -/
theorem World.appends_calls_and_blocks (settings : Settings) (fuel : Nat) (world : World) :
    (∀ depth function arguments location, world.Appends settings
      (Ending.world (Eval.apply settings fuel depth function arguments location world))) ∧
    ∀ context block, world.Appends settings
      (Ending.world (Eval.evaluate settings fuel context (.block block) world)) :=
  ⟨fun depth function arguments location =>
    appends_apply settings fuel depth function arguments location world,
    fun context block => appends_block settings fuel context block world⟩

end Offside
