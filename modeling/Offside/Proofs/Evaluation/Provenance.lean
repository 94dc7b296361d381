import Offside.Proofs.Interpreter.Heap

/-!
# Where code comes from

The code that a program goes through is its own, or that of a function which an earlier program left
within reach of the top level. Top levels that were forgotten are out of reach, with all functions
that are bound in them: no scope of the present top level lies in one of theirs.
-/

namespace Offside

/-! ## Code and its places -/

/-- A node stands in a block, perhaps in the body of a function. -/
inductive Block.Contains (block : Block Node) : Node → Prop
  | statement {node : Node} (member : node ∈ block.statements) : Contains block node
  | part {node part : Node} (within : Contains block node) (member : part ∈ node.parts) :
      Contains block part

/-- What stands in the body of a function stands where the function does. -/
theorem Block.Contains.body {block body : Block Node} {parameters : List Pattern}
    {location : Location} (within : block.Contains (.lambda parameters body location))
    {node : Node} (inner : body.Contains node) : block.Contains node := by
  induction inner with
  | statement member => exact within.part member
  | part _ member ih => exact ih.part member

theorem Block.All.of_contains {P : Node → Prop} {block : Block Node} (all : block.All P)
    {node : Node} (within : block.Contains node) : P node := by
  have all : node.All P := by
    induction within with
    | statement member => exact all _ member
    | part _ member ih =>
        cases ih with
        | intro _ parts => exact parts _ member
  cases all with
  | intro here _ => exact here

/-- A pattern or a pattern in it has a place. -/
inductive Pattern.HasPlace : Pattern → Location → Prop
  | name {bound : String} {location : Location} : HasPlace (.name bound location) location
  | tuple {elements : List Pattern} {location : Location} :
      HasPlace (.tuple elements location) location
  | element {elements : List Pattern} {element : Pattern} {place location : Location}
      (member : element ∈ elements) (within : HasPlace element location) :
      HasPlace (.tuple elements place) location

theorem Pattern.Located.mono {P Q : Location → Prop} (implies : ∀ location, P location → Q location)
    {pattern : Pattern} (located : pattern.Located P) : pattern.Located Q := by
  induction located with
  | name here => exact .name (implies _ here)
  | tuple here _ ih => exact .tuple (implies _ here) ih

theorem Pattern.located_hasPlace (pattern : Pattern) : pattern.Located pattern.HasPlace := by
  induction pattern using Pattern.induction with
  | name bound location => exact .name .name
  | tuple elements location ih =>
      exact .tuple .tuple fun element member =>
        (ih element member).mono fun _ => .element member

theorem Pattern.Located.of_hasPlace {P : Location → Prop} {pattern : Pattern} {location : Location}
    (located : pattern.Located P) (place : pattern.HasPlace location) : P location := by
  induction place with
  | name | tuple =>
      cases located
      assumption
  | element member _ ih =>
      cases located with
      | tuple _ each => exact ih (each _ member)

/-- A node or a pattern of it has a place. -/
def Node.HasPlace (node : Node) (location : Location) : Prop :=
  location = node.location ∨ ∃ pattern ∈ node.patterns, pattern.HasPlace location

theorem Node.Located.mono {P Q : Location → Prop} (implies : ∀ location, P location → Q location)
    {node : Node} (located : node.Located P) : node.Located Q :=
  ⟨implies _ located.location, fun pattern member => (located.patterns pattern member).mono implies⟩

theorem Node.located_hasPlace (node : Node) : node.Located node.HasPlace :=
  ⟨.inl rfl, fun pattern member =>
    pattern.located_hasPlace.mono fun _ place => .inr ⟨pattern, member, place⟩⟩

/-- Something that stands in a block has a place. -/
def Block.HasPlace (block : Block Node) (location : Location) : Prop :=
  ∃ node, block.Contains node ∧ node.HasPlace location

theorem Block.All.of_hasPlace {P : Location → Prop} {block : Block Node} {location : Location}
    (located : block.All (Node.Located P)) (place : block.HasPlace location) : P location := by
  obtain ⟨node, within, rfl | ⟨pattern, member, place⟩⟩ := place
  · exact (located.of_contains within).location
  · exact ((located.of_contains within).patterns pattern member).of_hasPlace place

/-- A function with the given parameters and body is written in a block. -/
def Block.Writes (block : Block Node) (parameters : List Pattern) (body : Block Node) : Prop :=
  ∃ location, block.Contains (.lambda parameters body location)

/-- The parameters or the body of a function have a place. -/
def FunctionPlace (parameters : List Pattern) (body : Block Node) (location : Location) : Prop :=
  (∃ pattern ∈ parameters, pattern.HasPlace location) ∨ body.HasPlace location

/-- The places of a function are places of the block in which it is written. -/
theorem Block.Writes.hasPlace {block body : Block Node} {parameters : List Pattern}
    (writes : block.Writes parameters body) {location : Location}
    (place : FunctionPlace parameters body location) : block.HasPlace location := by
  obtain ⟨_, within⟩ := writes
  rcases place with place | ⟨node, inner, place⟩
  · exact ⟨_, within, .inr place⟩
  · exact ⟨node, within.body inner, place⟩

/-! ## Scopes within reach -/

/-- The root, and the scopes from a top level on. -/
def Near (top position : Nat) : Prop := position = Eval.builtinScope ∨ top ≤ position

namespace World

/-- From the scopes of a top level one comes to no scope before it other than the root, and the
functions that are bound in them have a property. -/
structure Confined (Known : List Pattern → Block Node → Prop) (top : Nat) (world : World) :
    Prop where
  le_size : top ≤ world.scopes.size
  parents : ∀ {position scope parent}, world.scopes.get? position = some scope →
    Near top position → scope.parent = some parent → Near top parent
  closures : ∀ {position scope}, world.scopes.get? position = some scope → Near top position →
    ∀ binding ∈ scope.bindings,
      binding.2.Holds fun parameters body scope => Known parameters body ∧ Near top scope

variable {Known Known' : List Pattern → Block Node → Prop} {top : Nat} {world later : World}

namespace Confined

theorem mono (confined : world.Confined Known top)
    (implies : ∀ parameters body, Known parameters body → Known' parameters body) :
    world.Confined Known' top where
  le_size := confined.le_size
  parents := confined.parents
  closures found near binding bound :=
    (confined.closures found near binding bound).mono fun parameters body _ known =>
      ⟨implies parameters body known.1, known.2⟩

theorem of_scopes_eq (confined : world.Confined Known top) (same : later.scopes = world.scopes) :
    later.Confined Known top where
  le_size := same ▸ confined.le_size
  parents found := confined.parents (same ▸ found)
  closures found := confined.closures (same ▸ found)

theorem push (confined : world.Confined Known top) {parent : Nat} (near : Near top parent) :
    Confined Known top { world with scopes := world.scopes.push parent } where
  le_size := by
    rw [Scopes.size_push]
    exact Nat.le_succ_of_le confined.le_size
  parents := by
    intro position scope outer found within inside
    rw [Scopes.get?_push] at found
    split at found
    · cases found
      cases inside
      exact near
    · exact confined.parents found within inside
  closures := by
    intro position scope found within
    rw [Scopes.get?_push] at found
    split at found
    · cases found
      exact List.forall_mem_nil _
    · exact confined.closures found within

theorem define (confined : world.Confined Known top) (target : Nat) (name : String) {value : Value}
    (held : value.Holds fun parameters body scope => Known parameters body ∧ Near top scope) :
    Confined Known top { world with scopes := world.scopes.define target name value } := by
  refine ⟨?_, ?_, ?_⟩
  · rw [Scopes.size_define]
    exact confined.le_size
  · intro position scope parent found within inside
    obtain ⟨scope', found', same, -⟩ := Scopes.exists_of_get?_define found
    exact confined.parents found' within (same.symm.trans inside)
  · intro position scope found within binding bound
    obtain ⟨scope', found', -, bindings⟩ := Scopes.exists_of_get?_define found
    rcases bindings binding bound with bound | same
    · exact confined.closures found' within binding bound
    · exact same ▸ held

theorem near_of_find? (confined : world.Confined Known top) {name : String}
    {position owner : Nat} (near : Near top position)
    (found : world.scopes.find? name position = some owner) : Near top owner := by
  fun_induction world.scopes.find? name position with
  | case1 => cases found
  | case2 position scope present bound =>
      cases found
      exact near
  | case3 => cases found
  | case4 position scope present unbound parent inside lt ih =>
      exact ih (confined.parents present near inside) found
  | case5 => cases found

theorem value? (confined : world.Confined Known top) {name : String} {position : Nat}
    (near : Near top position) {value : Value}
    (read : world.scopes.value? name position = some value) :
    value.Holds fun parameters body scope => Known parameters body ∧ Near top scope := by
  obtain ⟨owner, scope, found, present, bound⟩ := Scopes.value?_eq read
  exact confined.closures present (confined.near_of_find? near found) _ (Scope.mem_of_get? bound)

end Confined

/-- A top level that was just opened in the root leads to no functions. -/
theorem confined_push (builtins : world.scopes.get? Eval.builtinScope =
      some ⟨none, Builtin.bindings⟩) :
    Confined Known world.scopes.size
      { world with scopes := world.scopes.push Eval.builtinScope } := by
  have cases {position : Nat} {scope : Scope Value} (near : Near world.scopes.size position)
      (found : (world.scopes.push Eval.builtinScope).get? position = some scope) :
      scope = ⟨none, Builtin.bindings⟩ ∨ scope = ⟨some Eval.builtinScope, []⟩ := by
    rw [Scopes.get?_push] at found
    split at found
    · exact .inr (Option.some.inj found).symm
    · rcases near with rfl | le
      · exact .inl (Option.some.inj (found.symm.trans builtins))
      · cases (Scopes.get?_eq_none le).symm.trans found
  refine ⟨?_, ?_, ?_⟩
  · rw [Scopes.size_push]
    exact Nat.le_succ _
  · intro position scope parent found near inside
    rcases cases near found with rfl | rfl
    · cases inside
    · cases inside
      exact .inl rfl
  · intro position scope found near
    rcases cases near found with rfl | rfl
    · intro binding bound
      obtain ⟨function, -, rfl⟩ := List.mem_map.mp bound
      exact .builtin (List.forall_mem_nil _)
    · exact List.forall_mem_nil _

end World

/-! ## Runs -/

/-- A place of a program or of a known function. -/
def KnownPlace (Known : List Pattern → Block Node → Prop) (program : Program)
    (location : Location) : Prop :=
  program.HasPlace location ∨
    ∃ parameters body, Known parameters body ∧ FunctionPlace parameters body location

/-- Worlds in which the functions within reach are known ones, and faults at places of a program or
of a known function. -/
def provenanceFrame (Known : List Pattern → Block Node → Prop) (program : Program) (top : Nat) :
    Frame where
  Sound := World.Confined Known top
  Leads _ later := later.Confined Known top
  Code := Known
  Captured _ := Near top
  Exhausts _ := True
  Located := KnownPlace Known program
  Faults _ fault := ∃ location, fault.location = some location ∧ KnownPlace Known program location
  sound sound := sound
  refl sound := sound
  trans _ sound := sound
  captured_later _ near := near
  faults _ _ here := ⟨_, rfl, here⟩

/-- Evaluations go through nodes of the program and of known functions. -/
def provenance (settings : Settings) {Known : List Pattern → Block Node → Prop} {program : Program}
    (written : ∀ parameters body, program.Writes parameters body → Known parameters body)
    (inner : ∀ {parameters body}, Known parameters body →
      ∀ parameters' body', body.Writes parameters' body' → Known parameters' body') (top : Nat) :
    Upkeep settings where
  toFrame := provenanceFrame Known program top
  Scope _ := Near top
  Fit node := program.Contains node ∨
    ∃ parameters body, Known parameters body ∧ body.Contains node
  exhausts _ := trivial
  scope_later _ near := near
  scope_captured near := near
  located {node} fit := by
    refine node.located_hasPlace.mono fun location place => ?_
    rcases fit with within | ⟨parameters, body, known, within⟩
    · exact .inl ⟨node, within, place⟩
    · exact .inr ⟨parameters, body, known, .inr ⟨node, within, place⟩⟩
  located_code known pattern member := pattern.located_hasPlace.mono fun _ place =>
    .inr ⟨_, _, known, .inl ⟨pattern, member, place⟩⟩
  part fit _ member := by
    rcases fit with within | ⟨parameters, body, known, within⟩
    · exact .inl (within.part member)
    · exact .inr ⟨parameters, body, known, within.part member⟩
  code fit := by
    rcases fit with within | ⟨_, _, known, within⟩
    · exact written _ _ ⟨_, within⟩
    · exact inner known _ _ ⟨_, within⟩
  body known _ member := .inr ⟨_, _, known, .statement member⟩
  unbound _ _ here := ⟨_, rfl, here⟩
  quiet sound same := sound.of_scopes_eq same
  opened sound near := ⟨sound.push near, .inr sound.le_size⟩
  value sound near read := sound.value? near read
  defined name sound _ held := sound.define _ name held
  rebound _ sound _ _ _ held := sound.define _ _ held
  updated _ sound _ _ _ _ _ held := sound.define _ _ held

namespace Interpreter

/-- The functions within reach of the top level of an interpreter have a property. -/
def Carries (Known : List Pattern → Block Node → Prop) (interpreter : Interpreter) : Prop :=
  interpreter.world.Confined Known interpreter.globals

variable {Known : List Pattern → Block Node → Prop} {interpreter : Interpreter}

theorem carries_new (settings : Settings) : (new settings).Carries Known := by
  let root : World := ⟨⟨#[⟨none, Builtin.bindings⟩]⟩, 0, "", 0, []⟩
  have builtins : root.scopes.get? Eval.builtinScope = some ⟨none, Builtin.bindings⟩ := rfl
  exact World.confined_push builtins

theorem Settled.carries_reset {tops : List Nat} (settled : interpreter.Settled tops) :
    interpreter.reset.Carries Known :=
  World.confined_push settled.rooted.builtins

/-- A program leaves its own functions and known ones behind, and it fails at its own places or at
places of a known function. -/
theorem Carries.run (carries : interpreter.Carries Known) {program : Program}
    (written : ∀ parameters body, program.Writes parameters body → Known parameters body)
    (inner : ∀ {parameters body}, Known parameters body →
      ∀ parameters' body', body.Writes parameters' body' → Known parameters' body')
    (fuel : Nat) :
    (interpreter.run program fuel).2.Carries Known ∧
      ∀ fault, (interpreter.run program fuel).1 = .error (.fault fault) →
        ∃ location, fault.location = some location ∧ KnownPlace Known program location := by
  have ends := (provenance interpreter.settings written inner interpreter.globals).ending
    (carries.of_scopes_eq rfl) (.inr (Nat.le_refl _)) program
    (fun _ member => .inl (.statement member)) fuel
  rw [run_eq]
  generalize interpreter.ending program fuel = ending at ends
  cases ends with
  | ok leads _ => exact ⟨leads, by rintro _ ⟨⟩⟩
  | error leads stops =>
      refine ⟨leads, ?_⟩
      intro fault raised
      obtain rfl := Except.error.inj raised
      exact stops

end Interpreter

end Offside
