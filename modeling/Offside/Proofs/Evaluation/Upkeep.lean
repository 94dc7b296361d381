import Offside.Proofs.Evaluation.Frame

/-!
# What evaluations keep, however long they take

Many properties of evaluations do not depend on fuel or on the number of steps, and they concern the
scopes only. For them it is enough to say what the three operations on scopes do: to open a scope,
to bind a name, and to update the value of a name.
-/

namespace Offside

/-- A frame with laws for the operations on scopes. -/
structure Upkeep (settings : Settings) extends Frame where
  /-- The scopes that nodes may be evaluated in. -/
  Scope : World → Nat → Prop
  /-- The nodes that may be evaluated. -/
  Fit : Node → Prop
  exhausts : ∀ world, Exhausts world
  scope_later : ∀ {world later scope}, Leads world later → Scope world scope → Scope later scope
  scope_captured : ∀ {world scope}, Scope world scope → Captured world scope
  located : ∀ {node}, Fit node → node.Located Located
  located_code : ∀ {parameters body}, Code parameters body →
    ∀ pattern ∈ parameters, pattern.Located Located
  part : ∀ {node}, Fit node → ∀ part ∈ node.parts, Fit part
  code : ∀ {parameters body location}, Fit (.lambda parameters body location) → Code parameters body
  body : ∀ {parameters body}, Code parameters body → ∀ statement ∈ body.statements, Fit statement
  unbound : ∀ {world location} (name : String) (scope : Nat), Located location →
    Faults world (world.scopes.unbound name scope (some location))
  quiet : ∀ {world later}, Sound world → later.scopes = world.scopes → Leads world later
  opened : ∀ {world parent}, Sound world → Captured world parent →
    let later := { world with scopes := world.scopes.push parent }
    Leads world later ∧ Scope later world.scopes.size
  value : ∀ {world name scope value}, Sound world → Scope world scope →
    world.scopes.value? name scope = some value → toFrame.Held world value
  defined : ∀ {world scope value} (name : String), Sound world → Scope world scope →
    toFrame.Held world value →
    Leads world { world with scopes := world.scopes.define scope name value }
  rebound : ∀ {world name scope owner value}, settings.rebindOnAssign → Sound world →
    Scope world scope → world.scopes.find? name scope = some owner → owner ≠ Eval.builtinScope →
    toFrame.Held world value →
    Leads world { world with scopes := world.scopes.define owner name value }
  /-- A value that was read may be replaced later by one that begins with it. -/
  updated : ∀ {world later name scope owner current value}, Sound world → Leads world later →
    Scope world scope → world.scopes.value? name scope = some current →
    (∀ function bound identity, current ≠ .builtin function bound identity) →
    current.Extended value → later.scopes.find? name scope = some owner →
    toFrame.Held later value →
    Leads later { later with scopes := later.scopes.define owner name value }

namespace Upkeep

variable {settings : Settings} (upkeep : Upkeep settings)

/-- Everything that is fit may be evaluated and everything may be applied, with any fuel. -/
def regime : Regime upkeep.Stage settings settings where
  toCoupling := upkeep.coupling
  Scope stage scope scope' := scope' = scope ∧ upkeep.Scope stage.1 scope
  Had stage scope name value := ∃ earlier : upkeep.Stage, earlier ≤ stage ∧
    upkeep.Scope earlier.1 scope ∧ earlier.1.scopes.value? name scope = some value
  Ticked := (· ≤ ·)
  Evaluates _ _ _ := upkeep.Fit
  Applies _ _ _ _ _ := True
  surplus := 0
  scope_later leads within := ⟨within.1, upkeep.scope_later leads within.2⟩
  had_later leads := fun ⟨earlier, leads', had⟩ => ⟨earlier, leads'.trans leads, had⟩
  evaluates_later _ fit := fit
  applies_later _ _ := trivial
  le_of_ticked leads := leads
  ticked_later := le_trans
  ticked_earlier := le_trans
  located := upkeep.located
  part := upkeep.part
  again fit _ := fit
  callee _ _ := trivial
  closes fit within := ⟨within.1, upkeep.code fit, upkeep.scope_captured within.2⟩
  exhausted {_ _ stage _ _ _} _ _ := .error (upkeep.refl stage.2) (upkeep.exhausts _)
  tick {stage _} located := Frame.Keeps.related (P := fun _ _ => True)
    (Frame.keeps_tick settings located (upkeep.quiet stage.2 rfl) fun _ => trivial)
    fun _ _ leads _ => ⟨(), leads⟩
  newIdentity {stage} := Frame.related_ok rfl (upkeep.quiet stage.2 rfl) ⟨_, rfl⟩
  newScope {stage _ _} scopes :=
    have ⟨leads, new⟩ := upkeep.opened stage.2
      (scopes.elim (fun within => upkeep.scope_captured within.2) fun ⟨_, _, closes⟩ => closes.2.2)
    Frame.related_ok rfl leads ⟨_, rfl, new⟩
  lookup {stage scope _ _} name within located := Frame.Keeps.related
    (P := fun value later => later = stage.1 ∧ later.scopes.value? name scope = some value)
    (Frame.keeps_lookup stage.2 (fun _ read => ⟨rfl, read⟩) (upkeep.unbound name _ located)) (by
      rintro value _ leads ⟨rfl, read⟩
      exact ⟨value, ⟨rfl, upkeep.value stage.2 within.2 read⟩, stage, leads, within.2, read⟩)
  assign {stage _ _ _ _ _ _ _} _ located had extended proper alike :=
    have ⟨earlier, leads, within, read⟩ := had
    Frame.Keeps.related (Frame.keeps_assign stage.2 (fun _ found => upkeep.updated earlier.2 leads
      within read proper extended found alike.2) (upkeep.unbound _ _ located))
      fun _ _ _ _ => ⟨(), trivial⟩
  bindName {stage _ _ _ _} declares name within alike := Frame.Keeps.related
    (Frame.keeps_bindName (upkeep.defined name stage.2 within.2 alike.2)
      fun _ rebinds found other => upkeep.rebound (Bool.and_eq_true_iff.mp rebinds).2 stage.2
        within.2 found other alike.2)
    fun _ _ _ _ => ⟨(), trivial⟩
  write {stage} _ := Frame.related_ok rfl (upkeep.quiet stage.2 rfl) ⟨(), trivial⟩
  enterBuiltin {stage _ _ _ _ _ _} _ := Frame.Keeps.related (P := fun _ _ => True)
    (Frame.keeps_enterBuiltin stage.2 settings _ _ (upkeep.quiet stage.2 rfl) fun _ => trivial)
    fun _ _ _ _ => ⟨(), fun _ => ⟨fun _ _ => trivial, fun _ _ => trivial⟩⟩

theorem entersCalls : upkeep.regime.EntersCalls := by
  refine Regime.NotesCalls.entersCalls ⟨fun closes => ?_, ?_, fun _ _ _ _ => trivial,
    fun _ => .inl rfl⟩
  · exact ⟨upkeep.located_code closes.2.1, fun statement member =>
      (upkeep.located (upkeep.body closes.2.1 statement member)).location⟩
  · intro stage middle fuel depth parameters body scope scope' bound name identity count title given
      _ closes _
    exact Frame.related_ok rfl (upkeep.quiet middle.2 rfl) ⟨(), fun _ _ => upkeep.body closes.2.1⟩

/-- An evaluation may be interrupted for the reasons that the frame allows, where the scopes and
values at hand are those of the frame. -/
def Interrupts (interrupt : Moment → World → Option Stop) : Prop :=
  ∀ {world moment stop}, upkeep.Sound world → (∀ scope ∈ moment.scopes, upkeep.Scope world scope) →
    upkeep.AllHeld world moment.values → interrupt moment world = some stop →
    upkeep.Stops world stop

variable {upkeep}

theorem Interrupts.regime {interrupt : Moment → World → Option Stop}
    (allowed : upkeep.Interrupts interrupt) : upkeep.regime.Interrupts interrupt interrupt := by
  intro stage moment moment' occurs
  have scopes := (Frame.forall₂_eq_and.mp occurs.scopes).2
  have values := (Frame.forall₂_eq_and.mp occurs.values).2
  change upkeep.Keeps _ _ _
  unfold Frame.Keeps Eval.pause
  cases found : interrupt moment stage.1 with
  | none => exact .ok (upkeep.refl stage.2) ⟨stage.2, (), trivial⟩
  | some stop => exact .error (upkeep.refl stage.2) (allowed stage.2 scopes values found)

/-- A program that is fit keeps to the frame, also if its evaluation is interrupted. -/
theorem endingUntil {interpreter : Interpreter} (upkeep : Upkeep interpreter.settings)
    (sound : upkeep.Sound interpreter.start)
    (within : upkeep.Scope interpreter.start interpreter.globals) (program : Program)
    (fit : ∀ statement ∈ program.statements, upkeep.Fit statement)
    {interrupt : Moment → World → Option Stop} (allowed : upkeep.Interrupts interrupt)
    (fuel : Nat) :
    upkeep.Ends interpreter.start upkeep.Values
      (interpreter.endingUntil interrupt program fuel) := by
  have performs := (Regime.related_until allowed.regime upkeep.entersCalls fuel .top).1
  have run : upkeep.regime.Related ⟨interpreter.start, sound⟩ _ _ _ :=
    Regime.runBlock performs ⟨rfl, within⟩
      (fun statement member => (upkeep.located (fit statement member)).location)
      fun statement member _ _ => fit statement member
  refine Frame.Keeps.bind (Frame.keeps_ofNumbers sound _) ?_
  rintro _ _ _ rfl
  exact Frame.Keeps.mono run fun _ _ _ ⟨_, _, done⟩ => done.1.2

theorem ending {interpreter : Interpreter} (upkeep : Upkeep interpreter.settings)
    (sound : upkeep.Sound interpreter.start)
    (within : upkeep.Scope interpreter.start interpreter.globals) (program : Program)
    (fit : ∀ statement ∈ program.statements, upkeep.Fit statement) (fuel : Nat) :
    upkeep.Ends interpreter.start upkeep.Values (interpreter.ending program fuel) := by
  rw [← interpreter.endingUntil_never]
  exact upkeep.endingUntil sound within program fit (fun _ _ _ found => by cases found) fuel

end Upkeep

end Offside
