import Offside.Proofs.Evaluation.Transport

/-!
# Simulations between evaluations

A simulation compares two evaluations of the same program where whatever is evaluated on one side is
evaluated on the other. It says what is related, with laws for the operations on the world.
-/

namespace Offside

/-- A way to compare evaluations under two settings. -/
structure Comparison (Stage : Type) [Preorder Stage] (left right : Settings) extends
    Relator Stage where
  /-- At a stage, evaluations with so much fuel may go on within so many calls. -/
  Permits : Stage → (fuel : Nat) → Depth → Prop
  /-- The fuel that the second evaluation has in excess of the first. -/
  surplus : Nat
  rebind : left.rebindOnAssign = right.rebindOnAssign
  permits_mono : ∀ {stage later fuel depth}, stage ≤ later → Permits stage fuel depth →
    Permits later fuel depth
  permits_less : ∀ {stage fuel depth}, Permits stage (fuel + 1) depth → Permits stage fuel depth
  permits_inBuiltin : ∀ {stage fuel depth}, Permits stage (fuel + 1) depth →
    Permits stage fuel depth.inBuiltin
  stop : ∀ {α β : Type} {stage} {R : Stage → α → β → Prop} (reason : Stop),
    Related stage R (throw reason) (throw reason)
  exhausted : 0 < surplus → ∀ {α β : Type} {stage} {R : Stage → α → β → Prop} (evaluation : Eval β),
    Related stage R (throw .exhausted) evaluation
  tick : ∀ {stage} (location : Location),
    Related stage (fun _ _ _ => True) (Eval.tick left location) (Eval.tick right location)
  enterBuiltin : ∀ {stage fuel depth} (builtin : Builtin), Permits stage (fuel + 1) depth →
    Related stage (fun _ _ _ => True) (Eval.enterBuiltin left depth builtin)
      (Eval.enterBuiltin right depth builtin)

/-- A comparison with laws for the operations on the world. What corresponds at one stage still
corresponds at later ones. -/
structure Simulation (Stage : Type) [Preorder Stage] (left right : Settings) extends
    Comparison Stage left right where
  /-- The scopes and identities that correspond at a stage. -/
  links : Stage → Links
  links_mono : ∀ {stage later}, stage ≤ later → (links stage).Le (links later)
  unique : ∀ stage, (links stage).Unique
  newIdentity : ∀ {stage},
    Related stage (fun later => (links later).identity) Eval.newIdentity Eval.newIdentity
  newScope : ∀ {stage parent parent'}, (links stage).scope parent parent' →
    Related stage (fun later => (links later).scope) (Eval.newScope parent) (Eval.newScope parent')
  lookup : ∀ {stage scope scope'} (name : String) (location : Location),
    (links stage).scope scope scope' →
    Related stage (fun later => Value.Linked (links later)) (Eval.lookup scope name location)
      (Eval.lookup scope' name location)
  assign : ∀ {stage scope scope'} (name : String) {value value' : Value} (location : Location),
    (links stage).scope scope scope' → value.Linked (links stage) value' →
    Related stage (fun _ _ _ => True) (Eval.assign scope name value location)
      (Eval.assign scope' name value' location)
  bindName : ∀ {stage scope scope'} (rebind : Bool) (name : String) {value value' : Value},
    (links stage).scope scope scope' → value.Linked (links stage) value' →
    Related stage (fun _ _ _ => True) (Eval.bindName rebind scope name value)
      (Eval.bindName rebind scope' name value')
  write : ∀ {stage} (text : String),
    Related stage (fun _ _ _ => True) (Eval.write text) (Eval.write text)

namespace Simulation

variable {Stage : Type} [Preorder Stage] {left right : Settings}
  (sim : Simulation Stage left right)

/-- Values that correspond at a stage. -/
abbrev Values (stage : Stage) : Value → Value → Prop := Value.Linked (sim.links stage)

/-- Faults may have any place. -/
def coupling : Coupling Stage where
  toRelator := sim.toRelator
  matching stage := (sim.links stage).matching (sim.unique stage)
  Located _ := True
  value_later le linked := linked.mono (sim.links_mono le)
  fail _ _ _ := sim.stop _
  overflow _ := sim.stop _

/-- Any node may be evaluated and any value applied, as long as evaluations may go on. -/
def regime : Regime Stage left right where
  toCoupling := sim.coupling
  Scope stage := (sim.links stage).scope
  Had _ _ _ _ := True
  Ticked := (· ≤ ·)
  Evaluates stage fuel depth _ := sim.Permits stage fuel depth
  Applies stage fuel depth _ _ := sim.Permits stage fuel depth
  surplus := sim.surplus
  scope_later le := (sim.links_mono le).scope
  had_later _ had := had
  evaluates_later := sim.permits_mono
  applies_later := sim.permits_mono
  le_of_ticked le := le
  ticked_later := le_trans
  ticked_earlier := le_trans
  located {_ _ _ node} _ := node.located_anywhere
  part permits _ _ := sim.permits_less permits
  again permits goesOn := sim.permits_mono (goesOn.elim id And.left) (sim.permits_less permits)
  callee _ permits := sim.permits_less permits
  closes _ scopes := scopes
  exhausted _ same := by
    rcases Nat.eq_zero_or_pos sim.surplus with none | some
    · rw [same none]
      exact sim.stop _
    · exact sim.exhausted some _
  tick _ := Coupling.mono (c := sim.coupling) (sim.tick _) fun _ _ _ le _ => le
  newIdentity := sim.newIdentity
  newScope scopes := sim.newScope (scopes.elim id fun ⟨_, _, closes⟩ => closes)
  lookup name scopes _ := Coupling.mono (c := sim.coupling) (sim.lookup name _ scopes)
    fun _ _ _ _ linked => ⟨linked, trivial⟩
  assign scopes _ _ _ _ linked := sim.assign _ _ scopes linked
  bindName declares name scopes linked := sim.rebind ▸ sim.bindName _ name scopes linked
  write := sim.write
  enterBuiltin permits := Coupling.mono (c := sim.coupling) (sim.enterBuiltin _ permits)
    fun _ _ _ le _ _ => ⟨fun _ _ => sim.permits_mono le (sim.permits_inBuiltin permits),
      fun _ _ => sim.permits_mono le (sim.permits_less permits)⟩

/-- Calls of closures are related if evaluations within them are. -/
abbrev EntersCalls : Prop := sim.regime.EntersCalls

variable {sim} {stage : Stage} {depth : Depth}

/-- A simulation enters calls if it notes them, and no call is refused on one side alone. -/
theorem entersCalls
    (note : ∀ {stage fuel depth} (name : String) (count : Nat), sim.Permits stage (fuel + 1) depth →
      sim.Related stage (fun later _ _ => sim.Permits later fuel depth.inClosure)
        (Eval.note (.closure name count depth.closures))
        (Eval.note (.closure name count depth.closures)))
    (alike : ∀ {stage fuel depth}, sim.Permits stage (fuel + 1) depth →
      left.maxCallDepth = right.maxCallDepth ∨
        ↑depth.closures < left.maxCallDepth ∧ ↑depth.closures < right.maxCallDepth) :
    sim.EntersCalls := by
  refine Regime.NotesCalls.entersCalls ⟨fun _ => ?_, ?_, ?_, alike⟩
  · exact ⟨fun pattern _ => pattern.located_anywhere, fun _ _ => trivial⟩
  · intro stage middle fuel depth parameters body scope scope' bound name identity count title given
      permits _ le
    exact Coupling.mono (c := sim.coupling) (note title given (sim.permits_mono le permits))
      fun _ _ _ _ permits _ le' _ _ => sim.permits_mono le' permits
  · intro stage later fuel depth parameters body scope bound name identity count result permits le _
      _
    exact sim.permits_mono (le.elim id And.left) (sim.permits_less permits)

section Whole

variable (enters : sim.EntersCalls) {fuel : Nat} (permits : sim.Permits stage fuel depth)

include enters permits

/-- What a block does is related. -/
theorem runBlock_evaluate {scope scope' : Nat} (scopes : (sim.links stage).scope scope scope')
    (block : Block Node) :
    sim.Related stage sim.Values
      (Eval.runBlock left (Eval.evaluate left fuel) ⟨scope, depth⟩ block)
      (Eval.runBlock right (Eval.evaluate right (fuel + sim.surplus)) ⟨scope', depth⟩ block) :=
  have run := Regime.runBlock (Regime.performs_and_runs enters fuel depth).1 scopes
    (fun _ _ => trivial) fun _ _ _ le => sim.permits_mono le permits
  Coupling.mono run fun _ _ _ _ done => done.1

/-- What an application does is related. -/
theorem apply {function function' : Value} (linked : sim.Values stage function function')
    {arguments arguments' : List Value} (each : Value.AllLinked (sim.links stage) arguments
      arguments') (location : Location) :
    sim.Related stage sim.Values (Eval.apply left fuel depth function arguments location)
      (Eval.apply right (fuel + sim.surplus) depth function' arguments' location) :=
  (Regime.performs_and_runs enters fuel depth).2 permits linked each trivial

end Whole

/-- What a program does is related, if both sides ask for the same room on the stack. -/
theorem evaluation (interpreter interpreter' : Interpreter)
    {sim : Simulation Stage interpreter.settings interpreter'.settings} (enters : sim.EntersCalls)
    (same : interpreter.settings.reserve = interpreter'.settings.reserve) {fuel : Nat}
    (permits : sim.Permits stage fuel .top)
    (scopes : (sim.links stage).scope interpreter.globals interpreter'.globals)
    (program : Program) :
    sim.Related stage sim.Values (interpreter.evaluation program fuel)
      (interpreter'.evaluation program (fuel + sim.surplus)) := by
  unfold Interpreter.evaluation
  rw [same]
  refine sim.bind (Coupling.ofNumbers_same (c := sim.coupling) _) fun later _ _ le _ => ?_
  exact runBlock_evaluate enters (sim.permits_mono le permits) ((sim.links_mono le).scope scopes)
    program

end Simulation

end Offside
