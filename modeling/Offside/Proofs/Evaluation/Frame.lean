import Offside.Proofs.Evaluation.Transport
import Offside.Proofs.Value.Holding

/-!
# What evaluations keep

Some properties of evaluation speak of one evaluation alone: of the worlds that it goes through, of
the values that come out of it, and of how it stops. A frame says what holds of worlds and values
and which worlds can follow each other. It is a coupling of evaluations with any others, at the
stages that the worlds are.
-/

namespace Offside

/-- What holds of the worlds and values of evaluations. -/
structure Frame where
  /-- The worlds that evaluations go through. -/
  Sound : World → Prop
  /-- The first world can be followed by the second. -/
  Leads : World → World → Prop
  /-- The parameters and bodies that closures may have. -/
  Code : List Pattern → Block Node → Prop
  /-- The scopes that closures may have in a world. -/
  Captured : World → Nat → Prop
  /-- The fuel may run out in a world. -/
  Exhausts : World → Prop
  /-- The places that faults may have. -/
  Located : Location → Prop
  /-- The faults that there may be in a world. -/
  Faults : World → Fault → Prop
  sound : ∀ {world later}, Leads world later → Sound later
  refl : ∀ {world}, Sound world → Leads world world
  trans : ∀ {first second third}, Leads first second → Leads second third → Leads first third
  captured_later : ∀ {world later scope}, Leads world later → Captured world scope →
    Captured later scope
  faults : ∀ {world location} (kind : Fault.Kind) (message : String), Located location →
    Faults world (.atLocation kind message location)

namespace Frame

variable (frame : Frame)

/-- The reasons for an evaluation to stop in a world. -/
def Stops (world : World) : Stop → Prop
  | .fault fault => frame.Faults world fault
  | .overflow _ => True
  | .exhausted => frame.Exhausts world

/-- Values that may occur in a world. -/
abbrev Held (world : World) : Value → Prop :=
  Value.Holds fun parameters body scope => frame.Code parameters body ∧ frame.Captured world scope

/-- Lists of values that may occur in a world. -/
abbrev AllHeld (world : World) (values : List Value) : Prop := ∀ value ∈ values,
  frame.Held world value

/-- What comes of an evaluation that starts in a world. -/
inductive Ends {α : Type} (world : World) (P : α → World → Prop) : Ending α → Prop
  | ok {value : α} {later : World} (leads : frame.Leads world later) (post : P value later) :
      Ends world P (.ok value later)
  | error {stop : Stop} {later : World} (leads : frame.Leads world later)
      (stops : frame.Stops later stop) : Ends world P (.error stop later)

/-- An evaluation keeps to the frame, and its results have a property. -/
def Keeps {α : Type} (world : World) (P : α → World → Prop) (evaluation : Eval α) : Prop :=
  frame.Ends world P (evaluation world)

/-- Values that may occur. -/
abbrev Values (value : Value) (later : World) : Prop := frame.Held later value

variable {frame} {world later : World}

theorem held_later (leads : frame.Leads world later) {value : Value}
    (held : frame.Held world value) : frame.Held later value :=
  held.mono fun _ _ _ here => ⟨here.1, frame.captured_later leads here.2⟩

section

variable {α β : Type} {P Q : α → World → Prop} {Next : β → World → Prop}

theorem Keeps.mono {evaluation : Eval α} (keeps : frame.Keeps world P evaluation)
    (implies : ∀ value later, frame.Leads world later → P value later → Q value later) :
    frame.Keeps world Q evaluation := by
  unfold Keeps at keeps ⊢
  generalize evaluation world = ending at keeps
  cases keeps with
  | ok leads post => exact .ok leads (implies _ _ leads post)
  | error leads stops => exact .error leads stops

theorem Keeps.sound {evaluation : Eval α} (keeps : frame.Keeps world P evaluation) :
    frame.Sound (Ending.world (evaluation world)) := by
  unfold Keeps at keeps
  generalize evaluation world = ending at keeps
  cases keeps with
  | ok leads _ => exact frame.sound leads
  | error leads _ => exact frame.sound leads

theorem Keeps.bind {first : Eval α} {next : α → Eval β} (keeps : frame.Keeps world P first)
    (each : ∀ value later, frame.Leads world later → P value later →
      frame.Keeps later Next (next value)) :
    frame.Keeps world Next (first >>= next) := by
  unfold Keeps at keeps ⊢
  generalize ended : first world = ending at keeps
  cases keeps with
  | @ok value later leads post =>
      rw [Eval.bind_of_ok ended]
      have keeps : frame.Ends later Next (next value later) := each value later leads post
      generalize next value later = ending at keeps
      cases keeps with
      | ok leads' post => exact .ok (frame.trans leads leads') post
      | error leads' stops => exact .error (frame.trans leads leads') stops
  | error leads stops =>
      rw [Eval.bind_of_error ended]
      exact .error leads stops

variable (sound : frame.Sound world)

include sound

theorem keeps_lookup {P : Value → World → Prop} {scope : Nat} {name : String} {location : Location}
    (post : ∀ value, world.scopes.value? name scope = some value → P value world)
    (faults : frame.Faults world (world.scopes.unbound name scope (some location))) :
    frame.Keeps world P (Eval.lookup scope name location) := by
  change frame.Ends world P (Eval.ofScopes (world.scopes.lookup name scope (some location)) world)
  unfold Scopes.lookup
  cases read : world.scopes.value? name scope with
  | some value => exact .ok (frame.refl sound) (post value read)
  | none => exact .error (frame.refl sound) faults

theorem keeps_assign {scope : Nat} {name : String} {value : Value} {location : Location}
    (leads : ∀ owner, world.scopes.find? name scope = some owner →
      frame.Leads world { world with scopes := world.scopes.define owner name value })
    (faults : frame.Faults world (world.scopes.unbound name scope (some location))) :
    frame.Keeps world (fun _ _ => True) (Eval.assign scope name value location) := by
  unfold Keeps
  rw [Eval.assign_eq]
  cases found : world.scopes.find? name scope with
  | none => exact .error (frame.refl sound) faults
  | some owner => exact .ok (leads owner found) trivial

omit sound in
/-- Bind a name where the scope itself and the scopes of the program may be changed. -/
theorem keeps_bindName {rebind : Bool} {scope : Nat} {name : String} {value : Value}
    (here : frame.Leads world { world with scopes := world.scopes.define scope name value })
    (there : ∀ owner, rebind = true → world.scopes.find? name scope = some owner →
      owner ≠ Eval.builtinScope →
      frame.Leads world { world with scopes := world.scopes.define owner name value }) :
    frame.Keeps world (fun _ _ => True) (Eval.bindName rebind scope name value) := by
  unfold Keeps
  rw [Eval.bindName_eq]
  cases rebind with
  | false => exact .ok here trivial
  | true =>
      simp only [if_true]
      cases found : world.scopes.find? name scope with
      | none => exact .ok here trivial
      | some owner =>
          dsimp only
          split
          · exact .ok here trivial
          · next other => exact .ok (there owner rfl found other) trivial

theorem keeps_ofNumbers (result : Except Overflow α) :
    frame.Keeps world (fun _ later => later = world) (Eval.ofNumbers result) := by
  cases result with
  | ok value => exact .ok (frame.refl sound) rfl
  | error refused => exact .error (frame.refl sound) trivial

theorem keeps_enterBuiltin (settings : Settings) (depth : Depth) (builtin : Builtin)
    {P : Unit → World → Prop}
    (leads : frame.Leads world { world with calls := .builtin builtin.name :: world.calls })
    (post : depth.calls < settings.room →
      P () { world with calls := .builtin builtin.name :: world.calls }) :
    frame.Keeps world P (Eval.enterBuiltin settings depth builtin) := by
  unfold Eval.enterBuiltin
  split
  · exact .error (frame.refl sound) trivial
  · next room => exact .ok leads (post (Int.not_le.mp room))

omit sound in
theorem keeps_tick (settings : Settings) {location : Location} (located : frame.Located location)
    {P : Unit → World → Prop} (leads : frame.Leads world { world with steps := world.steps + 1 })
    (post : (∀ limit, settings.maxSteps = some limit → ↑(world.steps + 1) ≤ limit) →
      P () { world with steps := world.steps + 1 }) :
    frame.Keeps world P (Eval.tick settings location) := by
  unfold Keeps
  rw [Eval.tick_eq]
  cases limited : settings.maxSteps with
  | none => exact .ok leads (post (by simp [limited]))
  | some limit =>
      dsimp only
      split
      · exact .error leads (frame.faults _ _ located)
      · next room =>
        refine .ok leads (post ?_)
        rintro _ same
        cases limited.symm.trans same
        exact Int.not_lt.mp room

end

/-! ## Frames as couplings -/

theorem forall₂_eq_and {α : Type} {P : α → Prop} {items items' : List α} :
    List.Forall₂ (fun item item' => item' = item ∧ P item) items items' ↔
      items' = items ∧ ∀ item ∈ items, P item := by
  constructor
  · intro each
    induction each with
    | nil => simp
    | cons first _ ih =>
        obtain ⟨rfl, holds⟩ := first
        obtain ⟨rfl, rest⟩ := ih
        exact ⟨rfl, List.forall_mem_cons.mpr ⟨holds, rest⟩⟩
  · rintro ⟨rfl, each⟩
    exact List.forall₂_same.mpr fun item member => ⟨rfl, each item member⟩

/-- Values that may occur in a world correspond to themselves. -/
def matching (frame : Frame) (world : World) : Value.Matching where
  Values value value' := value' = value ∧ frame.Held world value
  Closes parameters body scope scope' :=
    scope' = scope ∧ frame.Code parameters body ∧ frame.Captured world scope
  Same first second := second = first
  view := by
    rintro value _ ⟨rfl, held⟩
    cases held with
    | bool | int | float | string | unit | range => constructor
    | list each => exact .list (forall₂_eq_and.mpr ⟨rfl, each⟩)
    | tuple each => exact .tuple (forall₂_eq_and.mpr ⟨rfl, each⟩)
    | closure here each => exact .closure ⟨rfl, here⟩ (forall₂_eq_and.mpr ⟨rfl, each⟩) rfl
    | @builtin _ _ identity each =>
        refine .builtin (forall₂_eq_and.mpr ⟨rfl, each⟩) ?_
        cases identity <;> constructor
        rfl
  make := by
    intro value value' alike
    cases alike with
    | bool | int | float | string | unit | range => exact ⟨rfl, by constructor⟩
    | list each =>
        obtain ⟨rfl, each⟩ := forall₂_eq_and.mp each
        exact ⟨rfl, .list each⟩
    | tuple each =>
        obtain ⟨rfl, each⟩ := forall₂_eq_and.mp each
        exact ⟨rfl, .tuple each⟩
    | closure closes each same =>
        obtain ⟨rfl, each⟩ := forall₂_eq_and.mp each
        obtain ⟨rfl, here⟩ := closes
        cases same
        exact ⟨rfl, .closure here each⟩
    | builtin each same =>
        obtain ⟨rfl, each⟩ := forall₂_eq_and.mp each
        refine ⟨?_, .builtin each⟩
        cases same with
        | none => rfl
        | some same => rw [same]
  unique := by
    rintro first _ second _ rfl rfl
    rfl

/-- The worlds that evaluations go through. -/
def Stage (frame : Frame) : Type := { world : World // frame.Sound world }

instance (frame : Frame) : Preorder frame.Stage where
  le world later := frame.Leads world.1 later.1
  le_refl world := frame.refl world.2
  le_trans _ _ _ := frame.trans

/-- An evaluation that keeps to the frame is related to any other. -/
def coupling (frame : Frame) : Coupling frame.Stage where
  Related {_ β} stage R evaluation _ := frame.Keeps stage.1
    (fun value later => ∃ (sound : frame.Sound later) (other : β), R ⟨later, sound⟩ value other)
    evaluation
  matching stage := frame.matching stage.1
  Located := frame.Located
  value_later leads alike := ⟨alike.1, held_later leads alike.2⟩
  pure {_ _ stage _ _ other} related := .ok (frame.refl stage.2) ⟨stage.2, other, related⟩
  bind related each := related.bind fun value later leads ⟨sound, other, holds⟩ =>
    each ⟨later, sound⟩ value other leads holds
  fail {_ _ stage _ _} located kind message :=
    .error (frame.refl stage.2) (frame.faults kind message located)
  overflow {_ _ stage _} _ := .error (frame.refl stage.2) trivial

theorem Keeps.related {α β : Type} {stage : frame.Stage} {P : α → World → Prop}
    {R : frame.Stage → α → β → Prop} {evaluation : Eval α} {other : Eval β}
    (keeps : frame.Keeps stage.1 P evaluation)
    (implies : ∀ value later (leads : frame.Leads stage.1 later), P value later →
      ∃ other, R ⟨later, frame.sound leads⟩ value other) :
    frame.coupling.Related stage R evaluation other :=
  keeps.mono fun value later leads holds => ⟨frame.sound leads, implies value later leads holds⟩

theorem related_ok {α β : Type} {stage : frame.Stage} {R : frame.Stage → α → β → Prop}
    {evaluation : Eval α} {other : Eval β} {value : α}
    (ended : evaluation stage.1 = .ok value later) (leads : frame.Leads stage.1 later)
    (holds : ∃ other, R ⟨later, frame.sound leads⟩ value other) :
    frame.coupling.Related stage R evaluation other := by
  change frame.Ends stage.1 _ (evaluation stage.1)
  rw [ended]
  exact .ok leads ⟨frame.sound leads, holds⟩

end Frame

end Offside
