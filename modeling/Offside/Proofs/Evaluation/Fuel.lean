import Mathlib.Order.CompleteBooleanAlgebra
import Mathlib.Order.CompletePartialOrder
import Offside.Proofs.Evaluation.Lockstep

/-!
# Fuel

An evaluation that ends with some amount of fuel ends in the same way with every larger amount. So
how an evaluation ends does not depend on fuel. Nor does it depend on a bound on the depth of calls
that the fuel does not reach.
-/

namespace Offside

/-- Whether an evaluation was stopped because its fuel had run out. -/
def Ending.isExhausted {α : Type} : Ending α → Bool
  | .error .exhausted _ => true
  | _ => false

theorem isExhausted_error {α β : Type} (stop : Stop) (world world' : World) :
    Ending.isExhausted (.error stop world : Ending α) =
      Ending.isExhausted (.error stop world' : Ending β) := by
  cases stop <;> rfl

/-- The second ending is like the first one, unless fuel had run out there. -/
inductive Ending.Refined {α β : Type} (R : α → β → Prop) : Ending α → Ending β → Prop
  | ok {a : α} {b : β} (related : R a b) (world : World) : Refined R (.ok a world) (.ok b world)
  | error (stop : Stop) (world : World) : Refined R (.error stop world) (.error stop world)
  | exhausted (world : World) (ending : Ending β) : Refined R (.error .exhausted world) ending

theorem Ending.Refined.refl {α : Type} {R : α → α → Prop} (each : ∀ a, R a a)
    (ending : Ending α) : Ending.Refined R ending ending := by
  cases ending with
  | ok value world => exact .ok (each value) world
  | error stop world => exact .error stop world

theorem rebindOnAssign_withMaxCallDepth (settings : Settings) (first second : Int) :
    { settings with maxCallDepth := first }.rebindOnAssign =
      { settings with maxCallDepth := second }.rebindOnAssign := rfl

/-- The stack has room for as many calls as closures may call each other. -/
theorem Settings.maxCallDepth_le_room (settings : Settings) :
    settings.maxCallDepth ≤ settings.room := by
  unfold room wantedRoom
  omega

theorem Eval.enterBuiltin_of_lt {settings : Settings} {depth : Depth}
    (room : depth.calls < settings.maxCallDepth) (builtin : Builtin) :
    enterBuiltin settings depth builtin = note (.builtin builtin.name) :=
  if_neg (by have := settings.maxCallDepth_le_room; omega)

/-- Two bounds on the depth of calls make no difference to evaluations that could enter no more than
`reach` calls. -/
def Unreached (reach : Nat) (free free' : Int) : Prop := free = free' ∨ reach ≤ free ∧ reach ≤ free'

/-- Evaluations with a surplus of fuel follow those without, as long as no more than `reach` calls
could be entered. -/
def moreFuel (settings : Settings) {free free' : Int} (surplus : Nat) {reach : Nat}
    (alike : Unreached reach free free') :
    Lockstep Unit { settings with maxCallDepth := free }
      { settings with maxCallDepth := free' } where
  Permits _ left depth := depth.calls + left ≤ reach
  surplus := surplus
  Related _ R first second := ∀ world, Ending.Refined (R ()) (first world) (second world)
  rebind := rebindOnAssign_withMaxCallDepth settings free free'
  permits_mono _ permits := permits
  permits_less permits := Nat.le_of_succ_le permits
  permits_inBuiltin permits := (Nat.succ_add_eq_add_succ _ _).trans_le permits
  pure related world := .ok related world
  bind := by
    intro α β γ δ stage R S first first' next next' related each world
    change Ending.Refined (S ()) (EStateM.bind first next world) (EStateM.bind first' next' world)
    have refined := related world
    unfold EStateM.bind
    generalize first world = ending, first' world = ending' at refined
    cases refined with
    | ok holds later => exact each () _ _ le_rfl holds later
    | error stop later => exact .error stop later
    | exhausted later ending => exact .exhausted later _
  stop reason world := .error reason world
  exhausted _ _ _ _ _ evaluation world := .exhausted world (evaluation world)
  tick _ _ := .refl (fun _ => trivial) _
  enterBuiltin := by
    intro _ left depth builtin permits
    rcases alike with rfl | ⟨enough, enough'⟩
    · exact fun _ => .refl (fun _ => trivial) _
    · rw [Eval.enterBuiltin_of_lt (by dsimp only; omega),
        Eval.enterBuiltin_of_lt (by dsimp only; omega)]
      exact fun _ => .refl (fun _ => trivial) _
  quiet _ each _ := .refl (fun a => each () a le_rfl) _

theorem moreFuel_entersCalls (settings : Settings) {free free' : Int} (surplus : Nat) {reach : Nat}
    (alike : Unreached reach free free') :
    (moreFuel settings surplus alike).simulation.EntersCalls := by
  refine Simulation.entersCalls (fun {_ left depth} _ _ permits _ => .ok ?_ _) ?_
  · have permits : depth.calls + (left + 1) ≤ reach := permits
    change depth.inClosure.calls + left ≤ reach
    rw [depth.calls_inClosure]
    omega
  · intro _ left depth permits
    have permits : depth.calls + (left + 1) ≤ reach := permits
    have := depth.closures_le_calls
    refine alike.imp_right fun enough => ?_
    dsimp only
    omega

theorem Ending.Refined.eq {ending ending' : Ending Value}
    (refined : Ending.Refined (Value.Linked .same) ending ending')
    (ended : ending.isExhausted = false) : ending' = ending := by
  cases refined with
  | ok linked world => rw [Value.linked_same linked]
  | error stop world => rfl
  | exhausted world other => simp [Ending.isExhausted] at ended

/-- More fuel does not change an application that ends. -/
theorem apply_eq_of_le {settings : Settings} {fuel larger : Nat} (le : fuel ≤ larger)
    {depth : Depth} {function : Value} {arguments : List Value} {location : Location}
    {world : World}
    (ended : Ending.isExhausted
      (Eval.apply settings fuel depth function arguments location world) = false) :
    Eval.apply settings larger depth function arguments location world =
      Eval.apply settings fuel depth function arguments location world := by
  obtain ⟨surplus, rfl⟩ := Nat.exists_eq_add_of_le le
  let bound := settings.maxCallDepth
  have alike : Unreached (depth.calls + fuel) bound bound := .inl rfl
  have related : (moreFuel settings surplus alike).simulation.Related () _ _ _ :=
    Simulation.apply (moreFuel_entersCalls settings surplus alike) (Nat.le_refl _)
      function.linked_refl (Value.allLinked_refl arguments) location
  exact Ending.Refined.eq (related world) ended

theorem apply_of_ended {settings : Settings} {fuel larger : Nat} (le : fuel ≤ larger)
    {depth : Depth} {function : Value} {arguments : List Value} {location : Location}
    {world : World} {ending : Ending Value}
    (same : Eval.apply settings fuel depth function arguments location world = ending)
    (ended : ending.isExhausted = false) :
    Eval.apply settings larger depth function arguments location world = ending := by
  subst same
  exact apply_eq_of_le le ended

/-! ## Evaluations that end -/

/-- An evaluation that ends with some amount of fuel ends so with every larger amount. -/
def Steady {α : Type} (evaluation : Nat → Eval α) : Prop :=
  ∀ (fuel larger : Nat) (world : World), fuel ≤ larger →
    Ending.isExhausted (evaluation fuel world) = false →
    evaluation larger world = evaluation fuel world

theorem steady_apply (settings : Settings) (depth : Depth) (function : Value)
    (arguments : List Value) (location : Location) :
    Steady fun fuel => Eval.apply settings fuel depth function arguments location :=
  fun _ _ _ le ended => apply_eq_of_le le ended

theorem Steady.bind {α β : Type} {first : Nat → Eval α} {next : Nat → α → Eval β}
    (steady : Steady first) (each : ∀ value, Steady fun fuel => next fuel value) :
    Steady fun fuel => first fuel >>= next fuel := by
  intro fuel larger world le ended
  have same := steady fuel larger world le
  dsimp only at ended ⊢
  cases ending : first fuel world with
  | ok value later =>
      rw [ending] at same
      rw [Eval.bind_of_ok ending] at ended ⊢
      rw [Eval.bind_of_ok (same rfl)]
      exact each value fuel larger later le ended
  | error stop later =>
      rw [ending] at same
      rw [Eval.bind_of_error ending] at ended ⊢
      rw [Eval.bind_of_error (same ((isExhausted_error _ _ _).trans ended))]

/-- An evaluation ends with an ending, and needs no more than some amount of fuel for it. -/
def Ends {α : Type} (evaluation : Nat → Eval α) (world : World) (ending : Ending α) : Prop :=
  ending.isExhausted = false ∧ ∃ fuel, ∀ larger, fuel ≤ larger → evaluation larger world = ending

theorem Steady.ends {α : Type} {evaluation : Nat → Eval α} (steady : Steady evaluation) {fuel : Nat}
    {world : World} (ended : Ending.isExhausted (evaluation fuel world) = false) :
    Ends evaluation world (evaluation fuel world) :=
  ⟨ended, fuel, fun larger le => steady fuel larger world le ended⟩

/-- If two evaluations in a row come to an end, the first one does. -/
theorem Ends.of_bind {α β : Type} {first : Nat → Eval α} {next : Nat → α → Eval β} {world : World}
    {ending : Ending β} (steady : Steady first)
    (ends : Ends (fun fuel => first fuel >>= next fuel) world ending) :
    ∃ ending, Ends first world ending := by
  obtain ⟨ended, fuel, same⟩ := ends
  have same : (first fuel >>= next fuel) world = ending := same fuel fuel.le_refl
  suffices finished : Ending.isExhausted (first fuel world) = false from ⟨_, steady.ends finished⟩
  cases called : first fuel world with
  | ok value later => rfl
  | error stop later =>
      rw [Eval.bind_of_error called] at same
      rw [← same] at ended
      exact (isExhausted_error stop later later).trans ended

end Offside
