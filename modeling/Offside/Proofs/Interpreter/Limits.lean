import Offside.Proofs.Evaluation.CallDepth
import Offside.Proofs.Evaluation.StepLimit

/-!
# Limits are transparent

A limit that a run does not reach makes no difference to it, and one that it passes stops the run
with part of its output written. For steps this is exact. The depth of calls is checked before a
call is entered, so a run that just reaches the limit may be stopped at a call that could not be
entered anyway, because its arguments do not fit. A limit on the depth of calls that wants too much
room on the stack refuses every run.
-/

namespace Offside

namespace Settings

theorem reserve_of_lt {settings : Settings} (small : settings.maxCallDepth < 71582755) :
    settings.reserve = .ok () :=
  if_neg (by unfold wantedRoom Overflow.roomLimit; omega)

theorem reserve_of_le {settings : Settings} (large : 71582755 ≤ settings.maxCallDepth) :
    settings.reserve = .error .room :=
  if_pos (by unfold wantedRoom Overflow.roomLimit; omega)

end Settings

namespace Interpreter

/-- A run of a program gives a result and leaves a world. -/
def Yields (interpreter : Interpreter) (program : Program) (fuel : Nat) (result : Except Stop Value)
    (world : World) : Prop :=
  (interpreter.run program fuel).1 = result ∧ (interpreter.run program fuel).2.world = world

/-- A run without a bound on the depth of calls: what a program comes to under every bound that is
large enough, on a stack with all the room that the bound wants. -/
def YieldsUnbounded (interpreter : Interpreter) (program : Program) (fuel : Nat)
    (result : Except Stop Value) (world : World) : Prop :=
  ∃ large : Int, ∀ free, large ≤ free →
    ((interpreter.withMaxCallDepth free).executed program fuel).result = result ∧
      ((interpreter.withMaxCallDepth free).executed program fuel).world = world

variable {interpreter : Interpreter} {program : Program} {fuel : Nat} {result : Except Stop Value}
  {world : World}

theorem yields_iff : interpreter.Yields program fuel result world ↔
    (interpreter.ending program fuel).result = result ∧
      (interpreter.ending program fuel).world = world := by
  rw [Yields, run_eq]

/-- Fuel bounds the depth of calls. -/
theorem yieldsUnbounded_of_le {free : Int} (enough : fuel ≤ free) (small : free < 71582755)
    (ended : ((interpreter.withMaxCallDepth free).ending program fuel).isExhausted = false) :
    interpreter.YieldsUnbounded program fuel
      ((interpreter.withMaxCallDepth free).run program fuel).1
      ((interpreter.withMaxCallDepth free).run program fuel).2.world := by
  have reserved : (interpreter.withMaxCallDepth free).settings.reserve = .ok () :=
    Settings.reserve_of_lt small
  refine ⟨fuel, fun free' enough' => ?_⟩
  rw [ending_of_reserve reserved] at ended
  rw [run_eq, ending_of_reserve reserved, executed_withMaxCallDepth enough enough' ended]
  exact ⟨rfl, rfl⟩

/-! ## Steps -/

/-- A run under a limit on steps, compared with one without. -/
theorem yields_withMaxSteps
    (yields : (interpreter.withMaxSteps none).Yields program fuel result world) (most : Int) :
    world.steps ≤ most.toNat ∧
        (interpreter.withMaxSteps (some most)).Yields program fuel result world ∨
      most.toNat < world.steps ∧ ∃ location cut,
        (interpreter.withMaxSteps (some most)).Yields program fuel
          (.error (tooManySteps most location)) cut ∧
        cut.steps = most.toNat + 1 ∧ cut.Extends world := by
  have follows := interpreter.follows_withMaxSteps program fuel most
  rw [yields_iff] at yields
  simp only [yields_iff]
  generalize (interpreter.withMaxSteps none).ending program fuel = ending,
    (interpreter.withMaxSteps (some most)).ending program fuel = ending' at follows yields ⊢
  obtain ⟨rfl, rfl⟩ := yields
  cases follows with
  | ok _ _ bounded linked =>
      cases Value.linked_same linked
      exact .inl ⟨bounded, rfl, rfl⟩
  | error stop bounded => exact .inl ⟨bounded, rfl, rfl⟩
  | cut cuts =>
      obtain ⟨passed, ⟨location, rfl⟩, counted, before⟩ := cuts
      exact .inr ⟨passed, location, _, ⟨rfl, rfl⟩, counted, before⟩

/-! ## Calls -/

/-- A run under a limit on the depth of calls, compared with one without. -/
theorem yields_withMaxCallDepth (yields : interpreter.YieldsUnbounded program fuel result world)
    {most : Int} (small : most < 71582755)
    (room : ((interpreter.withMaxCallDepth most).run program fuel).1 ≠ .error (.overflow .stack)) :
    peak world.calls ≤ most.toNat ∧
        (interpreter.withMaxCallDepth most).Yields program fuel result world ∨
      ∃ location cut,
        (interpreter.withMaxCallDepth most).Yields program fuel
          (.error (tooManyCalls most location)) cut ∧
        (most.toNat < peak world.calls ∧ cut.Extends world ∨
          peak cut.calls = most.toNat ∧
            ∃ misfit, result = .error misfit ∧ Misfit cut misfit world) := by
  obtain ⟨large, yields⟩ := yields
  have follows := interpreter.follows_withMaxCallDepth program (Int.le_max_right large fuel) most
  have yields := yields (max large fuel) (Int.le_max_left large fuel)
  have reserved : (interpreter.withMaxCallDepth most).settings.reserve = .ok () :=
    Settings.reserve_of_lt small
  rw [run_eq, ending_of_reserve reserved] at room
  simp only [yields_iff, ending_of_reserve reserved]
  generalize (interpreter.withMaxCallDepth (max large fuel)).executed program fuel = ending,
    (interpreter.withMaxCallDepth most).executed program fuel = ending' at follows yields room ⊢
  obtain ⟨rfl, rfl⟩ := yields
  cases follows with
  | ok _ _ bounded linked =>
      cases Value.linked_same linked
      exact .inl ⟨bounded, rfl, rfl⟩
  | error stop bounded => exact .inl ⟨bounded, rfl, rfl⟩
  | cut cuts =>
      obtain rfl | ⟨⟨location, rfl⟩, passed | ⟨reached, misfit, stopped, misfits⟩⟩ := cuts
      · exact absurd rfl room
      · exact .inr ⟨location, _, ⟨rfl, rfl⟩, .inl passed⟩
      · refine .inr ⟨location, _, ⟨rfl, rfl⟩, .inr ⟨reached, misfit, ?_, misfits⟩⟩
        cases ending with
        | ok => cases stopped
        | error => exact congrArg Except.error (Option.some.inj stopped)

/-! ## Both limits -/

/-- A run without a limit on steps is the same under every limit that it keeps to, and stopped with
part of its output under every other. A bound on the depth of calls above 71582754 wants too much
room on the stack, and nothing is run. Under other bounds, if the stack is never full, a run without
a bound is the same if the bound is larger than the depth that it reaches, and stopped with part of
its output if the bound is smaller. Under a bound that it just reaches it is the same too, unless it
ends where the arguments of a call do not fit: then this call is refused before it is seen that they
do not. -/
theorem run_limits (interpreter : Interpreter) (program : Program) (fuel : Nat)
    (result : Except Stop Value) (world : World) :
    ((interpreter.withMaxSteps none).Yields program fuel result world → ∀ most : Int,
      (world.steps ≤ most →
        (interpreter.withMaxSteps (some most)).Yields program fuel result world) ∧
      (most < world.steps → 1 ≤ world.steps → ∃ location cut,
        (interpreter.withMaxSteps (some most)).Yields program fuel
          (.error (tooManySteps most location)) cut ∧
        cut.steps = most.toNat + 1 ∧ cut.Extends world)) ∧
    (interpreter.YieldsUnbounded program fuel result world → ∀ most : Int,
      (71582755 ≤ most → (interpreter.withMaxCallDepth most).Yields program fuel
        (.error (.overflow .room)) interpreter.start) ∧
      (most < 71582755 →
        ((interpreter.withMaxCallDepth most).run program fuel).1 ≠ .error (.overflow .stack) →
        (peak world.calls < most.toNat →
          (interpreter.withMaxCallDepth most).Yields program fuel result world) ∧
        (most.toNat < peak world.calls → ∃ location cut,
          (interpreter.withMaxCallDepth most).Yields program fuel
            (.error (tooManyCalls most location)) cut ∧ cut.Extends world) ∧
        (most.toNat = peak world.calls →
          (interpreter.withMaxCallDepth most).Yields program fuel result world ∨
          ∃ location cut message place,
            (interpreter.withMaxCallDepth most).Yields program fuel
              (.error (tooManyCalls most location)) cut ∧ cut.output = world.output ∧
            result = .error (.fault (.atLocation .patternMismatch message place)) ∧
            Misfit cut (.fault (.atLocation .patternMismatch message place)) world))) := by
  constructor
  · intro yields most
    rcases yields_withMaxSteps yields most with ⟨bounded, same⟩ | ⟨passed, stopped⟩
    · exact ⟨fun _ => same, fun _ _ => by omega⟩
    · exact ⟨fun _ => by omega, fun _ _ => stopped⟩
  · intro yields most
    refine ⟨fun large => ?_, fun small room => ?_⟩
    · rw [yields_iff, ending_of_refused (Settings.reserve_of_le large)]
      exact ⟨rfl, rfl⟩
    rcases yields_withMaxCallDepth yields small room with
      ⟨bounded, same⟩ | ⟨location, cut, stopped, ⟨passed, before⟩ | ⟨reached, stop, failed, misfit⟩⟩
    · exact ⟨fun _ => same, fun _ => by omega, fun _ => .inl same⟩
    · exact ⟨fun _ => by omega, fun _ => ⟨location, cut, stopped, before⟩, fun _ => by omega⟩
    · obtain ⟨⟨message, place, rfl⟩, scopes, rfl⟩ := misfit.eq
      have reached : peak ({ cut with scopes } : World).calls = most.toNat := reached
      refine ⟨fun _ => by omega, fun _ => by omega, fun _ => .inr ?_⟩
      exact ⟨location, cut, message, place, stopped, rfl, failed, misfit⟩

/-- `g := fn x -> (fn (a, b) -> a) x` and then `g 1`. -/
def misfitProgram : Program :=
  let here := Location.start none
  let first := Node.lambda [.tuple [.name "a" here, .name "b" here] here]
    ⟨[.identifier "a" here], here⟩ here
  ⟨[.binding (.name "g" here)
      (.lambda [.name "x" here] ⟨[.call first [.identifier "x" here] here], here⟩ here) true here,
    .call (.identifier "g" here) [.integer 1 here] here], here⟩

/-- The kind of the fault that a run ends with. -/
def faultKind? : Except Stop Value → Option Fault.Kind
  | .error (.fault wrong) => some wrong.kind
  | _ => none

theorem yieldsUnbounded_misfitProgram :
    (new .default).YieldsUnbounded misfitProgram 10
      (((new .default).withMaxCallDepth 10).run misfitProgram 10).1
      (((new .default).withMaxCallDepth 10).run misfitProgram 10).2.world :=
  yieldsUnbounded_of_le (by decide) (by decide) (by decide +kernel)

/-- A run that has one call active at most is not the same under a bound of one. -/
theorem refused_misfitProgram : ∃ result world,
    (new .default).YieldsUnbounded misfitProgram 10 result world ∧ peak world.calls = 1 ∧
      ¬ ((new .default).withMaxCallDepth 1).Yields misfitProgram 10 result world := by
  refine ⟨_, _, yieldsUnbounded_misfitProgram, by decide +kernel, fun yields => ?_⟩
  have refused : faultKind? (((new .default).withMaxCallDepth 1).run misfitProgram 10).1 =
      some .limitExceeded := by decide +kernel
  have misfit : faultKind? (((new .default).withMaxCallDepth 10).run misfitProgram 10).1 =
      some .patternMismatch := by decide +kernel
  rw [yields.1, misfit] at refused
  cases refused

theorem ne_overflow_of_faultKind? {result : Except Stop Value} (kind : Fault.Kind)
    (failed : faultKind? result = some kind) (overflow : Overflow) :
    result ≠ .error (.overflow overflow) := by
  rintro rfl
  cases failed

theorem run_limits_misfitProgram :
    (∃ result world,
      ((new .default).withMaxSteps none).Yields misfitProgram 10 result world ∧
      ((new .default).withMaxSteps (some 3)).Yields misfitProgram 10 result world ∧
      ∃ location cut,
        ((new .default).withMaxSteps (some (-2))).Yields misfitProgram 10
          (.error (tooManySteps (-2) location)) cut ∧ cut.steps = 1) ∧
    ∃ result world, (new .default).YieldsUnbounded misfitProgram 10 result world ∧
      ((new .default).withMaxCallDepth 100000000).Yields misfitProgram 10
        (.error (.overflow .room)) (new .default).start ∧
      ((new .default).withMaxCallDepth 2).Yields misfitProgram 10 result world ∧
      (∃ location cut,
        ((new .default).withMaxCallDepth 0).Yields misfitProgram 10
          (.error (tooManyCalls 0 location)) cut) ∧
      (((new .default).withMaxCallDepth 1).Yields misfitProgram 10 result world ∨
        ∃ location cut, ((new .default).withMaxCallDepth 1).Yields misfitProgram 10
          (.error (tooManyCalls 1 location)) cut ∧ cut.output = world.output) := by
  constructor
  · let free := ((new .default).withMaxSteps none).run misfitProgram 10
    have yields : ((new .default).withMaxSteps none).Yields misfitProgram 10 free.1 free.2.world :=
      ⟨rfl, rfl⟩
    have counted : free.2.world.steps = 3 := by decide +kernel
    have limits := (run_limits (new .default) misfitProgram 10 free.1 free.2.world).1 yields
    obtain ⟨location, cut, stopped, first, -⟩ := (limits (-2)).2 (by omega) (by omega)
    exact ⟨_, _, yields, (limits 3).1 (by omega), location, cut, stopped, first⟩
  · let free := ((new .default).withMaxCallDepth 10).run misfitProgram 10
    have reached : peak free.2.world.calls = 1 := by decide +kernel
    have limits := (run_limits (new .default) misfitProgram 10 free.1 free.2.world).2
      yieldsUnbounded_misfitProgram
    have none := (limits 0).2 (by decide)
      (ne_overflow_of_faultKind? .limitExceeded (by decide +kernel) _)
    have one := (limits 1).2 (by decide)
      (ne_overflow_of_faultKind? .limitExceeded (by decide +kernel) _)
    have two := (limits 2).2 (by decide)
      (ne_overflow_of_faultKind? .patternMismatch (by decide +kernel) _)
    obtain ⟨location, cut, stopped, -⟩ := none.2.1 (by rw [reached]; decide)
    refine ⟨_, _, yieldsUnbounded_misfitProgram, (limits 100000000).1 (by decide),
      two.1 (by rw [reached]; decide), ⟨location, cut, stopped⟩, ?_⟩
    refine (one.2.2 (by rw [reached]; decide)).imp id ?_
    exact fun ⟨location, cut, _, _, stopped, output, _⟩ => ⟨location, cut, stopped, output⟩

end Interpreter

end Offside
