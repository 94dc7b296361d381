import Offside.Proofs.Evaluation.Fuel
import Offside.Proofs.Evaluation.Halting

/-!
# Runs under a limit on steps

A run under a limit on steps ends, unless it comes to a loop without statements in its body. The
exception is real: a loop with an empty body and a condition that holds executes no statement, so it
is never stopped.
-/

namespace Offside

/-- No loop under a condition has an empty body, neither in the program nor in the functions that
are bound already. -/
structure Interpreter.Busy (interpreter : Interpreter) (program : Program) : Prop where
  program : program.All Node.HasBody
  bound : interpreter.world.Holds fun _ body _ => body.All Node.HasBody

namespace Interpreter

theorem ending_eq_of_le {interpreter : Interpreter} {program : Program} {fuel larger : Nat}
    (le : fuel ≤ larger) (ended : (interpreter.ending program fuel).isExhausted = false) :
    interpreter.ending program larger = interpreter.ending program fuel := by
  obtain ⟨surplus, rfl⟩ := Nat.exists_eq_add_of_le le
  let bound := interpreter.settings.maxCallDepth
  have alike : Unreached fuel bound bound := .inl rfl
  have permits : Depth.top.calls + fuel ≤ fuel := (Nat.zero_add fuel).le
  have related : (moreFuel interpreter.settings surplus alike).simulation.Related () _
      (interpreter.evaluation program fuel) (interpreter.evaluation program (fuel + surplus)) :=
    Simulation.evaluation interpreter interpreter
      (moreFuel_entersCalls interpreter.settings surplus alike) rfl permits rfl program
  exact Ending.Refined.eq (related interpreter.start) ended

/-- There is an amount of fuel that lasts. -/
theorem exists_ended {interpreter : Interpreter} {program : Program}
    (busy : interpreter.Busy program) {limit : Int}
    (limited : interpreter.settings.maxSteps = some limit) :
    ∃ fuel, (interpreter.ending program fuel).isExhausted = false := by
  obtain ⟨height, within⟩ := busy.program.exists_within
  obtain ⟨height', holds⟩ := busy.bound.exists_within
  let budget : Budget := ⟨interpreter.settings, limit, max height height', limited⟩
  have sound : budget.frame.Sound interpreter.start :=
    holds.mono fun _ _ _ within => ⟨Block.Within.mono (Nat.le_max_right ..) within, trivial⟩
  let fuel := budget.fuel interpreter.start .top budget.height
  have run : budget.frame.coupling.Related ⟨interpreter.start, sound⟩ _
      (interpreter.execution program fuel) (interpreter.execution program fuel) :=
    Regime.runBlock (Regime.performs_and_runs budget.entersCalls fuel .top).1 rfl
      (fun _ _ => trivial) fun statement member _ ticked =>
        ⟨budget.height, le_rfl, (within statement member).mono (Nat.le_max_left ..),
          Budget.fuel_le ticked.1 .top budget.height⟩
  have keeps : budget.frame.Ends interpreter.start (fun _ _ => True)
      (interpreter.ending program fuel) := by
    refine Frame.Keeps.bind (Frame.keeps_ofNumbers sound _) ?_
    rintro _ _ _ rfl
    exact Frame.Keeps.mono run fun _ _ _ _ => trivial
  refine ⟨fuel, ?_⟩
  generalize interpreter.ending program fuel = ending at keeps
  cases keeps with
  | ok leads done => rfl
  | @error stop later leads stops =>
      cases stop with
      | exhausted => exact stops.elim
      | fault wrong => rfl
      | overflow refused => rfl

/-- A run without empty loops ends under a limit on steps: from some amount of fuel on it has the
same result, and this is not that fuel has run out. -/
theorem run_ends (interpreter : Interpreter) (program : Program)
    (busy : interpreter.Busy program) (limit : Int)
    (limited : interpreter.settings.maxSteps = some limit) :
    ∃ result later, result ≠ .error .exhausted ∧ ∃ fuel, ∀ larger, fuel ≤ larger →
      interpreter.run program larger = (result, later) := by
  obtain ⟨fuel, ended⟩ := exists_ended busy limited
  refine ⟨_, _, ?_, fuel, fun larger le => by rw [run_eq, ending_eq_of_le le ended]⟩
  intro exhausted
  cases ending : interpreter.ending program fuel with
  | ok value world =>
      rw [ending] at exhausted
      cases exhausted
  | error stop world =>
      rw [ending] at exhausted ended
      cases exhausted
      cases ended

/-- `f := fn x -> map [x] f` and then `while true: f 1`. -/
def nestingProgram : Program :=
  let here := Location.start none
  let again := Node.call (.identifier "map" here)
    [.list [.identifier "x" here] here, .identifier "f" here] here
  ⟨[.binding (.name "f" here) (.lambda [.name "x" here] ⟨[again], here⟩ here) true here,
    .whileLoop (.boolean true here)
      ⟨[.call (.identifier "f" here) [.integer 1 here] here], here⟩ here], here⟩

theorem busy_nestingProgram (settings : Settings) : (new settings).Busy nestingProgram where
  program := by
    have within : nestingProgram.Within Node.HasBody 8 := by decide
    exact fun statement member => (within statement member).all
  bound := holds_new settings _

theorem run_ends_nestingProgram :
    ∃ result later, result ≠ .error .exhausted ∧ ∃ fuel, ∀ larger, fuel ≤ larger →
      (new ⟨false, some 5, 500⟩).run nestingProgram larger = (result, later) :=
  run_ends _ nestingProgram (busy_nestingProgram _) 5 rfl

/-! ## Loops without statements -/

/-- A loop without statements, the condition of which takes some time and holds. -/
def idleSource : String := "while ((1..100000) ++ []) != []:\n    ;"

/-- The condition: the integers up to 100000 are not the empty list. -/
def isIdleTest : Node → Bool
  | .binary .notEqual (.binary .concat (.range (.integer 1 _) (.integer 100000 _) _) (.list [] _) _)
      (.list [] _) _ => true
  | _ => false

def isIdle : Program → Bool
  | ⟨[.whileLoop test ⟨[], _⟩ _], _⟩ => isIdleTest test
  | _ => false

theorem equal_integersFrom (low : Int) (count : Nat) :
    Value.equal (.list (Value.integersFrom low (count + 1) ++ [])) (.list []) = .ok false := by
  rw [Value.equal, List.append_nil, Value.length_integersFrom]
  rfl

theorem condition_idleTest {test : Node} (idle : isIdleTest test) (settings : Settings)
    (fuel : Nat) (context : Context) (world : World) :
    Eval.condition (Eval.evaluate settings fuel) context test world = .ok true world ∨
      Eval.condition (Eval.evaluate settings fuel) context test world =
        .error .exhausted world := by
  unfold isIdleTest at idle
  split at idle
  · next low high range empty join empty' here =>
    match fuel with
    | 0 | 1 | 2 | 3 => exact .inr rfl
    | fuel + 4 =>
        have joined : Eval.evaluate settings (fuel + 3) context
            (.binary .concat (.range (.integer 1 low) (.integer 100000 high) range) (.list [] empty)
              join) world = .ok (.list (Value.integersFrom 1 100000 ++ [])) world := rfl
        have nothing : Eval.evaluate settings (fuel + 3) context (.list [] empty') world =
            .ok (.list []) world := rfl
        have compared : Eval.evaluate settings (fuel + 4) context (.binary .notEqual
            (.binary .concat (.range (.integer 1 low) (.integer 100000 high) range) (.list [] empty)
              join) (.list [] empty') here) world = .ok (.bool true) world := by
          rw [Eval.evaluate, Eval.evaluateStep, Eval.evaluateBinary, Eval.bind_of_ok joined,
            Eval.bind_of_ok nothing, Eval.operation, equal_integersFrom 1 99999]
          · rfl
          · simp
          · simp
        rw [Eval.condition, Eval.bind_of_ok compared]
        exact .inl rfl
  · cases idle

theorem isExhausted_idleLoop {test : Node} (idle : isIdleTest test) (settings : Settings)
    (fuel rounds : Nat) (context : Context) (location : Location) (world : World) :
    Ending.isExhausted (Eval.evaluateWhile settings (Eval.evaluate settings fuel) context test
      ⟨[], location⟩ rounds world) = true := by
  induction rounds generalizing world with
  | zero => rfl
  | succ rounds ih =>
      rw [Eval.evaluateWhile]
      rcases condition_idleTest idle settings fuel context world with holds | exhausted
      · rw [Eval.bind_of_ok holds]
        exact ih _
      · rw [Eval.bind_of_error exhausted]
        rfl

theorem isIdle_idleSource :
    (match Source.program idleSource none with
      | .ok program => isIdle program
      | .error _ => false) = true := by
  decide +kernel

theorem result_of_isExhausted {α : Type} {ending : Ending α}
    (exhausted : ending.isExhausted = true) : ending.result = .error .exhausted := by
  cases ending with
  | ok value world => cases exhausted
  | error stop world =>
      cases stop with
      | exhausted => rfl
      | fault wrong => cases exhausted
      | overflow refused => cases exhausted

theorem isExhausted_bind {α β : Type} {first : Eval α} {world : World}
    (exhausted : Ending.isExhausted (first world) = true) (next : α → Eval β) :
    Ending.isExhausted ((first >>= next) world) = true := by
  cases ended : first world with
  | ok value later =>
      rw [ended] at exhausted
      cases exhausted
  | error stop later =>
      rw [ended] at exhausted
      rw [Eval.bind_of_error ended, ← exhausted]
      exact isExhausted_error stop later later

theorem isExhausted_idle {program : Program} (idle : isIdle program) (fuel : Nat) :
    ((new ⟨false, some 1, 500⟩).ending program fuel).isExhausted = true := by
  unfold isIdle at idle
  split at idle
  · next test inside here around =>
    let interpreter := new ⟨false, some 1, 500⟩
    have counted : Eval.tick interpreter.settings here interpreter.start =
        .ok () { interpreter.start with steps := 1 } := rfl
    rw [ending_of_reserve rfl, executed, execution, Eval.runBlock, Eval.runStatements,
      Node.location, Eval.bind_of_ok counted]
    refine isExhausted_bind ?_ _
    cases fuel with
    | zero => rfl
    | succ fuel => exact isExhausted_idleLoop idle _ fuel fuel _ inside _
  · cases idle

/-- A limit on steps does not stop a loop without statements. -/
theorem endless_idleSource : ∃ program, Source.program idleSource none = .ok program ∧
    ∀ fuel, ((new ⟨false, some 1, 500⟩).run program fuel).1 = .error .exhausted := by
  have idle := isIdle_idleSource
  split at idle
  · next program accepted =>
    refine ⟨program, accepted, fun fuel => ?_⟩
    rw [run_eq]
    exact result_of_isExhausted (isExhausted_idle idle fuel)
  · cases idle

end Interpreter

end Offside
