import Offside.Proofs.Evaluation.Limited

/-!
# The limit on steps

A run under a limit on the number of steps is a run without, up to the statement that is one too
many.
-/

namespace Offside

/-- Why a run with more than `most` steps is stopped. -/
def tooManySteps (most : Int) (location : Location) : Stop :=
  .fault (.atLocation .limitExceeded ("step limit of " ++ toString most ++ " exceeded") location)

/-- At most so many steps. The first step beyond is counted, but not taken. -/
def stepLimit (most : Int) : Limit where
  count := World.steps
  bound := most.toNat
  Cuts _ world stop cut := most.toNat < world.steps ∧
    (∃ location, stop = tooManySteps most location) ∧ cut.steps = most.toNat + 1 ∧ cut.Extends world
  count_quiet quiet := quiet.steps
  cuts_later _ := fun ⟨passed, stopped, counted, before⟩ more grows =>
    ⟨passed.trans_le more, stopped, counted, before.trans grows⟩

theorem stepLimit_tick (settings : Settings) (most : Int) (stage : Nat) (location : Location) :
    (stepLimit most).Related stage (fun _ _ _ => True)
      (Eval.tick { settings with maxSteps := none } location)
      (Eval.tick { settings with maxSteps := some most } location) where
  tame world counted := by
    rw [Eval.tick_eq]
    refine ⟨⟨Nat.le_succ _, .refl world⟩, fun value later ended => ?_⟩
    cases ended
    exact ⟨stage, (), le_rfl, Nat.le_succ_of_le counted, trivial⟩
  follows world counted bounded := by
    rw [Eval.tick_eq, Eval.tick_eq]
    have within : world.steps ≤ most.toNat := bounded
    dsimp only
    split
    · next passed =>
      have last : world.steps = most.toNat := by omega
      refine .cut ⟨?_, ⟨location, rfl⟩, ?_, .refl world⟩
      · change most.toNat < world.steps + 1
        omega
      · change world.steps + 1 = most.toNat + 1
        omega
    · next room =>
      refine .ok le_rfl (Nat.le_succ_of_le counted) ?_ trivial
      change world.steps + 1 ≤ most.toNat
      omega

/-- Evaluations under a limit on steps follow free ones. -/
def limitedSteps (settings : Settings) (most : Int) :
    Lockstep Nat { settings with maxSteps := none } { settings with maxSteps := some most } where
  Permits _ _ _ := True
  surplus := 0
  Related := (stepLimit most).Related
  rebind := rfl
  permits_mono _ permits := permits
  permits_less permits := permits
  permits_inBuiltin permits := permits
  pure := Limit.related_pure
  bind := Limit.Related.bind
  stop := Limit.related_stop
  exhausted some := absurd some (Nat.lt_irrefl 0)
  tick := stepLimit_tick settings most _
  enterBuiltin builtin _ := Limit.related_quiet (.enterBuiltin settings _ builtin) fun _ _ _ =>
    trivial
  quiet := Limit.related_quiet

theorem limitedSteps_entersCalls (settings : Settings) (most : Int) :
    (limitedSteps settings most).simulation.EntersCalls :=
  Simulation.entersCalls (fun _ _ _ => Limit.related_same (fun _ => rfl) (fun world => .refl world)
    fun _ _ _ => trivial) fun _ => .inl rfl

namespace Interpreter

/-- The interpreter with another limit on the number of steps. -/
def withMaxSteps (interpreter : Interpreter) (limit : Option Int) : Interpreter :=
  { interpreter with settings := { interpreter.settings with maxSteps := limit } }

theorem follows_withMaxSteps (interpreter : Interpreter) (program : Program) (fuel : Nat)
    (most : Int) :
    (stepLimit most).Follows 0 (fun _ => Value.Linked .same)
      ((interpreter.withMaxSteps none).ending program fuel)
      ((interpreter.withMaxSteps (some most)).ending program fuel) := by
  have related : (limitedSteps interpreter.settings most).simulation.Related 0 _
      ((interpreter.withMaxSteps none).evaluation program fuel)
      ((interpreter.withMaxSteps (some most)).evaluation program fuel) :=
    Simulation.evaluation (interpreter.withMaxSteps none) (interpreter.withMaxSteps (some most))
      (limitedSteps_entersCalls interpreter.settings most) rfl trivial rfl program
  exact related.follows interpreter.start (Nat.zero_le _) (Nat.zero_le _)

end Interpreter

end Offside
