import Mathlib.Data.Nat.Basic
import Offside.Proofs.Evaluation.Lockstep

/-!
# Evaluations under a limit

A limit bounds something that is counted during an evaluation. While the count is within the bound,
an evaluation under the limit goes through the same worlds as a free one. Where it is cut off, the
free evaluation goes on: it counts on, and what it writes comes after what was written before the
cut.
-/

namespace Offside

/-- Why an evaluation has stopped, if it has no result. -/
def Ending.reason? {α : Type} : Ending α → Option Stop
  | .ok _ _ => none
  | .error stop _ => some stop

/-- Something that is counted, with a bound on it. -/
structure Limit where
  /-- The count that a world has reached. -/
  count : World → Nat
  bound : Nat
  /-- How the limited evaluation may be cut off, by the reason that the free one has to stop, if it
  has one, and the world that it has come to. -/
  Cuts : Option Stop → World → Stop → World → Prop
  count_quiet : ∀ {α : Type} {evaluation : Eval α}, Quiet evaluation → ∀ world,
    count (Ending.world (evaluation world)) = count world
  cuts_later : ∀ {world later stop cut} (reason : Option Stop), Cuts none world stop cut →
    count world ≤ count later → world.Extends later → Cuts reason later stop cut

namespace Limit

variable (limit : Limit)

/-- The count goes up, and so does what is written. -/
def Grows (world later : World) : Prop :=
  limit.count world ≤ limit.count later ∧ world.Extends later

/-- A free evaluation only grows, and its results are related to some others. -/
def Tame {α β : Type} (stage : Nat) (R : Nat → α → β → Prop) (evaluation : Eval α) : Prop :=
  ∀ world, stage ≤ limit.count world → limit.Grows world (Ending.world (evaluation world)) ∧
    ∀ value later, evaluation world = .ok value later →
      ∃ reached other, stage ≤ reached ∧ reached ≤ limit.count later ∧ R reached value other

/-- The ending of a limited evaluation follows that of a free one until it is cut off. -/
inductive Follows {α β : Type} (stage : Nat) (R : Nat → α → β → Prop) : Ending α → Ending β → Prop
  | ok {value : α} {other : β} {world : World} {reached : Nat} (le : stage ≤ reached)
      (counted : reached ≤ limit.count world) (bounded : limit.count world ≤ limit.bound)
      (related : R reached value other) : Follows stage R (.ok value world) (.ok other world)
  | error (stop : Stop) {world : World} (bounded : limit.count world ≤ limit.bound) :
      Follows stage R (.error stop world) (.error stop world)
  | cut {ending : Ending α} {stop : Stop} {world : World}
      (cuts : limit.Cuts ending.reason? ending.world stop world) :
      Follows stage R ending (.error stop world)

/-- A limited evaluation follows a free one. Both start with a count that has reached the stage. -/
structure Related {α β : Type} (stage : Nat) (R : Nat → α → β → Prop) (free : Eval α)
    (limited : Eval β) : Prop where
  tame : limit.Tame stage R free
  follows : ∀ world, stage ≤ limit.count world → limit.count world ≤ limit.bound →
    limit.Follows stage R (free world) (limited world)

variable {limit} {α β γ δ : Type} {stage : Nat} {R : Nat → α → β → Prop} {S : Nat → γ → δ → Prop}

theorem Grows.refl (world : World) : limit.Grows world world := ⟨le_rfl, .refl world⟩

theorem Grows.trans {first second third : World} (left : limit.Grows first second)
    (right : limit.Grows second third) : limit.Grows first third :=
  ⟨left.1.trans right.1, left.2.trans right.2⟩

theorem Follows.earlier {later : Nat} (le : stage ≤ later) {ending : Ending α}
    {ending' : Ending β} (follows : limit.Follows later R ending ending') :
    limit.Follows stage R ending ending' := by
  cases follows with
  | ok le' counted bounded related => exact .ok (le.trans le') counted bounded related
  | error stop bounded => exact .error stop bounded
  | cut cuts => exact .cut cuts

theorem Tame.bind {first : Eval α} {next : α → Eval γ} (tame : limit.Tame stage R first)
    (each : ∀ later a b, stage ≤ later → R later a b → limit.Tame later S (next a)) :
    limit.Tame stage S (first >>= next) := by
  intro world counted
  obtain ⟨grows, results⟩ := tame world counted
  cases ended : first world with
  | ok value later =>
      rw [Eval.bind_of_ok ended]
      rw [ended] at grows
      obtain ⟨reached, other, le, counted, related⟩ := results value later ended
      obtain ⟨grows', results'⟩ := each reached value other le related later counted
      refine ⟨grows.trans grows', fun result final ended' => ?_⟩
      obtain ⟨reached', other', le', holds⟩ := results' result final ended'
      exact ⟨reached', other', le.trans le', holds⟩
  | error stop later =>
      rw [Eval.bind_of_error ended]
      rw [ended] at grows
      exact ⟨grows, by simp⟩

theorem Related.bind {first : Eval α} {first' : Eval β} {next : α → Eval γ} {next' : β → Eval δ}
    (related : limit.Related stage R first first')
    (each : ∀ later a b, stage ≤ later → R later a b → limit.Related later S (next a) (next' b)) :
    limit.Related stage S (first >>= next) (first' >>= next') where
  tame := related.tame.bind fun later a b le holds => (each later a b le holds).tame
  follows world counted bounded := by
    have results := (related.tame world counted).2
    have follows := related.follows world counted bounded
    generalize ended : first world = ending, ended' : first' world = ending' at follows
    cases follows with
    | ok le counted bounded holds =>
        rw [Eval.bind_of_ok ended, Eval.bind_of_ok ended']
        exact ((each _ _ _ le holds).follows _ counted bounded).earlier le
    | error stop bounded =>
        rw [Eval.bind_of_error ended, Eval.bind_of_error ended']
        exact .error stop bounded
    | cut cuts =>
        rw [Eval.bind_of_error ended']
        cases ending with
        | ok value later =>
            -- The free evaluation goes on alone, and all it does comes after the cut.
            obtain ⟨reached, other, le, counted, holds⟩ := results value later ended
            obtain ⟨grows, -⟩ := (each reached value other le holds).tame later counted
            rw [Eval.bind_of_ok ended]
            exact .cut (limit.cuts_later _ cuts grows.1 grows.2)
        | error reason later =>
            rw [Eval.bind_of_error ended]
            exact .cut cuts

theorem related_pure {a : α} {b : β} (holds : R stage a b) :
    limit.Related stage R (pure a) (pure b) where
  tame world counted := by
    refine ⟨.refl world, fun value later ended => ?_⟩
    cases ended
    exact ⟨stage, b, le_rfl, counted, holds⟩
  follows _ counted bounded := .ok le_rfl counted bounded holds

theorem related_stop (reason : Stop) :
    limit.Related stage R (throw reason : Eval α) (throw reason : Eval β) where
  tame world _ := ⟨.refl world, fun _ _ ended => nomatch ended⟩
  follows _ _ bounded := .error reason bounded

/-- What does not count is done alike on both sides. -/
theorem related_same {R : Nat → α → α → Prop} {evaluation : Eval α}
    (same : ∀ world, limit.count (Ending.world (evaluation world)) = limit.count world)
    (output : ∀ world : World, world.Extends (Ending.world (evaluation world)))
    (each : ∀ later a, stage ≤ later → R later a a) :
    limit.Related stage R evaluation evaluation where
  tame world counted := by
    have same := same world
    refine ⟨⟨same.ge, output world⟩, fun value later ended => ?_⟩
    rw [ended] at same
    exact ⟨stage, value, le_rfl, counted.trans same.ge, each stage value le_rfl⟩
  follows world counted bounded := by
    have same := same world
    cases ended : evaluation world with
    | ok value later =>
        rw [ended] at same
        exact .ok le_rfl (counted.trans same.ge) (same.trans_le bounded) (each stage value le_rfl)
    | error stop later =>
        rw [ended] at same
        exact .error stop (same.trans_le bounded)

theorem related_quiet {R : Nat → α → α → Prop} {evaluation : Eval α} (quiet : Quiet evaluation)
    (each : ∀ later a, stage ≤ later → R later a a) :
    limit.Related stage R evaluation evaluation :=
  related_same (limit.count_quiet quiet) quiet.output each

end Limit

end Offside
