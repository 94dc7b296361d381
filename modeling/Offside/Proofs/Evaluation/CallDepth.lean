import Offside.Proofs.Evaluation.Fuel
import Offside.Proofs.Evaluation.Limited

/-!
# The limit on the depth of calls

A call is refused if there are as many calls around it as are allowed, before its arguments are
bound to its parameters. So a run under a limit on the depth of calls is a run without, up to the
first call that is refused. There the run without limit enters the call, unless its arguments do not
fit. A run under a limit may also be stopped earlier, because it has less room on the stack.
-/

namespace Offside

/-! ## Binding arguments -/

/-- An evaluation that changes scopes alone, and stops only where a pattern does not fit. -/
def Binds {α : Type} (evaluation : Eval α) : Prop :=
  ∀ world : World, ∃ scopes, (∃ value, evaluation world = .ok value { world with scopes }) ∨
    ∃ message location, evaluation world =
      .error (.fault (.atLocation .patternMismatch message location)) { world with scopes }

namespace Binds

theorem pure {α : Type} (value : α) : Binds (pure value) :=
  fun world => ⟨world.scopes, .inl ⟨value, rfl⟩⟩

theorem bind {α β : Type} {first : Eval α} {next : α → Eval β} (binds : Binds first)
    (each : ∀ value, Binds (next value)) : Binds (first >>= next) := by
  intro world
  obtain ⟨scopes, ⟨value, ended⟩ | ⟨message, location, ended⟩⟩ := binds world
  · rw [Eval.bind_of_ok ended]
    exact each value { world with scopes }
  · rw [Eval.bind_of_error ended]
    exact ⟨scopes, .inr ⟨message, location, rfl⟩⟩

theorem mismatch (message : String) (location : Location) :
    Binds (Eval.fail .patternMismatch message location : Eval Unit) :=
  fun world => ⟨world.scopes, .inr ⟨message, location, rfl⟩⟩

theorem bindName (rebind : Bool) (scope : Nat) (name : String) (value : Value) :
    Binds (Eval.bindName rebind scope name value) := by
  intro world
  rw [Eval.bindName_eq]
  exact ⟨_, .inl ⟨(), rfl⟩⟩

theorem bindPatterns_of_each {patterns : List Pattern} {rebind : Bool} {scope : Nat}
    (each : ∀ pattern ∈ patterns, ∀ value, Binds (Eval.bindPattern rebind scope pattern value))
    (values : List Value) : Binds (Eval.bindPatterns rebind scope patterns values) := by
  induction patterns generalizing values with
  | nil => exact .pure ()
  | cons pattern patterns ih =>
      rw [List.forall_mem_cons] at each
      cases values with
      | nil => exact .pure ()
      | cons value values => exact (each.1 value).bind fun _ => ih each.2 values

theorem bindPattern (rebind : Bool) (scope : Nat) (pattern : Pattern) (value : Value) :
    Binds (Eval.bindPattern rebind scope pattern value) := by
  induction pattern using Pattern.induction generalizing value with
  | name bound location => exact .bindName rebind scope bound value
  | tuple elements location ih =>
      cases value with
      | tuple items =>
          rw [Eval.bindPattern]
          split
          · exact bindPatterns_of_each ih items
          · exact .mismatch _ _
      | _ => exact .mismatch _ _

theorem bindArguments (scope : Nat) (parameters : List Pattern) (arguments : List Value) :
    Binds (Eval.bindArguments scope parameters arguments) := by
  refine .bind (fun world => ⟨_, .inl ⟨_, rfl⟩⟩) fun inner => ?_
  refine .bind ?_ fun _ => .pure inner
  exact bindPatterns_of_each (fun pattern _ => bindPattern false inner pattern) arguments

end Binds

/-! ## Refused calls -/

/-- Why a call within `most` others is refused. -/
def tooManyCalls (most : Int) (location : Location) : Stop :=
  .fault (.atLocation .limitExceeded
    ("maximum call depth of " ++ toString most ++ " exceeded") location)

/-- The arguments of some call do not fit its parameters, and an evaluation stops. -/
def Misfit (world : World) (stop : Stop) (later : World) : Prop :=
  ∃ scope parameters arguments,
    Eval.bindArguments scope parameters arguments world = .error stop later

/-- Where arguments do not fit, nothing but scopes has changed. -/
theorem Misfit.eq {world later : World} {stop : Stop} (misfit : Misfit world stop later) :
    (∃ message location, stop = .fault (.atLocation .patternMismatch message location)) ∧
      ∃ scopes, later = { world with scopes } := by
  obtain ⟨scope, parameters, arguments, ended⟩ := misfit
  obtain ⟨scopes, ⟨inner, bound⟩ | ⟨message, location, failed⟩⟩ :=
    Binds.bindArguments scope parameters arguments world
  · cases ended.symm.trans bound
  · cases ended.symm.trans failed
    exact ⟨⟨message, location, rfl⟩, scopes, rfl⟩

/-- At most so many calls within each other. -/
def callLimit (most : Int) : Limit where
  count world := peak world.calls
  bound := most.toNat
  Cuts reason world stop cut := stop = .overflow .stack ∨
    (∃ location, stop = tooManyCalls most location) ∧
      (most.toNat < peak world.calls ∧ cut.Extends world ∨
        peak cut.calls = most.toNat ∧ ∃ misfit, reason = some misfit ∧ Misfit cut misfit world)
  count_quiet quiet := quiet.calls
  cuts_later := by
    rintro world later stop cut reason (full | ⟨stopped, ⟨passed, before⟩ | ⟨-, _, ⟨⟩, -⟩⟩) more
      grows
    · exact .inl full
    · exact .inr ⟨stopped, .inl ⟨passed.trans_le more, before.trans grows⟩⟩

/-- So many calls of closures have been entered, and the fuel is not enough to enter more than
`fuel` calls. -/
def Entered (fuel stage left : Nat) (depth : Depth) : Prop :=
  depth.closures ≤ stage ∧ depth.calls + left ≤ fuel

theorem related_enterBuiltin (settings : Settings) {free : Int} (most : Int) {stage : Nat}
    {depth : Depth} (enough : depth.calls < free) (builtin : Builtin) :
    (callLimit most).Related stage (fun _ _ _ => True)
      (Eval.enterBuiltin { settings with maxCallDepth := free } depth builtin)
      (Eval.enterBuiltin { settings with maxCallDepth := most } depth builtin) := by
  have noted : (callLimit most).Related stage (fun _ _ _ => True) _ _ :=
    Limit.related_quiet (.noteBuiltin builtin.name) fun _ _ _ => trivial
  rw [Eval.enterBuiltin_of_lt enough]
  unfold Eval.enterBuiltin
  split
  · exact ⟨noted.tame, fun _ _ _ => .cut (.inl rfl)⟩
  · exact noted

/-- Evaluations under a limit on calls follow those under a bound that the fuel does not reach. -/
def limitedCalls (settings : Settings) {free : Int} (most : Int) {fuel : Nat}
    (enough : fuel ≤ free) :
    Lockstep Nat { settings with maxCallDepth := free } { settings with maxCallDepth := most } where
  Permits := Entered fuel
  surplus := 0
  Related := (callLimit most).Related
  rebind := rebindOnAssign_withMaxCallDepth settings free most
  permits_mono le permits := ⟨permits.1.trans le, permits.2⟩
  permits_less permits := ⟨permits.1, Nat.le_of_succ_le permits.2⟩
  permits_inBuiltin permits := ⟨permits.1, (Nat.succ_add_eq_add_succ _ _).trans_le permits.2⟩
  pure := Limit.related_pure
  bind := Limit.Related.bind
  stop := Limit.related_stop
  exhausted some := absurd some (Nat.lt_irrefl 0)
  tick location := Limit.related_same (fun world => by rw [Eval.world_tick]; rfl)
    (fun world => by rw [Eval.world_tick]; exact .refl world) fun _ _ _ => trivial
  enterBuiltin builtin permits :=
    related_enterBuiltin settings most (by have := permits.2; omega) builtin
  quiet := Limit.related_quiet

section Calls

variable {most : Int} {fuel stage left : Nat} {depth : Depth}

/-- A call has been entered at the stage that it leads to. -/
theorem entered_inClosure (enough : depth.calls + (left + 1) ≤ fuel) :
    Entered fuel (max stage (depth.closures + 1)) left depth.inClosure :=
  ⟨Nat.le_max_right _ _, by rw [depth.calls_inClosure]; omega⟩

theorem tame_noteClosure (name : String) (count : Nat)
    (enough : depth.calls + (left + 1) ≤ fuel) :
    (callLimit most).Tame stage (fun later (_ _ : Unit) => Entered fuel later left depth.inClosure)
      (Eval.note (.closure name count depth.closures)) := by
  intro world counted
  refine ⟨⟨Nat.le_max_right _ _, .refl world⟩, fun value later ended => ?_⟩
  cases ended
  refine ⟨_, (), Nat.le_max_left _ _, ?_, entered_inClosure enough⟩
  change max stage (depth.closures + 1) ≤ max (depth.closures + 1) (peak world.calls)
  have counted : stage ≤ peak world.calls := counted
  omega

theorem related_noteClosure (name : String) (count : Nat)
    (enough : depth.calls + (left + 1) ≤ fuel) (room : depth.closures < most.toNat) :
    (callLimit most).Related stage (fun later _ _ => Entered fuel later left depth.inClosure)
      (Eval.note (.closure name count depth.closures))
      (Eval.note (.closure name count depth.closures)) where
  tame := tame_noteClosure name count enough
  follows world counted bounded := by
    have counted : stage ≤ peak world.calls := counted
    have bounded : peak world.calls ≤ most.toNat := bounded
    refine .ok (Nat.le_max_left _ _) ?_ ?_ (entered_inClosure enough)
    · change max stage (depth.closures + 1) ≤ max (depth.closures + 1) (peak world.calls)
      omega
    · change max (depth.closures + 1) (peak world.calls) ≤ most.toNat
      omega

theorem limitedCalls_entersCalls (settings : Settings) {free : Int} (most : Int) {fuel : Nat}
    (enough : fuel ≤ free) :
    (limitedCalls settings most enough).simulation.EntersCalls := by
  constructor
  intro stage left depth parameters body scope scope' bound name identity count arguments arguments'
    location evaluate evaluate' permits scopes linked _ performs
  obtain ⟨reached, fueled⟩ : depth.closures ≤ stage ∧ depth.calls + (left + 1) ≤ fuel := permits
  have fewer := depth.closures_le_calls
  let sim := (limitedCalls settings most enough).simulation
  have bound := Regime.bindArguments (fun pattern _ => pattern.located_anywhere) scopes linked
  have block {later inner inner' : Nat} (le : stage ≤ later)
      (permits : Entered fuel later left depth.inClosure) (scopes : inner = inner') :
      sim.regime.Related later
        (fun final value value' => sim.Values final value value' ∧
          ∀ rest ≤ count, Entered fuel final left depth)
        (Eval.runBlock _ evaluate ⟨inner, depth.inClosure⟩ body)
        (Eval.runBlock _ evaluate' ⟨inner', depth.inClosure⟩ body) :=
    have run := Regime.runBlock performs scopes (fun _ _ => trivial) fun _ _ _ le =>
      ⟨permits.1.trans le, permits.2⟩
    Coupling.mono run fun _ _ _ le' done =>
      ⟨done.1, fun _ _ => ⟨reached.trans (le.trans le'), Nat.le_of_succ_le fueled⟩⟩
  rw [Eval.callClosure_eq, Eval.callClosure_eq, linked.length_eq, if_neg (by dsimp only; omega)]
  by_cases refused : most ≤ depth.closures
  · rw [if_pos refused]
    refine ⟨bound.tame.bind fun later inner inner' le scopes => ?_, fun world counted bounded => ?_⟩
    · refine (tame_noteClosure _ _ fueled).bind fun final _ _ le' permits => ?_
      exact (block (le.trans le') permits scopes).tame
    · obtain ⟨changed, ⟨inner, ended⟩ | ⟨message, place, ended⟩⟩ :=
        Binds.bindArguments scope parameters arguments world
      · -- The free evaluation enters one call more than are allowed.
        rw [Eval.bind_of_ok ended, Eval.bind_of_ok (Eval.note_eq _ _)]
        let noted : World := { world with
          scopes := changed
          calls := .closure (name.getD "<fn>") arguments'.length depth.closures :: world.calls }
        have counted : max stage (depth.closures + 1) ≤ peak noted.calls :=
          Nat.max_le.mpr ⟨counted.trans (Nat.le_max_right _ _), Nat.le_max_left _ _⟩
        obtain ⟨⟨grows, output⟩, -⟩ :=
          (block (Nat.le_max_left _ _) (entered_inClosure fueled) rfl).tame noted counted
        have passed : most.toNat < peak noted.calls := by omega
        exact .cut (.inr ⟨⟨location, rfl⟩, .inl ⟨passed.trans_le grows, output⟩⟩)
      · rw [Eval.bind_of_error ended]
        have exactly : peak world.calls = most.toNat := by
          have counted : stage ≤ peak world.calls := counted
          have bounded : peak world.calls ≤ most.toNat := bounded
          omega
        exact .cut (.inr ⟨⟨location, rfl⟩,
          .inr ⟨exactly, _, rfl, scope, parameters, arguments, ended⟩⟩)
  · rw [if_neg refused]
    refine Limit.Related.bind bound fun later inner inner' le scopes => ?_
    refine Limit.Related.bind (related_noteClosure _ _ fueled (by omega)) ?_
    exact fun final _ _ le' permits => block (le.trans le') permits scopes

end Calls

namespace Interpreter

/-- The interpreter with another limit on the depth of calls. -/
def withMaxCallDepth (interpreter : Interpreter) (most : Int) : Interpreter :=
  { interpreter with settings := { interpreter.settings with maxCallDepth := most } }

theorem follows_withMaxCallDepth (interpreter : Interpreter) (program : Program) {fuel : Nat}
    {free : Int} (enough : fuel ≤ free) (most : Int) :
    (callLimit most).Follows 0 (fun _ => Value.Linked .same)
      ((interpreter.withMaxCallDepth free).executed program fuel)
      ((interpreter.withMaxCallDepth most).executed program fuel) := by
  have entered : Entered fuel 0 fuel .top := ⟨le_rfl, (Nat.zero_add fuel).le⟩
  have related : (limitedCalls interpreter.settings most enough).simulation.Related 0 _
      ((interpreter.withMaxCallDepth free).execution program fuel)
      ((interpreter.withMaxCallDepth most).execution program fuel) :=
    Simulation.runBlock_evaluate (limitedCalls_entersCalls interpreter.settings most enough) entered
      rfl program
  exact related.follows interpreter.start (Nat.zero_le _) (Nat.zero_le _)

/-- Bounds that the fuel does not reach make no difference. -/
theorem executed_withMaxCallDepth {interpreter : Interpreter} {program : Program} {fuel : Nat}
    {free free' : Int} (enough : fuel ≤ free) (enough' : fuel ≤ free')
    (ended : ((interpreter.withMaxCallDepth free).executed program fuel).isExhausted = false) :
    (interpreter.withMaxCallDepth free').executed program fuel =
      (interpreter.withMaxCallDepth free).executed program fuel := by
  have alike : Unreached fuel free free' := .inr ⟨enough, enough'⟩
  have permits : Depth.top.calls + fuel ≤ fuel := (Nat.zero_add fuel).le
  have related : (moreFuel interpreter.settings 0 alike).simulation.Related () _
      ((interpreter.withMaxCallDepth free).execution program fuel)
      ((interpreter.withMaxCallDepth free').execution program fuel) :=
    Simulation.runBlock_evaluate (moreFuel_entersCalls interpreter.settings 0 alike) permits rfl
      program
  exact Ending.Refined.eq (related interpreter.start) ended

end Interpreter

end Offside
