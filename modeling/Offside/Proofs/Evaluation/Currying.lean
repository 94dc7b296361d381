import Offside.Proofs.Evaluation.Fuel
import Offside.Proofs.Evaluation.Renaming

/-!
# Arguments one after the other

To apply a function to all of its arguments is the same as to apply it to the first of them, and the
result to the others. The function that holds the first arguments in between has an identity of its
own. So the functions made afterwards get other identities, and nothing else differs.
-/

namespace Offside

/-! ## Waiting functions -/

/-- The number of arguments that a function waits for. -/
def Value.wanted? : Value → Option Nat
  | .closure parameters _ _ bound _ _ => some (parameters.length - bound.length)
  | .builtin function bound _ => some (function.wanted bound.length)
  | _ => none

/-- A function that holds further arguments. -/
def Value.holding (arguments : List Value) (identity : Nat) : Value → Value
  | .closure parameters body scope bound name _ =>
    .closure parameters body scope (bound ++ arguments) name identity
  | .builtin function bound _ => .builtin function (bound ++ arguments) (some identity)
  | value => value

@[simp]
theorem Value.holding_holding (arguments rest : List Value) (identity identity' : Nat)
    (function : Value) :
    (function.holding arguments identity).holding rest identity' =
      function.holding (arguments ++ rest) identity' := by
  cases function <;> simp [Value.holding]

theorem Value.wanted?_holding {function : Value} {wanted : Nat} {arguments : List Value}
    (waits : function.wanted? = some wanted) (few : arguments.length < wanted) (identity : Nat) :
    (function.holding arguments identity).wanted? = some (wanted - arguments.length) := by
  cases function with
  | closure =>
      cases waits
      simp [Value.holding, Value.wanted?, Nat.sub_sub]
  | builtin =>
      cases waits
      simp only [Value.holding, Value.wanted?, List.length_append, Builtin.wanted,
        Option.some.injEq] at few ⊢
      omega
  | _ => cases waits

namespace Eval

/-- The call of a function that has got the last of its arguments. -/
def complete (settings : Settings) (fuel : Nat) (depth : Depth) (function : Value)
    (arguments : List Value) (location : Location) : Eval Value :=
  match function with
  | .closure parameters body scope bound name _ =>
    callClosure settings (evaluate settings fuel) depth parameters body scope name
      (bound ++ arguments) location
  | .builtin builtin bound _ => do
    enterBuiltin settings depth builtin
    runBuiltin (apply settings fuel depth.inBuiltin · · location) builtin (bound ++ arguments)
      location
  | value =>
    fail .notCallable ("value of type " ++ value.typeName ++ " is not callable") location

variable {settings : Settings} {fuel wanted : Nat} {depth : Depth} {function : Value}
  {arguments : List Value} {location : Location}

@[simp]
theorem complete_holding (identity : Nat) (rest : List Value) (waits : function.wanted?.isSome) :
    complete settings fuel depth (function.holding arguments identity) rest location =
      complete settings fuel depth function (arguments ++ rest) location := by
  cases function <;> simp [Value.holding, Value.wanted?, complete] at waits ⊢

/-- Too few arguments are kept for later, and those that are too many go to the result. -/
theorem apply_eq (waits : function.wanted? = some wanted) :
    apply settings (fuel + 1) depth function arguments location =
      if arguments.length < wanted then
        newIdentity >>= fun identity => pure (function.holding arguments identity)
      else
        complete settings fuel depth function (arguments.take wanted) location >>= fun result =>
          if arguments.length = wanted then pure result
          else apply settings fuel depth result (arguments.drop wanted) location := by
  cases function <;> simp [Value.wanted?] at waits
  all_goals
    rw [apply, applyStep, waits]
    simp only [complete, bind_assoc]
    rfl

/-- Arguments held are given before the others. -/
theorem apply_holding (waits : function.wanted? = some wanted) (few : arguments.length < wanted)
    (identity : Nat) (rest : List Value) :
    apply settings fuel depth (function.holding arguments identity) rest location =
      apply settings fuel depth function (arguments ++ rest) location := by
  cases fuel with
  | zero => rfl
  | succ fuel =>
      have waits' := Value.wanted?_holding waits few identity
      have less : rest.length < wanted - arguments.length ↔
          (arguments ++ rest).length < wanted := by
        rw [List.length_append]
        omega
      have same : rest.length = wanted - arguments.length ↔
          (arguments ++ rest).length = wanted := by
        rw [List.length_append]
        omega
      rw [apply_eq waits, apply_eq waits']
      simp only [less, same, List.take_append, List.drop_append, List.take_of_length_le few.le,
        List.drop_of_length_le few.le, Value.holding_holding, List.nil_append]
      rw [complete_holding identity _ (by simp [waits])]

/-- The first arguments, as many as are wanted, are given first. -/
theorem apply_take (waits : function.wanted? = some wanted) (enough : wanted ≤ arguments.length) :
    apply settings (fuel + 1) depth function (arguments.take wanted) location =
      complete settings fuel depth function (arguments.take wanted) location := by
  have length : (arguments.take wanted).length = wanted := List.length_take_of_le enough
  rw [apply_eq waits, if_neg (by omega), List.take_take, Nat.min_self]
  simp only [length, if_true, bind_pure]

theorem apply_of_le (waits : function.wanted? = some wanted) (enough : wanted ≤ arguments.length) :
    apply settings (fuel + 1) depth function arguments location =
      apply settings (fuel + 1) depth function (arguments.take wanted) location >>= fun result =>
        if arguments.length = wanted then pure result
        else apply settings fuel depth result (arguments.drop wanted) location := by
  rw [apply_take waits enough, apply_eq waits, if_neg (by omega)]

theorem apply_append_of_le (waits : function.wanted? = some wanted)
    (enough : wanted ≤ arguments.length) {rest : List Value} (more : rest ≠ []) :
    apply settings (fuel + 1) depth function (arguments ++ rest) location =
      apply settings (fuel + 1) depth function (arguments.take wanted) location >>= fun result =>
        apply settings fuel depth result (arguments.drop wanted ++ rest) location := by
  have longer : wanted < (arguments ++ rest).length := by
    have positive := List.length_pos_of_ne_nil more
    rw [List.length_append]
    omega
  rw [apply_of_le waits longer.le, List.take_append_of_le_length enough,
    List.drop_append_of_le_length enough]
  simp only [if_neg longer.ne']

theorem apply_of_none (other : function.wanted? = none) :
    apply settings (fuel + 1) depth function arguments location =
      fail .notCallable ("value of type " ++ function.typeName ++ " is not callable") location := by
  cases function <;> simp [Value.wanted?, apply, applyStep] at other ⊢

end Eval

/-! ## Endings that differ in identities alone -/

/-- Scopes stay and identities are renamed. -/
def Links.renaming (rename : Nat → Nat) : Links :=
  ⟨Eq, fun identity identity' => identity' = rename identity⟩

/-- Worlds that differ in the identities of functions alone. -/
structure World.Renamed (rename : Nat → Nat) (world world' : World) : Prop where
  steps : world.steps = world'.steps
  output : world.output = world'.output
  calls : world.calls = world'.calls
  scopes : Scopes.Rel (Value.Linked (.renaming rename)) world.scopes world'.scopes

/-- Endings that differ in the identities of functions alone. -/
inductive Ending.Renamed (rename : Nat → Nat) : Ending Value → Ending Value → Prop
  | ok {value value' : Value} {world world' : World}
      (values : Value.Linked (.renaming rename) value value')
      (worlds : world.Renamed rename world') : Renamed rename (.ok value world) (.ok value' world')
  | error (stop : Stop) {world world' : World} (worlds : world.Renamed rename world') :
      Renamed rename (.error stop world) (.error stop world')

/-- Endings that differ in the identities of functions alone, and there only in those from `old` on,
so that the same functions are told apart. -/
def Ending.Alike (old : Nat) (ending ending' : Ending Value) : Prop :=
  ∃ rename : Nat → Nat, Function.Injective rename ∧ (∀ identity < old, rename identity = identity) ∧
    ending.Renamed rename ending'

theorem shiftedLinks_le_renaming (start gap bound : Nat) :
    (shiftedLinks 0 start gap bound).Le (.renaming (shift start gap)) :=
  ⟨fun placed => (placed.trans (place_zero _)).symm, And.right⟩

theorem World.Shifted.renamed {start gap bound : Nat} {world world' : World}
    (worlds : world.Shifted 0 start gap bound world') : world.Renamed (shift start gap) world' where
  steps := worlds.steps
  output := worlds.output
  calls := worlds.calls
  scopes := Scopes.placed_zero.mp (worlds.scopes.mono fun _ _ =>
    Value.Linked.mono (shiftedLinks_le_renaming start gap bound))

namespace Ending

theorem Shifted.alike {start gap bound : Nat} {ending ending' : Ending Value}
    (shifted : Ending.Shifted 0 start gap bound
      (fun later => Value.Linked (shiftedLinks 0 start gap later)) ending ending') :
    Alike start ending ending' := by
  refine ⟨shift start gap, shift_injective start gap, fun identity below => if_pos below, ?_⟩
  cases shifted with
  | ok _ linked worlds =>
      exact .ok (linked.mono (shiftedLinks_le_renaming start gap _)) worlds.renamed
  | error stop _ worlds => exact .error stop worlds.renamed

theorem Alike.refl (old : Nat) (ending : Ending Value) : Alike old ending ending := by
  have linked (value : Value) : Value.Linked (.renaming id) value value :=
    Value.linked_self (fun _ => rfl) fun _ _ => rfl
  have worlds (world : World) : world.Renamed id world :=
    ⟨rfl, rfl, rfl, List.forall₂_same.mpr fun _ _ =>
      ⟨rfl, List.forall₂_same.mpr fun _ _ => ⟨rfl, linked _⟩⟩⟩
  refine ⟨id, Function.injective_id, fun _ _ => rfl, ?_⟩
  cases ending with
  | ok value world => exact .ok (linked value) (worlds world)
  | error stop world => exact .error stop (worlds world)

theorem Alike.earlier {old later : Nat} (le : old ≤ later) {ending ending' : Ending Value}
    (alike : Alike later ending ending') : Alike old ending ending' := by
  obtain ⟨rename, injective, fixed, renamed⟩ := alike
  exact ⟨rename, injective, fun identity below => fixed identity (below.trans_le le), renamed⟩

theorem Alike.isExhausted {old : Nat} {ending ending' : Ending Value}
    (alike : Alike old ending ending') : ending.isExhausted = ending'.isExhausted := by
  obtain ⟨rename, -, -, renamed⟩ := alike
  cases renamed with
  | ok => rfl
  | error stop => exact isExhausted_error stop _ _

end Ending

/-! ## The law -/

/-- A coherent world, and values whose functions have identities that were given out in it. -/
structure World.Knows (world : World) (values : List Value) : Prop where
  coherent : world.Coherent
  within : ∀ value ∈ values, value.Within world.identities

/-- What an application comes to is known afterwards, with all that was known before. -/
theorem World.Knows.apply {world later : World} {settings : Settings} {fuel : Nat} {depth : Depth}
    {function result : Value} {arguments others : List Value} {location : Location}
    (knows : world.Knows (function :: (arguments ++ others)))
    (ended : Eval.apply settings fuel depth function arguments location world = .ok result later) :
    world.identities ≤ later.identities ∧ later.Knows (result :: others) := by
  have within := List.forall_mem_cons.mp knows.within
  have each := List.forall_mem_append.mp within.2
  have shifted := knows.coherent.apply within.1 each.1 settings 0 fuel depth location
  rw [Nat.add_zero, ended] at shifted
  cases shifted with
  | ok le linked worlds =>
      rw [← worlds.identities] at le linked
      refine ⟨le, worlds.coherent, List.forall_mem_cons.mpr ⟨linked.within, ?_⟩⟩
      exact fun other found identity mem => (each.2 other found identity mem).trans_le le

/-- Apply a function to its first arguments, and the result to the others. -/
def Eval.applyInTurn (settings : Settings) (fuel fuel' : Nat) (depth : Depth) (function : Value)
    (first rest : List Value) (location : Location) : Eval Value := do
  let result ← apply settings fuel depth function first location
  apply settings fuel' depth result rest location

section Turns

variable {settings : Settings} {fuel fuel' wanted : Nat} {depth : Depth} {function : Value}
  {first rest : List Value} {location : Location} {world : World}

/-- The first arguments are held, and only the identity for this makes a difference. -/
theorem applyInTurn_of_lt (waits : function.wanted? = some wanted) (few : first.length < wanted) :
    Eval.applyInTurn settings (fuel + 1) fuel' depth function first rest location world =
      Eval.apply settings fuel' depth function (first ++ rest) location
        { world with identities := world.identities + 1 } := by
  have held : Eval.apply settings (fuel + 1) depth function first location world =
      .ok (function.holding first world.identities)
        { world with identities := world.identities + 1 } := by
    rw [Eval.apply_eq waits, if_pos few]
    rfl
  rw [Eval.applyInTurn, Eval.bind_of_ok held, Eval.apply_holding waits few]

theorem applyInTurn_of_le (waits : function.wanted? = some wanted)
    (enough : wanted ≤ first.length) :
    Eval.applyInTurn settings (fuel + 1) fuel' depth function first rest location =
      Eval.apply settings (fuel + 1) depth function (first.take wanted) location >>= fun result =>
        if first.length = wanted then Eval.apply settings fuel' depth result rest location
        else
          Eval.applyInTurn settings fuel fuel' depth result (first.drop wanted) rest location := by
  rw [Eval.applyInTurn, Eval.apply_of_le waits enough, bind_assoc]
  refine bind_congr fun result => ?_
  split
  · rw [pure_bind]
  · rfl

/-- What is known before the first call of a function is known after it. -/
theorem World.Knows.take {result : Value} {later : World}
    (knows : world.Knows (function :: (first ++ rest)))
    (called : Eval.apply settings fuel depth function (first.take wanted) location world =
      .ok result later) :
    world.identities ≤ later.identities ∧ later.Knows (result :: (first.drop wanted ++ rest)) := by
  refine World.Knows.apply ?_ called
  rwa [← List.append_assoc, List.take_append_drop]

/-- With enough fuel, arguments one after the other do what they do together. -/
theorem alike_applyInTurn (knows : world.Knows (function :: (first ++ rest))) (more : rest ≠ [])
    (le : fuel ≤ fuel')
    (ended : Ending.isExhausted
      (Eval.apply settings fuel depth function (first ++ rest) location world) = false) :
    Ending.Alike world.identities
      (Eval.apply settings fuel depth function (first ++ rest) location world)
      (Eval.applyInTurn settings fuel fuel' depth function first rest location world) := by
  induction fuel generalizing function first world with
  | zero =>
      rw [Eval.apply] at ended
      cases ended
  | succ fuel ih =>
      cases waits : function.wanted? with
      | none =>
          rw [Eval.applyInTurn, Eval.apply_of_none waits, Eval.apply_of_none waits]
          exact .refl _ _
      | some wanted =>
          rcases Nat.lt_or_ge first.length wanted with few | enough
          · have within := List.forall_mem_cons.mp knows.within
            rw [applyInTurn_of_lt waits few, ← apply_eq_of_le le ended]
            exact (knows.coherent.apply within.1 within.2 settings 1 fuel' depth location).alike
          · rw [Eval.apply_append_of_le waits enough more] at ended ⊢
            rw [applyInTurn_of_le waits enough]
            cases called : Eval.apply settings (fuel + 1) depth function (first.take wanted)
                location world with
            | error stop later =>
                rw [Eval.bind_of_error called, Eval.bind_of_error called]
                exact .refl _ _
            | ok result later =>
                rw [Eval.bind_of_ok called] at ended
                rw [Eval.bind_of_ok called, Eval.bind_of_ok called]
                split
                · next exactly =>
                  rw [List.drop_of_length_le exactly.le, List.nil_append] at ended ⊢
                  rw [apply_eq_of_le (Nat.le_of_succ_le le) ended]
                  exact .refl _ _
                · obtain ⟨older, known⟩ := knows.take called
                  exact (ih known (Nat.le_of_succ_le le) ended).earlier older

/-- If arguments one after the other come to an end, so do they together. -/
theorem ended_of_applyInTurn (knows : world.Knows (function :: (first ++ rest))) (more : rest ≠ [])
    (ended : Ending.isExhausted
      (Eval.applyInTurn settings fuel fuel' depth function first rest location world) = false) :
    Ending.isExhausted (Eval.apply settings (fuel + fuel') depth function (first ++ rest) location
      world) = false := by
  induction fuel generalizing function first world with
  | zero =>
      rw [Eval.applyInTurn, Eval.apply] at ended
      cases ended
  | succ fuel ih =>
      rw [Nat.succ_add]
      cases waits : function.wanted? with
      | none =>
          rw [Eval.apply_of_none waits]
          rfl
      | some wanted =>
          rcases Nat.lt_or_ge first.length wanted with few | enough
          · have within := List.forall_mem_cons.mp knows.within
            have alike :=
              (knows.coherent.apply within.1 within.2 settings 1 fuel' depth location).alike
            rw [applyInTurn_of_lt waits few, ← alike.isExhausted] at ended
            rwa [apply_eq_of_le (by omega) ended]
          · have le : fuel + 1 ≤ fuel + fuel' + 1 := by omega
            rw [applyInTurn_of_le waits enough] at ended
            rw [Eval.apply_append_of_le waits enough more]
            cases called : Eval.apply settings (fuel + 1) depth function (first.take wanted)
                location world with
            | error stop later =>
                rw [Eval.bind_of_error called] at ended
                rwa [Eval.bind_of_error (apply_of_ended le called ended)]
            | ok result later =>
                rw [Eval.bind_of_ok called] at ended
                rw [Eval.bind_of_ok (apply_of_ended le called rfl)]
                split at ended
                · next exactly =>
                  rwa [List.drop_of_length_le exactly.le, List.nil_append,
                    apply_eq_of_le (Nat.le_add_left fuel' fuel) ended]
                · exact ih (knows.take called).2 ended

end Turns

/-- Two evaluations that end alike if one of them ends, and otherwise both do not end. -/
structure EndAlike (world : World) (evaluation evaluation' : Nat → Eval Value) : Prop where
  forth : ∀ ending, Ends evaluation world ending →
    ∃ ending', Ends evaluation' world ending' ∧ ending.Alike world.identities ending'
  back : ∀ ending', Ends evaluation' world ending' →
    ∃ ending, Ends evaluation world ending ∧ ending.Alike world.identities ending'

theorem endAlike_applyInTurn (settings : Settings) (depth : Depth) (location : Location)
    {function : Value} {first rest : List Value} {world : World}
    (knows : world.Knows (function :: (first ++ rest))) (more : rest ≠ []) :
    EndAlike world
      (fun fuel => Eval.apply settings fuel depth function (first ++ rest) location)
      (fun fuel => Eval.applyInTurn settings fuel fuel depth function first rest location) := by
  have together := steady_apply settings depth function (first ++ rest) location
  have inTurn : Steady fun fuel =>
      Eval.applyInTurn settings fuel fuel depth function first rest location :=
    .bind (steady_apply settings depth function first location) fun result =>
      steady_apply settings depth result rest location
  constructor
  · rintro ending ⟨ended, fuel, same⟩
    have alike := alike_applyInTurn knows more le_rfl (same fuel le_rfl ▸ ended)
    have ended' := alike.isExhausted.symm.trans (same fuel le_rfl ▸ ended)
    exact ⟨_, inTurn.ends ended', same fuel le_rfl ▸ alike⟩
  · rintro ending' ⟨ended', fuel, same⟩
    have ended := ended_of_applyInTurn knows more (same fuel le_rfl ▸ ended')
    have alike := alike_applyInTurn knows more le_rfl ended
    exact ⟨_, together.ends ended, same (fuel + fuel) (Nat.le_add_left fuel fuel) ▸ alike⟩

/-- A function applied to all arguments does what it does if the result of the first arguments is
applied to the others. In particular it fails or does not end if that is so with the first arguments
alone. -/
theorem apply_append (settings : Settings) (depth : Depth) (function : Value)
    (first rest : List Value) (location : Location) (world : World)
    (knows : world.Knows (function :: (first ++ rest))) (more : rest ≠ []) :
    EndAlike world
      (fun fuel => Eval.apply settings fuel depth function (first ++ rest) location)
      (fun fuel => do
        let result ← Eval.apply settings fuel depth function first location
        Eval.apply settings fuel depth result rest location) ∧
    (∀ stop later,
      Ends (fun fuel => Eval.apply settings fuel depth function first location) world
        (.error stop later) →
      ∃ ending,
        Ends (fun fuel => Eval.apply settings fuel depth function (first ++ rest) location) world
          ending ∧ ending.Alike world.identities (.error stop later)) ∧
    ((∀ ending,
        ¬ Ends (fun fuel => Eval.apply settings fuel depth function first location) world ending) →
      ∀ ending,
        ¬ Ends (fun fuel => Eval.apply settings fuel depth function (first ++ rest) location) world
          ending) := by
  have alike := endAlike_applyInTurn settings depth location knows more
  refine ⟨alike, ?_, ?_⟩
  · rintro stop later ⟨ended, fuel, same⟩
    have failed : Ends (fun fuel => Eval.applyInTurn settings fuel fuel depth function first rest
        location) world (.error stop later) :=
      ⟨ended, fuel, fun larger le => Eval.bind_of_error (same larger le)⟩
    exact alike.back _ failed
  · intro diverges ending ends
    obtain ⟨ending', ends', -⟩ := alike.forth ending ends
    obtain ⟨_, ends⟩ := Ends.of_bind (steady_apply settings depth function first location) ends'
    exact diverges _ ends

/-- `f := fn a b -> (println a; fn c -> (b, c))` -/
def sampleDefinition : Program :=
  let here := Location.start none
  let pair := Node.lambda [.name "c" here]
    ⟨[.tuple [.identifier "b" here, .identifier "c" here] here], here⟩ here
  ⟨[.binding (.name "f" here)
      (.lambda [.name "a" here, .name "b" here]
        ⟨[.call (.identifier "println" here) [.identifier "a" here] here, pair], here⟩ here)
      true here], here⟩

/-- A world with a function that gives back a function. -/
def sampleWorld : World := ((Interpreter.new .default).run sampleDefinition 10).2.world

def sampleFunction : Value := (sampleWorld.scopes.value? "f" 1).getD .unit

theorem apply_append_sampleFunction :
    sampleWorld.Knows (sampleFunction :: ([.int 1] ++ [.int 2, .int 3])) ∧
    EndAlike sampleWorld
      (fun fuel => Eval.apply .default fuel .top sampleFunction ([.int 1] ++ [.int 2, .int 3])
        (.start none))
      (fun fuel => do
        let result ← Eval.apply .default fuel .top sampleFunction [.int 1] (.start none)
        Eval.apply .default fuel .top result [.int 2, .int 3] (.start none)) := by
  have coherent : sampleWorld.Coherent :=
    Interpreter.coherent_run (Interpreter.coherent_new .default) sampleDefinition 10
  have knows : sampleWorld.Knows (sampleFunction :: ([.int 1] ++ [.int 2, .int 3])) :=
    ⟨coherent, by decide +kernel⟩
  exact ⟨knows, (apply_append .default .top sampleFunction [.int 1] [.int 2, .int 3] (.start none)
    sampleWorld knows (List.cons_ne_nil _ _)).1⟩

end Offside
