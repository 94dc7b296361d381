import Offside.Proofs.Evaluation.Destructuring

/-!
# Destructuring that fits

A value is bound to a pattern exactly if it has the shape of the pattern. Then each name is bound to
the part of the value at its last occurrence. If names are rebound, a name has its home in the
nearest scope of the program that binds it, and otherwise in the current scope. Bindings do not move
the home of a name, so all occurrences of a name lead to the same scope.
-/

namespace Offside

namespace Scopes

variable {α : Type}

theorem map_parent_define (scopes : Scopes α) (target : Nat) (name : String) (value : α)
    (position : Nat) :
    ((scopes.define target name value).get? position).map Scope.parent =
      (scopes.get? position).map Scope.parent := by
  by_cases same : target = position
  · subst same
    cases found : scopes.get? target with
    | none => rw [get?_define_of_none found]
    | some scope =>
        rw [get?_define_self found]
        rfl
  · rw [get?_define_of_ne same]

theorem chain_define (scopes : Scopes α) (target : Nat) (name : String) (value : α)
    (position : Nat) :
    (scopes.define target name value).chain position = scopes.chain position := by
  induction position using Nat.strongRecOn with
  | ind position ih =>
      have parents := scopes.map_parent_define target name value position
      rw [chain, chain]
      cases found : scopes.get? position with
      | none =>
          rw [found] at parents
          rw [Option.map_eq_none_iff.mp parents]
      | some scope =>
          rw [found] at parents
          obtain ⟨scope', found', same⟩ := Option.map_eq_some_iff.mp parents
          rw [found']
          dsimp only
          rw [same]
          cases scope.parent with
          | none => rfl
          | some parent =>
              dsimp only
              split
              · next lt => rw [ih parent lt]
              · rfl

end Scopes

namespace World

/-! ## Homes of names -/

/-- The nearest scope of the program that binds a name, from a scope outwards. -/
def nearest? (world : World) (scope : Nat) (name : String) : Option Nat :=
  (world.scopes.chain scope).find? fun position =>
    position ≠ Eval.builtinScope ∧ (world.bound? position name).isSome

/-- Where a name of a pattern is bound: with `rebind` in the nearest scope of the program that binds
it already, and otherwise in the current scope. -/
def home (rebind : Bool) (scope : Nat) (world : World) (name : String) : Nat :=
  if rebind then (world.nearest? scope name).getD scope else scope

/-- The search of a name finds the nearest scope of the program that binds it, or the built-in
functions, which are searched last. -/
theorem nearest?_eq (world : World) (scope : Nat) (name : String) :
    world.nearest? scope name =
      (world.scopes.find? name scope).filter (· ≠ Eval.builtinScope) := by
  have passed {position : Nat} {scope : Scope Value}
      (found : world.scopes.get? position = some scope) (unbound : ¬(scope.get? name).isSome) :
      (world.bound? position name).isSome = false := by
    rw [bound?, found]
    exact Bool.eq_false_iff.mpr unbound
  unfold nearest?
  fun_induction Scopes.find? world.scopes name scope with
  | case1 position missing =>
      rw [Scopes.chain, missing]
      rfl
  | case2 position scope found bound =>
      have here : (world.bound? position name).isSome := by rwa [bound?, found]
      rw [Scopes.chain, found]
      dsimp only
      by_cases outermost : position = Eval.builtinScope
      · -- No scope comes before that of the built-in functions.
        subst outermost
        cases scope.parent with
        | none => simp [Option.filter_some]
        | some parent => simp [Eval.builtinScope, Option.filter_some]
      · simp [outermost, here, Option.filter_some]
  | case3 position scope found unbound outermost =>
      rw [Scopes.chain, found]
      simp [outermost, passed found unbound]
  | case4 position scope found unbound parent inside lt ih =>
      rw [Scopes.chain, found]
      dsimp only
      rw [inside]
      dsimp only
      rw [if_pos lt, List.find?_cons_of_neg (by simp [passed found unbound]), ih]
  | case5 position scope found unbound parent inside notLess =>
      rw [Scopes.chain, found]
      simp [inside, notLess, passed found unbound]

theorem bind_eq (rebind : Bool) (scope : Nat) (world : World) (part : String × Value) :
    world.bind rebind scope part =
      { world with
        scopes := world.scopes.define (world.home rebind scope part.1) part.1 part.2 } := by
  unfold bind home
  rw [nearest?_eq]
  cases rebind with
  | false => rfl
  | true =>
      simp only [if_true]
      cases world.scopes.find? part.1 scope with
      | none => rfl
      | some owner =>
          by_cases outermost : owner = Eval.builtinScope <;>
            simp [outermost, Option.filter_some]

section

variable {scope : Nat} {world : World}

theorem lt_size_of_bound? {position : Nat} {name : String}
    (bound : (world.bound? position name).isSome) : position < world.scopes.size := by
  cases found : world.scopes.get? position with
  | none =>
      rw [bound?, found] at bound
      cases bound
  | some scope => exact Scopes.lt_size_of_get? found

theorem home_lt_size (rebind : Bool) (present : scope < world.scopes.size) (name : String) :
    world.home rebind scope name < world.scopes.size := by
  unfold home
  split
  · cases nearest : world.nearest? scope name with
    | none => exact present
    | some position =>
        have satisfied := List.find?_some nearest
        simp only [decide_eq_true_eq] at satisfied
        exact lt_size_of_bound? satisfied.2
  · exact present

/-- One binding changes what its name is bound to at home and nothing else. -/
theorem bound?_bind (rebind : Bool) (present : scope < world.scopes.size) (part : String × Value)
    (position : Nat) (name : String) :
    (world.bind rebind scope part).bound? position name =
      if name = part.1 ∧ position = world.home rebind scope part.1 then some part.2
      else world.bound? position name := by
  rw [bind_eq]
  by_cases same : name = part.1
  · subst same
    by_cases here : position = world.home rebind scope part.1
    · obtain ⟨found, present⟩ := Scopes.exists_get? (home_lt_size rebind present part.1)
      rw [if_pos ⟨rfl, here⟩, here, bound?, Scopes.get?_define_self present, Option.bind_some,
        Scope.get?_define, if_pos rfl]
    · rw [if_neg fun both => here both.2, bound?, Scopes.get?_define_of_ne (Ne.symm here), bound?]
  · rw [if_neg fun both => same both.1]
    exact world.bound?_define _ position part.2 same

theorem chain_bind (rebind : Bool) (scope : Nat) (world : World) (part : String × Value)
    (position : Nat) :
    (world.bind rebind scope part).scopes.chain position = world.scopes.chain position := by
  rw [bind_eq]
  exact Scopes.chain_define ..

theorem size_bind (rebind : Bool) (scope : Nat) (world : World) (part : String × Value) :
    (world.bind rebind scope part).scopes.size = world.scopes.size := by
  rw [bind_eq]
  exact Scopes.size_define ..

/-- A name that is bound at home has its home there afterwards. -/
theorem home_bind_self (present : scope < world.scopes.size) (part : String × Value) :
    (world.bind true scope part).home true scope part.1 = world.home true scope part.1 := by
  have bound := bound?_bind true present part
  have old : world.home true scope part.1 = (world.nearest? scope part.1).getD scope := rfl
  generalize world.home true scope part.1 = target at bound old
  rw [home, if_pos rfl]
  cases nearest : world.nearest? scope part.1 with
  | some owner =>
      -- Nothing nearer is bound by the binding.
      obtain rfl : target = owner := by rw [old, nearest]; rfl
      obtain ⟨proper, before, after, split, nearer⟩ := List.find?_eq_some_iff_append.mp nearest
      simp only [decide_eq_true_eq] at proper
      have again : (world.bind true scope part).nearest? scope part.1 = some target := by
        refine List.find?_eq_some_iff_append.mpr ⟨?_, before, after, ?_, fun position member => ?_⟩
        · simp [bound, proper.1]
        · rw [chain_bind, split]
        · have other := nearer position member
          have ne : position ≠ target := by
            rintro rfl
            simp [proper] at other
          simpa [bound, ne] using other
      rw [again]
      rfl
  | none =>
      -- The current scope is the only one that can bind the name now.
      obtain rfl : target = scope := by rw [old, nearest]; rfl
      cases found : (world.bind true target part).nearest? target part.1 with
      | none => rfl
      | some position =>
          have proper := List.find?_some found
          have member := List.mem_of_find?_eq_some found
          rw [chain_bind] at member
          have unbound := List.find?_eq_none.mp nearest position member
          simp only [decide_eq_true_eq] at proper unbound
          by_contra ne
          rw [bound, if_neg fun both => ne both.2] at proper
          exact unbound proper

/-- Bindings do not move the home of a name. -/
theorem home_bind (rebind : Bool) (present : scope < world.scopes.size) (part : String × Value)
    (name : String) :
    (world.bind rebind scope part).home rebind scope name = world.home rebind scope name := by
  cases rebind with
  | false => rfl
  | true =>
      by_cases same : name = part.1
      · rw [same]
        exact home_bind_self present part
      · have bound (position : Nat) :
            (world.bind true scope part).bound? position name = world.bound? position name := by
          rw [bound?_bind true present, if_neg fun both => same both.1]
        unfold home nearest?
        simp only [chain_bind, bound]

/-! ## Several bindings -/

theorem size_bindAll (rebind : Bool) (scope : Nat) (parts : List (String × Value)) (world : World) :
    (world.bindAll rebind scope parts).scopes.size = world.scopes.size := by
  induction parts generalizing world with
  | nil => rfl
  | cons part rest ih => exact (ih _).trans (size_bind rebind scope world part)

theorem chain_bindAll (rebind : Bool) (scope : Nat) (parts : List (String × Value)) (world : World)
    (position : Nat) :
    (world.bindAll rebind scope parts).scopes.chain position = world.scopes.chain position := by
  induction parts generalizing world with
  | nil => rfl
  | cons part rest ih => exact (ih _).trans (chain_bind rebind scope world part position)

theorem home_bindAll (rebind : Bool) (present : scope < world.scopes.size)
    (parts : List (String × Value)) (name : String) :
    (world.bindAll rebind scope parts).home rebind scope name = world.home rebind scope name := by
  induction parts generalizing world with
  | nil => rfl
  | cons part rest ih =>
      have still : scope < (world.bind rebind scope part).scopes.size := by rwa [size_bind]
      exact (ih still).trans (home_bind rebind present part name)

/-- A name stays bound as it is everywhere but at home. -/
theorem bound?_bindAll_of_ne (rebind : Bool) (present : scope < world.scopes.size)
    (parts : List (String × Value)) {position : Nat} {name : String}
    (away : position ≠ world.home rebind scope name) :
    (world.bindAll rebind scope parts).bound? position name = world.bound? position name := by
  induction parts generalizing world with
  | nil => rfl
  | cons part rest ih =>
      have still : scope < (world.bind rebind scope part).scopes.size := by rwa [size_bind]
      have first : (world.bind rebind scope part).bound? position name =
          world.bound? position name := by
        rw [bound?_bind rebind present, if_neg]
        rintro ⟨rfl, here⟩
        exact away here
      exact (ih still (by rwa [home_bind rebind present])).trans first

/-- At home a name is bound to the last part that goes with it. -/
theorem bound?_bindAll_home (rebind : Bool) (present : scope < world.scopes.size)
    (before after : List (String × Value)) {name : String} (component : Value)
    (last : name ∉ after.map (·.1)) :
    (world.bindAll rebind scope (before ++ (name, component) :: after)).bound?
      (world.home rebind scope name) name = some component := by
  have still : scope < (world.bindAll rebind scope before).scopes.size := by rwa [size_bindAll]
  rw [bindAll_append]
  calc _ = ((world.bindAll rebind scope before).bind rebind scope (name, component)).bound?
        (world.home rebind scope name) name := bound?_bindAll rebind scope _ _ last
    _ = some component := by
      rw [bound?_bind rebind still, if_pos ⟨rfl, (home_bindAll rebind present before name).symm⟩]

end

end World

/-- A name that goes with some part has a last part that it goes with. -/
theorem exists_last_part {name : String} {parts : List (String × Value)}
    (member : name ∈ parts.map (·.1)) :
    ∃ before component after, parts = before ++ (name, component) :: after ∧
      name ∉ after.map (·.1) := by
  induction parts with
  | nil => cases member
  | cons part rest ih =>
      by_cases later : name ∈ rest.map (·.1)
      · obtain ⟨before, component, after, rfl, last⟩ := ih later
        exact ⟨part :: before, component, after, rfl, last⟩
      · obtain rfl : name = part.1 := (List.mem_cons.mp member).resolve_right later
        exact ⟨[], part.2, rest, rfl, later⟩

namespace Eval

/-- A value can be destructured exactly if it has the shape of the pattern. Then each name of the
pattern is bound, at home, to the part of the value at its last occurrence, and everything else
stays bound as it is, in scopes that lie in each other as before. -/
theorem bindPattern_fits (rebind : Bool) {scope : Nat} (pattern : Pattern) (value : Value)
    {world : World} (present : scope < world.scopes.size) :
    ((∃ later, bindPattern rebind scope pattern value world = .ok () later) ↔
        ∃ parts, pattern.Matches value parts) ∧
      ∀ later parts, bindPattern rebind scope pattern value world = .ok () later →
        pattern.Matches value parts →
        parts.map (·.1) = pattern.names.map (·.1) ∧
          (∀ name ∈ pattern.names.map (·.1), ∃ before component after,
            parts = before ++ (name, component) :: after ∧ name ∉ after.map (·.1) ∧
              later.bound? (world.home rebind scope name) name = some component) ∧
          (∀ position name, name ∉ pattern.names.map (·.1) ∨
              position ≠ world.home rebind scope name →
            later.bound? position name = world.bound? position name) ∧
          ∀ position, later.scopes.chain position = world.scopes.chain position := by
  refine ⟨⟨?_, ?_⟩, fun later parts done matching => ?_⟩
  · rintro ⟨later, done⟩
    obtain ⟨parts, matching | missing⟩ := pattern.matches_or_misses value
    · exact ⟨parts, matching⟩
    · obtain ⟨_, _, failed⟩ := missing.bindPattern_eq rebind scope world
      cases failed.symm.trans done
  · rintro ⟨parts, matching⟩
    exact ⟨_, matching.bindPattern_eq rebind scope world⟩
  · cases (matching.bindPattern_eq rebind scope world).symm.trans done
    have names := matching.names_eq
    refine ⟨names, fun name member => ?_, fun position name other => ?_,
      World.chain_bindAll rebind scope parts world⟩
    · obtain ⟨before, component, after, rfl, last⟩ := exists_last_part (names ▸ member)
      exact ⟨before, component, after, rfl, last,
        World.bound?_bindAll_home rebind present before after component last⟩
    · rw [← names] at other
      rcases other with unnamed | away
      · exact world.bound?_bindAll rebind scope position unnamed
      · exact World.bound?_bindAll_of_ne rebind present parts away

/-- A name that is bound at the top level and occurs twice, and the name of a built-in function. -/
def repeatedPattern : Pattern :=
  let here := Location.start none
  .tuple [.name "a" here, .tuple [.name "map" here, .name "a" here] here] here

/-- A scope within a top level that binds a name. -/
def nestedWorld : World :=
  let world := (Interpreter.new .default).world
  { world with scopes := (world.scopes.define 1 "a" (.int 0)).push 1 }

theorem bindPattern_fits_repeatedPattern :
    let value : Value := .tuple [.int 1, .tuple [.int 2, .int 3]]
    2 < nestedWorld.scopes.size ∧ nestedWorld.home true 2 "a" = 1 ∧
      nestedWorld.home true 2 "map" = 2 ∧
      ∃ later, bindPattern true 2 repeatedPattern value nestedWorld = .ok () later ∧
        later.bound? 1 "a" = some (.int 3) ∧ later.bound? 2 "map" = some (.int 2) ∧
        later.bound? 2 "a" = none ∧ later.bound? 0 "map" = some (.builtin .map [] none) := by
  intro value
  have present : 2 < nestedWorld.scopes.size := by decide
  have homeOfA : nestedWorld.home true 2 "a" = 1 := by decide +kernel
  have homeOfMap : nestedWorld.home true 2 "map" = 2 := by decide +kernel
  have fits := bindPattern_fits true repeatedPattern value present
  have matching : repeatedPattern.Matches value
      ([("a", .int 1)] ++ (([("map", .int 2)] ++ ([("a", .int 3)] ++ [])) ++ [])) :=
    .tuple _ (.cons (.name ..) (.cons (.tuple _ (.cons (.name ..) (.cons (.name ..) .nil))) .nil))
  obtain ⟨later, done⟩ := fits.1.mpr ⟨_, matching⟩
  obtain ⟨-, named, others, -⟩ := fits.2 later _ done matching
  have boundA : later.bound? 1 "a" = some (.int 3) := by
    obtain ⟨before, component, after, split, last, bound⟩ := named "a" (by decide)
    rw [homeOfA] at bound
    clear fits named others matching
    rcases before with _ | ⟨_, _ | ⟨_, _ | ⟨_, _⟩⟩⟩ <;> simp at split <;> grind
  have boundMap : later.bound? 2 "map" = some (.int 2) := by
    obtain ⟨before, component, after, split, last, bound⟩ := named "map" (by decide)
    rw [homeOfMap] at bound
    clear fits named others matching
    rcases before with _ | ⟨_, _ | ⟨_, _ | ⟨_, _⟩⟩⟩ <;> simp at split
    grind
  refine ⟨present, homeOfA, homeOfMap, later, done, boundA, boundMap, ?_, ?_⟩
  · rw [others 2 "a" (.inr (by rw [homeOfA]; decide))]
    rfl
  · rw [others 0 "map" (.inr (by rw [homeOfMap]; decide))]
    rfl

end Eval

end Offside
