import Offside.Proofs.Evaluation.Store
import Offside.Proofs.Evaluation.Upkeep
import Offside.Proofs.Source.Located

/-!
# Places of faults

Every fault that a source text gives rise to has a place, and a token of the text stands there,
perhaps in an interpolated expression, or the text ends there. Layout and parsing take places from
tokens. A program takes them from its nodes and patterns, and a closure keeps those of the text that
it was written in.
-/

namespace Offside

/-- Worlds in which all closures have their places among those with a property, like the faults. -/
def locatedFrame (P : Location → Prop) : Frame where
  Sound := World.Holds fun parameters body _ =>
    (∀ pattern ∈ parameters, pattern.Located P) ∧ body.All (Node.Located P)
  Leads _ later := later.Holds fun parameters body _ =>
    (∀ pattern ∈ parameters, pattern.Located P) ∧ body.All (Node.Located P)
  Code parameters body :=
    (∀ pattern ∈ parameters, pattern.Located P) ∧ body.All (Node.Located P)
  Captured _ _ := True
  Exhausts _ := True
  Located := P
  Faults _ fault := ∃ location, fault.location = some location ∧ P location
  sound sound := sound
  refl sound := sound
  trans _ sound := sound
  captured_later _ _ := trivial
  faults _ _ here := ⟨_, rfl, here⟩

/-- Evaluations take the places of faults from the nodes and patterns that they go through. -/
def located (settings : Settings) (P : Location → Prop) : Upkeep settings where
  toFrame := locatedFrame P
  Scope _ _ := True
  Fit := Node.All (Node.Located P)
  exhausts _ := trivial
  scope_later _ _ := trivial
  scope_captured _ := trivial
  located | .intro here _ => here
  located_code code := code.1
  part | .intro _ parts => parts
  code | .intro here parts => ⟨here.patterns, parts⟩
  body code := code.2
  unbound _ _ here := ⟨_, rfl, here⟩
  quiet sound same := by
    intro position scope found
    rw [same] at found
    exact sound position scope found
  opened sound _ := ⟨sound.push _, trivial⟩
  value sound _ read := (sound.value? read).mono fun _ _ _ here => ⟨here, trivial⟩
  defined name sound _ held := sound.define _ name (held.mono fun _ _ _ here => here.1)
  rebound _ sound _ _ _ held := sound.define _ _ (held.mono fun _ _ _ here => here.1)
  updated _ sound _ _ _ _ _ held := sound.define _ _ (held.mono fun _ _ _ here => here.1)

/-- A program in a new interpreter fails at places of its own. -/
theorem Interpreter.located_of_run_new {settings : Settings} {P : Location → Prop}
    {program : Program} (within : program.All (Node.Located P)) {fuel : Nat} {fault : Fault}
    (raised : ((new settings).run program fuel).1 = .error (.fault fault)) :
    ∃ location, fault.location = some location ∧ P location := by
  have ends := (located (new settings).settings P).ending (holds_new settings _) trivial program
    within fuel
  rw [run_eq] at raised
  generalize (new settings).ending program fuel = ending at ends raised
  cases ends with
  | ok => cases raised
  | error _ stops =>
      obtain rfl := Except.error.inj raised
      exact stops

theorem Rejection.location_of_stop {rejection : Rejection} {source : String} {fault : Fault}
    (stops : rejection.stop source = .fault fault) : fault.location = rejection.place? := by
  cases rejection with
  | overflow => cases stops
  | layout wrong =>
      obtain rfl := Stop.fault.inj stops
      exact wrong.location_withSource source
  | defect wrong =>
      obtain rfl := Stop.fault.inj stops
      exact ((wrong.fault source).location_withSource source).trans (wrong.location_fault source)

namespace Stop

/-- Where an evaluation stops, if that is because of a fault. -/
def place? : Stop → Option Location
  | .fault wrong => wrong.location
  | .overflow _ | .exhausted => none

theorem exists_of_place? {stop : Stop} {location : Location} (here : stop.place? = some location) :
    ∃ wrong, stop = .fault wrong ∧ wrong.location = some location := by
  cases stop with
  | fault wrong => exact ⟨wrong, rfl, here⟩
  | overflow | exhausted => cases here

theorem exists_of_withSource {stop : Stop} {source : String} {fault : Fault}
    (same : stop.withSource source = .fault fault) :
    ∃ wrong, stop = .fault wrong ∧ fault.location = wrong.location := by
  cases stop with
  | fault wrong =>
      obtain rfl := Stop.fault.inj same
      exact ⟨wrong, rfl, wrong.location_withSource source⟩
  | overflow | exhausted => cases same

end Stop

/-- Every fault of a source text, of whatever kind, has the place of one of its tokens, which may be
the end of file or stand in an interpolated expression. -/
theorem runSource_located {settings : Settings} {source : String} {file : Option String}
    {fuel : Nat} {fault : Fault}
    (raised : (runSource settings source file fuel).1 = .error (.fault fault)) :
    ∃ tokens, Token.scan source file = .ok tokens ∧
      ∃ token ∈ Token.nestedAll tokens, fault.location = some token.location := by
  cases scans : Token.scan source file with
  | error overflow =>
      have rejected : Source.program source file = .error (.overflow overflow) := by
        rw [Source.program, Source.tokens, scans]
        rfl
      rw [runSource, rejected] at raised
      cases raised
  | ok tokens =>
      have within := Source.located_program scans
      suffices ∃ location, fault.location = some location ∧
          ∃ token ∈ Token.nestedAll tokens, token.location = location by
        obtain ⟨_, here, token, member, rfl⟩ := this
        exact ⟨tokens, rfl, token, member, here⟩
      rw [runSource] at raised
      generalize Source.program source file = result at within raised
      cases result with
      | error rejection =>
          obtain ⟨location, here, member⟩ := within
          have same := Rejection.location_of_stop (Except.error.inj raised)
          exact ⟨location, same.trans here, member⟩
      | ok program =>
          dsimp only at raised
          cases failed : ((Interpreter.new settings).run program fuel).1 with
          | ok value =>
              rw [failed] at raised
              cases raised
          | error stop =>
              rw [failed] at raised
              obtain ⟨wrong, rfl, same⟩ := Stop.exists_of_withSource (Except.error.inj raised)
              obtain ⟨location, here, member⟩ := Interpreter.located_of_run_new within failed
              exact ⟨location, same.trans here, member⟩

/-- A name without a value in a literal in an interpolation. -/
theorem runSource_located_unboundName :
    let source := "\x60\x7b\x60\x7bx\x7d\x60\x7d\x60"
    ∃ fault tokens token, (runSource ⟨false, none, 500⟩ source none 10).1 = .error (.fault fault) ∧
      Token.scan source none = .ok tokens ∧ token ∈ Token.nestedAll tokens ∧
      fault.location = some token.location ∧ token.location = ⟨1, 5, 4, none⟩ := by
  intro source
  have stops : ((runSource ⟨false, none, 500⟩ source none 10).1.map fun _ => true).mapError
      Stop.place? = .error (some ⟨1, 5, 4, none⟩) := by
    decide +kernel
  cases raised : (runSource ⟨false, none, 500⟩ source none 10).1 with
  | ok value =>
      rw [raised] at stops
      cases stops
  | error stop =>
      rw [raised] at stops
      obtain ⟨fault, rfl, here⟩ := Stop.exists_of_place? (Except.error.inj stops)
      obtain ⟨tokens, scans, token, member, same⟩ := runSource_located raised
      exact ⟨fault, tokens, token, rfl, scans, member, same, Option.some.inj (same.symm.trans here)⟩

end Offside
