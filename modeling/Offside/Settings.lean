import Offside.Overflow

/-!
# Settings of an evaluation
-/

namespace Offside

/-- What can be chosen about an evaluation. -/
structure Settings where
  /-- Whether `=` updates the nearest binding of a name instead of making one in the current scope.
  -/
  rebindOnAssign : Bool
  /-- The largest number of statements to execute, if there is one. -/
  maxSteps : Option Int
  /-- The largest number of nested calls. -/
  maxCallDepth : Int
  deriving DecidableEq

namespace Settings

/-- The settings that hold unless others are chosen. -/
def default : Settings := ⟨false, none, 500⟩

/-- The number of calls within each other that the stack is to have room for. -/
def wantedRoom (settings : Settings) : Int := settings.maxCallDepth * 30 + 1000

/-- The number of calls within each other that the stack has room for. It is never made smaller than
it is at first. -/
def room (settings : Settings) : Int := max 1000 settings.wantedRoom

/-- Ask for the room that is wanted. -/
def reserve (settings : Settings) : Except Overflow Unit :=
  if Overflow.roomLimit < settings.wantedRoom then .error .room else .ok ()

end Settings

end Offside
