-- SUMMARY: The control command message that central sends and the edge handles.
import Mathlib.Data.Nat.Notation

/-!
# Control commands

Model of the message `ControlCommand`. The enumeration is open: a number it does
not name is kept as it is.
-/

inductive CommandType where
  | setFps
  | changeModel
  | enableDebug
  | setDetectionThreshold
  | shutdown
  | reloadModel
  | switchModelVariant
  | setDetectionRegion
  | setSensitivity
  | unrecognized (number : Int)
  deriving DecidableEq

def CommandType.ofNumber : Int → CommandType
  | 0 => .setFps
  | 1 => .changeModel
  | 2 => .enableDebug
  | 3 => .setDetectionThreshold
  | 4 => .shutdown
  | 5 => .reloadModel
  | 6 => .switchModelVariant
  | 7 => .setDetectionRegion
  | 8 => .setSensitivity
  | n => .unrecognized n

structure ControlCommand where
  type : CommandType
  parameters : List (String × String) := []
  commandId : Nat := 0
  deriving DecidableEq

namespace ControlCommand

/-- `parameters().find(key)`. -/
def find (cmd : ControlCommand) (key : String) : Option String := cmd.parameters.lookup key

end ControlCommand
