-- SUMMARY: The event message that the edge sends and central handles.
import Mathlib.Data.Nat.Notation

/-!
# Edge events

Model of the message `EdgeEvent`. Its type is the number on the wire, since the
enumeration is open. The message has no field for the device.
-/

structure EdgeEvent where
  type : Int
  timestampUs : Nat := 0
  description : String := ""
  metadata : List (String × String) := []
  deriving DecidableEq

namespace EdgeEvent

def detectionAlert : Int := 0

def systemError : Int := 1

def modelLoaded : Int := 2

def healthUpdate : Int := 3

end EdgeEvent
