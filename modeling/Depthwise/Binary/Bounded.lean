import Depthwise.Binary.Round
import Depthwise.Fault

namespace Depthwise.Binary

variable {F : Format}

def bounded (x : Binary F) : Except Fault (Binary F) :=
  if x.isFinite then .ok x else .error .overflow

def ofInt? (n : Int) : Except Fault (Binary F) := bounded (ofInt n)

def ofRatio? (a b : Int) : Except Fault (Binary F) :=
  if b = 0 then .error .divisionByZero else bounded (ofRatio a b)

end Depthwise.Binary
