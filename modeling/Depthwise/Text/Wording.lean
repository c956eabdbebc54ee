import Depthwise.Fault

namespace Depthwise.Text

/-- Numbers of more digits are neither read nor written. -/
@[irreducible] def digitLimit : Nat := 4300

def Short (n : Int) : Prop := n.natAbs < Nat.pow 10 digitLimit

instance (n : Int) : Decidable (Short n) := inferInstanceAs (Decidable (_ < _))

/-- A piece of a text: words, or a number that is written out. -/
inductive Part where
  | words (s : String)
  | number (n : Int)
  deriving DecidableEq, Repr

instance : Coe String Part := ⟨.words⟩

instance : Coe Int Part := ⟨.number⟩

def Part.plain : Part → String
  | .words s => s
  | .number n => toString n

def Part.Short : Part → Prop
  | .words _ => True
  | .number n => Text.Short n

instance : DecidablePred Part.Short
  | .words _ => inferInstanceAs (Decidable True)
  | .number n => inferInstanceAs (Decidable (Text.Short n))

def plain (parts : List Part) : String := String.join (parts.map Part.plain)

/-- A text has no place for a number of too many digits. -/
def write (parts : List Part) : Except Fault String :=
  if ∀ p ∈ parts, p.Short then .ok (plain parts) else .error .unusableValue

end Depthwise.Text
