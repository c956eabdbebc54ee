import Depthwise.Failure

namespace Depthwise.Contrast

/-- The one value that more than one number share. -/
def common? : List Int → Option Int
  | a :: b :: rest =>
    let high := (b :: rest).foldl max a
    if high = (b :: rest).foldl min a then some high else none
  | _ => none

def checkBuffer (name : String) (values : List Int) (trial seed : Option Int) :
    Except Error Unit :=
  match common? values with
  | some v => .error (Failure.raise ⟨.degenerate (.noContrast name values.length v), trial, seed⟩)
  | none => .ok ()

def checkRange (accumulators : List Int) (trial seed : Option Int) : Except Error Unit :=
  match common? accumulators with
  | some v => .error (Failure.raise ⟨.degenerate (.zeroRange v), trial, seed⟩)
  | none => .ok ()

end Depthwise.Contrast
