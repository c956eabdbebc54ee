
namespace Depthwise.Counting

variable {m : Type → Type} [Monad m] {α : Type}

def forEach (f : Nat → m Unit) (first : Nat) : Nat → m Unit
  | 0 => return
  | count + 1 => do
    f first
    forEach f (first + 1) count

def collect (f : Nat → m α) (first : Nat) : Nat → m (List α)
  | 0 => return []
  | count + 1 => do
    let a ← f first
    let rest ← collect f (first + 1) count
    return a :: rest

end Depthwise.Counting
