
namespace Depthwise.Bitwise

def without (m n : Nat) : Nat := m ^^^ (m &&& n)

/-- In two's complement: a negative number has ones in all high places. -/
def conjunction : Int → Int → Int
  | .ofNat m, .ofNat n => Int.ofNat (m &&& n)
  | .ofNat m, .negSucc n => Int.ofNat (without m n)
  | .negSucc m, .ofNat n => Int.ofNat (without n m)
  | .negSucc m, .negSucc n => .negSucc (m ||| n)

theorem conjunction_natCast (m n : Nat) : conjunction m n = (m &&& n : Nat) := rfl

end Depthwise.Bitwise
