
namespace Depthwise.Random

def seedWords : Nat → Nat → List UInt32
  | 0, _ => []
  | limit + 1, n =>
    .ofNat n :: if n < 0x100000000 then [] else seedWords limit (n / 0x100000000)

/-- A hash whose multiplier moves on with every word. -/
structure Hasher where
  key : UInt32
  factor : UInt32

namespace Hasher

def hash (h : Hasher) (word : UInt32) : UInt32 × Hasher :=
  let key := h.key * h.factor
  let mixed := (word ^^^ h.key) * key
  (mixed ^^^ (mixed >>> 16), { h with key })

end Hasher

def blend (x y : UInt32) : UInt32 :=
  let mixed := 0xca01f9dd * x - 0x4973f715 * y
  mixed ^^^ (mixed >>> 16)

structure Pool where
  words : Array UInt32
  hasher : Hasher

namespace Pool

def width : Nat := 4

def absorb (p : Pool) (i : Nat) (word : UInt32) : Pool :=
  let (hashed, hasher) := p.hasher.hash word
  ⟨p.words.setIfInBounds i (blend (p.words.getD i 0) hashed), hasher⟩

def fill (seed : List UInt32) : Pool :=
  (List.range width).foldl
    (fun p i ↦
      let (hashed, hasher) := p.hasher.hash (seed.getD i 0)
      ⟨p.words.push hashed, hasher⟩)
    ⟨#[], ⟨0x43b0d7e5, 0x931e8875⟩⟩

def stir (p : Pool) : Pool :=
  let pairs := (List.range width).flatMap fun source ↦
    ((List.range width).filter (· ≠ source)).map fun target ↦ (source, target)
  pairs.foldl (fun p (source, target) ↦ p.absorb target (p.words.getD source 0)) p

def extend (p : Pool) (rest : List UInt32) : Pool :=
  rest.foldl (fun p word ↦ (List.range width).foldl (fun p i ↦ p.absorb i word) p) p

def ofSeed (seed : List UInt32) : Pool := ((fill seed).stir).extend (seed.drop width)

def draw (p : Pool) (count : Nat) : Array UInt32 :=
  ((List.range count).foldl
    (fun (acc : Array UInt32 × Hasher) i ↦
      let (word, hasher) := acc.2.hash (p.words.getD (i % width) 0)
      (acc.1.push word, hasher))
    (#[], ⟨0x8b51f9dd, 0x58f38ded⟩)).1

end Pool

end Depthwise.Random
