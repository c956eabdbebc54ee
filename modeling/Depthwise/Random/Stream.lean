import Depthwise.Binary.Round
import Depthwise.Random.Entropy

namespace Depthwise.Random

/-- A 128-bit linear congruential generator with a permuted 64-bit output. -/
structure Stream where
  state : BitVec 128
  increment : BitVec 128
  /-- The upper half of a 64-bit output whose lower half has been handed out. -/
  kept? : Option UInt32 := none
  deriving DecidableEq, Repr

abbrev Draw := StateM Stream

namespace Stream

def advance (s : Stream) : Stream :=
  { s with state := s.state * 0x2360ED051FC65DA44385DF649FCCF645#128 + s.increment }

/-- The output of a state: its halves combined and rotated right by its top bits. -/
def output (s : Stream) : UInt64 :=
  let folded : BitVec 64 := s.state.extractLsb' 64 64 ^^^ s.state.extractLsb' 0 64
  ⟨folded.rotateRight (s.state >>> 122).toNat⟩

def join (a b c d : UInt32) : BitVec 128 :=
  b.toBitVec ++ a.toBitVec ++ (d.toBitVec ++ c.toBitVec)

def ofSeed (seed : Nat) : Stream :=
  let words := (Pool.ofSeed (seedWords (seed.log2 / 32 + 1) seed)).draw 8
  let word (i : Nat) : UInt32 := words.getD i 0
  let start := join (word 0) (word 1) (word 2) (word 3)
  let sequence := join (word 4) (word 5) (word 6) (word 7)
  let blank : Stream := ⟨0, sequence <<< 1 ||| 1, none⟩
  let begun := blank.advance
  { begun with state := begun.state + start }.advance

end Stream

def next64 : Draw UInt64 := fun s ↦
  let s := s.advance
  (s.output, s)

/-- The next 32-bit word: a kept half, or the lower half of the next output. -/
def next32 : Draw UInt32 := fun s ↦
  match s.kept? with
  | some word => (word, { s with kept? := none })
  | none =>
    let s := s.advance
    (s.output.toUInt32, { s with kept? := some (s.output >>> 32).toUInt32 })

def unit : Draw Double := do
  let word ← next64
  return .ofRat (mkRat (word >>> 11).toNat 0x20000000000000)

def wordCount : Nat := 0x100000000

/-- How often a rejected draw is repeated. Each try fails with a chance below one half. -/
def patience : Nat := 1024

def scaledWord (count threshold : Nat) : Nat → Draw Nat
  | 0 => return (← next32).toNat * count
  | tries + 1 => do
    let product := (← next32).toNat * count
    if product % wordCount < threshold then scaledWord count threshold tries else return product

/-- A number below `count`, all equally likely; `count` is less than the number of words. A single
possible number takes nothing from the stream. -/
def below (count : Nat) : Draw Nat :=
  if count ≤ 1 then return 0
  else return (← scaledWord count ((wordCount - count) % count) patience) / wordCount

def between (low high : Int) : Draw Int := return low + (← below (high - low).toNat)

def maskOf (n : Nat) : Nat := 1 <<< (if n = 0 then 0 else n.log2 + 1) - 1

def maskedWord (limit : Nat) : Nat → Draw Nat
  | 0 => return 0
  | tries + 1 => do
    let word := (← next32).toNat &&& maskOf limit
    if word ≤ limit then return word else maskedWord limit tries

def bytesOf (word : UInt32) : List UInt8 :=
  [word.toUInt8, (word >>> 8).toUInt8, (word >>> 16).toUInt8, (word >>> 24).toUInt8]

/-- `count` bytes. The bytes left over of the last word are dropped. -/
def bytes (count : Nat) : Draw (Array UInt8) := do
  let words ← (List.range ((count + 3) / 4)).mapM fun _ ↦ next32
  return ((words.flatMap bytesOf).take count).toArray

def exchange (a : Array Nat) (i j : Nat) : Array Nat := a.swapIfInBounds i j

/-- The numbers below `n` in random order: from the end, each place changes with one at or before
it. -/
def permutation (n : Nat) : Draw (Array Nat) :=
  ((List.range n).reverse.filter (0 < ·)).foldlM
    (fun a i ↦ return exchange a i (← maskedWord i patience)) (Array.range n)

end Depthwise.Random
