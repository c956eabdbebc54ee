import Depthwise.History
import Depthwise.Kernel.Shipped
import Depthwise.Parameters
import Depthwise.Trial.Draw

namespace Depthwise

/-- What a session is run against. Each collaborator may keep state of the type `σ`. -/
structure Bench (σ : Type) where
  kernel : Kernel σ
  /-- Packs the weights of `channels` channels for a tap count and a tile width. -/
  pack : (channels kernelSize tile : Int) → (weights packed : Bytes) → Collaboration σ Bytes
  vectorParams : ParamsRoutine σ
  scalarParams : ParamsRoutine σ
  script : Script := {}

namespace Bench

def shippedPack (σ : Type) (channels kernelSize tile : Int) (weights packed : Bytes) :
    Collaboration σ Bytes :=
  (Weights.pack channels kernelSize tile weights packed : Except Error Bytes)

def ofKernel {σ : Type} (kernel : Kernel σ) : Bench σ where
  kernel := kernel
  pack := shippedPack σ
  vectorParams := FixedPoint.Path.vector.routine σ
  scalarParams := FixedPoint.Path.scalar.routine σ

end Bench

/-- The state of a session. The seed is kept so that a failure can be reproduced. -/
structure Session (σ : Type) where
  seed : Int
  stream : Random.Stream
  history : History := {}
  /-- The text printed so far. -/
  transcript : String := ""
  outside : σ

/-- A computation in a session. What it did to the session before an error stays done. -/
abbrev Run (σ : Type) := ExceptT Error (StateM (Session σ))

namespace Session

variable {σ α : Type}

def start (seed : Int) (outside : σ) : Except Error (Session σ) :=
  if seed < 0 then .error (.fault .unusableValue)
  else .ok { seed, stream := .ofSeed seed.toNat, outside }

def draw (d : Drawing α) : Run σ α := ExceptT.mk fun s ↦
  let (result, stream) := d.run.run s.stream
  (result, { s with stream })

def call (c : Collaboration σ α) : Run σ α := ExceptT.mk fun s ↦
  let (result, outside) := c.run.run s.outside
  (result, { s with outside })

def keep (r : Recording α) : Run σ α := ExceptT.mk fun s ↦
  let (result, history) := r.run.run s.history
  (result.mapError .fault, { s with history })

def attempt (r : Run σ α) : Run σ (Except Error α) := ExceptT.mk do
  let result ← r.run
  return .ok result

def sayLine (line : List Text.Part) : Run σ Unit := do
  let text ← Text.write line
  modify fun s ↦ { s with transcript := s.transcript ++ text ++ "\n" }

/-- Prints lines one after another, up to one that cannot be written. -/
def say (lines : List (List Text.Part)) : Run σ Unit := lines.forM sayLine

end Session

end Depthwise
