import Depthwise.Config
import Depthwise.Decimal.Fixed
import Depthwise.FixedPoint.Params
import Depthwise.Fault

namespace Depthwise

/-- Data that cannot tell a broken kernel from a correct one. -/
inductive Degeneracy where
  | noContrast (buffer : String) (size : Nat) (value : Int)
  | zeroRange (value : Int)
  | stated (reason : String)
  deriving DecidableEq, Repr

def Degeneracy.wording : Degeneracy → List Text.Part
  | .noContrast buffer size value =>
    [s!"{buffer} has no contrast: all {size} values equal ", value]
  | .zeroRange value => ["accumulators span a zero range (", value, ")"]
  | .stated reason => [reason]

namespace Failure

inductive Cause where
  | stated (reason : String)
  | degenerate (data : Degeneracy)
  | toleranceExceeded (x channel : Int) (expected : Double) (observed : Int) (tolerance : Double)
  | outputCorrupted (offset : Int)
  deriving DecidableEq, Repr

def Cause.wording : Cause → List Text.Part
  | .stated reason => [reason]
  | .degenerate data => data.wording
  | .toleranceExceeded x channel expected observed tolerance =>
    ["x = ", x, ", channel = ", channel, ": expected " ++ Decimal.fixed 6 expected ++ ", got ",
      observed, " (tolerance " ++ Decimal.Style.plain.render tolerance ++ ")"]
  | .outputCorrupted offset => ["output padding byte ", offset, " was overwritten"]

end Failure

/-- A trial that did not verify, with the trial's number and the seed where they are known. -/
structure Failure where
  cause : Failure.Cause
  trial : Option Int := none
  seed : Option Int := none
  deriving DecidableEq, Repr

namespace Failure

variable (f : Failure)

def origin : List (List Text.Part) :=
  (f.trial.map fun n ↦ [.words "trial = ", .number n]).toList ++
    (f.seed.map fun n ↦ [.words "seed = ", .number n]).toList

def wording : List Text.Part :=
  if f.origin = [] then f.cause.wording
  else f.cause.wording ++ [.words " ("] ++ [.words ", "].intercalate f.origin ++ [.words ")"]

end Failure

inductive Error where
  | flaw (cause : Settings.Flaw)
  | rejection (cause : FixedPoint.Rejection)
  | shortBuffer
  | failure (cause : Failure)
  | fault (cause : Fault)
  /-- An error of a kind of its own, whose text is not written before it is asked for. -/
  | complaint (kind : String) (reason : List Text.Part)
  deriving DecidableEq, Repr

namespace Error

def kind : Error → String
  | .flaw _ | .rejection _ | .shortBuffer => "AssertionError"
  | .failure f =>
    match f.cause with
    | .stated _ => "VerificationError"
    | .degenerate _ => "DegenerateDataError"
    | .toleranceExceeded .. => "ToleranceExceededError"
    | .outputCorrupted _ => "OutputCorruptionError"
  | .fault f =>
    match f with
    | .indexOutOfRange => "IndexError"
    | .unusableValue => "ValueError"
    | .shapeMismatch | .oversized => "RuntimeError"
    | .overflow => "OverflowError"
    | .divisionByZero => "ZeroDivisionError"
    | .unusableName => "TypeError"
  | .complaint kind _ => kind

def wording : Error → List Text.Part
  | .flaw cause => cause.wording
  | .rejection cause => cause.wording
  | .failure f => f.wording
  | .shortBuffer | .fault _ => []
  | .complaint _ reason => reason

def message (e : Error) : String := Text.plain e.wording

/-- How a failed configuration is listed: a failed verification by its message, anything else with
its kind in front. -/
def listing : Error → List Text.Part
  | .failure f => f.wording
  | e => .words (e.kind ++ ": ") :: e.wording

/-- The text of an error of the library is written when it is raised. Where it cannot be written,
that is the error instead. -/
def worded (wording : List Text.Part) (e : Error) : Error :=
  match Text.write wording with
  | .ok _ => e
  | .error f => .fault f

end Error

def Failure.raise (f : Failure) : Error := .worded f.wording (.failure f)

def Settings.Flaw.raise (flaw : Flaw) : Error := .worded flaw.wording (.flaw flaw)

def FixedPoint.Rejection.raise (rejection : Rejection) : Error :=
  .worded rejection.wording (.rejection rejection)

instance : MonadLift (Except Fault) (Except Error) := ⟨fun r ↦ r.mapError .fault⟩

instance : MonadLift (Except Settings.Flaw) (Except Error) := ⟨fun r ↦ r.mapError (·.raise)⟩

instance : MonadLift (Except FixedPoint.Rejection) (Except Error) :=
  ⟨fun r ↦ r.mapError (·.raise)⟩

end Depthwise
