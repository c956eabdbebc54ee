namespace Depthwise

inductive Fault where
  | indexOutOfRange
  | unusableValue
  | shapeMismatch
  | oversized
  | overflow
  | divisionByZero
  | unusableName
  deriving DecidableEq, Repr

end Depthwise
