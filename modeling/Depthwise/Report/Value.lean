import Depthwise.Decimal.Shortest
import Depthwise.Text.Wording

namespace Depthwise.Report

inductive Value where
  | null
  | bool (b : Bool)
  | int (n : Int)
  | number (x : Double)
  | text (s : String)
  | list (items : List Value)
  | record (fields : List (String × Value))
  deriving Inhabited, Repr

def numberStyle : Decimal.Style :=
  { Decimal.Style.plain with infinity := "Infinity", notANumber := "NaN" }

def hexDigits (width n : Nat) : List Char := Decimal.padLeft width (Nat.toDigits 16 n)

def units (c : Char) : List Nat :=
  let n := c.toNat
  if n < 0x10000 then [n]
  else [0xD800 + (n - 0x10000) / 0x400, 0xDC00 + (n - 0x10000) % 0x400]

def escape (c : Char) : List Char :=
  match c with
  | '"' => ['\\', '"']
  | '\\' => ['\\', '\\']
  | '\n' => ['\\', 'n']
  | '\r' => ['\\', 'r']
  | '\t' => ['\\', 't']
  | '\x08' => ['\\', 'b']
  | '\x0c' => ['\\', 'f']
  | c =>
    if ' ' ≤ c ∧ c ≤ '~' then [c]
    else (units c).flatMap fun n ↦ '\\' :: 'u' :: hexDigits 4 n

def quote (s : String) : String := String.ofList ('"' :: s.toList.flatMap escape ++ ['"'])

def indent (depth : Nat) : String := "\n" ++ String.ofList (List.replicate (2 * depth) ' ')

def enclose (left right : String) (depth : Nat) (lines : List String) : String :=
  if lines = [] then left ++ right
  else left ++ indent depth ++ (("," ++ indent depth).intercalate lines) ++
    indent (depth - 1) ++ right

mutual

def Value.renderAt (depth : Nat) : Value → String
  | .null => "null"
  | .bool b => if b then "true" else "false"
  | .int n => toString n
  | .number x => numberStyle.render x
  | .text s => quote s
  | .list items => enclose "[" "]" (depth + 1) (renderItems (depth + 1) items)
  | .record fields => enclose "\x7b" "\x7d" (depth + 1) (renderFields (depth + 1) fields)

def renderItems (depth : Nat) : List Value → List String
  | [] => []
  | v :: rest => v.renderAt depth :: renderItems depth rest

def renderFields (depth : Nat) : List (String × Value) → List String
  | [] => []
  | (key, v) :: rest => (quote key ++ ": " ++ v.renderAt depth) :: renderFields depth rest

end

def Value.render (v : Value) : String := v.renderAt 0

mutual

def Value.isShort : Value → Bool
  | .int n => decide (Text.Short n)
  | .list items => areShort items
  | .record fields => haveShort fields
  | _ => true

def areShort : List Value → Bool
  | [] => true
  | v :: rest => v.isShort && areShort rest

def haveShort : List (String × Value) → Bool
  | [] => true
  | (_, v) :: rest => v.isShort && haveShort rest

end

def Value.write (v : Value) : Except Fault String :=
  if v.isShort then .ok v.render else .error .unusableValue

def Value.key : Value → Except Fault String
  | .text s => .ok s
  | v => v.write

def Value.isComposite : Value → Bool
  | .list _ | .record _ => true
  | _ => false

/-- The exact number that a value stands for; true counts as one and false as zero. -/
def Value.amount? : Value → Option Rat
  | .bool b => some (if b then 1 else 0)
  | .int n => some n
  | .number x => if x.isFinite then some x.toRat else none
  | _ => none

/-- Whether two values name the same group. Numbers do if they are equal, however they are written;
what is not a number is one name. -/
def Value.names (v w : Value) : Bool :=
  match v.amount?, w.amount? with
  | some a, some b => a == b
  | none, none =>
    match v, w with
    | .null, .null => true
    | .text s, .text t => s == t
    | .number x, .number y => x == y
    | _, _ => false
  | _, _ => false

end Depthwise.Report
