import Depthwise.Kernel.Shipped
import Depthwise.Text.Integer
import Depthwise.Text.Quoted

namespace Depthwise.CommandLine

inductive Flag where
  | help
  | kernel
  | kernelSize
  | cr
  | tests
  | iterations
  | seed
  | output
  | verbose
  deriving DecidableEq, Repr

namespace Flag

def spellings : List (String × Flag) := [
  ("-h", help), ("--help", help), ("--kernel", kernel), ("--kernel-size", kernelSize), ("--cr", cr),
  ("--tests", tests), ("--iterations", iterations), ("--seed", seed), ("--output", output),
  ("--verbose", verbose)]

def title (flag : Flag) : String :=
  "/".intercalate ((spellings.filter (·.2 = flag)).map (·.1))

def arity : Flag → Nat
  | help | verbose => 0
  | kernelSize => 2
  | _ => 1

end Flag

structure Options where
  family : Kernel.Family := .vectorized
  kernelHeight : Int := 3
  kernelWidth : Int := 3
  tile : Int := 8
  tests : Int := 20
  iterations : Int := 3
  seed? : Option Int := none
  output? : Option String := none
  verbose : Bool := false
  deriving DecidableEq, Repr

inductive Misuse where
  | ambiguous (word : String) (candidates : List String)
  | missingValues (flag : Flag)
  | notInteger (flag : Flag) (word : String)
  | notChoice (flag : Flag) (word : String) (choices : List String)
  | surplusValue (flag : Flag) (word : String)
  | unrecognized (words : List String)
  deriving DecidableEq, Repr

namespace Misuse

def about (flag : Flag) (complaint : String) : String :=
  "argument " ++ flag.title ++ ": " ++ complaint

def message : Misuse → String
  | ambiguous word candidates =>
    "ambiguous option: " ++ word ++ " could match " ++ ", ".intercalate candidates
  | missingValues flag =>
    about flag (if flag.arity = 1 then "expected one argument"
      else s!"expected {flag.arity} arguments")
  | notInteger flag word => about flag ("invalid int value: " ++ Text.quoted word)
  | notChoice flag word choices =>
    about flag ("invalid choice: " ++ Text.quoted word ++ " (choose from " ++
      ", ".intercalate (choices.map Text.quoted) ++ ")")
  | surplusValue flag word => about flag ("ignored explicit argument " ++ Text.quoted word)
  | unrecognized words => "unrecognized arguments: " ++ " ".intercalate words

end Misuse

inductive Role where
  | value
  | separator
  | unknown
  | option (flag : Flag) (given? : Option String)
  deriving DecidableEq, Repr

def cut (word : List Char) : Option (List Char × List Char) :=
  if '=' ∈ word then some (word.takeWhile (· ≠ '='), (word.dropWhile (· ≠ '=')).drop 1) else none

def isEnd (rest : List Char) : Bool := rest = [] || rest = ['\n']

def isDigit (c : Char) : Bool := (Text.digit? c).isSome

def isDigits (cs : List Char) : Bool := cs.takeWhile isDigit ≠ [] && isEnd (cs.dropWhile isDigit)

def isNegativeNumber (word : List Char) : Bool :=
  match word with
  | '-' :: rest =>
    isDigits rest ||
      match rest.dropWhile isDigit with
      | '.' :: fraction => isDigits fraction
      | _ => false
  | _ => false

/-- What stands behind a letter that takes no value. The letter may be repeated. -/
def surplus? (letter : Char) : List Char → Option String
  | [] => none
  | c :: rest => if c = letter then surplus? letter rest else some (String.ofList (c :: rest))

def candidates (word : List Char) : List (String × Flag × Option String) :=
  match word with
  | '-' :: '-' :: _ =>
    let (start, given?) := match cut word with
      | some (name, value) => (name, some (String.ofList value))
      | none => (word, none)
    (Flag.spellings.filter fun (name, _) ↦ start.isPrefixOf name.toList).map
      fun (name, flag) ↦ (name, flag, given?)
  | '-' :: letter :: rest =>
    Flag.spellings.filterMap fun (name, flag) ↦
      if name.toList = ['-', letter] then some (name, flag, surplus? letter rest)
      else if word.isPrefixOf name.toList then some (name, flag, none)
      else none
  | _ => []

/-- What an option carries that has `value` behind an equals sign. Behind a letter, the value's
first characters may repeat the letter. -/
def carried? (name value : List Char) : Option String :=
  match name, value with
  | ['-', letter], _ :: _ => surplus? letter value
  | _, _ => some (String.ofList value)

def spelled? (word : List Char) : Option Role :=
  match Flag.spellings.lookup (String.ofList word) with
  | some flag => some (.option flag none)
  | none =>
    (cut word).bind fun (name, value) ↦
      (Flag.spellings.lookup (String.ofList name)).map fun flag ↦
        .option flag (carried? name value)

def roleOf (text : String) : Except Misuse Role :=
  let word := text.toList
  match word with
  | '-' :: _ :: _ =>
    match spelled? word with
    | some role => .ok role
    | none =>
      match candidates word with
      | [(_, flag, given?)] => .ok (.option flag given?)
      | [] =>
        .ok (if isNegativeNumber word || word.contains ' ' then .value else .unknown)
      | several => .error (.ambiguous text (several.map (·.1)))
  | _ => .ok .value

/-- The words with their parts. After a separator every word is a value. -/
def roles : List String → Except Misuse (List (String × Role))
  | [] => .ok []
  | "--" :: rest => .ok (("--", .separator) :: rest.map fun word ↦ (word, .value))
  | word :: rest => do
    let role ← roleOf word
    return (word, role) :: (← roles rest)

def readInteger (flag : Flag) (word : String) : Except Misuse Int :=
  match Text.integer? word with
  | some n => .ok n
  | none => .error (.notInteger flag word)

def families : List Kernel.Family := [.scalar, .vectorized]

def readFamily (word : String) : Except Misuse Kernel.Family :=
  match families.find? (·.name == word) with
  | some family => .ok family
  | none => .error (.notChoice .kernel word (families.map (·.name)))

namespace Options

def set (o : Options) (flag : Flag) (words : List String) : Except Misuse Options :=
  match flag, words with
  | .kernel, [word] => return { o with family := ← readFamily word }
  | .kernelSize, [height, width] => do
    let kernelHeight ← readInteger flag height
    let kernelWidth ← readInteger flag width
    return { o with kernelHeight, kernelWidth }
  | .cr, [word] => return { o with tile := ← readInteger flag word }
  | .tests, [word] => return { o with tests := ← readInteger flag word }
  | .iterations, [word] => return { o with iterations := ← readInteger flag word }
  | .seed, [word] => return { o with seed? := some (← readInteger flag word) }
  | .output, [word] => return { o with output? := some word }
  | .verbose, [] => return { o with verbose := true }
  | flag, _ => .error (.missingValues flag)

end Options

inductive Request where
  | help
  | run (options : Options)
  deriving DecidableEq, Repr

/-- Takes the values of the options from left to right. A word that belongs to no option is kept,
and refused at the end. -/
def consume (o : Options) (extras : List String) :
    List (String × Role) → Except Misuse Request
  | [] => if extras = [] then .ok (.run o) else .error (.unrecognized extras)
  | (_, .option flag (some given)) :: rest => do
    if flag.arity = 0 then throw (.surplusValue flag given)
    if flag.arity ≠ 1 then throw (.missingValues flag)
    consume (← o.set flag [given]) extras rest
  | (_, .option .help none) :: _ => .ok .help
  | (_, .option .verbose none) :: rest => do consume (← o.set .verbose []) extras rest
  | (_, .option .kernelSize none) :: (height, .value) :: (width, .value) :: rest => do
    consume (← o.set .kernelSize [height, width]) extras rest
  | (_, .option .kernelSize none) :: _ => .error (.missingValues .kernelSize)
  | (_, .option flag none) :: (word, .value) :: rest => do
    consume (← o.set flag [word]) extras rest
  | (_, .option flag none) :: _ => .error (.missingValues flag)
  | (word, _) :: rest => consume o (extras ++ [word]) rest

def parse (words : List String) : Except Misuse Request := do
  consume {} [] (← roles words)

end Depthwise.CommandLine
