import Depthwise.CommandLine.Execute

namespace Depthwise.CommandLine

def finish : Except (Error × String) Result → IO UInt32
  | .error (e, printed) => do
    IO.print printed
    IO.eprintln (Text.plain e.listing)
    return 1
  | .ok result => do
    IO.print result.printed
    match result.report? with
    | some (path, text) => IO.FS.writeFile path text
    | none => pure ()
    return result.status

def randomSeed : IO Int := do
  let bytes ← IO.getRandomBytes 4
  return seedOfEntropy (bytes.toList.foldl (fun n b ↦ 256 * n + b.toNat) 0)

def usage : String := "options: " ++ " ".intercalate (Flag.spellings.map (·.1))

def program (words : List String) : IO UInt32 := do
  match parse words with
  | .error misuse =>
    IO.eprintln ("error: " ++ misuse.message)
    return 2
  | .ok .help =>
    IO.println usage
    return 0
  | .ok (.run options) =>
    let seed ← match options.seed? with
      | some seed => pure seed
      | none => randomSeed
    finish (execute options seed (fun family ↦ family.build Unit) ())

end Depthwise.CommandLine

def main (words : List String) : IO UInt32 := Depthwise.CommandLine.program words
