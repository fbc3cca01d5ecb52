import ScriptTree.CommandLine.Report

/-! # The program

Reads the files that the arguments name and prints the report of the command. -/
set_option autoImplicit false
namespace ScriptTree

def readTexts (paths : List String) : IO (List (String × List Char)) := do
  let mut texts : List (String × List Char) := []
  for path in paths do
    let attempt ← (IO.FS.readFile path).toBaseIO
    match attempt with
    | .ok content => texts := (path, content.toList) :: texts
    | .error _ => pure ()
  return texts

end ScriptTree

open ScriptTree in
def main (words : List String) : IO UInt32 := do
  let paths := match Command.ofWords words with
    | .ok command => command.paths
    | .error _ => []
  let texts ← readTexts paths
  let report := Command.report (fun path => texts.lookup path) words
  (← IO.getStdout).putStr report.output
  for line in report.problems ++ report.summary.toList do
    (← IO.getStderr).putStrLn line
  return UInt32.ofNat report.exitCode
