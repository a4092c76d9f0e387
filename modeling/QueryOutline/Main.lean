import QueryOutline.CommandLine.Run
import QueryOutline.Settings.Environment

/-!
The program on a terminal: look up the files that a run may need, run it, and
write its report.
-/

namespace QueryOutline.Main

def entryOf (name : String) : IO Entry := do
  if name.isEmpty then return .missing
  else
    try
      let content ← IO.FS.readBinFile name
      return .file content.toList
    catch e =>
      match e with
      | .noFileOrDirectory .. => return .missing
      | _ => return .directory

def lookUp (names : List String) : IO (List (String × Entry)) :=
  names.mapM fun name => return (name, ← entryOf name)

def readInput : IO (List UInt8) := do
  return (← (← IO.getStdin).readBinToEnd).toList

def environment : IO (List (String × String)) := do
  let names := ["GQLENS_INDENT_WIDTH", "GQLENS_HIGHLIGHT_STYLE"]
  let found ← names.mapM fun name => return (name, ← IO.getEnv name)
  return found.filterMap fun (name, value) => value.map (name, ·)

def report (defaults : Defaults) (arguments : List String) : IO UInt32 := do
  let entries ← lookUp (CommandLine.namesIn arguments)
  let wanted := CommandLine.documentName? arguments == some CommandLine.Run.inputName
  let input ← if wanted then readInput else pure []
  let result := CommandLine.run
    { defaults, input, entry := fun name => (entries.lookup name).getD .missing } arguments
  IO.print result.out
  IO.eprint result.err
  if let some failure := result.failure then IO.eprintln ("Error: " ++ failure.message)
  return result.exitCode.toUInt32

end QueryOutline.Main

open QueryOutline in
def main (arguments : List String) : IO UInt32 := do
  match Defaults.ofEnvironment (← Main.environment) with
  | .error (text, fault) =>
      IO.eprintln (Defaults.faultMessage text fault)
      return 1
  | .ok defaults => Main.report defaults arguments
