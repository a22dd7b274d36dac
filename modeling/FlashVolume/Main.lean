/-
The command: arguments and the device file in, text and an exit code out.
-/
import FlashVolume.CommandLine.Run

namespace FlashVolume.CommandLine

/-- The device file of this name, read as a whole. -/
def openFile (name : String) : IO (Except ReadError Device) := do
  try
    return .ok (.ofBytes (← IO.FS.readBinFile name))
  catch _ =>
    return .error .missing

/-- Run the command on the files of the machine. -/
def runOnFiles (arguments : List String) : IO Output := do
  match parse? arguments with
  | some (.check name _) =>
    let device ← openFile name
    return run (fun _ => device) arguments
  | _ => return run (fun _ => .error .missing) arguments

end FlashVolume.CommandLine

/-- Check a volume. -/
def main (arguments : List String) : IO UInt32 := do
  let output ← FlashVolume.CommandLine.runOnFiles arguments
  IO.print output.stdout
  return output.code.toUInt32
