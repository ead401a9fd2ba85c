/-
The program: its arguments, the files of the machine, and its outcome.
-/
import Bracework.CommandLine.Command

namespace Bracework

/-- An action that tells whether it worked. -/
def worked (action : IO Unit) : IO Bool :=
  try
    action
    return true
  catch _ => return false

/-- The files of the machine.  A dot is in every folder, so making it fails for the
reason that it is there. -/
def machineFiles : CommandLine.Files IO where
  read path :=
    try
      let text ← IO.FS.readFile path
      return some text
    catch _ => return none
  isThere path :=
    try
      let _ ← IO.FS.readFile path
      return true
    catch
      | .noFileOrDirectory .. => return false
      | _ => return true
  isFolder path :=
    try
      IO.FS.createDir (path ++ "/.")
      return true
    catch
      | .alreadyExists .. => return true
      | _ => return false
  write path content := worked (IO.FS.writeFile path content)
  makeFolder path := worked (IO.FS.createDir path)

end Bracework

def main (arguments : List String) : IO UInt32 := do
  let outcome ← Bracework.CommandLine.run Bracework.machineFiles arguments
  IO.print outcome.stdout
  for complaint in outcome.complaints do
    IO.eprintln complaint
  return outcome.exit.toUInt32
