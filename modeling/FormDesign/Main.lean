import FormDesign.Command

/-!
# The program

Runs the command line on the file system.
-/

namespace FormDesign

open Command

/-- Why the file system refuses. Some of its functions give the number of a reason below zero. -/
def storageFaultOf (e : IO.Error) : StorageFault :=
  match e with
  | .noFileOrDirectory .. => .missing
  | .inappropriateType _ code _ => if code = 20 ∨ code = -20 then .noDirectory else .directory
  | e => .other (toString e)

/-- The file system is a place that keeps files. -/
instance : Storage IO where
  read path := do
    try return .ok (← IO.FS.readBinFile path)
    catch e => return .error (storageFaultOf e)
  present path := do
    -- only what is there has a path without links
    try
      let _ ← IO.FS.realPath path
      return true
    catch _ => return false
  write path content := do
    try return .ok (← IO.FS.writeBinFile path content)
    catch e => return .error (storageFaultOf e)

end FormDesign

/-- Runs the arguments. The variable `RUST_LOG` holds the filter of log lines. -/
def main (args : List String) : IO UInt32 := do
  let (verbose, report) ← FormDesign.Command.run args
  let filter := FormDesign.Command.Filter.ofSettings (← IO.getEnv "RUST_LOG") verbose
  for line in report.errorLines filter do
    IO.eprintln line
  IO.print report.output
  return report.code.toUInt32
