import ScriptMachine.CommandLine

/-!
# The program

Reads a compiled script and writes its listing.
-/

namespace ScriptMachine.CommandLine

/-- Prints a report if it is wanted. -/
def report (o : Options) (s : Severity) (text : String) : IO Unit :=
  if o.reports s then IO.eprintln (s.name ++ " " ++ text) else pure ()

/-- Creates the directory of a file. -/
def createParent (path : String) : IO Unit :=
  match Text.parentPath path with
  | "" => pure ()
  | parent => IO.FS.createDirAll parent

/-- Lists the script in a file. -/
def run (o : Options) : IO UInt32 := do
  let bytes ← IO.FS.readBinFile o.input
  match Script.load o.encoding bytes.toList with
  | .error e =>
    IO.eprintln ("Error: failed to load " ++ o.input ++ ": " ++ e.message)
    return 1
  | .ok p =>
    for (s, text) in bodyReports p do
      report o s text
    createParent o.listingPath
    IO.FS.writeFile o.listingPath p.listing.yaml
    report o .info ("wrote " ++ o.listingPath)
    return 0

end ScriptMachine.CommandLine

/-- Runs the program on its arguments. -/
def main (arguments : List String) : IO UInt32 :=
  match ScriptMachine.CommandLine.Options.ofArguments arguments with
  | .ok o => ScriptMachine.CommandLine.run o
  | .error fault => do
    IO.eprintln ("Error: " ++ fault.message)
    return 2
