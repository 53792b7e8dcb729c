import DocTree.Command

/-! The program: it reads the files that a command wants, runs the command, and writes what it left
behind. -/

namespace DocTree.Main

/-- How the program is used. -/
def usage : String :=
  "usage: declarations [--project-folder FOLDER] [--config FILE] [--json FILE] [-v]"

/-- The bytes of a file, if it can be read. -/
def readFile? (path : String) : IO (Option ByteArray) := do
  try return some (← IO.FS.readBinFile path) catch _ => return none

/-- Writes a file, and the folders that it lies in. -/
def writeFile (path : Path) (text : String) : IO (Option FileFault) := do
  try
    if path.parent.segments != [] then IO.FS.createDirAll path.parent.text
    IO.FS.writeFile path.text text
    return none
  catch _ => return some .missing

/-- Reads the wanted files that are not known yet. -/
def fetch (args : Command.Arguments) (table : List (String × ByteArray)) :
    IO (List (String × ByteArray)) := do
  let mut table := table
  for p in Command.wanted (.ofTable table) args do
    if !Keyed.has p.text table then
      if let some bytes ← readFile? p.text then table := table ++ [(p.text, bytes)]
  return table

/-- Runs a command on the files of the system. -/
def execute (args : Command.Arguments) : IO UInt32 := do
  let table ← fetch args (← fetch args [])
  let outcome := Command.run (.ofTable table) args
  let outcome ← match outcome.report with
    | none => pure outcome
    | some (path, text) => pure (outcome.reported path (← writeFile path text))
  IO.eprint (Event.log args.verbose outcome.events)
  IO.print outcome.output
  match outcome.exit with
  | .code n => return n.toUInt32
  | .message text => IO.eprintln text; return 1
  | .failed _ => IO.eprintln "a file does not have the form that is relied on"; return 1

end DocTree.Main

/-- Resolves the documentation comments of a declaration tree. -/
def main (args : List String) : IO UInt32 := do
  match DocTree.Command.Request.parse args with
  | .run arguments => DocTree.Main.execute arguments
  | .help => IO.println DocTree.Main.usage; return 0
  | .usage => IO.eprintln DocTree.Main.usage; return 2
