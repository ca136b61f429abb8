import SigmaDesk.Command.Run
import SigmaDesk.Yaml.Datum

/-!
# The program

Reads the files that the arguments name, runs the command on them, and writes out what came of it.
No client of a broker is part of the program.
-/

namespace SigmaDesk.Command

def usage : String :=
  "usage: sigmadesk [--catalog FILE] check RULE\n" ++
    "       sigmadesk [--catalog FILE] format [--write] RULE\n" ++
    "       sigmadesk [--catalog FILE] submit [--bootstrap-servers SERVERS] [--topic TOPIC]\n" ++
    "                 [--partitions N] [--replication-factor N] [--dry-run] RULE\n"

def Invocation.readFiles (i : Invocation) : IO Files := do
  let mut files : Files := .empty
  let catalog : List String :=
    match i.catalog with
    | .file path => [plainPath path]
    | _ => []
  for path in i.rule :: catalog do
    try
      files := files.insert path (← IO.FS.readFile path)
    catch _ => pure ()
  return files

def Invocation.perform (i : Invocation) : IO Nat := do
  let files ← i.readFiles
  let fresh := Store.mintedId (← IO.rand 0 (Nat.pow 2 122 - 1))
  let result := run Yaml.loader files Store.Client.offline fresh i
  IO.print result.out
  IO.eprint result.err
  let content := result.files.get? i.rule
  if content != files.get? i.rule then
    IO.FS.writeFile i.rule (content.getD "")
  match result.exit with
  | .ok code => return code
  | .error e =>
    IO.eprintln e.message
    return 1

end SigmaDesk.Command

open SigmaDesk.Command in
def main (args : List String) : IO UInt32 := do
  match Invocation.ofArguments args with
  | .ok i => return (← i.perform).toUInt32
  | .error u =>
    match u with
    | .help => IO.print usage
    | .wrong => IO.eprint usage
    return u.exitCode.toUInt32
