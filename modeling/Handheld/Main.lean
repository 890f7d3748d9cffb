import Handheld.Program.Basic
import Std.Time.DateTime.Timestamp

/-! # The program on this machine

    The files that a command names are read before it is carried out, and
    the files that it changed are written afterwards. -/

namespace Handheld.Machine

/-- What the program prints about its command line. -/
def usage : String :=
  String.intercalate "\n" [
    "Builds and inspects PRC and PDB databases",
    "",
    "usage: [-v] pack [options] OUTPUT [NAME CREATOR] [INPUT...]",
    "       [-v] info [--json] FILE",
    "",
    "options of pack: --name NAME, --type TYPE, --creator TYPE,",
    "  --version-number N, --modnum N, -a NAME, --app, --library, --generic,",
    "  --stack-size N, --heap-size N, --no-data, --main-code TYPE:ID,",
    "  --extra-code SECTION, --compression LEVEL, --force-rloc,",
    "  --project FILE"]

/-- What a path leads to. -/
def nodeAt (path : String) : IO (Option Node) := do
  try
    let contents ← IO.FS.readBinFile path
    return some (.file contents.data.toList)
  catch
    | .inappropriateType _ 21 _ => return some .directory
    | _ => return none

/-- The files with what is found by a list of names. -/
def look (files : Files) (names : List String) : IO Files := do
  match ← nodeAt (Path.ofNames names) with
  | some node => return files.put names node
  | none => return files

/-- The files that a command may read or write, and the directories that
    lead to them. -/
def gather (here : List String) (command : Command) : IO Files :=
  (command.paths.flatMap (Path.places here)).foldlM look (Files.empty here)

/-- Replaces a file as a whole. -/
def replace (names : List String) (contents : Bytes) : IO Unit := do
  let path := Path.ofNames names
  let fresh := path ++ ".new"
  IO.FS.writeBinFile fresh ⟨contents.toArray⟩
  IO.FS.rename fresh path

/-- The time now. -/
def now : IO Timestamp := do
  let time ← Std.Time.Timestamp.now
  return (Timestamp.ofUnix? time.toSecondsSinceUnixEpoch.val).getD .never

/-- Carries out a command line and returns the exit status. -/
def run (line : CommandLine) : IO UInt32 := do
  let here := Path.names (← IO.currentDir).toString
  let before ← gather here line.command
  let outcome := Program.run before (← now) line.command
  for (names, contents) in Files.changes before outcome.files do
    replace names contents
  for text in outcome.lines line.verbose do
    IO.eprintln text
  IO.print outcome.output
  return outcome.exitStatus.toUInt32

end Handheld.Machine

open Handheld in
/-- The program. -/
def main (words : List String) : IO UInt32 := do
  match CommandLine.ofWords words with
  | .ok line => Machine.run line
  | .error stop =>
      if stop = .help then IO.println Machine.usage
      else IO.eprintln Machine.usage
      return stop.exitStatus.toUInt32
