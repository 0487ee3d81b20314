import CallSiteIds.CommandLine.Footprint

/-!
# The program

Reads the command line, reads the files that the command looks at into a file tree, carries the
command out on the tree, and writes back what changed.  Symbolic links are not followed when
paths are resolved.
-/

set_option autoImplicit false

namespace CallSiteIds.Program

open CommandLine

/-- How the program is used. -/
def usage : String :=
  "usage: [--log-level LEVEL] generate [ROOT] [--descriptors FILE] [--out-dir DIRECTORY]\n" ++
  "       [--log-level LEVEL] validate [ROOT] [--artifacts-dir DIRECTORY]\n" ++
  "       [--log-level LEVEL] verify [ROOT] [--descriptors FILE] [--artifacts-dir DIRECTORY]\n" ++
  "       [--log-level LEVEL] literal PATH LINE COLUMN [--ordinal N] [--format NAME] [--prefix TEXT]"

/-- Reads what a place holds, and all below it, into a tree. -/
partial def readPlace (t : FileTree) (place : Place) : IO FileTree := do
  let path := (← IO.currentDir) / Place.text place
  if ← path.isDir then
    let mut t := t.put place .directory
    for entry in ← path.readDir do
      t ← readPlace t (place ++ [entry.fileName])
    return t
  else if ← path.pathExists then
    return t.put place (.file (← IO.FS.readBinFile path).toList)
  else return t

/-- Reads a place and notes the directories on the way to it. -/
def readWay (t : FileTree) (place : Place) : IO FileTree := do
  let here ← IO.currentDir
  let mut t := t
  for n in List.range place.length do
    let above := place.take n
    if !above.isEmpty && (← (here / Place.text above).isDir) then
      t := t.put above .directory
  readPlace t place

def writeEntry (change : Place × Entry) : IO Unit := do
  let path := (← IO.currentDir) / Place.text change.1
  match change.2 with
  | .directory => IO.FS.createDirAll path
  | .file bytes => IO.FS.writeBinFile path (ByteArray.mk bytes.toArray)

def surroundings : IO Surroundings := do
  let here ← IO.currentDir
  let home ← IO.getEnv "HOME"
  return {
    workingDirectory := (Path.ofString here.toString).parts
    homeOf := fun user => if user = "" then home else none
    temporary := ["tmp", "call-site-ids"] }

/-- Carries out a command on real files. -/
def carryOut (i : Invocation) : IO UInt32 := do
  let s ← surroundings
  let mut t := FileTree.empty
  for _ in List.range footprintRounds do
    for place in i.footprint s t do
      t ← readWay t place
  let answer := i.run s t
  for change in t.changes answer.tree do
    writeEntry change
  for line in answer.output do
    IO.println line
  for line in answer.notes do
    IO.eprintln line
  match answer.ending with
  | .ok status => return status.toUInt32
  | .error e =>
    IO.eprintln e.message
    return 1

end CallSiteIds.Program

/-- Reads the command line and carries it out. -/
def main (arguments : List String) : IO UInt32 := do
  match CallSiteIds.CommandLine.read arguments with
  | .ok i => CallSiteIds.Program.carryOut i
  | .error .help =>
    IO.println CallSiteIds.Program.usage
    return 0
  | .error .usage =>
    IO.eprintln CallSiteIds.Program.usage
    return 2
