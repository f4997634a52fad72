import FlightBlocks.CommandLine.Run
import FlightBlocks.Machine.Launch
/-!
The program itself. The files it may need are read into a tree, the command runs on the tree, and
what it changed is written back. The programs that an upload may start are those of `Machine`.
-/

namespace FlightBlocks.Outside

def directoriesAbove (place : Place) : Tree :=
  (List.range place.length).map fun i => (place.take (i + 1), .directory)

/-- What stands at a place and below it, or nothing. A link is kept with the place it leads to,
which is looked at too unless a link led here (`linked`). A link that is `listed` and leads nowhere
is kept as one to itself, so nobody gets past it. -/
partial def survey (linked listed : Bool) (place : Place) : IO Tree := do
  let text := place.text
  let real ← try some <$> IO.FS.realPath text catch _ => pure none
  match real with
  | none => return if listed then [(place, .link text)] else []
  | some real =>
    let target := real.toString
    if target != text then
      let there ← if linked then pure [] else survey true false (Path.ofText target).names
      return (place, .link target) :: there
    else if ← real.isDir then
      let inside ← try real.readDir catch _ => pure #[]
      let below ← inside.toList.mapM fun entry =>
        survey linked true (place ++ [entry.fileName])
      return (place, .directory) :: below.flatten
    else
      try
        return [(place, .file (← IO.FS.readBinFile text))]
      catch _ => return []

def surveyAll (places : List Place) : IO Tree := do
  let surveyed ← places.mapM (survey false false)
  return (places.flatMap fun place => directoriesAbove place.parent) ++ surveyed.flatten

def writeBack (before after : Tree) : IO Unit := do
  for (place, entry) in after do
    if before.entry? place != some entry then
      match entry with
      | .directory => IO.FS.createDirAll place.text
      | .file content => do
        IO.FS.createDirAll place.parent.text
        IO.FS.writeBinFile place.text content
      | .link _ => pure ()
  for (place, entry) in before do
    if (after.entry? place).isNone then
      match entry with
      | .file _ => IO.FS.removeFile place.text
      | _ => pure ()

def baseOf (around : CommandLine.Surroundings) (t : Tree) (args : List String) : List Place :=
  match CommandLine.request args with
  | .run config command =>
    match CommandLine.settingsFor around t config command with
    | .ok settings => [around.cwd.follow (.ofText settings.baseDir)]
    | .error _ => []
  | _ => []

end FlightBlocks.Outside

open FlightBlocks in
def main (args : List String) : IO UInt32 := do
  let cwd : Place := (Path.ofText (← IO.currentDir).toString).names
  let time := Int64.ofNat ((← IO.monoNanosNow) / 1000)
  let around : CommandLine.Surroundings :=
    ⟨Machine.launch, cwd, ← IO.getEnv Settings.baseDirVariable, time⟩
  let named := args.map fun arg => cwd.follow (.ofText arg)
  let first ← Outside.surveyAll (cwd :: named.filter fun place => !Place.within place cwd)
  let before := first ++ (← Outside.surveyAll (Outside.baseOf around first args))
  let (answer, after) := CommandLine.run around before args
  Outside.writeBack before after
  IO.print answer.out
  return UInt32.ofNat answer.exit
