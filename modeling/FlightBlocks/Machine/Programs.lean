import FlightBlocks.Files.Tree
/-!
What is on the machine from the start: its directories, and its programs by name. The machine is
one that upload commands can be run on; no statement of the library is about it.
-/

namespace FlightBlocks.Machine

def programNames : List String :=
  ["echo", "true", "false", "sh", "cat", "pwd", "printf", "kill", "rm"]

def programDirectories : List Place := [["usr", "bin"], ["bin"]]

def programAt? (place : Place) : Option String :=
  if programDirectories.contains place.parent then
    programNames.find? fun name => place.getLast? == some name
  else none

def home : Place := ["usr", "bin"]

def files : Tree :=
  let directories : List Place :=
    [["boot"], ["dev"], ["etc"], ["home"], ["media"], ["mnt"], ["opt"], ["proc"], ["root"], ["run"],
      ["srv"], ["sys"], ["tmp"], ["usr"], ["usr", "bin"], ["usr", "lib"], ["usr", "local"],
      ["usr", "local", "bin"], ["usr", "local", "sbin"], ["usr", "sbin"], ["usr", "share"], ["var"],
      ["var", "lib"], ["var", "log"], ["var", "tmp"]]
  let links : List (Place × String) :=
    [(["bin"], "usr/bin"), (["lib"], "usr/lib"), (["sbin"], "usr/sbin")]
  directories.map (·, .directory) ++ links.map (fun (place, target) => (place, .link target)) ++
    [(["dev", "null"], .file .empty), (["etc", "passwd"], .file .empty)]

end FlightBlocks.Machine
