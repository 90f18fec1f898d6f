import ProtoDocs.CommandLine.Program

/-!
# The command line

Looks up on disk what a run needs to know, and prints what it comes to.

* `look`        what a path leads to on disk;
* `snapshot`    the same for several paths, with nothing anywhere else;
* `main`        the program.
-/

namespace ProtoDocs

/-- the number of a system error, which may come with its sign turned around -/
def errorNumber (code : UInt32) : Nat :=
  if code.toNat < 0x80000000 then code.toNat else 0x100000000 - code.toNat

/-- what the failure to read a file says about its path -/
def Entry.ofError : IO.Error → Entry
  | .noFileOrDirectory .. => .missing
  | .inappropriateType _ code reason | .permissionDenied _ code reason
  | .resourceExhausted _ code reason | .invalidArgument _ code reason | .otherError code reason =>
    match errorNumber code with
    | 20 => .beyondFile
    | 21 => .directory
    | n => .closed (reason.capitalize.toList ++ " (os error ".toList ++ n.repr.toList ++ [')'])
  | e => .closed e.toString.toList

/-- what a path leads to on disk -/
def look (path : Path) : IO Entry := do
  match ← (IO.FS.readBinFile (String.ofList path)).toBaseIO with
  | .ok content => return .file content
  | .error e => return Entry.ofError e

/-- what some paths lead to on disk; there is nothing anywhere else -/
def snapshot (paths : List Path) : IO Files := do
  let found ← paths.mapM fun p => return (p, ← look p)
  return fun p => (found.lookup p).getD .missing

end ProtoDocs

open ProtoDocs in
/-- the program; the settings have to be known before the schema file can be looked up -/
def main (args : List String) : IO UInt32 := do
  let args := args.map String.toList
  let settings ← snapshot (consulted (fun _ => .missing) args)
  let files ← snapshot (consulted settings args)
  let exit := run files args
  IO.print (String.ofList exit.output)
  IO.eprint (String.ofList exit.errors)
  return exit.status.toUInt32
