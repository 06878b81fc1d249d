import RunParams.Console.Markup
import RunParams.Similarity
import RunParams.Tool.Run
import RunParams.Yaml

/-!
# The command line

Reads the files that the arguments name, runs the tool on them, and writes what it has written to where that belongs.
-/

namespace RunParams.Tool

/-- The error of the system that stands behind an error of a file operation. -/
def systemError (e : IO.Error) : SystemError :=
  let unsigned (n : UInt32) : Nat := if n.toNat < 0x80000000 then n.toNat else 0x100000000 - n.toNat
  match e with
  | .noFileOrDirectory _ n reason | .interrupted _ n reason => .ofNumber (unsigned n) reason
  | .permissionDenied _ n reason | .inappropriateType _ n reason | .invalidArgument _ n reason
  | .resourceExhausted _ n reason | .noSuchThing _ n reason | .alreadyExists _ n reason =>
    .ofNumber (unsigned n) reason
  | .otherError n reason | .resourceBusy n reason | .resourceVanished n reason
  | .unsupportedOperation n reason | .hardwareFault n reason | .unsatisfiedConstraints n reason
  | .illegalOperation n reason | .protocolError n reason | .timeExpired n reason => .ofNumber (unsigned n) reason
  | .unexpectedEof => .other 0 "Unexpected end of file"
  | .userError reason => .other 0 reason

/-- The text of the file at a path. -/
def readFile (path : String) : IO (Except FileError String) := do
  match ← (IO.FS.readBinFile path).toBaseIO with
  | .ok bytes => return (fileText bytes.toList).mapError .undecodable
  | .error e => return .error (.unread path (systemError e))

/-- Writes a snapshot to the file at a path. -/
def writeSnapshot (path : String) (s : Snapshot) : IO (Except FileError Unit) := do
  match ← (IO.FS.writeFile path (Yaml.ofSnapshot s)).toBaseIO with
  | .ok () => return .ok ()
  | .error e => return .error (.unwritten path (systemError e))

/-- The files that arguments name for reading. -/
def inputs (arguments : List String) : List String :=
  match request arguments with
  | .ok (.check files _ _ _) => files
  | _ => []

/-- Runs the tool on the files of the system. A file that cannot be written ends the run as if that had been known before. -/
def runHere (arguments : List String) : IO Outcome := do
  let texts ← (inputs arguments).mapM fun path => return (path, ← readFile path)
  let read (path : String) := (texts.lookup path).getD (.error (.unread path .notFound))
  let around (write : String → Except FileError Unit) : Surroundings :=
    ⟨read, write, Console.markup Console.numberPictures, Similarity.scorer⟩
  let outcome := run (around fun _ => .ok ()) arguments
  match outcome.written with
  | none => return outcome
  | some (path, s) =>
    match ← writeSnapshot path s with
    | .ok () => return outcome
    | .error e => return run (around fun _ => .error e) arguments

end RunParams.Tool

/-- Runs the tool with the arguments of the process. -/
def main (arguments : List String) : IO UInt32 := do
  let outcome ← RunParams.Tool.runHere arguments
  (← IO.getStdout).putStr outcome.out
  (← IO.getStderr).putStr outcome.err
  return (outcome.ending.code % 256).toNat.toUInt32
