import Purse.CommandLine.Run
import Std.Time.DateTime.Timestamp

/-!
# The program

The outermost layer: it looks at the environment, the clock and the file, lets `Invocation.run` decide,
and writes out what that leaves.
-/

namespace Purse.Console

/-- An error of the system as a person reads it. -/
def systemReason : IO.Error → String
  | .alreadyExists _ code text | .noFileOrDirectory _ code text | .invalidArgument _ code text
  | .permissionDenied _ code text | .resourceExhausted _ code text | .inappropriateType _ code text
  | .noSuchThing _ code text | .interrupted _ code text | .otherError code text
  | .resourceBusy code text | .resourceVanished code text | .unsupportedOperation code text
  | .hardwareFault code text | .unsatisfiedConstraints code text | .illegalOperation code text
  | .protocolError code text | .timeExpired code text =>
    text ++ " (os error " ++ toString code.toNat ++ ")"
  | .unexpectedEof => "unexpected end of file"
  | .userError text => text

/-- The bytes of a file that has been opened. One that cannot be read, such as a directory, has none. -/
def bytesOf (file : IO.FS.Handle) : IO (List UInt8) := do
  try
    let bytes ← file.readBinToEnd
    return bytes.toList
  catch _ => return []

/-- Opens a file and reads it. -/
def openFile (name : String) : IO (Except String (List UInt8)) := do
  let opened ← (IO.FS.Handle.mk name .read).toBaseIO
  match opened with
  | .ok file => return .ok (← bytesOf file)
  | .error e => return .error (systemReason e)

/-- The variables of the environment that give settings. -/
def environment : IO (List (String × String)) := do
  let names := Setting.all.map Setting.envName
  names.filterMapM fun name => do
    let value? ← IO.getEnv name
    return value?.map (name, ·)

/-- The clock as it is at the start, and random bits. A replay is taken to need no time. -/
def surroundings : IO Surroundings := do
  let now ← Std.Time.Timestamp.now
  let bytes ← IO.getRandomBytes 10
  let start := (Timestamp.ofMillis? now.toMillisecondsSinceUnixEpoch.val).getD Timestamp.epoch
  let seed := bytes.toList.foldl (fun n b => n * 256 + b.toNat) 0
  return ⟨fun _ => start, fun reading => seed + reading⟩

/-- Does what a command line asks for. -/
def perform (words : List String) : IO Exit := do
  let given ← environment
  let env := fun name => given.lookup name
  match Invocation.parse env words with
  | .error e => return e.exit env
  | .ok i => return i.run (← surroundings) .unreachable (← openFile i.file)

end Purse.Console

/-- Runs the program. -/
def main (words : List String) : IO UInt32 := do
  let exit ← Purse.Console.perform words
  IO.print exit.output
  IO.eprint exit.complaint
  return UInt32.ofNat exit.code
