import Purse.CommandLine.Help
import Purse.Remote.Network
import Purse.Replay.Report

/-!
# A run of the program

From the words of the command line to what the program leaves: a text on each of its two outputs and a
code. A run replays the file that it is given over a fresh ledger and reports the wallets. The file is
opened first, then the servers are reached that the settings name, the database before the key server.
-/

namespace Purse

/-- What a run leaves. -/
structure Exit where
  code : Nat
  output : String
  complaint : String
  deriving DecidableEq, Repr

namespace Exit

/-- The run did what it was asked to. -/
def success (output : String) : Exit := ⟨0, output, ""⟩

/-- The run was given up. -/
def failure (complaint : String) : Exit := ⟨1, "", complaint⟩

/-- The run was not understood. -/
def misuse (complaint : String) : Exit := ⟨2, "", complaint⟩

/-- The run broke down. -/
def breakdown (fault : Fault) : Exit := ⟨101, "", fault.message⟩

end Exit

/-- A usage error as a person reads it. -/
def UsageError.message : UsageError → String
  | unknownArgument => "unexpected argument found"
  | missingValue => "a value is required"
  | unreadableValue => "invalid value"
  | givenTwice => "the argument cannot be used multiple times"
  | surplusValue => "unexpected value found"
  | missingFile => "the following required arguments were not provided: <FILE>"
  | helpAsked _ => ""

/-- What a command line comes to that asks for no replay. -/
def UsageError.exit (env : String → Option String) : UsageError → Exit
  | helpAsked atLength => .success (Help.text env atLength)
  | e => .misuse ("error: " ++ e.message ++ "\n\n" ++ Help.usage
      ++ "\n\nFor more information, try '--help'.\n")

namespace Invocation

/-- The run that some error ended. -/
def failed (e : LedgerError) : Exit := .failure ("Error processing commands: " ++ e.message ++ "\n")

/-- Reaches the servers that the settings name, or leaves the run. There has to be room for a connection
to the database, once it is known where that is. -/
def connect (net : Remote.Network) (config : Config) : Except Exit Unit :=
  match config.databaseUrl, config.keyServerUrl with
  | some url, _ =>
    if (Remote.databaseEndpoint (some url)).toBool && config.databaseMaxConnections == 0 then
      .error (.breakdown .noCapacity)
    else .error (failed (net.database (some url)))
  | none, some url => .error (failed (net.keyServer (some url)))
  | none, none => .ok ()

/-- Replays a file under the settings of a run, in memory. -/
def replay (sur : Surroundings) (config : Config) (bytes : List UInt8) : Exit :=
  let s := Replay.run sur config.requestTimeout (Schedule.empty config.keyLifetime) bytes
  match s.fault with
  | some fault => .breakdown fault
  | none => .success s.output

/-- Runs an invocation, of which the file has been opened: it has bytes, or there is a reason why it
could not be opened. -/
def run (sur : Surroundings) (net : Remote.Network) (i : Invocation)
    (opened : Except String (List UInt8)) : Exit :=
  match opened with
  | .error reason => .failure ("Error opening file '" ++ i.file ++ "': " ++ reason ++ "\n")
  | .ok bytes =>
    match connect net i.config with
    | .error exit => exit
    | .ok () => replay sur i.config bytes

end Invocation

end Purse
