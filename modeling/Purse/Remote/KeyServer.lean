import Purse.CommandLine.Config
import Purse.Service.Program

/-!
# The key store on a server

A server of keys knows two commands here. One sets a key, unless it is set, for a number of seconds, and
tells which of the two happened; the other deletes a key. `overKeyServer` turns such a server, given as a
function from commands to answers, into collaborators: calls that are none of the server's go on to
others.
-/

namespace Purse.Remote

/-- What is asked of the key server. -/
inductive KeyCommand where
  /-- Sets a key that is not set, for a number of seconds. -/
  | set (name : String) (seconds : Nat)
  /-- Deletes a key. -/
  | delete (name : String)
  deriving DecidableEq, Repr

/-- The words of a command. -/
def KeyCommand.words : KeyCommand → List String
  | set name seconds => ["SET", name, "1", "NX", "EX", toString seconds]
  | delete name => ["DEL", name]

/-- What a command is answered with: a word if the key has been set and nothing if it was set before,
or the number of keys deleted. -/
def KeyCommand.Answer : KeyCommand → Type
  | set _ _ => Option String
  | delete _ => Int

/-- Why a command has no answer. -/
inductive KeyFault where
  /-- The server refused the command, with a code and a detail. -/
  | refused (code detail : String)
  /-- The server could not be reached. -/
  | lost (reason : String)
  /-- The server cannot be reached under its name at all. -/
  | misnamed (reason : String)
  deriving DecidableEq, Repr

namespace KeyFault

/-- The names of the kinds of refusal that are known, by their codes. -/
def kinds : List (String × String) :=
  [("ERR", "ResponseError"), ("EXECABORT", "ExecAbortError"), ("LOADING", "BusyLoadingError"),
    ("NOSCRIPT", "NoScriptError"), ("MOVED", "Moved"), ("ASK", "Ask"), ("TRYAGAIN", "TryAgain"),
    ("CLUSTERDOWN", "ClusterDown"), ("CROSSSLOT", "CrossSlot"), ("MASTERDOWN", "MasterDown"),
    ("READONLY", "ReadOnly")]

/-- The fault as a person reads it. -/
def message : KeyFault → String
  | refused code detail =>
    match kinds.lookup code with
    | some kind => "An error was signalled by the server - " ++ kind ++ ": " ++ detail
    | none => code ++ ": " ++ detail
  | lost reason => reason
  | misnamed reason => reason ++ "- InvalidClientConfig"

/-- What a fault means to the ledger. -/
def toError (f : KeyFault) : LedgerError := .internal f.message

end KeyFault

/-- How keys go by on the server. -/
structure KeySpace where
  /-- What stands before each key. -/
  keyPrefix : String
  /-- How long a claim is to last, in milliseconds. -/
  ttl : Nat
  deriving DecidableEq, Repr

namespace KeySpace

/-- How keys go by where the settings are these. -/
def ofConfig (c : Config) : KeySpace := ⟨c.keyPrefix, c.keyLifetime⟩

/-- The name of a key on the server. -/
def name (k : KeySpace) (key : String) : String := k.keyPrefix ++ key

/-- How long a key is set for: the whole seconds of that time, what is left over is dropped. It is a
second at least, as the server refuses less. -/
def seconds (k : KeySpace) : Nat := max (k.ttl / 1000) 1

end KeySpace

/-- A key server, as a function of the commands sent to it. -/
abbrev KeyServer (σ : Type) := (k : KeyCommand) → σ → Except KeyFault k.Answer × σ

/-- What is sent for a call, and how the answer is read. -/
structure KeyInquiry (α : Type) where
  command : KeyCommand
  read : command.Answer → α

/-- The inquiry of a call on the keys. -/
def keyInquiry? (space : KeySpace) : (c : Call) → Option (KeyInquiry c.Answer)
  | .claim key => some ⟨.set (space.name key) space.seconds, fun (word : Option String) => word.isNone⟩
  | .release key => some ⟨.delete (space.name key), fun _ => ()⟩
  | .begin | .commit | .rollback | .lock _ _ | .addWithin _ _ | .add _ _ | .insert _ | .get _ | .list _
  | .newId | .readClock => none

/-- What the server's answer comes to. -/
def KeyInquiry.result {α : Type} (i : KeyInquiry α) : Except KeyFault i.command.Answer → Result α
  | .ok answer => .ok (i.read answer)
  | .error fault => .error fault.toError

/-- Collaborators of which a key server is the key store. -/
def overKeyServer {σ : Type} (space : KeySpace) (server : KeyServer σ) (others : Collaborators σ) :
    Collaborators σ :=
  fun c s =>
    match keyInquiry? space c with
    | some i => (i.result (server i.command s).1, (server i.command s).2)
    | none => others c s

end Purse.Remote
