import Purse.Remote.DatabaseUrl
import Purse.Remote.KeyServerUrl

/-!
# Reaching servers

From the locator in the settings to the place of a server, and to what an attempt to reach it comes to.
The languages that servers speak on the wire are outside this library, so that no attempt succeeds: it
fails because of the locator or, with a sound one, for a reason that the network or the file system
gives.
-/

namespace Purse.Remote

/-- A network, by the reasons for which it does not reach endpoints. -/
def Network := Endpoint → String

/-- The directories below the root of all files that are always there. -/
def Network.standing : List String :=
  ["bin", "boot", "dev", "etc", "home", "lib", "media", "mnt", "opt", "proc", "root", "run", "sbin",
    "srv", "sys", "tmp", "usr", "var"]

/-- Whether the name of a host is an address, or that of this machine: nobody is asked where it is. -/
def isSettled (name : String) : Bool :=
  let bare := name.toList.filter fun c => c != '[' && c != ']'
  name.toLower == "localhost" || Host.isDotted bare || Host.isAddress128 bare
    || (Host.readAddress32? bare).isSome

/-- Whether a path names a directory that is always there, or the root of all files. Steps that lead
nowhere or back are passed over. -/
def isStanding (path : List UInt8) : Bool :=
  let steps := (Host.parts '/' (Utf8.readLossy path)).map String.ofList
  match steps.filter fun s => s != "" && s != "." && s != ".." with
  | [] => true
  | [name] => Network.standing.contains name
  | _ => false

/-- The network that is not there: it leads to no host, nobody tells where a host is, and there are no
sockets among the files. A directory is no socket. -/
def Network.unreachable : Network
  | .host name _ =>
    if isSettled name then "Network is unreachable (os error 101)"
    else "failed to lookup address information: Temporary failure in name resolution"
  | .socket path =>
    if isStanding path then "Connection refused (os error 111)"
    else "No such file or directory (os error 2)"

/-- Why an endpoint is not reached. -/
def Network.reason (n : Network) (e : Endpoint) : String := e.flaw?.getD (n e)

/-- What an attempt to reach the database comes to. -/
def Network.database (n : Network) (url? : Option String) : LedgerError :=
  match databaseEndpoint url? with
  | .ok place => (DatabaseFault.lost (n.reason place)).toError
  | .error e => e

/-- What an attempt to reach the key server comes to. -/
def Network.keyServer (n : Network) (url? : Option String) : LedgerError :=
  match keyServerEndpoint url? with
  | .ok place => (KeyFault.lost (n.reason place)).toError
  | .error e => e

end Purse.Remote
