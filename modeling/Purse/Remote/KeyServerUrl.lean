import Purse.Remote.Endpoint
import Purse.Remote.KeyServer

/-!
# The locator of the key server

A key server is at a host, in the schemes `redis` and `rediss`, or behind a socket, in the schemes `unix`
and `redis+unix`. A locator may also choose one of the server's numbered key spaces: at a host by the
path, behind a socket by the query. The scheme `rediss` asks for a secure connection, which there is not.
-/

namespace Purse.Remote

/-- Whether a text is a number of 64 bits with a sign. -/
def isSpaceNumber (cs : List Char) : Bool :=
  match cs with
  | '-' :: digits => (Positional.readDecimal? digits).any (· ≤ 1 <<< 63)
  | '+' :: digits => (Positional.readDecimal? digits).any (· < 1 <<< 63)
  | digits => (Positional.readDecimal? digits).any (· < 1 <<< 63)

/-- The part of a path between the slashes at its ends. -/
def innerPath (path : String) : List Char :=
  ((path.toList.dropWhile (· == '/')).reverse.dropWhile (· == '/')).reverse

/-- Whether a text that is written with percent signs is text. -/
def isText (written : String) : Bool := (Utf8.firstFlaw? (Percent.decode written)).isNone

/-- The name of a host, as connections are made to it. -/
def hostName : Host → String
  | .address128 text => text
  | host => host.text

/-- The place of a key server at a host. -/
def keyHostEndpoint (url : Url) : Except KeyFault Endpoint :=
  match url.host with
  | none => .error (.misnamed "Missing hostname")
  | some host =>
    let space := innerPath url.path.text
    if url.scheme = "rediss" then
      .error (.misnamed "can't connect with TLS, the feature is not enabled")
    else if !space.isEmpty && !isSpaceNumber space then .error (.misnamed "Invalid database number")
    else if !isText url.user then .error (.misnamed "Username is not valid UTF-8 string")
    else if !(url.password.all isText) then .error (.misnamed "Password is not valid UTF-8 string")
    else .ok (.host (hostName host) (url.port.getD 6379))

/-- The file that a locator leads to, if it leads to one on this machine. -/
def filePath? (url : Url) : Option (List UInt8) :=
  match url.host, url.path with
  | none, .steps (n :: ns) | some (.name "localhost"), .steps (n :: ns) =>
    some ((n :: ns).flatMap fun name => 0x2F :: Percent.decode name)
  | _, _ => none

/-- The last value that a query gives to a name. -/
def queryValue? (url : Url) (name : String) : Option String :=
  (Percent.pairs (url.query.getD "")).reverse.lookup name

/-- The place of a key server behind a socket. -/
def keySocketEndpoint (url : Url) : Except KeyFault Endpoint :=
  match filePath? url with
  | none => .error (.misnamed "Missing path")
  | some path =>
    if (queryValue? url "db").all (isSpaceNumber ·.toList) then .ok (.socket path)
    else .error (.misnamed "Invalid database number")

/-- The place of the key server. -/
def keyServerEndpoint (url? : Option String) : Result Endpoint :=
  match url? with
  | none => .error (.internal "redis url is not configured")
  | some text =>
    match Url.parse text with
    | .error _ => .error (KeyFault.misnamed "Redis URL did not parse").toError
    | .ok url =>
      if url.scheme ∈ ["redis", "rediss"] then
        (keyHostEndpoint url).mapError KeyFault.toError
      else if url.scheme ∈ ["unix", "redis+unix"] then
        (keySocketEndpoint url).mapError KeyFault.toError
      else .error (KeyFault.misnamed "Redis URL did not parse").toError

end Purse.Remote
