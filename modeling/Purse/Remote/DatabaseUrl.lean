import Purse.Remote.Endpoint
import Purse.Remote.Statement
import Purse.Text.Quoted
import Purse.Text.Unsigned

/-!
# The locator of the database

A database is at a host or behind a socket, whatever the scheme of its locator is. The socket is named by
the directory that it lies in: as the host, with percent signs, or in the query. The query may give
everything else too, and has the last word; each of its pairs is looked at in turn. Of several flaws the
first one counts, in the order host, user, password, path, query.
-/

namespace Purse.Remote

/-- What a locator says about the way to the database. -/
structure DatabasePlace where
  host : String
  /-- The directory of the socket, which goes before the host. -/
  socket : Option String
  port : Nat
  deriving DecidableEq, Repr

namespace DatabasePlace

/-- The place of which nothing is said. -/
def standard : DatabasePlace := ⟨"localhost", none, 5432⟩

/-- The endpoint. A socket has a name that its port gives. -/
def endpoint (p : DatabasePlace) : Endpoint :=
  match p.socket with
  | some directory => .socket (directory ++ "/.s.PGSQL." ++ toString p.port).toUTF8.toList
  | none => .host p.host p.port

/-- A directory if it opens with a slash, and else a host. -/
def named (p : DatabasePlace) (name : String) : DatabasePlace :=
  if name.startsWith "/" then { p with socket := some name } else { p with host := name }

end DatabasePlace

/-- The text that is written with percent signs. -/
def readText (written : String) : Except String String :=
  let bytes := Percent.decode written
  match Utf8.firstFlaw? bytes with
  | some flaw => .error flaw.message
  | none => .ok (String.ofList (Utf8.readLossy bytes))

/-- How secure a connection may be asked to be. -/
def securityModes : List String :=
  ["disable", "allow", "prefer", "require", "verify-ca", "verify-full"]

/-- Reads a number below a limit. -/
def readNumber (limit : Nat) (text : String) : Except String Nat :=
  (Unsigned.read limit text).mapError NumberFlaw.message

/-- Takes a pair of the query in. -/
def DatabasePlace.take (p : DatabasePlace) (pair : String × String) : Except String DatabasePlace :=
  let (name, value) := pair
  if name ∈ ["sslmode", "ssl-mode"] then
    if securityModes.contains value.toLower then .ok p
    else .error (DatabaseFault.misnamed
      ("unknown value " ++ Quoted.text value ++ " for `ssl_mode`")).message
  else if name = "statement-cache-capacity" then (readNumber (1 <<< 64) value).map fun _ => p
  else if name = "host" then .ok (p.named value)
  else if name = "hostaddr" then
    if Host.isAddress value then .ok { p with host := value } else .error "invalid IP address syntax"
  else if name = "port" then (readNumber 65536 value).map fun port => { p with port }
  else .ok p

/-- The place that the host of a locator names. -/
def DatabasePlace.ofHost (host : Option Host) : Except String DatabasePlace :=
  match host with
  | none => .ok standard
  | some host =>
    if (Percent.decode host.text).head? = some 0x2F then (readText host.text).map standard.named
    else .ok { standard with host := host.text }

/-- The place that a locator names. -/
def DatabasePlace.ofUrl (url : Url) : Except String DatabasePlace := do
  let place ← ofHost url.host
  let _ ← readText url.user
  let _ ← readText (url.password.getD "")
  let _ ← readText (String.ofList (url.path.text.toList.dropWhile (· == '/')))
  (Percent.pairs (url.query.getD "")).foldlM take { place with port := url.port.getD place.port }

/-- The place of the database. -/
def databaseEndpoint (url? : Option String) : Result Endpoint :=
  match url? with
  | none => .error (.internal "database url is not configured")
  | some text =>
    match (Url.parse text).mapError UrlError.message |>.bind DatabasePlace.ofUrl with
    | .error reason => .error (DatabaseFault.misnamed reason).toError
    | .ok place => .ok place.endpoint

end Purse.Remote
