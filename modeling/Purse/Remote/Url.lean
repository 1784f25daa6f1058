import Purse.Remote.Host

/-!
# Locators

A uniform resource locator in its parts: the scheme, a user with a password, the host and the port, the
path, and the query. Control characters and spaces at the ends of the text do not count, nor do tabs
and line ends anywhere. The host comes after two slashes, and after the user if there is one; where there
is no host, nothing that goes with a host may be there either. A path is a list of steps, of which those
that mean "here" and "up" are carried out. Only a path without a slash before it, in a locator without a
host, is a text of its own. In the schemes of the web a backslash is a slash, and there has to be a host.
-/

namespace Purse.Remote

/-- Why a text is no locator. -/
inductive UrlError where
  /-- There is no scheme. -/
  | relative
  /-- There is a user or a port and no host, or no host where there has to be one. -/
  | emptyHost
  /-- The host is none. -/
  | invalidHost (e : HostError)
  /-- The port is no number, or too large a one. -/
  | invalidPort
  deriving DecidableEq, Repr

/-- The error as a person reads it. -/
def UrlError.message : UrlError → String
  | relative => "relative URL without a base"
  | emptyHost | invalidHost .empty => "empty host"
  | invalidHost .invalidCharacter => "invalid domain character"
  | invalidHost .invalidName => "invalid international domain name"
  | invalidHost .invalidAddress32 => "invalid IPv4 address"
  | invalidHost .invalidAddress128 => "invalid IPv6 address"
  | invalidPort => "invalid port number"

/-- A path. -/
inductive UrlPath where
  /-- Steps, with a slash before each. -/
  | steps (names : List String)
  /-- A text that no slash opens. -/
  | rootless (text : String)
  deriving DecidableEq, Repr

/-- The path as a text. -/
def UrlPath.text : UrlPath → String
  | steps names => String.join (names.map ("/" ++ ·))
  | rootless text => text

/-- A uniform resource locator. -/
structure Url where
  scheme : String
  user : String
  password : Option String
  host : Option Host
  port : Option Nat
  path : UrlPath
  query : Option String
  deriving DecidableEq, Repr

namespace Url

/-! ## The scheme -/

/-- The characters that are passed over at either end. -/
def isMargin (c : Char) : Bool := c.toNat ≤ 0x20

/-- The characters that are passed over anywhere. -/
def isFold (c : Char) : Bool := c == '\t' || c == '\n' || c == '\r'

/-- The characters of a locator that count. -/
def significant (cs : List Char) : List Char :=
  (((cs.dropWhile isMargin).reverse.dropWhile isMargin).reverse).filter (!isFold ·)

/-- Whether a character may stand in a scheme, after the first letter. -/
def isSchemeChar (c : Char) : Bool := c.isAlphanum || c == '+' || c == '-' || c == '.'

/-- Takes the scheme off, in small letters. -/
def takeScheme? (cs : List Char) : Option (String × List Char) :=
  match cs.takeWhile isSchemeChar, cs.dropWhile isSchemeChar with
  | c :: scheme, ':' :: rest =>
    if c.isAlpha then some (String.ofList ((c :: scheme).map Char.toLower), rest) else none
  | _, _ => none

/-- How locators of a scheme are read. -/
inductive Manner where
  | general
  | web
  | file
  deriving DecidableEq, Repr

/-- The ports of the schemes of the web. -/
def webPorts : List (String × Nat) :=
  [("http", 80), ("https", 443), ("ws", 80), ("wss", 443), ("ftp", 21)]

/-- The manner of a scheme. -/
def Manner.ofScheme (scheme : String) : Manner :=
  if scheme = "file" then file else if (webPorts.lookup scheme).isSome then web else general

/-- Whether a character is a slash. -/
def Manner.isSlash (m : Manner) (c : Char) : Bool := c == '/' || (c == '\\' && m != .general)

/-! ## What comes with a host -/

/-- Whether a character ends the host and all that goes with it. -/
def Manner.endsAuthority (m : Manner) (c : Char) : Bool := m.isSlash c || c == '?' || c == '#'

/-- What stands before the last at sign and what stands behind it, if there is one. -/
def cutAtUser? (cs : List Char) : Option (List Char × List Char) :=
  if cs.contains '@' then
    let behind := (cs.reverse.takeWhile (· ≠ '@')).reverse
    some (cs.take (cs.length - behind.length - 1), behind)
  else none

/-- A user and a password, with a colon between them. An empty password is none. -/
def readUser (cs : List Char) : String × Option String :=
  let (user, password) := Percent.cutAt ':' cs
  (String.ofList user, if password.isEmpty then none else some (String.ofList password))

/-- Cuts at the first colon outside brackets; the colon goes with the second part. -/
def cutAtPort (inBrackets : Bool) : List Char → List Char × List Char
  | [] => ([], [])
  | c :: cs =>
    if c == ':' && !inBrackets then ([], c :: cs)
    else
      let cut := cutAtPort (if c == '[' then true else if c == ']' then false else inBrackets) cs
      (c :: cut.1, cut.2)

/-- Reads a port from behind its colon. No digits are no port, and so is the port that the scheme has
anyway. -/
def readPort (scheme : String) (cs : List Char) : Except UrlError (Option Nat) :=
  if cs.isEmpty then .ok none
  else match Positional.readDecimal? cs with
    | none => .error .invalidPort
    | some n =>
      if 65536 ≤ n then .error .invalidPort
      else .ok (if webPorts.lookup scheme = some n then none else some n)

/-- What comes with a host. -/
structure Authority where
  user : String
  password : Option String
  host : Option Host
  port : Option Nat
  deriving DecidableEq, Repr

/-- No host, and nothing that goes with it. -/
def Authority.absent : Authority := ⟨"", none, none, none⟩

/-- Reads the host. An empty one is none, except on the web. -/
def readHost (m : Manner) (cs : List Char) : Except UrlError (Option Host) :=
  if cs.isEmpty then (if m == .web then .error .emptyHost else .ok none)
  else (((if m == .web then Host.readOnWeb cs else Host.read cs)).map some).mapError .invalidHost

/-- Reads a host and a port. -/
def readPlace (scheme : String) (cs : List Char) : Except UrlError (Option Host × Option Nat) :=
  match readHost (.ofScheme scheme) (cutAtPort false cs).1, (cutAtPort false cs).2 with
  | .error e, _ => .error e
  | .ok host, [] => .ok (host, none)
  | .ok none, _ => .error .emptyHost
  | .ok host, _ :: digits => (readPort scheme digits).map (host, ·)

/-- Reads a user, a host and a port. Whether something follows them tells whether a lone at sign will
do. -/
def readAuthority (scheme : String) (isAll : Bool) (cs : List Char) : Except UrlError Authority :=
  match cutAtUser? cs with
  | none => (readPlace scheme cs).map fun (host, port) => ⟨"", none, host, port⟩
  | some (before, behind) =>
    let (user, password) := readUser before
    let isLone := before.isEmpty && behind.isEmpty && !isAll
    match readPlace scheme behind with
    | .error e => .error e
    | .ok (host, port) =>
      if isLone || (host.isNone && !(user.isEmpty && password.isNone)) then .error .emptyHost
      else .ok ⟨user, password, host, port⟩

/-! ## What follows the host -/

/-- The names of the step that leads nowhere. -/
def isHere (name : String) : Bool := name.toLower ∈ [".", "%2e"]

/-- The names of the step back. -/
def isUp (name : String) : Bool := name.toLower ∈ ["..", ".%2e", "%2e.", "%2e%2e"]

/-- Carries out the steps of a path, given those taken so far, the last one first. Where the last step
leads nowhere or back, the path ends in a slash. -/
def walk (taken : List String) : List String → List String
  | [] => taken.reverse
  | name :: names =>
    let arrived := if names.isEmpty then [""] else []
    if isUp name then walk (arrived ++ taken.drop 1) names
    else if isHere name then walk (arrived ++ taken) names
    else walk (name :: taken) names

/-- Reads a path. It has a slash before it, or there is none. -/
def readSteps (m : Manner) (cs : List Char) : UrlPath :=
  let inner := match cs with
    | c :: rest => if m.isSlash c then rest else c :: rest
    | [] => []
  let slashed := inner.map fun c => if m.isSlash c then '/' else c
  if cs.isEmpty && m == .general then .steps []
  else .steps (walk [] ((Host.parts '/' slashed).map String.ofList))

/-- Whether a character ends the path. -/
def endsPath (c : Char) : Bool := c == '?' || c == '#'

/-- The query in what follows the path. -/
def readQuery? (cs : List Char) : Option String :=
  match cs with
  | '?' :: rest => some (String.ofList (rest.takeWhile (· ≠ '#')))
  | _ => none

/-- The locator of a scheme, a host and what follows it. -/
def assemble (scheme : String) (a : Authority) (path : List Char → UrlPath) (rest : List Char) : Url :=
  ⟨scheme, a.user, a.password, a.host, a.port, path (rest.takeWhile (!endsPath ·)),
    readQuery? (rest.dropWhile (!endsPath ·))⟩

/-! ## The whole -/

/-- How many characters belong to the host and what goes with it. A backslash ends a port in any
scheme. -/
def authorityLength (m : Manner) (cs : List Char) : Nat :=
  let all := cs.takeWhile (!m.endsAuthority ·)
  let place := ((cutAtUser? all).map Prod.snd).getD all
  all.length - ((cutAtPort false place).2.dropWhile (· ≠ '\\')).length

/-- Reads a locator from behind the two slashes. -/
def readFromHost (scheme : String) (cs : List Char) : Except UrlError Url :=
  let m := Manner.ofScheme scheme
  let n := authorityLength m cs
  (readAuthority scheme (cs.drop n).isEmpty (cs.take n)).map fun a =>
    assemble scheme a (readSteps m) (cs.drop n)

/-- Whether a text is a letter and a colon, which names a drive and no host. -/
def isDrive (cs : List Char) : Bool :=
  match cs with
  | [c, d] => c.isAlpha && (d == ':' || d == '|')
  | _ => false

/-- Reads a locator of a file from behind the scheme. -/
def readFile (scheme : String) (cs : List Char) : Except UrlError Url :=
  match cs with
  | a :: b :: rest =>
    if Manner.file.isSlash a && Manner.file.isSlash b then
      let host := rest.takeWhile (!Manner.file.endsAuthority ·)
      let path := rest.dropWhile (!Manner.file.endsAuthority ·)
      if host.isEmpty || isDrive host then .ok (assemble scheme .absent (readSteps .file) rest)
      else match Host.readOnWeb host with
        | .error e => .error (.invalidHost e)
        | .ok host =>
          let host? := if host = .name "localhost" then none else some host
          .ok (assemble scheme ⟨"", none, host?, none⟩ (readSteps .file) path)
    else .ok (assemble scheme .absent (readSteps .file) cs)
  | _ => .ok (assemble scheme .absent (readSteps .file) cs)

/-- Reads a locator. -/
def parse (text : String) : Except UrlError Url :=
  match takeScheme? (significant text.toList) with
  | none => .error .relative
  | some (scheme, rest) =>
    match Manner.ofScheme scheme, rest with
    | .file, _ => readFile scheme rest
    | .web, _ => readFromHost scheme (rest.dropWhile Manner.web.isSlash)
    | .general, '/' :: '/' :: rest => readFromHost scheme rest
    | .general, '/' :: rest => .ok (assemble scheme .absent (readSteps .general) ('/' :: rest))
    | .general, _ => .ok (assemble scheme .absent (fun cs => .rootless (String.ofList cs)) rest)

end Url

end Purse.Remote
