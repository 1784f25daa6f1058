import Purse.Remote.Url

/-!
# Endpoints

Where a server is: at a port of a host, or behind a socket among the files.
-/

namespace Purse.Remote

/-- Where a server is. -/
inductive Endpoint where
  /-- At a port of a host. -/
  | host (name : String) (port : Nat)
  /-- Behind a socket among the files, whose path is any bytes. -/
  | socket (path : List UInt8)
  deriving DecidableEq, Repr

/-- A socket has a path of fewer bytes than this. -/
def Endpoint.maxPath : Nat := 108

/-- Why there cannot be such an endpoint. -/
def Endpoint.flaw? : Endpoint → Option String
  | host _ _ => none
  | socket path =>
    if path.contains 0 then some "paths must not contain interior null bytes"
    else if maxPath ≤ path.length then some "path must be shorter than SUN_LEN"
    else none

end Purse.Remote
