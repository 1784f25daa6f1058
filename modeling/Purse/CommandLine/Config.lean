import Purse.Text.Positional

/-!
# Settings

What a run can be set up with, and the value of each setting where nothing is said about it. A setting
is given as a text, by a flag of the command line or by a variable of the environment. `Config.with?`
reads that text: the numbers are bounded by the width of their words, and every other text will do.
-/

namespace Purse

/-- What a run is set up with. -/
structure Config where
  /-- Where the database is; wallets are kept in memory if nowhere. -/
  databaseUrl : Option String
  /-- How many connections to the database may be open at once. -/
  databaseMaxConnections : UInt32
  /-- Where the key server is; keys are kept in memory if nowhere. -/
  keyServerUrl : Option String
  /-- What stands before a key on the key server. -/
  keyPrefix : String
  /-- How long a claim on a key lasts, in seconds. -/
  keyLifetimeSecs : UInt64
  /-- How long a command may wait, in milliseconds. -/
  requestTimeoutMs : UInt64
  deriving DecidableEq, Repr

/-- The settings where nothing is said. -/
def Config.standard : Config where
  databaseUrl := none
  databaseMaxConnections := 10
  keyServerUrl := none
  keyPrefix := "idempotency:"
  keyLifetimeSecs := 86400
  requestTimeoutMs := 5000

instance : Inhabited Config := ⟨Config.standard⟩

/-- How long a claim on a key lasts, in milliseconds. -/
def Config.keyLifetime (c : Config) : Nat := c.keyLifetimeSecs.toNat * 1000

/-- How long a command may wait, in milliseconds. -/
def Config.requestTimeout (c : Config) : Nat := c.requestTimeoutMs.toNat

/-- The name of a setting. -/
inductive Setting where
  | databaseUrl | databaseMaxConnections | keyServerUrl | keyPrefix | keyLifetime | requestTimeout
  deriving DecidableEq, Repr

namespace Setting

/-- The settings, in the order in which the environment is looked through. -/
def all : List Setting :=
  [databaseUrl, databaseMaxConnections, keyServerUrl, keyPrefix, keyLifetime, requestTimeout]

theorem mem_all (s : Setting) : s ∈ all := by cases s <;> decide

/-- The flag that gives a setting, without the two dashes. -/
def flag : Setting → String
  | databaseUrl => "database-url"
  | databaseMaxConnections => "database-max-connections"
  | keyServerUrl => "redis-url"
  | keyPrefix => "idempotency-key-prefix"
  | keyLifetime => "idempotency-ttl-secs"
  | requestTimeout => "request-timeout-ms"

/-- The variable that gives a setting where no flag does. -/
def envName : Setting → String
  | databaseUrl => "DATABASE_URL"
  | databaseMaxConnections => "DATABASE_MAX_CONNECTIONS"
  | keyServerUrl => "REDIS_URL"
  | keyPrefix => "IDEMPOTENCY_KEY_PREFIX"
  | keyLifetime => "IDEMPOTENCY_TTL_SECS"
  | requestTimeout => "REQUEST_TIMEOUT_MS"

/-- The setting of a flag. -/
def ofFlag? (name : String) : Option Setting := all.find? (·.flag == name)

/-- A flag names its setting. -/
theorem ofFlag?_flag (s : Setting) : ofFlag? s.flag = some s := by cases s <;> decide

end Setting

/-! ## Reading values -/

/-- Reads a whole number without a minus sign; a plus sign may stand before it. -/
def readUnsigned? (cs : List Char) : Option Nat :=
  match cs with
  | '+' :: digits => Positional.readDecimal? digits
  | _ => Positional.readDecimal? cs

/-- Reads a word of 64 bits. -/
def readWord64? (text : String) : Option UInt64 := do
  let n ← readUnsigned? text.toList
  if h : n < UInt64.size then some (UInt64.ofNatLT n h) else none

/-- Reads a word of 32 bits. Zero may have a minus sign. -/
def readWord32? (text : String) : Option UInt32 := do
  let n ← match text.toList with
    | '-' :: digits => (Positional.readDecimal? digits).filter (· = 0)
    | cs => readUnsigned? cs
  if h : n < UInt32.size then some (UInt32.ofNatLT n h) else none

/-- The settings with one of them given by a text, if the text reads as a value of it. -/
def Config.with? (c : Config) (s : Setting) (text : String) : Option Config :=
  match s with
  | .databaseUrl => some { c with databaseUrl := some text }
  | .databaseMaxConnections =>
    (readWord32? text).map fun n => { c with databaseMaxConnections := n }
  | .keyServerUrl => some { c with keyServerUrl := some text }
  | .keyPrefix => some { c with keyPrefix := text }
  | .keyLifetime => (readWord64? text).map fun n => { c with keyLifetimeSecs := n }
  | .requestTimeout => (readWord64? text).map fun n => { c with requestTimeoutMs := n }

end Purse
