import Purse.CommandLine.Arguments
import Purse.Text.Plain

/-!
# Help

The text that explains the command line, in short or at length. Every setting is listed with its flag,
what it is for, the variable that gives it with the value that the variable has now, and the value
where nothing is said. In the long form these stand on lines of their own, below each flag. What a
variable holds is set in line by line, and control sequences in it are left out.
-/

namespace Purse

/-- What a setting is for, where that needs saying. -/
def Setting.about : Setting → String
  | databaseUrl => "Postgres connection string; in-memory storage when unset"
  | databaseMaxConnections => ""
  | keyServerUrl => "Redis connection string; in-memory idempotency keys when unset"
  | keyPrefix => ""
  | keyLifetime => "How long a consumed idempotency key blocks retries"
  | requestTimeout => "Deadline applied to every ledger command"

/-- The value of a setting where nothing is said, as a text. -/
def Setting.standardText? : Setting → Option String
  | databaseUrl => Config.standard.databaseUrl
  | databaseMaxConnections => some (toString Config.standard.databaseMaxConnections.toNat)
  | keyServerUrl => Config.standard.keyServerUrl
  | keyPrefix => some Config.standard.keyPrefix
  | keyLifetime => some (toString Config.standard.keyLifetimeSecs.toNat)
  | requestTimeout => some (toString Config.standard.requestTimeoutMs.toNat)

namespace Help

/-- The name under which the program is run. -/
def programName : String := "wallet-ledger"

/-- How the program is called. -/
def usage : String := "Usage: " ++ programName ++ " [OPTIONS] <FILE>"

/-- What the program does. -/
def about : String := "Replays wallet ledger commands from a CSV file"

/-- What the file is. -/
def fileAbout : String := "Path to CSV file with commands"

/-- What the file is, at length. -/
def fileDetail : String :=
  "Expected format: type,user,wallet,to_user,to_wallet,amount,key "
    ++ "Example: cargo run -- commands.csv > wallets.csv"

/-- Below a flag, lines are set in this far. -/
def margin : String := "          "

/-- A line below a flag. A line without text has the margin too. -/
def below (text : String) : String := "\n" ++ margin ++ text

/-- A text of several lines, each but the first one set in. -/
def setIn (text : String) : String := text.replace "\n" ("\n" ++ margin)

/-- Where else the value of a setting comes from: its variable with its value now, and its value where
nothing is said. -/
def origins (env : String → Option String) (s : Setting) : List String :=
  ("[env: " ++ s.envName ++ "=" ++ setIn ((env s.envName).getD "") ++ "]")
    :: (s.standardText?.map fun text => "[default: " ++ text ++ "]").toList

/-- A flag with a name for its value. -/
def flagLine (s : Setting) : String := "      --" ++ s.flag ++ " <" ++ s.envName ++ ">"

/-- A setting in short: one line below its flag. -/
def brief (env : String → Option String) (s : Setting) : String :=
  let words := (if s.about.isEmpty then [] else [s.about]) ++ origins env s
  flagLine s ++ below (" ".intercalate words)

/-- A setting at length. -/
def detailed (env : String → Option String) (s : Setting) : String :=
  let head := if s.about.isEmpty then "" else below s.about ++ below ""
  flagLine s ++ head ++ String.join ((origins env s).map below)

/-- The flag that asks for help. -/
def helpFlag : String := "  -h, --help"

/-- The part of the text before the settings. -/
def opening (file : String) : String :=
  about ++ "\n\n" ++ usage ++ "\n\nArguments:\n  <FILE>" ++ file ++ "\n\nOptions:\n"

/-- The help text, before control sequences are left out. -/
def draft (env : String → Option String) (atLength : Bool) : String :=
  if atLength then
    opening (below fileAbout ++ below "" ++ below fileDetail)
      ++ String.join (Setting.all.map fun s => detailed env s ++ "\n\n")
      ++ helpFlag ++ below "Print help (see a summary with '-h')" ++ "\n"
  else
    opening ("  " ++ fileAbout)
      ++ String.join (Setting.all.map fun s => brief env s ++ "\n")
      ++ helpFlag ++ below "Print help (see more with '--help')" ++ "\n"

/-- The help text. -/
def text (env : String → Option String) (atLength : Bool) : String := Plain.text (draft env atLength)

end Help

end Purse
