import Purse.CommandLine.Config

/-!
# Arguments

A command line names one file and gives settings. `items` takes its words apart, from left to right,
into what each of them is; `Draft.gather` takes the items in, one after the other. A setting whose value is
the next word and a file are taken in only when the next item comes, so that a fault in one of them is
overlooked where a stray word follows. A setting that no flag gives is given by the environment. The main
function is `Invocation.parse`.
-/

namespace Purse

/-- Why a command line cannot be run. -/
inductive UsageError where
  /-- There is no such flag, or a second file is named. -/
  | unknownArgument
  /-- A setting has no value, or the file has no name. -/
  | missingValue
  /-- A value does not read as one of its setting. -/
  | unreadableValue
  /-- A setting is given twice. -/
  | givenTwice
  /-- A value is given to a flag that takes none. -/
  | surplusValue
  /-- No file is named. -/
  | missingFile
  /-- Help is asked for instead, at length or in short. -/
  | helpAsked (atLength : Bool)
  deriving DecidableEq, Repr

/-- What a run is asked to do: replay a file under some settings. -/
structure Invocation where
  file : String
  config : Config
  deriving DecidableEq, Repr

/-! ## Words -/

/-- What a word is, as long as no divider has come before it. -/
inductive Word where
  /-- Two dashes: every word after them is a file. -/
  | divider
  /-- A flag of its own. -/
  | help (atLength : Bool)
  /-- A setting, with its value if the word holds it. -/
  | setting (s : Setting) (value : Option String)
  /-- A word that looks like a flag and is of no use. -/
  | stray (e : UsageError)
  /-- Any other word. -/
  | plain (text : String)
  deriving DecidableEq, Repr

namespace Word

/-- A flag of two dashes, cut at the first equality sign. -/
def ofLong (name : String) (value : Option String) : Word :=
  if name == "help" then
    match value with
    | none => help true
    | some _ => stray .surplusValue
  else match Setting.ofFlag? name with
    | some s => setting s value
    | none => stray .unknownArgument

/-- What follows the first equality sign, if there is one. -/
def valueIn? (cs : List Char) : Option String :=
  match cs.dropWhile (· ≠ '=') with
  | [] => none
  | _ :: value => some (String.ofList value)

/-- Tells what a word is. -/
def read (text : String) : Word :=
  match text.toList with
  | ['-', '-'] => divider
  | '-' :: '-' :: cs => ofLong (String.ofList (cs.takeWhile (· ≠ '='))) (valueIn? cs)
  | '-' :: 'h' :: _ => help false
  | '-' :: _ :: _ => stray .unknownArgument
  | _ => plain text

end Word

/-! ## Items -/

/-- A part of a command line. -/
inductive Item where
  /-- A setting is given. Its value is missing, or in the same word, or the next word. -/
  | setting (s : Setting) (value : Option String) (inOneWord : Bool)
  | file (name : String)
  | help (atLength : Bool)
  | stray (e : UsageError)
  deriving DecidableEq, Repr

/-- A word that is no flag: the file, unless one is named already. -/
def Item.ofPlain (fileNamed : Bool) (text : String) : Item :=
  if fileNamed then .stray .unknownArgument else .file text

/-- The items of the words after a divider. -/
def plainItems : Bool → List String → List Item
  | _, [] => []
  | fileNamed, text :: rest => Item.ofPlain fileNamed text :: plainItems true rest

/-- The items of a command line. -/
def items (fileNamed : Bool) : List String → List Item
  | [] => []
  | text :: rest =>
    match Word.read text with
    | .divider => plainItems fileNamed rest
    | .help atLength => .help atLength :: items fileNamed rest
    | .stray e => .stray e :: items fileNamed rest
    | .plain text => Item.ofPlain fileNamed text :: items true rest
    | .setting s (some value) => .setting s (some value) true :: items fileNamed rest
    | .setting s none =>
      match rest with
      | [] => [.setting s none false]
      | next :: others =>
        match Word.read next with
        | .plain value => .setting s (some value) false :: items fileNamed others
        | _ => .setting s none false :: items fileNamed (next :: others)

/-- Whether an item is taken in only when the next one comes. -/
def Item.waits : Item → Bool
  | setting _ _ inOneWord => !inOneWord
  | file _ => true
  | help _ | stray _ => false

/-- The fault of the first item, if that one is stray. -/
def strayAhead? : List Item → Option UsageError
  | .stray e :: _ => some e
  | _ => none

/-! ## Taking in -/

/-- What has been taken in so far. -/
structure Draft where
  file : Option String
  config : Config
  /-- The settings that flags have given. -/
  given : List Setting
  deriving DecidableEq, Repr

namespace Draft

/-- Nothing taken in. -/
def start : Draft := ⟨none, Config.standard, []⟩

/-- Takes in the value of a setting. -/
def set (d : Draft) (s : Setting) (value : String) : Except UsageError Draft :=
  match d.config.with? s value with
  | some config => .ok { d with config, given := s :: d.given }
  | none => .error .unreadableValue

/-- Takes in an item. -/
def take (d : Draft) : Item → Except UsageError Draft
  | .setting s (some value) _ => if s ∈ d.given then .error .givenTwice else d.set s value
  | .setting _ none _ => .error .missingValue
  | .file name => if name.isEmpty then .error .missingValue else .ok { d with file := some name }
  | .help atLength => .error (.helpAsked atLength)
  | .stray e => .error e

/-- Takes in items in order, up to the first fault. -/
def gather (d : Draft) : List Item → Except UsageError Draft
  | [] => .ok d
  | item :: rest =>
    match (if item.waits then strayAhead? rest else none) with
    | some e => .error e
    | none =>
      match d.take item with
      | .ok d => d.gather rest
      | .error e => .error e

/-- Takes in a setting from the environment, unless a flag has given it. -/
def lookUp (env : String → Option String) (d : Draft) (s : Setting) : Except UsageError Draft :=
  if s ∈ d.given then .ok d
  else match env s.envName with
    | some value => d.set s value
    | none => .ok d

/-- The invocation, once everything has been taken in. -/
def invocation (d : Draft) : Except UsageError Invocation :=
  match d.file with
  | some file => .ok ⟨file, d.config⟩
  | none => .error .missingFile

end Draft

/-- Reads a command line, given the environment. -/
def Invocation.parse (env : String → Option String) (words : List String) :
    Except UsageError Invocation := do
  let d ← Draft.start.gather (items false words)
  let d ← Setting.all.foldlM (Draft.lookUp env) d
  d.invocation

end Purse
