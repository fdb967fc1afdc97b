import LooseData.Command.Libraries
import LooseData.Json.Writer
import LooseData.Path.Resolver
import LooseData.Tag.Parser

set_option autoImplicit false

/-! # Running the program

The program evaluates a tagged text, resolves a path, or shows the settings. A run reads its
arguments, loads the settings, and answers the request. The arguments are read in two steps, because
the settings are loaded in between: `Invocation.read` finds the log level and the command, and
`Verb.read` reads the arguments of the command. `run` says how a run ends from what surrounds it and
its arguments alone.
-/

namespace LooseData.Command

variable (l : Libraries)

/-! ## Requests -/

/-- How a value is written. -/
inductive Format where
  | text
  | json
deriving DecidableEq

/-- The format that is asked for. -/
def Given.format (g : Given) : Format := if (g.value? jsonName).isSome then .json else .text

/-- What the program is asked to do. -/
inductive Request where
  /-- Evaluate a tagged text. -/
  | parse (text : String) (config state : Option FilePath) (format : Format)
  /-- Resolve a path. -/
  | resolve (path : String) (file : Option FilePath) (format : Format)
  /-- Show all settings or those of a section. -/
  | showConfig (place : Option String) (format : Format)
deriving DecidableEq

/-- What is asked for before the settings are known: a level, a command and its arguments. -/
structure Invocation where
  level : Option String
  verb : Verb
  arguments : List String

/-- What the arguments of the program ask for. -/
def Invocation.read (s : Surroundings) (arguments : List String) : Except Ending Invocation := do
  let (given, verb, rest) ← l.readGroup program s arguments
  pure ⟨given.value? levelName, verb, rest⟩

/-- The request of a command. -/
def Verb.read (s : Surroundings) (verb : Verb) (arguments : List String) :
    Except Ending Request :=
  match verb with
  | .parse => do
    let given ← l.readForm parseForm s arguments
    pure (.parse given.argument (given.file? "--config") (given.file? "--state") given.format)
  | .resolve => do
    let given ← l.readForm resolveForm s arguments
    pure (.resolve given.argument (given.file? "--file") given.format)
  | .config => do
    let (_, _, rest) ← l.readGroup configGroup s arguments
    let given ← l.readForm showForm s rest
    pure (.showConfig (given.value? "--section") given.format)

/-! ## Writing values -/

/-- The value as a text of its own. -/
def textOf (v : Value) : String :=
  match v with
  | .atom (.text s) => s
  | v => l.layOut v

/-- The value in a format. -/
def Format.write (format : Format) (v : Value) : Except Fault String :=
  match format with
  | .text => .ok (textOf l v)
  | .json => Json.write v

/-- The ending that answers with a value. -/
def answerWith (format : Format) (v : Value) : Ending :=
  match format.write l v with
  | .ok s => .answered (s ++ "\n") ""
  | .error fault => .failed fault

/-! ## Answering requests -/

/-- The value in a data file. -/
def dataIn (s : Surroundings) (path : FilePath) : Except Ending Value :=
  match s.look path with
  | .file text => match l.reader text with
    | .ok (some v) => .ok v
    | .ok none => .error (.refused (.malformedData path.toText))
    | .error fault => .error (.failed fault)
  | _ => .error (.refused (.unreadableData path.toText))

/-- The value in a data file, or another value if there is no file. -/
def valueOr (s : Surroundings) (file : Option FilePath) (other : Value) : Except Ending Value :=
  match file with
  | some path => dataIn l s path
  | none => .ok other

/-- Whether a fault lies in the value of a text or a number, so that a parsed text is refused for
it. -/
def isRefused : Fault → Bool
  | .notDecimal _ | .numeralTooLong _ | .integerTooLong | .notAPair | .byteOutOfRange | .json _
  | .undecodable | .tooDeep .. | .emptyTag | .invalidLevel .. | .reported _ => true
  | _ => false

/-- The ending of a parse of a text. -/
def endingOfParse (text : String) (format : Format) : Except Fault Value → Ending
  | .ok v => answerWith l format v
  | .error fault =>
    if isRefused fault then .refused (.unparsable text fault) else .failed fault

/-- The ending of a lookup. -/
def endingOfLookup (format : Format) : Except Fault Value → Ending
  | .ok v => answerWith l format v
  | .error fault => .failed fault

/-- Evaluate a text with the handlers that are built in. -/
def evaluate (settings : Settings) (config state : Value) (text : String) : Logged Value := do
  let parser ← Tag.Parser.make state config settings.parsing.maxDepth
  parser.evaluateText (fun _ _ => .fail .notCallable) .standard text

/-- The settings that are shown: all, or those of a section. The empty name stands for all. -/
def shownSettings (settings : Settings) (place : Option String) :
    Except Ending (Table Value) :=
  let all := l.listed settings
  match place.filter fun name => !name.isEmpty with
  | none => .ok all
  | some name => match Table.get? all (.text name) with
    | some v => .ok [(.text name, v)]
    | none => .error (.refused (.unknownSection name))

/-- The warning about settings that are not known. -/
def warningAbout (settings : Settings) : String :=
  match settings.unknownNames with
  | [] => ""
  | names => "Unknown config keys: " ++ commaSeparated names ++ "\n"

/-- The ending that shows settings. -/
def endingOfShow (settings : Settings) (format : Format) (entries : Table Value) : Ending :=
  match format with
  | .text => .answered (l.writeDocument (.dict entries)) (warningAbout settings)
  | .json => match Json.write (.dict entries) with
    | .ok s => .answered (s ++ "\n") (warningAbout settings)
    | .error fault => .failed fault

/-- The answer to a request, and the records written on the way. -/
structure Answer where
  ending : Ending
  records : List Record

/-- The answer that the outcome of a computation leads to. -/
def Answer.of (x : Logged Value) (ending : Except Fault Value → Ending) : Answer :=
  ⟨ending x.result, x.records⟩

/-- The answer to a request. -/
def Request.answer (s : Surroundings) (settings : Settings) : Request → Except Ending Answer
  | .parse text config state format => do
    let config ← valueOr l s config (.dict settings.world)
    let state ← valueOr l s state .null
    pure (.of (evaluate settings config state text) (endingOfParse l text format))
  | .resolve path file format => do
    let data ← valueOr l s file (.dict settings.world)
    pure (.of (data.resolve (.text path)) (endingOfLookup l format))
  | .showConfig place format => do
    let entries ← shownSettings l settings place
    pure ⟨endingOfShow l settings format entries, []⟩

/-! ## Runs -/

/-- The ending for a fault of the settings. -/
def endingOfSettings : Fault → Ending
  | .configFile path problem => .refused (.configuration path problem)
  | fault => .failed fault

/-- The level of a run as it is given: the one asked for, or that of the settings. -/
def Invocation.levelIn (asked : Invocation) (settings : Settings) : Value :=
  (asked.level.map Value.text).getD settings.logging.level

/-- How a run ends, and what it logs: the records from before its level is known, and those that
are important enough for its level. -/
structure Report where
  ending : Ending
  early : List Record
  records : List Record

/-- The answer to a request that is still to be read. -/
def answerWhenRead (s : Surroundings) (settings : Settings) (asked : Invocation) :
    Except Ending Answer := do
  let request ← asked.verb.read l s asked.arguments
  request.answer l s settings

/-- A run of the program. The settings are loaded when the command is known, and the arguments of
the command are read after that. -/
def run [Memory] (s : Surroundings) (arguments : List String) : Report :=
  match Invocation.read l s arguments with
  | .error ending => ⟨ending, [], []⟩
  | .ok asked =>
    let loaded := Settings.load l.reader l.maker s []
    match loaded.result with
    | .error fault => ⟨endingOfSettings fault, loaded.records, []⟩
    | .ok settings => match Logger.configure (asked.levelIn settings) with
      | .error fault => ⟨.failed fault, loaded.records, []⟩
      | .ok logger => match answerWhenRead l s settings asked with
        | .error ending => ⟨ending, loaded.records, []⟩
        | .ok answer =>
          ⟨answer.ending, loaded.records, answer.records.filter logger.level.admits⟩

end LooseData.Command
