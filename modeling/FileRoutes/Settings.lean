import FileRoutes.Text.Integer
import FileRoutes.Text.Split

/-! # Settings

What the environment decides (`Environment`), read at the time of use. Blanks around a value do not
count; a value that cannot be read stands for the default. -/

namespace FileRoutes

/-- The values of the environment that matter; `none` for one that is not set. -/
structure Environment where
  /-- The routes root that bounds what may be analysed. -/
  routesDir : Option String
  /-- How many files are analysed at once. -/
  maxWorkers : Option String
  /-- Whether options are read when a request does not say so. -/
  includeOptions : Option String
  /-- How much is logged. -/
  logLevel : Option String
  /-- The origins from which the service may be called. -/
  allowedOrigins : Option String
  deriving DecidableEq, Repr

/-- How much is logged. -/
inductive LogLevel where
  | debug
  | info
  | warning
  | error
  | critical
  deriving DecidableEq, Repr

/-- The environment in which nothing is set. -/
def Environment.empty : Environment := ⟨none, none, none, none, none⟩

namespace LogLevel

/-- All levels. -/
def all : List LogLevel := [debug, info, warning, error, critical]

/-- The word for a level. -/
def word : LogLevel → String
  | debug => "DEBUG"
  | info => "INFO"
  | warning => "WARNING"
  | error => "ERROR"
  | critical => "CRITICAL"

/-- A character in capitals, as far as the words for levels are concerned: beside the small letters
of ASCII, the dotless i has a capital among their letters. -/
def capital (c : Char) : Char :=
  if c = '\u0131' then 'I' else c.toUpper

/-- The level that a word stands for, whatever its casing. -/
def ofWord? (word : String) : Option LogLevel :=
  all.find? fun level => word.toList.map capital == level.word.toList

end LogLevel

namespace Environment

/-- The words that switch a flag on, in small letters. -/
def yesWords : List String := ["1", "true", "yes", "on"]

/-- Whether a value switches a flag on. A value that is not set does not. -/
def isYes (value : Option String) : Bool :=
  let word := String.ofList ((Text.trim (value.getD "").toList).map Char.toLower)
  yesWords.contains word

/-- The default routes root; `none` when it is not set or blank. -/
def defaultRoot (environment : Environment) : Option String :=
  match Text.trimmed (environment.routesDir.getD "") with
  | "" => none
  | root => some root

/-- The number of workers when nothing says otherwise. -/
def defaultWorkers : Int := 4

/-- The number of workers that is set: at least one. -/
def workers (environment : Environment) : Int :=
  match environment.maxWorkers.map (Text.parseInteger? ·.toList) with
  | some (some count) => max 1 count
  | _ => defaultWorkers

/-- Whether options are read when a request does not say so. -/
def readsOptions (environment : Environment) : Bool :=
  isYes environment.includeOptions

/-- The level of logging. -/
def level (environment : Environment) : LogLevel :=
  (environment.logLevel.bind fun value => LogLevel.ofWord? (Text.trimmed value)).getD .info

/-- The origin that is allowed when none is set. -/
def defaultOrigins : String := "http://localhost:3000"

/-- The allowed origins, which are separated by commas. -/
def origins (environment : Environment) : List String :=
  let value := environment.allowedOrigins.getD defaultOrigins
  (((Text.fields ',' value.toList).map Text.trim).filter (!·.isEmpty)).map String.ofList

end Environment

end FileRoutes
