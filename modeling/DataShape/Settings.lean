import DataShape.Text.LetterCase
import DataShape.Traversal

/-! # Settings

Three settings control the engine: whether the derived types of the catalog are defined in the
shared registry, and the level and the format of the log. A setting is taken from the explicit
arguments, else from an environment variable with the setting's name behind a common beginning,
else from a default. The letter case of the names of arguments and variables does not count; of
arguments that name the same setting the first one counts.

A flag is a boolean, one of the words for true and false in any ASCII letter case, or the number
one or zero. A text is a text or a byte string in UTF-8. Arguments of other names are refused;
other variables are ignored.

Arguments whose names start with an underscore say how the settings are read (`ReadingOptions`):
where names of variables begin, whether letter case counts after all, whether empty variables
count, and which text of a variable stands for the empty value. An option of a wrong kind stops the
reading.

* `Settings.read` — the settings, or what is wrong with each of them, by name.
* `logLevelOf` — the level that a level name means. -/

namespace DataShape

/-- The settings of the engine. -/
structure Settings where
  seedDerivedTypes : Bool
  logLevel : String
  logFormat : String
deriving DecidableEq, Repr, Inhabited

namespace Settings

/-- The names of the settings. -/
def names : List String := ["log_format", "log_level", "seed_derived_types"]

/-- The words for true. -/
def trueWords : List String := ["1", "on", "t", "true", "y", "yes"]

/-- The words for false. -/
def falseWords : List String := ["0", "off", "f", "false", "n", "no"]

/-- Read a flag from a text. -/
def flagOfText (s : String) : Except SettingFault Bool :=
  let word := s.map Char.toLower
  if trueWords.contains word then .ok true
  else if falseWords.contains word then .ok false
  else .error .boolParsing

/-- The text of a byte string in UTF-8. -/
def textOfBytes? (bs : List UInt8) : Option String := String.fromUTF8? ⟨bs.toArray⟩

/-- Whether an integer fits into a word of 64 bits with a sign. -/
def fitsWord (n : Int) : Bool := -Int.pow 2 63 ≤ n && n < Int.pow 2 63

/-- Read a flag from a whole number: zero and one are flags. Other numbers cannot be read, and
numbers beyond a word are of the wrong type. -/
def flagOfInt (n : Int) : Except SettingFault Bool :=
  if n = 0 then .ok false
  else if n = 1 then .ok true
  else if fitsWord n then .error .boolParsing
  else .error .boolType

/-- Read a flag from a real number: it must be a whole number strictly between the bounds of a word
with a sign, so the least number that fits as an integer is of the wrong type here. -/
def flagOfReal (x : Binary64) : Except SettingFault Bool :=
  match x.toInt? with
  | some n => if n = -Int.pow 2 63 then .error .boolType else flagOfInt n
  | none => .error .boolType

/-- Read a flag from any value. -/
def flag : Value → Except SettingFault Bool
  | .bool b => .ok b
  | .str s => flagOfText s
  | .bytes bs => match textOfBytes? bs with
    | some s => flagOfText s
    | none => .error .boolParsing
  | .int n => flagOfInt n
  | .float x => flagOfReal x
  | _ => .error .boolType

/-- Read a text; bytes count as the text that they spell, a target as its name. -/
def textSetting : Value → Except SettingFault String
  | .str s => .ok s
  | .bytes bs => match textOfBytes? bs with
    | some s => .ok s
    | none => .error .stringType
  | .target t => .ok t.name
  | _ => .error .stringType

/-! ## Reading -/

/-- How settings are read. -/
structure ReadingOptions where
  /-- How the names of variables begin. -/
  variableStart : String
  /-- Letter case of names counts. -/
  caseCounts : Bool
  /-- Empty variables do not count. -/
  ignoresEmpty : Bool
  /-- The text of a variable that stands for the empty value. -/
  emptyWord : Option String

/-- The names of arguments that say how settings are read. -/
def optionNames : List String :=
  ["_env_prefix", "_case_sensitive", "_env_ignore_empty", "_env_parse_none_str", "_env_file",
   "_env_file_encoding", "_env_nested_delimiter", "_env_nested_max_split", "_env_parse_enums",
   "_nested_model_default_partial_update", "_secrets_dir", "_cli_prog_name", "_cli_parse_args",
   "_cli_settings_source", "_cli_parse_none_str", "_cli_hide_none_type", "_cli_avoid_json",
   "_cli_enforce_required", "_cli_use_class_docs_for_groups", "_cli_exit_on_error",
   "_cli_prefix", "_cli_flag_prefix_char", "_cli_implicit_flags", "_cli_ignore_unknown_args",
   "_cli_kebab_case", "_cli_shortcuts"]

/-- The options that arguments ask for. -/
def optionsOf (start : String) (arguments : List (String × Value)) : ReadingOptions :=
  let text (name : String) : Option String := (Table.get? arguments name).bind Value.text?
  let flag (name : String) : Bool := (Table.get? arguments name).any Value.isTrue
  ⟨(text "_env_prefix").getD start, flag "_case_sensitive", flag "_env_ignore_empty",
    text "_env_parse_none_str"⟩

/-- Whether a value can say how names of variables begin. -/
def isStart : Value → Bool
  | .null => true
  | .str _ => true
  | _ => false

/-- Whether a value can name files or folders. -/
def isPlace : Value → Bool
  | .list _ places => places.all fun v => v.text?.isSome
  | .tuple places => places.all fun v => v.text?.isSome
  | v => isStart v

/-- Whether a value can say how often something is done; what counts as nothing sets no limit. -/
def isLimit : Value → Bool
  | .float _ => true
  | v => !v.isTrue || v.integral?.isSome

/-- Which values the options take that do not take any value. -/
def optionRules : List (String × (Value → Bool)) :=
  [("_env_prefix", isStart), ("_env_file", isPlace), ("_secrets_dir", isPlace),
   ("_env_nested_max_split", isLimit)]

/-- The name that stands for the settings themselves, which no argument can have. -/
def ownName : String := "__pydantic_self__"

/-- Whether arguments can be read at all: none stands for the settings themselves, and the options
have values of their kinds. -/
def areReadable (arguments : List (String × Value)) : Bool :=
  (Table.get? arguments ownName).isNone
    && optionRules.all fun rule => (Table.get? arguments rule.1).all rule.2

/-- Whether a name means a setting. -/
def ReadingOptions.means (o : ReadingOptions) (name setting : String) : Bool :=
  if o.caseCounts then name == setting else Text.lower name == Text.lower setting

/-- The value of an environment variable; of several whose names mean the same the last one
counts. -/
def ReadingOptions.variable? (o : ReadingOptions) (environment : List (String × String))
    (setting : String) : Option Value :=
  let counted := environment.filter fun e => !(o.ignoresEmpty && e.2.isEmpty)
  (counted.reverse.find? fun e => o.means e.1 (o.variableStart ++ setting)).map fun e =>
    if o.emptyWord == some e.2 then .null else .str e.2

/-- The value given for a setting, if any. -/
def ReadingOptions.given? (o : ReadingOptions) (environment : List (String × String))
    (arguments : List (String × Value)) (setting : String) : Option Value :=
  match arguments.find? fun e => o.means e.1 setting with
  | some e => some e.2
  | none => o.variable? environment setting

/-- The fault of one setting, under its name. -/
def issue? {α : Type} (name : String) : Except SettingFault α → Option (String × SettingFault)
  | .ok _ => none
  | .error fault => some (name, fault)

/-- The settings from arguments and environment, or everything that is wrong, sorted by name. -/
def read (start : String) (environment : List (String × String))
    (arguments : List (String × Value)) : Except (List (String × SettingFault)) Settings :=
  let options := optionsOf start arguments
  let arguments := arguments.filter fun e => !optionNames.contains e.1
  let given := options.given? environment arguments
  let seed := (given "seed_derived_types").elim (.ok true) flag
  let level := (given "log_level").elim (.ok "WARNING") textSetting
  let format := (given "log_format").elim (.ok "text") textSetting
  let unknown := (Table.ofEntries arguments).keys.filter fun n => !names.any (options.means n)
  let issues := unknown.map (·, SettingFault.extraForbidden)
    ++ [issue? "log_format" format, issue? "log_level" level,
        issue? "seed_derived_types" seed].filterMap id
  match seed, level, format, issues with
  | .ok seed, .ok level, .ok format, [] => .ok ⟨seed, level, format⟩
  | _, _, _, issues => .error (issues.mergeSort fun a b => a.1 ≤ b.1)

end Settings

/-! ## Logging -/

/-- What a level name stands for. -/
inductive LevelName where
  | level (n : Nat)
  /-- A text that is no level. -/
  | text
  /-- Something that is neither a number nor a text. -/
  | other
deriving DecidableEq, Repr

/-- The names with a meaning of their own. -/
def levelNames : List (String × LevelName) :=
  [("CRITICAL", .level 50), ("FATAL", .level 50), ("ERROR", .level 40), ("WARNING", .level 30),
   ("WARN", .level 30), ("INFO", .level 20), ("DEBUG", .level 10), ("NOTSET", .level 0),
   ("BASIC_FORMAT", .text), ("_STYLES", .other)]

/-- The meaning of a level name in any letter case; a name without a meaning is a warning. -/
def logLevelOf (name : String) : LevelName :=
  (Table.get? levelNames (Text.upper name)).getD (.level 30)

/-- The format that a format name means: one name means JSON and every other name plain text. -/
def logFormatOf (name : String) : LogFormat := if name == "json" then .json else .text

/-- Set up the log with one handler, which takes the place of all earlier ones. -/
def configureLogging (s : Settings) : Action LogSetup :=
  match logLevelOf s.logLevel with
  | .level n => do
      let setup : LogSetup := ⟨n, logFormatOf s.logFormat, 1⟩
      modify fun w => { w with logging := some setup }
      return setup
  | .text => throw (.wrongValue "")
  | .other => throw .wrongType

/-- The settings in force in the world's environment. -/
def readSettings (arguments : List (String × Value)) : Action Settings := do
  if !Settings.areReadable arguments then throw .wrongType
  let w ← get
  match Settings.read w.variableStart w.environment arguments with
  | .ok s => return s
  | .error issues => throw (.settings issues)

/-- Without arguments and variables the defaults hold. -/
theorem Settings.read_nil (start : String) :
    Settings.read start [] [] = .ok ⟨true, "WARNING", "text"⟩ := by
  simp [Settings.read, Settings.ReadingOptions.given?, Settings.ReadingOptions.variable?,
    Settings.issue?, Table.ofEntries]

end DataShape
