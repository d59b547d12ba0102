import CallbackLint.Text.Integer
import CallbackLint.Text.Likeness
import CallbackLint.Text.Quoted
/-!
# The command line

`analyze TARGET` with its options. Arguments are read in one pass; a fault in their form is
reported at the first argument that has one. Then the number of jobs is checked, then the
target, and arguments too many come last.

Options are written `--name value` or `--name=value`, those with a letter also `-l value`
and `-lvalue`, and letters without a value can share one dash. A double dash ends the
options.
-/

namespace CallbackLint

/-- Why a command line was refused. -/
inductive UsageFault where
  | missingCommand
  | noSuchCommand (name : String)
  | noSuchOption (name : String)
  | missingValue (option : String)
  | unwantedValue (option : String)
  | unreadableInteger
  | belowOne
  | missingTarget
  | targetNotFound (path : String)
  | extraArguments (args : List String)
  | targetNotJava (path : String)
  | targetOfOtherSort (path : String)
deriving Repr, DecidableEq, Inhabited

namespace UsageFault

/-- The commands there are. -/
def commands : List String :=
  ["analyze"]

/-- The question put to someone who wrote almost the name of a command. -/
def suggestion (name : String) : String :=
  match commands.filter (Text.isClose · name) with
  | [] => ""
  | close => " Did you mean " ++ ", ".intercalate (close.map Text.quoted) ++ "?"

/-- What the user is told. -/
def message : UsageFault → String
  | .missingCommand => "Missing command."
  | .noSuchCommand name => "No such command " ++ Text.quoted name ++ "." ++ suggestion name
  | .noSuchOption name => "No such option: " ++ name
  | .missingValue option => "Option " ++ Text.quoted option ++ " requires an argument."
  | .unwantedValue option => "Option " ++ Text.quoted option ++ " does not take a value."
  | .unreadableInteger =>
    "Input should be a valid integer, unable to parse string as an integer"
  | .belowOne => "Input should be greater than or equal to 1"
  | .missingTarget => "Missing parameter: target"
  | .targetNotFound path => "path " ++ Text.quoted path ++ " does not exist."
  | .extraArguments args => "Got unexpected extra argument(s) (" ++ " ".intercalate args ++ ")"
  | .targetNotJava path => "Target file must have .java extension, got: " ++ path
  | .targetOfOtherSort path => "Target path is neither a file nor a directory: " ++ path

end UsageFault

namespace CommandLine

/-- The options without a value. -/
inductive Switch where
  | plain
  | verbose
deriving Repr, DecidableEq, Inhabited

/-- The options with a value. -/
inductive Setting where
  | jobs
  | marker
  | callback
  | companionSuffix
deriving Repr, DecidableEq, Inhabited

/-- What an option is. -/
inductive CommandOption where
  | switch (s : Switch)
  | setting (s : Setting)
deriving Repr, DecidableEq, Inhabited

/-- The option of a long name. -/
def longOption? : String → Option CommandOption
  | "--plain" => some (.switch .plain)
  | "--verbose" => some (.switch .verbose)
  | "--jobs" => some (.setting .jobs)
  | "--marker" => some (.setting .marker)
  | "--callback" => some (.setting .callback)
  | "--companion-suffix" => some (.setting .companionSuffix)
  | _ => none

/-- The option of a letter. -/
def shortOption? : Char → Option CommandOption
  | 'v' => some (.switch .verbose)
  | 'j' => some (.setting .jobs)
  | _ => none

/-- What the arguments say, as they are read. -/
structure Arguments where
  switches : List Switch := []
  /-- Settings with their values, in the order given. -/
  settings : List (Setting × String) := []
  /-- Arguments that are no options, in the order given. -/
  positional : List String := []
deriving Repr, DecidableEq, Inhabited

namespace Arguments

/-- With one more switch. -/
def addSwitch (a : Arguments) (s : Switch) : Arguments :=
  { a with switches := a.switches ++ [s] }

/-- With one more setting. -/
def addSetting (a : Arguments) (s : Setting) (value : String) : Arguments :=
  { a with settings := a.settings ++ [(s, value)] }

/-- With more arguments that are no options. -/
def addPositional (a : Arguments) (args : List String) : Arguments :=
  { a with positional := a.positional ++ args }

/-- The values given for a setting. -/
def valuesOf (a : Arguments) (s : Setting) : List String :=
  (a.settings.filter (fun e => e.1 == s)).map Prod.snd

/-- The last value given for a setting. -/
def valueOf? (a : Arguments) (s : Setting) : Option String :=
  (a.valuesOf s).getLast?

end Arguments

/-- The name and the value of an option written with an equals sign, or the name alone. -/
def splitValue (arg : String) : String × Option String :=
  match arg.toList.span (· != '=') with
  | (name, _ :: value) => (String.ofList name, some (String.ofList value))
  | (_, []) => (arg, none)

/-- Reads the letters behind a single dash. The last of them may be a setting whose value is
still to come; it is then part of the result. -/
def readLetters (a : Arguments) :
    List Char → Except UsageFault (Arguments × Option (Setting × String))
  | [] => .ok (a, none)
  | c :: cs =>
    let name := String.ofList ['-', c]
    match shortOption? c with
    | none => .error (.noSuchOption name)
    | some (.switch s) => readLetters (a.addSwitch s) cs
    | some (.setting s) =>
      if cs.isEmpty then .ok (a, some (s, name))
      else .ok (a.addSetting s (String.ofList cs), none)

/-- Reads one argument that starts with a dash. A setting whose value is still to come is
part of the result. -/
def readOption (a : Arguments) (arg : String) :
    Except UsageFault (Arguments × Option (Setting × String)) :=
  let (name, value?) := splitValue arg
  match longOption? name with
  | some (.switch s) =>
    match value? with
    | some _ => .error (.unwantedValue name)
    | none => .ok (a.addSwitch s, none)
  | some (.setting s) =>
    match value? with
    | some value => .ok (a.addSetting s value, none)
    | none => .ok (a, some (s, name))
  | none =>
    if arg.toList.take 2 == ['-', '-'] then .error (.noSuchOption name)
    else readLetters a (arg.toList.drop 1)

/-- Whether an argument is written as an option. -/
def isOption (arg : String) : Bool :=
  match arg.toList with
  | '-' :: _ :: _ => true
  | _ => false

/-- Reads the arguments of the command from left to right. -/
def readArguments (a : Arguments) : List String → Except UsageFault Arguments
  | [] => .ok a
  | arg :: args =>
    if arg == "--" then .ok (a.addPositional args)
    else if isOption arg then
      match readOption a arg with
      | .error e => .error e
      | .ok (a', none) => readArguments a' args
      | .ok (a', some (s, name)) =>
        match args with
        | value :: rest => readArguments (a'.addSetting s value) rest
        | [] => .error (.missingValue name)
    else readArguments (a.addPositional [arg]) args

/-- A command to analyse a target. -/
structure Request where
  target : String
  /-- Arguments beyond the target. -/
  extra : List String := []
  plain : Bool := false
  verbose : Bool := false
  jobs : Int := 1
  markers : List String := []
  callback : Option String := none
  companionSuffix : Option String := none
deriving Repr, DecidableEq, Inhabited

/-- The number of jobs: one, unless given as an integer of at least one. -/
def jobsOf (value? : Option String) : Except UsageFault Int :=
  match value? with
  | none => .ok 1
  | some value =>
    match Text.integer? value with
    | none => .error .unreadableInteger
    | some n => if n < 1 then .error .belowOne else .ok n

/-- The request that the arguments of the command make. -/
def requestOf (a : Arguments) : Except UsageFault Request :=
  match jobsOf (a.valueOf? .jobs) with
  | .error e => .error e
  | .ok jobs =>
    match a.positional with
    | [] => .error .missingTarget
    | target :: extra =>
      .ok
        { target := target
          extra := extra
          plain := a.switches.contains .plain
          verbose := a.switches.contains .verbose
          jobs := jobs
          markers := a.valuesOf .marker
          callback := a.valueOf? .callback
          companionSuffix := a.valueOf? .companionSuffix }

/-- Reads what follows the name of the program: the command and its arguments. -/
def readCommand : List String → Except UsageFault Request
  | [] => .error .missingCommand
  | command :: args =>
    if command == "analyze" then
      match readArguments {} args with
      | .ok a => requestOf a
      | .error e => .error e
    else .error (.noSuchCommand command)

/-- Reads a command line. Before the command only a double dash may stand; there is no option
that the program takes without a command. -/
def parse : List String → Except UsageFault Request
  | [] => .error .missingCommand
  | arg :: args =>
    if arg == "--" then readCommand args
    else if isOption arg then
      match arg.toList with
      | '-' :: '-' :: _ => .error (.noSuchOption (splitValue arg).1)
      | _ => .error (.noSuchOption (String.ofList (arg.toList.take 2)))
    else readCommand (arg :: args)

end CommandLine

end CallbackLint
