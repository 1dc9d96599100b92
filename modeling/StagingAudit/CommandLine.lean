import StagingAudit.Path
import StagingAudit.Report.Render

/-!
# The command line

The arguments of the program: options that hold for every command, a command, and its own options
and paths. An option may be given once on each side of the command; after it wins over before. A
value follows its option as the next argument, after an equals sign, or directly after the letter;
letters can be put together after one hyphen, and a double hyphen ends the options.
-/

namespace StagingAudit

/-! ## Options -/

/-- The options of the program. -/
inductive Flag where
  /-- say more -/
  | verbose
  /-- the settings file -/
  | config
  /-- the version of the program -/
  | version
  /-- how to use the program -/
  | help
  /-- only models that have changed -/
  | changed
  /-- the project root -/
  | root
  /-- the format of the output -/
  | format
  /-- no advice in the output -/
  | noRemediation
  /-- replace a settings file -/
  | force
  deriving DecidableEq, Repr

namespace Flag

/-- The long name of an option. -/
def long : Flag → String
  | verbose => "verbose"
  | config => "config"
  | version => "version"
  | help => "help"
  | changed => "changed"
  | root => "root"
  | format => "format"
  | noRemediation => "no-remediation"
  | force => "force"

/-- The letter of an option. -/
def short? : Flag → Option Char
  | verbose => some 'v'
  | config => some 'c'
  | version => some 'V'
  | help => some 'h'
  | format => some 'f'
  | changed | root | noRemediation | force => none

/-- Whether an option has a value. -/
def takesValue : Flag → Bool
  | config | root | format => true
  | _ => false

/-- Whether a value is good for an option: a path is not empty, and a format exists. -/
def accepts (f : Flag) (value : String) : Bool :=
  match f with
  | format => (Format.ofName? value).isSome
  | _ => value != ""

end Flag

/-- The commands of the program. -/
inductive Command where
  /-- judge models -/
  | check
  /-- show the rules -/
  | listRules
  /-- write a settings file -/
  | init
  deriving DecidableEq, Repr

namespace Command

/-- The command with a given name. -/
def ofName? : String → Option Command
  | "check" => some check
  | "list-rules" => some listRules
  | "init" => some init
  | _ => none

/-- The options of a command. -/
def flags : Command → List Flag
  | check => [.verbose, .config, .help, .changed, .root, .format, .noRemediation]
  | listRules => [.verbose, .config, .help]
  | init => [.verbose, .config, .help, .force]

/-- The options that stand before the command. -/
def leadingFlags : List Flag := [.verbose, .config, .version, .help]

end Command

/-! ## Reading arguments -/

/-- Why the arguments do not lead to a run. -/
inductive Halt where
  /-- they are wrong -/
  | usage
  /-- the version was asked for -/
  | version
  /-- help was asked for -/
  | help
  deriving DecidableEq, Repr

/-- The options and paths read so far on one side of the command. -/
structure Given where
  /-- options with their values, empty for those that have none -/
  options : List (Flag × String) := []
  /-- paths -/
  paths : List String := []

namespace Given

/-- Whether an option was given. -/
def has (g : Given) (f : Flag) : Bool := (g.options.lookup f).isSome

/-- The value of an option. -/
def value? (g : Given) (f : Flag) : Option String := g.options.lookup f

/-- Takes an option. It must not have been given before; version and help end the reading. -/
def take (g : Given) (f : Flag) (value : String) : Except Halt Given :=
  match f with
  | .version => .error .version
  | .help => .error .help
  | _ =>
    if g.has f || (f.takesValue && !f.accepts value) then .error .usage
    else .ok { g with options := g.options ++ [(f, value)] }

end Given

/-- What an argument looks like. -/
inductive Argument where
  /-- a double hyphen by itself -/
  | endOfOptions
  /-- a long option, with the value after its equals sign -/
  | long (name : List Char) (value : Option (List Char))
  /-- letters after a hyphen -/
  | letters (cs : List Char)
  /-- anything else -/
  | plain (s : String)

/-- Looks at an argument. A lone hyphen is no option. -/
def Argument.ofString (s : String) : Argument :=
  match s.toList with
  | ['-', '-'] => .endOfOptions
  | '-' :: '-' :: cs =>
    match cutAt? ['='] cs with
    | some (name, value) => .long name (some value)
    | none => .long cs none
  | '-' :: c :: cs => .letters (c :: cs)
  | _ => .plain s

/-- Whether an argument can be the value of the option before it. -/
def isValue (s : String) : Bool :=
  match Argument.ofString s with
  | .plain _ => true
  | _ => false

/-- Takes letters that follow one hyphen. An option with a value takes what is left as its value,
after an equals sign if there is one; when nothing is left it is handed back to wait for the next
argument. -/
def takeLetters (flags : List Flag) (g : Given) : List Char → Except Halt (Given × Option Flag)
  | [] => .ok (g, none)
  | c :: cs =>
    match flags.find? fun f => f.short? == some c with
    | none => .error .usage
    | some f =>
      if f.takesValue then
        match cs with
        | [] => .ok (g, some f)
        | '=' :: value => (g.take f (String.ofList value)).map (·, none)
        | value => (g.take f (String.ofList value)).map (·, none)
      else do
        let g ← g.take f ""
        takeLetters flags g cs

/-- Takes one argument. Answers what is given then, and the option that waits for a value. -/
def takeOption (flags : List Flag) (g : Given) (name : List Char) (value : Option (List Char)) :
    Except Halt (Given × Option Flag) :=
  match flags.find? fun f => f.long.toList == name with
  | none => .error .usage
  | some f =>
    match f.takesValue, value with
    | true, some v => (g.take f (String.ofList v)).map (·, none)
    | true, none => .ok (g, some f)
    | false, some _ => .error .usage
    | false, none => (g.take f "").map (·, none)

/-- Takes a path. -/
def takePath (g : Given) (s : String) : Except Halt Given :=
  if s = "" then .error .usage else .ok { g with paths := g.paths ++ [s] }

/-- Reads the arguments after the command. `waiting` is an option without its value yet, and
`closed` says that the options have ended. -/
def readTrailing (flags : List Flag) (paths : Bool) :
    Given → Option Flag → Bool → List String → Except Halt Given
  | g, none, _, [] => .ok g
  | _, some _, _, [] => .error .usage
  | g, some f, closed, s :: args =>
    if isValue s then do
      let g ← g.take f s
      readTrailing flags paths g none closed args
    else .error .usage
  | g, none, true, s :: args =>
    if paths then do
      let g ← takePath g s
      readTrailing flags paths g none true args
    else .error .usage
  | g, none, false, s :: args =>
    match Argument.ofString s with
    | .endOfOptions => readTrailing flags paths g none true args
    | .long name value => do
      let (g, waiting) ← takeOption flags g name value
      readTrailing flags paths g waiting false args
    | .letters cs => do
      let (g, waiting) ← takeLetters flags g cs
      readTrailing flags paths g waiting false args
    | .plain s =>
      if paths then do
        let g ← takePath g s
        readTrailing flags paths g none false args
      else .error .usage

/-- What the words after `help` lead to: they may name one command, or `help` itself. -/
def helpOn : List String → Halt
  | [] => .help
  | [s] => if s = "help" || (Command.ofName? s).isSome then .help else .usage
  | _ => .usage

/-- Reads the arguments before the command. Answers what they give, the command and the arguments
after it. -/
def readLeading : Given → Option Flag → List String → Except Halt (Given × Command × List String)
  | _, _, [] => .error .usage
  | g, some f, s :: args =>
    if isValue s then do
      let g ← g.take f s
      readLeading g none args
    else .error .usage
  | g, none, s :: args =>
    match Argument.ofString s with
    | .endOfOptions => .error .usage
    | .long name value => do
      let (g, waiting) ← takeOption Command.leadingFlags g name value
      readLeading g waiting args
    | .letters cs => do
      let (g, waiting) ← takeLetters Command.leadingFlags g cs
      readLeading g waiting args
    | .plain s =>
      match Command.ofName? s with
      | some c => .ok (g, c, args)
      | none => .error (if s = "help" then helpOn args else .usage)

/-! ## Invocations -/

/-- How models are judged. -/
structure CheckArguments where
  /-- the models or directories, if any are named -/
  paths : List Path := []
  /-- only models that have changed -/
  changed : Bool := false
  /-- the project root -/
  root : Option Path := none
  /-- the format of the output -/
  format : Format := .text
  /-- whether the output gives advice -/
  remediation : Bool := true
  deriving DecidableEq, Repr

/-- What the program is asked to do. -/
inductive Task where
  /-- judge models -/
  | check (args : CheckArguments)
  /-- show the rules -/
  | listRules
  /-- write a settings file, over one that is there if `force` holds -/
  | init (force : Bool)
  deriving DecidableEq, Repr

/-- What the arguments of the program say. -/
structure Invocation where
  /-- whether to say more -/
  verbose : Bool := false
  /-- the settings file -/
  config : Option Path := none
  /-- what to do -/
  task : Task
  deriving DecidableEq, Repr

/-- What the options and paths of a command ask for. Changed models and named paths exclude each
other. -/
def Given.task? (g : Given) : Command → Except Halt Task
  | .check =>
    if g.has .changed && !g.paths.isEmpty then .error .usage
    else
      .ok (.check {
        paths := g.paths.map .ofString
        changed := g.has .changed
        root := (g.value? .root).map .ofString
        format := ((g.value? .format).bind Format.ofName?).getD .text
        remediation := !g.has .noRemediation })
  | .listRules => .ok .listRules
  | .init => .ok (.init (g.has .force))

/-- Reads the arguments of the program. -/
def Invocation.ofArguments (args : List String) : Except Halt Invocation := do
  let (before, command, args) ← readLeading {} none args
  let after ← readTrailing command.flags (command == .check) {} none false args
  let task ← after.task? command
  return {
    verbose := before.has .verbose || after.has .verbose
    config := ((after.value? .config).or (before.value? .config)).map .ofString
    task }

end StagingAudit
