/-
# The command line

The program takes one job file and writes what is asked for: the machine
program, the frame, the job itself or its statistics.  Switches that hold for
every action may stand before or after it, but only once in each place; after
the action they win.
-/

import LaserCut.Document.Job
import LaserCut.Machine.Program
import LaserCut.Settings.File

namespace LaserCut.CommandLine

/-- What the program can do with a job. -/
inductive Action
  | program
  | frame
  | document
  | statistics
  deriving DecidableEq

/-- The word for an action. -/
def Action.name : Action → String
  | program => "gcode"
  | frame => "bbox"
  | document => "export"
  | statistics => "stats"

/-- All actions. -/
def Action.all : List Action :=
  [program, frame, document, statistics]

/-- The action of a word. -/
def Action.ofName? (name : String) : Option Action :=
  all.find? fun action => action.name = name

/-- A switch of the command line. -/
inductive Switch
  | settings
  | verbose
  | exclude
  | help
  | version
  deriving DecidableEq

namespace Switch

/-- The long form of a switch. -/
def long : Switch → String
  | settings => "settings"
  | verbose => "verbose"
  | exclude => "exclude"
  | help => "help"
  | version => "version"

/-- The short form of a switch. -/
def short : Switch → Char
  | settings => 's'
  | verbose => 'v'
  | exclude => 'e'
  | help => 'h'
  | version => 'V'

/-- Whether a switch has a value. -/
def takesValue : Switch → Bool
  | settings => true
  | exclude => true
  | _ => false

/-- The switches that are known before the action, and after it. -/
def known : Option Action → List Switch
  | none => [settings, verbose, help, version]
  | some .document => [settings, verbose, exclude, help]
  | some _ => [settings, verbose, help]

end Switch

/-- Why nothing is done to a job. -/
inductive Refusal
  /-- The arguments make no command. -/
  | usage
  | help
  | version
  deriving DecidableEq

/-- What the arguments in one place say. -/
structure Options where
  settings : Option String := none
  verbose : Bool := false
  excluded : List String := []
  job : Option String := none

namespace Options

/-- Sets a switch that has no value. -/
def setFlag (options : Options) : Switch → Except Refusal Options
  | .verbose => if options.verbose then .error .usage else .ok { options with verbose := true }
  | .help => .error .help
  | .version => .error .version
  | _ => .error .usage

/-- Sets a switch that has a value. -/
def setValue (options : Options) (value : String) : Switch → Except Refusal Options
  | .settings =>
      if options.settings.isSome ∨ value.isEmpty then .error .usage
      else .ok { options with settings := some value }
  | .exclude => .ok { options with excluded := options.excluded ++ [value] }
  | _ => .error .usage

/-- Takes the job file; there is one, and only after an action. -/
def setJob (options : Options) (place : Option Action) (value : String) :
    Except Refusal Options :=
  if place.isNone ∨ options.job.isSome ∨ value.isEmpty then .error .usage
  else .ok { options with job := some value }

/-- Sets short switches that stand together.  The last one may still need the
next argument for its value. -/
def setCluster (place : Option Action) (options : Options) :
    List Char → Except Refusal (Options × Option Switch)
  | [] => .ok (options, none)
  | c :: rest =>
      match (Switch.known place).find? fun switch => switch.short = c with
      | none => .error .usage
      | some switch =>
          if switch.takesValue then
            match rest with
            | [] => .ok (options, some switch)
            | '=' :: value =>
                (options.setValue (String.ofList value) switch).map fun o => (o, none)
            | value => (options.setValue (String.ofList value) switch).map fun o => (o, none)
          else
            match options.setFlag switch with
            | .ok options => setCluster place options rest
            | .error refusal => .error refusal

/-- Sets a long switch, with the value that is written behind it if there is
one.  It may still need the next argument for its value. -/
def setLong (place : Option Action) (options : Options) (text : List Char) :
    Except Refusal (Options × Option Switch) :=
  let name := String.ofList (text.takeWhile (· ≠ '='))
  let value := (text.dropWhile (· ≠ '=')).drop 1
  let hasValue := text.contains '='
  match (Switch.known place).find? fun switch => switch.long = name with
  | none => .error .usage
  | some switch =>
      if switch.takesValue then
        if hasValue then (options.setValue (String.ofList value) switch).map fun o => (o, none)
        else .ok (options, some switch)
      else if hasValue then .error .usage
      else (options.setFlag switch).map fun o => (o, none)

/-- Takes every argument as a job file. -/
def setJobs (place : Option Action) (options : Options) :
    List String → Except Refusal Options
  | [] => .ok options
  | value :: rest =>
      match options.setJob place value with
      | .ok options => setJobs place options rest
      | .error refusal => .error refusal

end Options

/-- Whether an argument has the form of a switch. -/
def isSwitch (arg : String) : Bool :=
  match arg.toList with
  | '-' :: _ :: _ => true
  | _ => false

/-- Reads the arguments in one place.  Before the action, the first argument
that is no switch ends the place and is given back with what follows. -/
def readPlace (place : Option Action) (options : Options) :
    List String → Except Refusal (Options × List String)
  | [] => .ok (options, [])
  | arg :: rest =>
      let switched : Option (Except Refusal (Options × Option Switch)) :=
        match arg.toList with
        | ['-', '-'] => none
        | '-' :: '-' :: text => some (options.setLong place text)
        | '-' :: c :: text => some (options.setCluster place (c :: text))
        | _ => none
      match switched with
      | some (.error refusal) => .error refusal
      | some (.ok (options, none)) => readPlace place options rest
      | some (.ok (options, some switch)) =>
          match rest with
          | [] => .error .usage
          | value :: rest =>
              if isSwitch value then .error .usage
              else
                match options.setValue value switch with
                | .ok options => readPlace place options rest
                | .error refusal => .error refusal
      | none =>
          if arg = "--" then (options.setJobs place rest).map fun o => (o, [])
          else if place.isNone then .ok (options, arg :: rest)
          else
            match options.setJob place arg with
            | .ok options => readPlace place options rest
            | .error refusal => .error refusal

/-- A whole command. -/
structure Command where
  action : Action
  job : String
  settings : Option String
  excluded : List String

/-- Whether arguments ask for help on an action. -/
def asksHelp : List String → Bool
  | [] => true
  | [name] => (Action.ofName? name).isSome || name == "help"
  | _ => false

/-- The command that arguments make. -/
def read (args : List String) : Except Refusal Command := do
  let (before, rest) ← readPlace none {} args
  match rest with
  | [] => throw .usage
  | "help" :: rest => throw (if asksHelp rest then .help else .usage)
  | name :: rest =>
      match Action.ofName? name with
      | none => throw .usage
      | some action =>
          let (after, _) ← readPlace (some action) {} rest
          match after.job with
          | none => throw .usage
          | some job => return ⟨action, job, after.settings.or before.settings, after.excluded⟩

/-- Why a command fails. -/
inductive Failure
  | settings (name : String)
  | file (name : String)
  | job (name : String)
  deriving DecidableEq

/-- The report on a failure. -/
def Failure.message : Failure → String
  | settings name => "Error: Failed to load settings from " ++ name
  | file name => "Error: Failed to read " ++ name
  | job name => "Error: Failed to parse job " ++ name

namespace Command

/-- The settings that a command names, or the default ones. -/
def loadSettings (command : Command) (read : FileReader) : Except Failure Settings :=
  match command.settings with
  | none => .ok .default
  | some name => (Settings.load read name).mapError fun _ => .settings name

/-- The job that a command names. -/
def loadJob (command : Command) (read : FileReader) (settings : Settings) :
    Except Failure Job := do
  let text ← (read command.job).mapError fun _ => .file command.job
  (Job.ofDocument text settings).mapError fun _ => .job command.job

/-- What a command writes about its job. -/
def output (command : Command) (job : Job) : String :=
  match command.action with
  | .program => Machine.encode job.settings job
  | .frame => Machine.encodeFrame job.settings job
  | .document => (job.toJson command.excluded).toCompact ++ "\n"
  | .statistics => job.stats.toJson.toPretty ++ "\n"

/-- Carries a command out.  The settings are loaded before the job. -/
def run (command : Command) (read : FileReader) : Except Failure String := do
  let settings ← command.loadSettings read
  let job ← command.loadJob read settings
  return command.output job

end Command

/-- How the program ends. -/
structure Outcome where
  code : UInt32
  output : String
  failure : Option Failure

/-- The name and the version of the program. -/
def versionText : String :=
  "lasaurkit 0.4.0\n"

/-- Runs the program on its arguments. -/
def run (read : FileReader) (args : List String) : Outcome :=
  match CommandLine.read args with
  | .error .usage => ⟨2, "", none⟩
  | .error .help => ⟨0, "", none⟩
  | .error .version => ⟨0, versionText, none⟩
  | .ok command =>
      match command.run read with
      | .ok output => ⟨0, output, none⟩
      | .error failure => ⟨1, "", some failure⟩

end LaserCut.CommandLine
