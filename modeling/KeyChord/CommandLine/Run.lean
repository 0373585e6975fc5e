import KeyChord.CommandLine.Arguments
import KeyChord.Context.Source
import KeyChord.Json.Printer
import KeyChord.Keymap.Layers
import KeyChord.Keymap.Lint
import KeyChord.Resolver.Replay
import KeyChord.Settings.Store
import KeyChord.Text.Case

/-!
# The program

What the program prints for a command line, in an environment and with the files of a disk. Before
it looks at the command line it makes sure that there is a directory for logs, and only warns if
there cannot be one.
-/

namespace KeyChord.CommandLine

/-- What a run of the program comes to. -/
structure Outcome where
  /-- The exit code. -/
  code : Nat := 0
  /-- What goes to standard output. -/
  out : String := ""
  /-- What goes to standard error. -/
  err : String := ""
  deriving DecidableEq

/-- Why a request fails. -/
inductive Failure where
  /-- The keys cannot be read. -/
  | keys (error : KeyError)
  /-- The context cannot be put together. -/
  | context (error : ContextError)
  /-- A keymap file cannot be loaded. -/
  | keymap (path : String) (error : Keymap.LoadError)
  /-- A keymap file has been found wanting. -/
  | problems (count : Nat) (path : String)
  deriving DecidableEq

/-- What is wrong. -/
def Failure.message : Failure → String
  | keys error => error.message
  | context error => error.message
  | keymap path _ => "Failed to load keymap " ++ path
  | problems count path => toString count ++ " problem(s) found in " ++ path

/-- What is behind it, if there is more to say. -/
def Failure.cause? : Failure → Option String
  | keymap _ error => some error.message
  | _ => none

/-- The report of a failure. The cause is indented by four spaces. -/
def Failure.report (f : Failure) : String :=
  "Error: " ++ f.message ++
    (f.cause?.elim "" fun cause =>
      "\n\nCaused by:\n    " ++ "\n    ".intercalate (cause.splitOn "\n")) ++ "\n"

/-- The lines of a text, each with its end. -/
def unlines (lines : List String) : String :=
  String.join (lines.map (· ++ "\n"))

/-! ## Formats -/

/-- The line of a command in a list: a star if the user has changed it, and its category,
keybinding, name and when-clause in columns. -/
def listLine (c : Command) : String :=
  (if c.isCustomized then "*" else " ") ++ Text.padRight 12 c.category ++ " " ++
    Text.padRight 22 (c.effectiveKeys.elim "-" Keybinding.text) ++ " " ++
    Text.padRight 45 c.id ++ " " ++ c.effectiveWhen.elim "" When.Clause.source

/-- The report on a keystroke in JSON. -/
def reportJson (report : Resolver.Report) : Json :=
  .object [
    ("keystroke", .string report.keystroke),
    ("handled", .bool report.resolution.handled),
    ("commandId", .ofText? report.resolution.command),
    ("pending", .ofText? report.pending)]

/-- What is said about a keymap file that has been checked. -/
def checkText (path : String) (keymap : Keymap) (problems : List Keymap.Warning) : String :=
  unlines (problems.map ("warning: " ++ ·.message)) ++
    path ++ ": " ++ toString keymap.commands.length ++ " bindings, " ++
    toString keymap.overrides.length ++ " overrides\n"

/-- What the check of the keymap in a file comes to, given the registry in force. -/
def checkOutcome (path : String) (keymap : Keymap) (known : Registry) : Outcome :=
  let problems := keymap.warnings ++ keymap.unknownOverrides known
  let out := checkText path keymap problems
  if problems.isEmpty then { out }
  else { code := 1, out, err := (Failure.problems problems.length path).report }

/-- What is said of a request that cannot be made out. -/
def usageOutcome (error : UsageError) : Outcome :=
  match error with
  | .help => { out := helpText }
  | .version => { out := error.message ++ "\n" }
  | .helpDue => { code := 2, err := helpText }
  | _ => { code := 2, err := "error: " ++ error.message ++ "\n" }
where
  /-- What the program can be asked for. -/
  helpText : String := unlines [
    "Resolve keyboard shortcuts and chords to command ids",
    "",
    "Usage: chordmap [OPTIONS] <COMMAND>",
    "",
    "Commands:",
    "  resolve  Feed keystrokes through the resolver and print each result",
    "  eval     Evaluate a when-clause against a context",
    "  list     Print the effective keymap",
    "  check    Validate a keymap or override file",
    "  help     Print this message or the help of the given subcommand(s)",
    "",
    "Options:",
    "      --keymap <FILE>  Extra keymap layer applied after the defaults and user overrides",
    "  -h, --help           Print help",
    "  -V, --version        Print version"]

/-! ## Requests -/

variable {m : Type → Type} [Monad m]

/-- The context that a request asks for. -/
def ContextSource.load (disk : Disk m) (source : ContextSource) : ExceptT Failure m Context := do
  let file ← source.file.mapM fun path => return (path, ← disk.readText path)
  ExceptT.mk (pure ((Context.ofSources file source.assignments).mapError .context))

/-- The keymap of a file that has to be there. -/
def loadKeymap (disk : Disk m) (path : String) : ExceptT Failure m Keymap :=
  ExceptT.mk (Except.mapError (.keymap path) <$> Keymap.load disk path)

/-- The resolver of all keymap files, with the user's settings. -/
def loadResolver (disk : Disk m) (env : Environment) (keymap : Option String) :
    ExceptT Failure m Resolver := do
  let registry ← ExceptT.lift (Registry.load disk env)
  let registry ← match keymap with
    | some path => registry.merge <$> loadKeymap disk path
    | none => pure registry
  let settings ← ExceptT.lift (Settings.load disk env)
  return settings.resolver registry

/-- Feeds keystrokes to the resolver. -/
def runResolve (disk : Disk m) (env : Environment) (keymap : Option String) (keys : List String)
    (source : ContextSource) (delay : UInt64) (json : Bool) : ExceptT Failure m Outcome := do
  let keystrokes ← ExceptT.mk (pure ((Keystroke.readAll keys).mapError .keys))
  let context ← source.load disk
  let resolver ← loadResolver disk env keymap
  let reports := (resolver.replay context delay.toNat 0 keystrokes).1
  if json then return { out := (Json.array (reports.map reportJson)).pretty ++ "\n" }
  else return { out := unlines (reports.map Resolver.Report.line) }

/-- Evaluates a when-clause. One that cannot be read does not hold. -/
def runEval (disk : Disk m) (clause : String) (source : ContextSource) :
    ExceptT Failure m Outcome := do
  let context ← source.load disk
  match When.parse clause with
  | .ok expr => return { out := toString (expr.eval context) ++ "\n" }
  | .error error =>
    return { out := "false\n", err := "invalid when-clause: " ++ error.message ++ "\n" }

/-- Lists the commands, or those of a category in any letter case. -/
def runList (disk : Disk m) (env : Environment) (keymap : Option String)
    (category : Option String) : ExceptT Failure m Outcome := do
  let resolver ← loadResolver disk env keymap
  let listed := resolver.registry.commands.filter fun c =>
    category.all (Text.equalIgnoringCase c.category)
  return { out := unlines (listed.map listLine) }

/-- Checks a keymap file. Overrides are checked against the keymap in force. -/
def runCheck (disk : Disk m) (env : Environment) (path : String) :
    ExceptT Failure m Outcome := do
  let keymap ← loadKeymap disk path
  let known ← ExceptT.lift (Registry.load disk env)
  return checkOutcome path keymap known

/-- Does what is asked for. -/
def answer (disk : Disk m) (env : Environment) (arguments : Arguments) : m Outcome := do
  let result ← match arguments.request with
    | .resolve keys source delay json =>
      runResolve disk env arguments.keymap keys source delay json
    | .eval clause source => runEval disk clause source
    | .list category => runList disk env arguments.keymap category
    | .check path => runCheck disk env path
  match result with
  | .ok outcome => return outcome
  | .error failure => return { code := 1, err := failure.report }

/-- Runs the program on the words of a command line. -/
def run (disk : Disk m) (env : Environment) (words : List String) : m Outcome := do
  let warning := match ← env.ensureLogsDir disk with
    | .ok _ => ""
    | .error error => "Warning: Could not initialize file logging: " ++ error.message ++ "\n"
  let outcome ← match Arguments.read words with
    | .ok arguments => answer disk env arguments
    | .error error => pure (usageOutcome error)
  return { outcome with err := warning ++ outcome.err }

end KeyChord.CommandLine
