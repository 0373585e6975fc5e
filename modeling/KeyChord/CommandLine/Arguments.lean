import KeyChord.CommandLine.Grammar

/-!
# Requests on the command line

There are four subcommands, each with options of its own; the option for another keymap may stand
in front of the subcommand or behind it, and the one behind counts.
-/

namespace KeyChord.CommandLine

/-- Where the context comes from: a file, and assignments on top. -/
structure ContextSource where
  /-- The assignments. -/
  assignments : List String := []
  /-- The file. -/
  file : Option String := none
  deriving DecidableEq

/-- What the user asks for. -/
inductive Request where
  /-- To feed keystrokes to the resolver, with a delay in milliseconds between them. -/
  | resolve (keys : List String) (context : ContextSource) (delay : UInt64) (json : Bool)
  /-- To evaluate a when-clause. -/
  | eval (clause : String) (context : ContextSource)
  /-- To list the commands, or those of a category. -/
  | list (category : Option String)
  /-- To check a keymap file. -/
  | check (file : String)
  deriving DecidableEq

/-- The arguments of the program. -/
structure Arguments where
  /-- A keymap file on top of all others. -/
  keymap : Option String
  /-- What the user asks for. -/
  request : Request
  deriving DecidableEq

/-- The number of milliseconds that a text writes: digits, perhaps behind a plus sign, for a number
below 2⁶⁴. -/
def milliseconds? (text : String) : Option UInt64 :=
  let digits := match text.toList with
    | '+' :: rest => rest
    | cs => cs
  let number := digits.foldl (fun n c => 10 * n + (c.toNat - '0'.toNat)) 0
  if h : number < UInt64.size then
    if !digits.isEmpty && digits.all Char.isDigit then some (UInt64.ofNatLT number h) else none
  else none

/-! ## Values -/

/-- Any text. -/
def anyText (several : Bool) : Takes :=
  .value (fun _ => none) several

/-- A path, which is not empty. -/
def path : Takes :=
  .value (fun text => if text = "" then some .emptyValue else none) false

/-- A number of milliseconds. -/
def milliseconds : Takes :=
  .value (fun text => if (milliseconds? text).isNone then some .invalidValue else none) false

/-! ## Options -/

/-- The option that asks for help. -/
def helpOption : Parameter := { name := "help", letter := some 'h', takes := .stop .help }

/-- The option that asks for the version. -/
def versionOption : Parameter := { name := "version", letter := some 'V', takes := .stop .version }

/-- The option for another keymap. -/
def keymapOption : Parameter := { name := "keymap", takes := path }

/-- The options for the context. -/
def contextOptions : List Parameter := [
  { name := "context", letter := some 'c', takes := anyText true },
  { name := "context-file", takes := path }]

/-! ## Subcommands -/

/-- What may stand in front of the subcommand. -/
def mainGrammar : Grammar where
  options := [keymapOption, helpOption, versionOption]
  subcommands := ["resolve", "eval", "list", "check", "help"]

/-- What may stand behind `resolve`. -/
def resolveGrammar : Grammar where
  options := contextOptions ++ [
    { name := "delay-ms", takes := milliseconds }, { name := "json", takes := .nothing },
    keymapOption, helpOption]
  positional := some { name := "keys", takes := anyText true }

/-- What may stand behind `eval`. -/
def evalGrammar : Grammar where
  options := contextOptions ++ [keymapOption, helpOption]
  positional := some { name := "expr", takes := anyText false }

/-- What may stand behind `list`. -/
def listGrammar : Grammar where
  options := [{ name := "category", takes := anyText false }, keymapOption, helpOption]

/-- What may stand behind `check`. -/
def checkGrammar : Grammar where
  options := [keymapOption, helpOption]
  positional := some { name := "file", takes := path }

/-- What is found on a line without further subcommands. -/
def readAll (g : Grammar) (words : List String) : Except UsageError Found := do
  (← g.scan {} false words).1.settle

/-- The context that the options ask for. -/
def Found.contextSource (f : Found) : ContextSource :=
  ⟨f.valuesOf "context", f.value? "context-file"⟩

/-- The positional word that has to be there. -/
def Found.required (f : Found) (name : String) : Except UsageError String :=
  (f.value? name).elim (.error .missingArgument) .ok

/-- A request for help about a subcommand, which may be named, and nothing else. -/
def helpRequest (words : List String) : UsageError :=
  match words with
  | [] => .help
  | [word] => if mainGrammar.subcommands.contains word then .help else .unknownSubcommand
  | _ => .unknownSubcommand

/-- What is asked for by a subcommand and the words behind it, and what is found there. -/
def readRequest (name : String) (words : List String) : Except UsageError (Request × Found) :=
  match name with
  | "resolve" => do
    let f ← readAll resolveGrammar words
    if !f.isOn "keys" then throw .missingArgument
    let delay := ((f.value? "delay-ms").bind milliseconds?).getD 0
    return (.resolve (f.valuesOf "keys") f.contextSource delay (f.isOn "json"), f)
  | "eval" => do
    let f ← readAll evalGrammar words
    return (.eval (← f.required "expr") f.contextSource, f)
  | "list" => do
    let f ← readAll listGrammar words
    return (.list (f.value? "category"), f)
  | "check" => do
    let f ← readAll checkGrammar words
    return (.check (← f.required "file"), f)
  | _ => .error (helpRequest words)

/-- The arguments that the words of a command line mean. -/
def Arguments.read (words : List String) : Except UsageError Arguments := do
  match ← mainGrammar.scan {} false words with
  | (f, some (name, words)) =>
    let (request, behind) ← readRequest name words
    let f ← f.settle
    return ⟨(behind.value? "keymap").or (f.value? "keymap"), request⟩
  | (f, none) =>
    let f ← f.settle
    throw (if f.values.isEmpty then .helpDue else .noSubcommand)

end KeyChord.CommandLine
