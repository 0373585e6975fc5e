/-!
# The grammar of a command line

The words of a command line are options, the values of options, positional words and the name of a
subcommand. A grammar says which there are, and `Grammar.scan` sorts the words by it.

An option with a value is *pending* until the next option or the end shows that its value is
complete, and is checked only then. So an error further left may be reported only after one further
right: a word that fits nowhere is an error at once.
-/

namespace KeyChord.CommandLine

/-- Why a command line is no request. -/
inductive UsageError where
  /-- The user wants help. -/
  | help
  /-- The user wants to know the version. -/
  | version
  /-- There is nothing on the line, and help is due. -/
  | helpDue
  /-- A word that fits nowhere. -/
  | unknownArgument
  /-- A word in the place of a subcommand that is none. -/
  | unknownSubcommand
  /-- There is no subcommand. -/
  | noSubcommand
  /-- A positional word is missing. -/
  | missingArgument
  /-- An option is given twice. -/
  | repeatedOption
  /-- An option has no value, or an empty one. -/
  | emptyValue
  /-- A value is not of the right form. -/
  | invalidValue
  /-- A switch has a value. -/
  | surplusValue
  deriving DecidableEq, Repr

/-- What is said of a faulty command line. -/
def UsageError.message : UsageError → String
  | help | helpDue => ""
  | version => "chordmap 0.1.0"
  | unknownArgument => "unexpected argument"
  | unknownSubcommand => "unrecognized subcommand"
  | noSubcommand => "a subcommand is required"
  | missingArgument => "a required argument is missing"
  | repeatedOption => "an option cannot be used more than once"
  | emptyValue => "a value is required"
  | invalidValue => "invalid value"
  | surplusValue => "unexpected value"

/-- What an option takes. -/
inductive Takes where
  /-- Nothing: the option is a switch. -/
  | nothing
  /-- Nothing: the option ends the reading of the line. -/
  | stop (error : UsageError)
  /-- A value that passes a check, once or several times. -/
  | value (check : String → Option UsageError) (several : Bool)

/-- An option or a positional word. -/
structure Parameter where
  /-- The name, which an option has behind two hyphens. -/
  name : String
  /-- The letter that an option has behind one hyphen. -/
  letter : Option Char := none
  /-- What it takes. -/
  takes : Takes

/-- What may stand on a command line. -/
structure Grammar where
  /-- The options. -/
  options : List Parameter
  /-- The positional words, which are one or several values of one parameter. -/
  positional : Option Parameter := none
  /-- The subcommands. -/
  subcommands : List String := []

/-- What has been read from a command line. -/
structure Found where
  /-- The values of parameters in order; a switch has an empty one. -/
  values : List (String × String) := []
  /-- The parameter whose values are not complete yet, and those it has. -/
  pending : Option (Parameter × List String) := none
  /-- Whether a positional word has been met. -/
  placed : Bool := false

namespace Found

/-- The values of a parameter. -/
def valuesOf (f : Found) (name : String) : List String :=
  (f.values.filter (·.1 == name)).map (·.2)

/-- The value of a parameter. -/
def value? (f : Found) (name : String) : Option String :=
  f.values.lookup name

/-- Whether a switch is on. -/
def isOn (f : Found) (name : String) : Bool :=
  (f.value? name).isSome

/-- Takes a parameter with all its values. -/
def take (f : Found) (p : Parameter) (values : List String) : Except UsageError Found :=
  match p.takes with
  | .stop error => .error error
  | .nothing =>
    if f.isOn p.name then .error .repeatedOption
    else .ok { f with values := f.values ++ [(p.name, "")] }
  | .value check several =>
    if values.isEmpty then .error .emptyValue
    else if !several && f.isOn p.name then .error .repeatedOption
    else
      match values.findSome? check with
      | some error => .error error
      | none => .ok { f with values := f.values ++ values.map (p.name, ·) }

/-- Takes the pending parameter, if there is one. -/
def settle (f : Found) : Except UsageError Found :=
  match f.pending with
  | none => .ok f
  | some (p, values) => { f with pending := none }.take p values

/-- Takes an option that has no value of its own yet. -/
def openOption (f : Found) (p : Parameter) : Except UsageError Found := do
  let f ← f.settle
  match p.takes with
  | .value .. => return { f with pending := some (p, []) }
  | _ => f.take p []

/-- Takes an option with its value. -/
def closeOption (f : Found) (p : Parameter) (value : String) : Except UsageError Found := do
  (← f.settle).take p [value]

/-- Whether an option waits for its value. -/
def isAwaiting (f : Found) : Bool :=
  f.pending.any (·.2.isEmpty)

/-- Gives the pending parameter one more value. -/
def addValue (f : Found) (value : String) : Found :=
  { f with pending := f.pending.map fun (p, values) => (p, values ++ [value]) }

end Found

namespace Grammar

/-- Takes an option behind two hyphens, perhaps with a value behind an equals sign. -/
def takeLong (g : Grammar) (f : Found) (word : List Char) : Except UsageError Found :=
  let name := String.ofList (word.takeWhile (· != '='))
  match g.options.find? (·.name == name) with
  | none => .error .unknownArgument
  | some p =>
    match word.dropWhile (· != '='), p.takes with
    | [], _ => f.openOption p
    | _ :: value, .value .. => f.closeOption p (String.ofList value)
    | _ :: _, _ => .error .surplusValue

/-- Takes the options behind one hyphen. The first that has a value takes the letters that remain,
or what follows the equals sign there. -/
def takeLetters (g : Grammar) (f : Found) : List Char → Except UsageError Found
  | [] => .ok f
  | c :: rest =>
    match g.options.find? (·.letter == some c) with
    | none => .error .unknownArgument
    | some p =>
      match p.takes, rest with
      | .value .., [] => f.openOption p
      | .value .., '=' :: value => f.closeOption p (String.ofList value)
      -- No equals sign is needed: the value may follow its letter at once.
      | .value .., value => f.closeOption p (String.ofList value)
      | _, rest =>
        match f.openOption p with
        | .ok f => takeLetters g f rest
        | .error error => .error error

/-- Why a word has no place among the positional ones. -/
def misplaced (g : Grammar) (word : String) (trailing : Bool) : UsageError :=
  if g.subcommands.isEmpty || (trailing && g.subcommands.contains word) then .unknownArgument
  else .unknownSubcommand

/-- Takes a positional word. -/
def takePositional (g : Grammar) (f : Found) (word : String) (trailing : Bool) :
    Except UsageError Found :=
  match g.positional with
  | none => .error (g.misplaced word trailing)
  | some p =>
    let several := match p.takes with
      | .value _ several => several
      | _ => false
    if f.placed && !several then .error (g.misplaced word trailing)
    -- Positional words in a row are values of one and the same occurrence.
    else if several && f.pending.any (·.1.name == p.name) then .ok (f.addValue word)
    else do
      let f ← f.settle
      return { f with pending := some (p, [word]), placed := true }

/-- Sorts the words of a line up to the name of a subcommand: what has been found, and the name with
the words behind it. Behind two hyphens alone all words are positional. -/
def scan (g : Grammar) (f : Found) (trailing : Bool) :
    List String → Except UsageError (Found × Option (String × List String))
  | [] => .ok (f, none)
  | word :: rest =>
    if trailing then do g.scan (← g.takePositional f word true) true rest
    -- The value of an option may look like a subcommand.
    else if !f.isAwaiting && g.subcommands.contains word then .ok (f, some (word, rest))
    else
      match word.toList with
      | ['-', '-'] => g.scan f true rest
      | '-' :: '-' :: long => do g.scan (← g.takeLong f long) false rest
      | '-' :: c :: letters => do g.scan (← g.takeLetters f (c :: letters)) false rest
      | _ =>
        if f.isAwaiting then g.scan (f.addValue word) false rest
        else do g.scan (← g.takePositional f word false) false rest

end Grammar

end KeyChord.CommandLine
