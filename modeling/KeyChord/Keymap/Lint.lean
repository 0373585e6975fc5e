import KeyChord.Keymap.Basic

/-!
# Warnings about keymaps

What is probably a mistake in a keymap that can be read: a command listed twice, a when-clause that
is none, and a keybinding that can never trigger its command, because a command without a
when-clause always takes its keystrokes first.

- `Keymap.warnings`: the warnings, in the order in which they are reported.
-/

namespace KeyChord.Keymap

/-- A probable mistake. -/
inductive Warning where
  /-- The command is listed again. -/
  | repeated (id : String)
  /-- The when-clause of a command is none. -/
  | invalidClause (id : String) (source : String) (error : When.ParseError)
  /-- The command has the same keybinding as an earlier one. -/
  | shadowed (id : String) (keys : Keybinding) (shadowedBy : String)
  /-- The keybinding of the command starts the chord of another. -/
  | startsChord (id : String) (keys : Keybinding) (chord : String)
  /-- The when-clause of an override is none. -/
  | invalidOverrideClause (id : String) (source : String) (error : When.ParseError)
  /-- The override is of a command that is nowhere registered. -/
  | unknownOverride (id : String)
  deriving DecidableEq

/-- A when-clause that is none, and why. -/
def clauseFaultText (source : String) (error : When.ParseError) : String :=
  "when-clause " ++ Text.quoted source ++ " is invalid (" ++ error.message ++ ")"

/-- The text of a warning. -/
def Warning.message : Warning → String
  | repeated id => "command '" ++ id ++ "' is registered more than once; the last entry wins"
  | invalidClause id source error =>
    "command '" ++ id ++ "': " ++ clauseFaultText source error ++ "; the binding will never fire"
  | shadowed id keys shadowedBy =>
    "command '" ++ id ++ "' (" ++ keys.text ++ ") is shadowed by '" ++ shadowedBy ++ "'"
  | startsChord id keys chord =>
    "command '" ++ id ++ "' (" ++ keys.text ++ ") starts the chord of '" ++ chord ++
      "' and will never fire"
  | invalidOverrideClause id source error =>
    "override for '" ++ id ++ "': " ++ clauseFaultText source error
  | unknownOverride id => "override for unknown command '" ++ id ++ "'"

/-- Why the text of a when-clause is none. -/
def clauseFault? (clause : When.Clause) : Option When.ParseError :=
  match When.parse clause.source with
  | .ok _ => none
  | .error error => some error

/-- The warnings about a command by itself, given the names listed before it. -/
def commandWarnings (seen : List String) (c : Command) : List Warning :=
  (if seen.contains c.id then [.repeated c.id] else []) ++
    (c.defaultWhen.bind fun clause =>
      (clauseFault? clause).map (.invalidClause c.id clause.source)).toList

/-- The warnings about each of some commands by itself, after those of the given names. -/
def listWarnings (seen : List String) : List Command → List Warning
  | [] => []
  | c :: rest => commandWarnings seen c ++ listWarnings (c.id :: seen) rest

/-- The commands that always want their keystrokes, and their keybindings. -/
def unconditional (keymap : Keymap) : List (Command × Keybinding) :=
  (keymap.commands.filter (·.defaultWhen.isNone)).filterMap fun c =>
    c.defaultKeys.map (c, ·)

/-- The warning about two commands that always want their keystrokes, of which `first` is listed
first. -/
def pairWarning (first second : Command × Keybinding) : Option Warning :=
  if first.2 = second.2 then some (.shadowed second.1.id second.2 first.1.id)
  else if second.2.properlyExtends first.2.keystrokes then
    some (.startsChord first.1.id first.2 second.1.id)
  else if first.2.properlyExtends second.2.keystrokes then
    some (.startsChord second.1.id second.2 first.1.id)
  else none

/-- The warnings about each two of some commands. -/
def pairWarnings : List (Command × Keybinding) → List Warning
  | [] => []
  | first :: rest => rest.filterMap (pairWarning first) ++ pairWarnings rest

/-- The warning about an override by itself. -/
def overrideWarning (o : Override) : Option Warning :=
  o.clause.bind fun clause =>
    (clauseFault? clause).map (.invalidOverrideClause o.command clause.source)

/-- The warnings about a keymap by itself. -/
def warnings (keymap : Keymap) : List Warning :=
  listWarnings [] keymap.commands ++ pairWarnings keymap.unconditional ++
    keymap.overrides.filterMap overrideWarning

/-- The warnings about overrides of commands that are neither in the keymap nor registered. -/
def unknownOverrides (keymap : Keymap) (known : Registry) : List Warning :=
  (keymap.overrides.filter fun o =>
    !keymap.commands.any (·.id == o.command) && !known.contains o.command).map
    fun o => .unknownOverride o.command

end KeyChord.Keymap
