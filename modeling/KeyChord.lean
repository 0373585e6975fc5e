import KeyChord.Chord.Machine
import KeyChord.Chord.Run
import KeyChord.Chord.Timeout
import KeyChord.Command.Basic
import KeyChord.Command.Override
import KeyChord.CommandLine.Arguments
import KeyChord.CommandLine.Grammar
import KeyChord.CommandLine.Run
import KeyChord.Context.Assignment
import KeyChord.Context.Basic
import KeyChord.Context.Json
import KeyChord.Context.Source
import KeyChord.Context.Value
import KeyChord.Files.Disk
import KeyChord.Files.Locations
import KeyChord.Files.Tree
import KeyChord.Json.Basic
import KeyChord.Json.Numeral
import KeyChord.Json.Printer
import KeyChord.Json.Reader
import KeyChord.Json.Token
import KeyChord.Keybinding.Basic
import KeyChord.Keybinding.Reader
import KeyChord.Keymap.Basic
import KeyChord.Keymap.Default
import KeyChord.Keymap.Layers
import KeyChord.Keymap.Lint
import KeyChord.Keymap.Source
import KeyChord.Keystroke.Basic
import KeyChord.Keystroke.Key
import KeyChord.Keystroke.Modifiers
import KeyChord.Main
import KeyChord.Number.Basic
import KeyChord.Number.Printer
import KeyChord.Number.Reader
import KeyChord.Proofs.Chord.Callbacks
import KeyChord.Proofs.Chord.Firing
import KeyChord.Proofs.Chord.Handling
import KeyChord.Proofs.Chord.Timers
import KeyChord.Proofs.CommandLine.Checking
import KeyChord.Proofs.Context.Assignments
import KeyChord.Proofs.Context.RoundTrip
import KeyChord.Proofs.Files.ReadingBack
import KeyChord.Proofs.Keybinding.Regrouping
import KeyChord.Proofs.Keybinding.RoundTrip
import KeyChord.Proofs.Keymap.Clean
import KeyChord.Proofs.Keymap.DeadBindings
import KeyChord.Proofs.Keymap.Loading
import KeyChord.Proofs.Keymap.Precedence
import KeyChord.Proofs.Keymap.Reading
import KeyChord.Proofs.Keymap.Warnings
import KeyChord.Proofs.Keystroke.Canonical
import KeyChord.Proofs.Keystroke.NormalForm
import KeyChord.Proofs.Keystroke.Reading
import KeyChord.Proofs.Lists
import KeyChord.Proofs.Number.RoundTrip
import KeyChord.Proofs.Registry.Edits
import KeyChord.Proofs.Registry.History
import KeyChord.Proofs.Registry.Index
import KeyChord.Proofs.Registry.Resetting
import KeyChord.Proofs.Registry.Scan
import KeyChord.Proofs.Resolver.ContextKeys
import KeyChord.Proofs.Resolver.Delivery
import KeyChord.Proofs.Resolver.Log
import KeyChord.Proofs.Resolver.OwnKeystrokes
import KeyChord.Proofs.Resolver.Pace
import KeyChord.Proofs.Resolver.Pending
import KeyChord.Proofs.Resolver.Policies
import KeyChord.Proofs.Resolver.SameRuns
import KeyChord.Proofs.Resolver.Strokes
import KeyChord.Proofs.Resolver.Unrivalled
import KeyChord.Proofs.Settings.RoundTrip
import KeyChord.Proofs.Steps
import KeyChord.Proofs.Text.Ascii
import KeyChord.Proofs.Text.Pieces
import KeyChord.Proofs.Text.Trimming
import KeyChord.Proofs.When.Assigned
import KeyChord.Proofs.When.Composition
import KeyChord.Proofs.When.Counting
import KeyChord.Proofs.When.Frames
import KeyChord.Proofs.When.Height
import KeyChord.Proofs.When.Lexing
import KeyChord.Proofs.When.Parsing
import KeyChord.Proofs.When.Positions
import KeyChord.Proofs.When.RoundTrip
import KeyChord.Proofs.Yaml.BlockMapping
import KeyChord.Proofs.Yaml.Meaning
import KeyChord.Proofs.Yaml.Size
import KeyChord.Registry.Basic
import KeyChord.Registry.Edit
import KeyChord.Registry.Lookup
import KeyChord.Resolver.Basic
import KeyChord.Resolver.Replay
import KeyChord.Settings.Basic
import KeyChord.Settings.Store
import KeyChord.Text.Blank
import KeyChord.Text.Case
import KeyChord.Text.CodePoints
import KeyChord.Text.Columns
import KeyChord.Text.Hex
import KeyChord.Text.Letters
import KeyChord.Text.Quoted
import KeyChord.When.Clause
import KeyChord.When.Counting
import KeyChord.When.Expr
import KeyChord.When.Parser
import KeyChord.When.Token
import KeyChord.Yaml.Cursor
import KeyChord.Yaml.Decode
import KeyChord.Yaml.Error
import KeyChord.Yaml.Node
import KeyChord.Yaml.Scalar
import KeyChord.Yaml.Tag
import KeyChord.Yaml.Token
