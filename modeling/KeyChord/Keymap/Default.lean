import KeyChord.Keymap.Basic

/-!
# The default keymap

The keymap that is in force before any file is read. It is itself the text of a keymap file, which
users can look at for an example.
-/

namespace KeyChord.Keymap.Default

/-- The lines of the default keymap. -/
def lines : List String := [
  "# Default keymap",
  "#",
  "# Format:",
  "#   bindings:",
  "#     - command: <command id>",
  "#       label: <human readable name>      (defaults to the command id)",
  "#       category: <settings UI group>     (defaults to \"General\")",
  "#       key: \"<keystroke> [<keystroke> ...]\"",
  "#       when: \"<when-clause>\"             (optional)",
  "#       platform: macos|windows|linux     (optional)",
  "#",
  "# Keystroke syntax: modifiers joined with \"+\", then the key.",
  "#   cmd   = Cmd on macOS, Ctrl elsewhere",
  "#   ctrl, shift, alt (option/opt), meta (super/win)",
  "# Space-separated keystrokes form a chord, e.g. \"cmd+k cmd+s\".",
  "#",
  "# Override any of these in ./keymap.yaml or ~/.config/chordmap/keymap.yaml:",
  "#   overrides:",
  "#     - command: workbench.action.files.save",
  "#       key: \"ctrl+alt+s\"",
  "#     - command: workbench.action.toggleZenMode",
  "#       unbind: true",
  "",
  "bindings:",
  "  # ==========================================================================",
  "  # File",
  "  # ==========================================================================",
  "  - command: workbench.action.files.save",
  "    label: Save",
  "    category: File",
  "    key: \"cmd+s\"",
  "",
  "  - command: workbench.action.files.saveAs",
  "    label: Save As...",
  "    category: File",
  "    key: \"cmd+shift+s\"",
  "",
  "  - command: workbench.action.files.newUntitledFile",
  "    label: New File",
  "    category: File",
  "    key: \"cmd+n\"",
  "",
  "  - command: workbench.action.closeActiveEditor",
  "    label: Close Editor",
  "    category: File",
  "    key: \"cmd+w\"",
  "",
  "  - command: workbench.action.files.saveAll",
  "    label: Save All",
  "    category: File",
  "    key: \"cmd+k s\"",
  "",
  "  # ==========================================================================",
  "  # Edit",
  "  # ==========================================================================",
  "  - command: undo",
  "    label: Undo",
  "    category: Edit",
  "    key: \"cmd+z\"",
  "    when: \"!inputFocus || editorFocus\"",
  "",
  "  - command: redo",
  "    label: Redo",
  "    category: Edit",
  "    key: \"cmd+shift+z\"",
  "    when: \"!inputFocus || editorFocus\"",
  "",
  "  - command: actions.find",
  "    label: Find",
  "    category: Edit",
  "    key: \"cmd+f\"",
  "    when: \"editorFocus\"",
  "",
  "  - command: editor.action.startFindReplaceAction",
  "    label: Replace",
  "    category: Edit",
  "    key: \"cmd+h\"",
  "    when: \"editorFocus && !editorReadonly\"",
  "",
  "  - command: editor.action.commentLine",
  "    label: Toggle Line Comment",
  "    category: Edit",
  "    key: \"cmd+/\"",
  "    when: \"editorTextFocus && !editorReadonly\"",
  "",
  "  - command: editor.action.addCommentLine",
  "    label: Add Line Comment",
  "    category: Edit",
  "    key: \"cmd+k cmd+c\"",
  "    when: \"editorTextFocus && !editorReadonly\"",
  "",
  "  - command: editor.action.removeCommentLine",
  "    label: Remove Line Comment",
  "    category: Edit",
  "    key: \"cmd+k cmd+u\"",
  "    when: \"editorTextFocus && !editorReadonly\"",
  "",
  "  - command: editor.action.formatDocument",
  "    label: Format Document",
  "    category: Edit",
  "    key: \"shift+alt+f\"",
  "    when: \"editorTextFocus && !editorReadonly && editorLangId != plaintext\"",
  "",
  "  - command: editor.action.moveLinesUpAction",
  "    label: Move Line Up",
  "    category: Edit",
  "    key: \"alt+up\"",
  "    when: \"editorTextFocus && !editorReadonly\"",
  "",
  "  - command: editor.action.moveLinesDownAction",
  "    label: Move Line Down",
  "    category: Edit",
  "    key: \"alt+down\"",
  "    when: \"editorTextFocus && !editorReadonly\"",
  "",
  "  # ==========================================================================",
  "  # View",
  "  # ==========================================================================",
  "  - command: workbench.action.showCommands",
  "    label: Show All Commands",
  "    category: View",
  "    key: \"cmd+shift+p\"",
  "",
  "  - command: workbench.action.toggleSidebarVisibility",
  "    label: Toggle Sidebar",
  "    category: View",
  "    key: \"cmd+b\"",
  "",
  "  - command: workbench.action.terminal.toggleTerminal",
  "    label: Toggle Terminal",
  "    category: View",
  "    key: \"ctrl+\x60\"",
  "",
  "  - command: workbench.action.toggleZenMode",
  "    label: Toggle Zen Mode",
  "    category: View",
  "    key: \"cmd+k z\"",
  "",
  "  - command: workbench.action.closeAllEditors",
  "    label: Close All Editors",
  "    category: View",
  "    key: \"cmd+k cmd+w\"",
  "",
  "  - command: workbench.action.zoomIn",
  "    label: Zoom In",
  "    category: View",
  "    key: \"cmd+=\"",
  "",
  "  - command: workbench.action.zoomOut",
  "    label: Zoom Out",
  "    category: View",
  "    key: \"cmd+-\"",
  "",
  "  # ==========================================================================",
  "  # Go",
  "  # ==========================================================================",
  "  - command: workbench.action.quickOpen",
  "    label: Go to File",
  "    category: Go",
  "    key: \"cmd+p\"",
  "",
  "  - command: workbench.action.gotoLine",
  "    label: Go to Line",
  "    category: Go",
  "    key: \"ctrl+g\"",
  "    when: \"editorFocus\"",
  "",
  "  - command: editor.action.revealDefinition",
  "    label: Go to Definition",
  "    category: Go",
  "    key: \"f12\"",
  "    when: \"editorTextFocus\"",
  "",
  "  # ==========================================================================",
  "  # Terminal",
  "  # ==========================================================================",
  "  - command: workbench.action.terminal.clear",
  "    label: Clear Terminal",
  "    category: Terminal",
  "    key: \"ctrl+l\"",
  "    when: \"terminalFocus\"",
  "",
  "  - command: workbench.action.terminal.kill",
  "    label: Kill Terminal",
  "    category: Terminal",
  "    when: \"terminalFocus\"",
  "",
  "  # ==========================================================================",
  "  # Preferences",
  "  # ==========================================================================",
  "  - command: workbench.action.openSettings",
  "    label: Open Settings",
  "    category: Preferences",
  "    key: \"cmd+,\"",
  "",
  "  - command: workbench.action.openGlobalKeybindings",
  "    label: Open Keyboard Shortcuts",
  "    category: Preferences",
  "    key: \"cmd+k cmd+s\"",
  "",
  "  - command: workbench.action.selectTheme",
  "    label: Color Theme",
  "    category: Preferences",
  "    key: \"cmd+k cmd+t\"",
  "",
  "  # ==========================================================================",
  "  # Platform-specific",
  "  # ==========================================================================",
  "  - command: workbench.action.quit",
  "    label: Quit",
  "    category: File",
  "    key: \"cmd+q\"",
  "    platform: macos",
  "",
  "  - command: workbench.action.quit",
  "    label: Quit",
  "    category: File",
  "    key: \"alt+f4\"",
  "    platform: windows"
]

/-- The text of the default keymap. -/
def text : String :=
  String.join (lines.map (· ++ "\n"))

/-- The keystroke of a letter with the primary modifier. -/
def primaryKey (c : Char) : Keystroke :=
  .ofChar c .primary

/-- The commands that are registered should the default keymap not be readable. -/
def fallback : List Command := [
  { id := "workbench.action.files.save", label := "Save", category := "File"
    defaultKeys := some (.ofKeystroke (primaryKey 's')) },
  { id := "workbench.action.showCommands", label := "Show All Commands", category := "View"
    defaultKeys := some
      (.ofKeystroke (.ofChar 'p' (Modifiers.primary.union { shift := true }))) },
  { id := "workbench.action.quickOpen", label := "Go to File", category := "Go"
    defaultKeys := some (.ofKeystroke (primaryKey 'p')) },
  { id := "actions.find", label := "Find", category := "Edit"
    defaultKeys := some (.ofKeystroke (primaryKey 'f'))
    defaultWhen := some (.ofSource "editorFocus") },
  { id := "workbench.action.openGlobalKeybindings", label := "Open Keyboard Shortcuts"
    category := "Preferences"
    defaultKeys := some (.push (.ofKeystroke (primaryKey 'k')) (primaryKey 's')) },
  { id := "workbench.action.closeAllEditors", label := "Close All Editors", category := "View"
    defaultKeys := some (.push (.ofKeystroke (primaryKey 'k')) (primaryKey 'w')) }]

/-- The default keymap. -/
def keymap : Except Error Keymap :=
  read text

/-- The registry of a keymap that could be read, or else of the fallback. -/
def registryOf : Except Error Keymap → Registry
  | .ok keymap => .ofList keymap.commands
  | .error _ => .ofList fallback

/-- The registry before any file is read. -/
def registry : Registry :=
  registryOf keymap

end KeyChord.Keymap.Default
