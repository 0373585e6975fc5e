import KeyChord.Context.Assignment
import KeyChord.Context.Json
import KeyChord.Files.Disk
import KeyChord.Text.Quoted

/-!
# Contexts from files and assignments

A context can be put together from a JSON file and from assignments, which are applied on top of the
file one after another.
-/

namespace KeyChord

/-- Why a context cannot be put together. -/
inductive ContextError where
  /-- The file cannot be read. -/
  | unreadable (path : String) (error : FileError)
  /-- The text of the file writes no context. -/
  | malformed (path : String) (error : Json.Error)
  /-- The text is no assignment. -/
  | assignment (text : String)
  deriving DecidableEq

/-- What is wrong. -/
def ContextError.message : ContextError → String
  | unreadable path error => "Failed to read context file " ++ path ++ ": " ++ error.message
  | malformed path error => "Failed to parse context file " ++ path ++ ": " ++ error.message
  | assignment text => "Invalid context assignment: " ++ Text.quoted text

namespace Context

/-- The context in a file of the given contents. -/
def ofFile (path : String) (contents : Except FileError String) : Except ContextError Context := do
  (readJson (← contents.mapError (.unreadable path))).mapError (.malformed path)

/-- The context of a file, if there is one, and of assignments on top. -/
def ofSources (file : Option (String × Except FileError String)) (assignments : List String) :
    Except ContextError Context := do
  let start ← file.elim (.ok empty) fun (path, contents) => ofFile path contents
  (start.assign assignments).mapError .assignment

end Context

end KeyChord
