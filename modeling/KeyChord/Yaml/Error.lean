/-!
# What can be wrong with a YAML document

The causes for which a text is refused, from its characters up to the shape of what it describes.
-/

namespace KeyChord.Yaml

/-- Why a text is no YAML document, or not one of the wanted shape. -/
inductive Error where
  /-- A character that no YAML text may contain. -/
  | character (c : Char)
  /-- A tab where only spaces indent. -/
  | tab
  /-- Something other than a comment or a line break at the end of a line. -/
  | lineEnd
  /-- A directive that is unknown, incomplete or given twice. -/
  | directive
  /-- The name of an anchor or an alias. -/
  | anchorName
  /-- A tag that is not written as one. -/
  | tag
  /-- A tag whose handle has not been declared. -/
  | tagHandle (handle : String)
  /-- A quoted scalar that has no end. -/
  | unterminated
  /-- An escape that means nothing. -/
  | escape
  /-- The indentation of a block scalar. -/
  | indentation
  /-- A colon where a plain scalar in a flow collection cannot have one. -/
  | colon
  /-- A mapping key that is not followed by a colon on its line. -/
  | missingColon
  /-- An entry of a block collection where none can start. -/
  | entry
  /-- A character that starts no token. -/
  | tokenStart (c : Char)
  /-- A token where the structure of the document has no place for it. -/
  | form
  /-- An alias without an anchor. -/
  | unknownAlias (name : String)
  /-- More than one document. -/
  | severalDocuments
  /-- More levels or steps than the reader is ready to follow. -/
  | tooLong
  /-- A node of another kind than the wanted one. -/
  | kind (wanted : String)
  /-- A scalar whose text does not write what is wanted. -/
  | scalar (wanted text : String)
  /-- A field that must be given. -/
  | missingField (name : String)
  /-- A field that is given twice. -/
  | repeatedField (name : String)
  deriving DecidableEq, Repr

/-- What is wrong with the text. -/
def Error.message : Error → String
  | character c => "character U+" ++ String.ofList (Nat.toDigits 16 c.toNat) ++ " is not allowed"
  | tab => "a tab cannot indent"
  | lineEnd => "expected a comment or the end of the line"
  | directive => "invalid directive"
  | anchorName => "invalid anchor name"
  | tag => "invalid tag"
  | tagHandle handle => "undeclared tag handle " ++ handle
  | unterminated => "quoted scalar without an end"
  | escape => "invalid escape"
  | indentation => "invalid indentation of a block scalar"
  | colon => "unexpected colon in a plain scalar"
  | missingColon => "expected a colon after a mapping key"
  | entry => "a collection entry cannot start here"
  | tokenStart c => "character U+" ++ String.ofList (Nat.toDigits 16 c.toNat) ++ " starts no token"
  | form => "the document is not well formed here"
  | unknownAlias name => "unknown anchor " ++ name
  | severalDocuments => "expected a single document"
  | tooLong => "the document is too long to follow"
  | kind wanted => "expected " ++ wanted
  | scalar wanted text => "expected " ++ wanted ++ ", not " ++ text
  | missingField name => "missing field " ++ name
  | repeatedField name => "repeated field " ++ name

end KeyChord.Yaml
