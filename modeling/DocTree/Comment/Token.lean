/-! The lexical units of a documentation comment: runs of text, block tags such as `@remarks`, and
inline tags such as the one that makes a link. -/

namespace DocTree

/-- A lexical unit of a comment. Names of tags include the at sign. -/
inductive Token where
  | text (value : String)
  | tag (name : String)
  | inline (name : String) (text : String)
deriving DecidableEq, Repr

namespace Token

/-- The word for the kind of a token. -/
def kindName : Token → String
  | text _ => "text"
  | tag _ => "tag"
  | inline _ _ => "inline"

/-- A token of another kind than the one that was asked for. -/
structure KindMismatch where
  found : String
  expected : String

/-- The text that tells of the mismatch. -/
def KindMismatch.message (m : KindMismatch) : String :=
  "Encountered a token of kind \"" ++ m.found ++ "\" when expecting \"" ++ m.expected ++ "\""

end Token

end DocTree
