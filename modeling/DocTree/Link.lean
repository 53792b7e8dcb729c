import DocTree.Reference
import DocTree.Text.Blank

/-! Links: what a `@link` tag stands for. Its text is a web address or a reference, and may go on
with a pipe and a display text. -/

namespace DocTree

/-- A link to a documented item. -/
structure CodeLink where
  reference : Reference
  display : String := ""
deriving DecidableEq, Repr

/-- A link to a web address or to a documented item. -/
inductive Link where
  | web (url : String) (display : String)
  | code (link : CodeLink)
deriving DecidableEq, Repr

namespace Link

/-- Why the text of a tag is no link. -/
inductive Problem where
  | empty
  | pipes
  | badDisplay (display : String)
  | spacesInUrl
  | badReference (problem : Reference.Problem)
deriving DecidableEq, Repr

/-- The text that tells of the problem. -/
def Problem.message : Problem → String
  | empty => "The \x7b@link\x7d tag must include a URL or API item reference"
  | pipes => "The \x7b@link\x7d tag contains more than one pipe character (\"|\")"
  | badDisplay display =>
    "The \x7b@link\x7d tag's display text may only contain word characters and spaces: \"" ++
      display ++ "\""
  | spacesInUrl =>
    "The \x7b@link\x7d tag contains additional spaces after the URL; if the URL contains " ++
      "spaces, encode them using %20; for display text, use a pipe delimiter (\"|\")"
  | badReference problem => problem.message

open Text

/-- A web address starts with lowercase letters, a colon and two slashes. -/
def isUrl (s : List Char) : Bool :=
  let isLetter (c : Char) : Bool := 'a' ≤ c && c ≤ 'z'
  !(s.takeWhile isLetter).isEmpty && [':', '/', '/'].isPrefixOf (s.dropWhile isLetter)

/-- A display text has only word characters and blanks. -/
def isDisplay (s : List Char) : Bool := s.all fun c => isWord c || isBlank c

/-- The link to an address with a display text, both trimmed. -/
def ofAddress (address display : List Char) : Except Problem Link :=
  if isUrl address then
    if address.contains ' ' then .error .spacesInUrl
    else .ok (.web (String.ofList address) (String.ofList display))
  else
    match Reference.parse (String.ofList address) with
    | .error p => .error (.badReference p)
    | .ok r => .ok (.code ⟨r, String.ofList display⟩)

/-- Reads the text of a `@link` tag. -/
def parse (text : String) : Except Problem Link :=
  if text.toList.isEmpty then .error .empty
  else
    match (text.toList.splitOn '|').map trim with
    | [address] => ofAddress address []
    | [address, display] =>
      if isDisplay display then ofAddress address display
      else .error (.badDisplay (String.ofList display))
    | _ => .error .pipes

end Link

end DocTree
