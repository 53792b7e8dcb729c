import DocTree.Link
import DocTree.Text.Blank

/-! Documentation elements: text, links, and `@see` groups of further elements. -/

namespace DocTree

/-- A part of a documentation text. -/
inductive Element where
  | text (value : String)
  | link (l : Link)
  | see (children : List Element)
deriving Repr

/-- The documentation of one parameter of a function. -/
structure Param where
  name : String
  description : List Element
deriving Repr

namespace Element

mutual

/-- The links to documented items in an element. -/
def codeLinksOf : Element → List CodeLink
  | text _ => []
  | link (.web _ _) => []
  | link (.code l) => [l]
  | see children => codeLinks children

/-- The links to documented items in a list of elements, those in groups included. -/
def codeLinks : List Element → List CodeLink
  | [] => []
  | e :: rest => codeLinksOf e ++ codeLinks rest

end

/-- The text of an element that is plain text. -/
def plain? : Element → Option String
  | text value => some value
  | _ => none

/-- The plain text of a list of elements, without links and groups. -/
def plainText (elements : List Element) : String :=
  Text.trimmed (Text.join " " (elements.filterMap plain?))

end Element

namespace Param

/-- Puts the documentation of a parameter: at the place of its name if it has one, at the end
otherwise. -/
def put (p : Param) : List Param → List Param
  | [] => [p]
  | q :: rest => if q.name == p.name then p :: rest else q :: put p rest

end Param

end DocTree
