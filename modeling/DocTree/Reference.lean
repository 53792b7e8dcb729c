import DocTree.Text.Split
import DocTree.Text.Word

/-! References to documented items. A reference is written `@scope/package:Export.member`, where
the package with its colon and the member with its dot may be left out. -/

namespace DocTree

/-- The name of a package, divided into its scope, which includes the at sign and may be empty, and
the rest. -/
structure PackageName where
  scope : String
  name : String
deriving DecidableEq, Repr

/-- A reference to an export of a package, or to a member of an export. Parts that were not written
are empty. -/
structure Reference where
  scope : String := ""
  package : String := ""
  exportName : String := ""
  memberName : String := ""
deriving DecidableEq, Repr

namespace Reference

/-- Why a text is no reference. Every cause carries the text it was found in. -/
inductive Problem where
  | spaces (expression : String)
  | scopeAlone (name : String)
  | separators (expression : String)
  | badExport (expression : String)
  | badMember (expression : String)
deriving DecidableEq, Repr

/-- The text that tells of the problem. -/
def Problem.message : Problem → String
  | spaces e => "The API reference expression \"" ++ e ++ "\" must not contain spaces"
  | scopeAlone n => "Invalid scoped name: " ++ n
  | separators e =>
    "The API reference expression \"" ++ e ++ "\" contains more than one \":\" separator"
  | badExport e => "The API reference expression contains invalid characters: " ++ e
  | badMember e => "The API reference expression contains an invalid member name: " ++ e

end Reference

/-- Divides the name of a package. A name that starts with an at sign has its scope before the first
slash, and must have a slash; any other name has no scope. -/
def PackageName.parse (s : List Char) : Except Reference.Problem PackageName :=
  if s.head? == some '@' then
    match Text.cut '/' s with
    | (scope, some name) => .ok ⟨String.ofList scope, String.ofList name⟩
    | (_, none) => .error (.scopeAlone (String.ofList s))
  else .ok ⟨"", String.ofList s⟩

namespace Reference

open Text

/-- Whether the text starts with a word character. -/
def startsWithWord : List Char → Bool
  | [] => false
  | c :: _ => isWord c

/-- Reads the export and the member of a reference to the given package. `expression` is the whole
text, for the messages. -/
def parseItem (expression : String) (package : PackageName) (s : List Char) :
    Except Problem Reference :=
  if s.contains ':' then .error (.separators expression)
  else
    let (exportName, member) := cut '.' s
    let memberName := member.getD []
    if !startsWithWord exportName then .error (.badExport expression)
    else if !memberName.all isWord then .error (.badMember expression)
    else .ok ⟨package.scope, package.name, String.ofList exportName, String.ofList memberName⟩

/-- Reads a reference. -/
def parse (expression : String) : Except Problem Reference :=
  let s := expression.toList
  if s.contains ' ' then .error (.spaces expression)
  else
    match cut ':' s with
    | (_, none) => parseItem expression ⟨"", ""⟩ s
    | (package, some rest) =>
      match PackageName.parse package with
      | .error p => .error p
      | .ok name => parseItem expression name rest

/-- A reference that names no package points into the package at hand. -/
def isLocal (r : Reference) : Bool := r.scope == "" && r.package == ""

/-- The name of the package, with its scope. -/
def packageKey (r : Reference) : String :=
  if r.scope != "" then r.scope ++ "/" ++ r.package else r.package

/-- The export with its package. -/
def exportText (r : Reference) : String :=
  if r.packageKey != "" then r.packageKey ++ ":" ++ r.exportName else r.exportName

/-- The whole reference as it is written. -/
def text (r : Reference) : String :=
  if r.memberName != "" then r.exportText ++ "." ++ r.memberName else r.exportText

end Reference

end DocTree
