import DocTree.Text.Split

/-! Paths to files, with slashes between their segments. -/

namespace DocTree

/-- A path. A path from the root starts with one slash, or with exactly two, which are kept
apart. -/
structure Path where
  root : String := ""
  segments : List String := []
deriving DecidableEq, Repr

namespace Path

/-- The root that a text starts at. -/
def rootOf : List Char → String
  | '/' :: '/' :: '/' :: _ => "/"
  | '/' :: '/' :: _ => "//"
  | '/' :: _ => "/"
  | _ => ""

/-- The path that a text stands for: empty segments and single dots are dropped. -/
def ofString (s : String) : Path where
  root := rootOf s.toList
  segments := ((s.toList.splitOn '/').filter fun p => p != [] && p != ['.']).map String.ofList

/-- Goes on from a path. A text that starts at a root starts anew. -/
def join (p : Path) (s : String) : Path :=
  let q := ofString s
  if q.root != "" then q else { p with segments := p.segments ++ q.segments }

/-- The text of a path; a single dot for the empty one. -/
def text (p : Path) : String :=
  let body := Text.join "/" p.segments
  if p.root == "" && p.segments.isEmpty then "." else p.root ++ body

/-- The path without its last segment. -/
def parent (p : Path) : Path := { p with segments := p.segments.dropLast }

end Path

end DocTree
