import DocTree.Comment.Token
import DocTree.Text.Blank

/-! Splitting a comment into tokens.

A block tag is an at sign and a name of lowercase letters and underscores, set off by blanks on both
sides. An inline tag stands in braces and ends at the first closing brace that no backslash escapes.
All characters between tags are text, with blanks collapsed. An inline tag that cannot be read is
reported and its characters stay in the text. -/

namespace DocTree

/-- What can be wrong with the inline tags of a comment. -/
inductive LexicalProblem where
  | strayBrace
  | unclosed
  | badName (name : String)
deriving DecidableEq, Repr

/-- The text that tells of a lexical problem. -/
def LexicalProblem.message : LexicalProblem → String
  | strayBrace => "Unescaped '\x7b' detected inside an inline tag. Use \\ to escape it."
  | unclosed => "The inline tag is missing its closing '\x7d'"
  | badName name =>
    "The inline tag \"" ++ name ++ "\" has an invalid name; tag names may only contain " ++
      "lowercase letters and underscores"

/-- The tokens of a comment and the problems met on the way, both in order. -/
structure Lexed where
  tokens : List Token := []
  problems : List LexicalProblem := []
deriving DecidableEq, Repr

namespace Comment

open Text

/-- The characters of tag names: lowercase letters and underscores. -/
def isTagChar (c : Char) : Bool := ('a' ≤ c && c ≤ 'z') || c == '_'

/-- A tag name: an at sign and at least one tag character. -/
def isTagName : List Char → Bool
  | '@' :: c :: rest => isTagChar c && rest.all isTagChar
  | _ => false

/-- Whether the text ends or goes on with a blank. -/
def atBlank : List Char → Bool
  | [] => true
  | c :: _ => isBlank c

/-- The block tag whose at sign was just passed: its name, and what follows. It must end at a
blank. -/
def blockTag? (rest : List Char) : Option (List Char × List Char) :=
  let name := rest.takeWhile isTagChar
  let after := rest.dropWhile isTagChar
  if !name.isEmpty && atBlank after then some ('@' :: name, after) else none

/-- Whether the opening brace that was just passed begins an inline tag: the next character that is
not blank is an at sign. -/
def opensInline (rest : List Char) : Bool := (trimStart rest).head? == some '@'

/-- Where the inline tag ends whose opening brace was just passed. -/
inductive InlineEnd where
  | closed (body after : List Char)
  | nested
  | unclosed

/-- Puts characters in front of the body of a tag that is closed. -/
def InlineEnd.prepend (cs : List Char) : InlineEnd → InlineEnd
  | closed body after => closed (cs ++ body) after
  | nested => nested
  | unclosed => unclosed

/-- Looks for the closing brace. A backslash escapes the character behind it, and an opening brace
that is not escaped makes the tag unreadable. -/
def inlineEnd : List Char → InlineEnd
  | [] => .unclosed
  | '\\' :: c :: rest => (inlineEnd rest).prepend ['\\', c]
  | '{' :: _ => .nested
  | '}' :: rest => .closed [] rest
  | c :: rest => (inlineEnd rest).prepend [c]

/-- The characters that a backslash makes literal. -/
def isEscapable (c : Char) : Bool := c == '@' || c == '{' || c == '}' || c == '\\'

/-- Takes the backslashes away that make the next character literal. -/
def unescape : List Char → List Char
  | '\\' :: c :: rest => if isEscapable c then c :: unescape rest else '\\' :: unescape (c :: rest)
  | c :: rest => c :: unescape rest
  | [] => []

/-- The name of an inline tag, and its text: the first word between the braces, and the rest with
blanks collapsed and escapes resolved. -/
def inlineParts (body : List Char) : List Char × List Char :=
  let body := trim body
  (body.takeWhile (fun c => !isBlank c),
    unescape (collapse (body.dropWhile fun c => !isBlank c)))

/-- The text token of the characters between two tags, which are given in reverse order. There is
none if they are all blank. -/
def textToken (gap : List Char) : List Token :=
  match collapse gap.reverse with
  | [] => []
  | value => [.text (String.ofList value)]

theorem inlineEnd_length {s body after : List Char} (h : inlineEnd s = .closed body after) :
    after.length < s.length := by
  fun_induction inlineEnd s generalizing body after with
  | case1 => simp at h
  | case2 c rest ih =>
    cases hr : inlineEnd rest with
    | closed b a =>
      rw [hr] at h
      injection h with _ ha
      subst ha
      have := ih hr
      simp only [List.length_cons]; omega
    | nested => simp [hr, InlineEnd.prepend] at h
    | unclosed => simp [hr, InlineEnd.prepend] at h
  | case3 => simp at h
  | case4 rest =>
    injection h with _ ha
    simp [ha]
  | case5 c rest _ _ _ ih =>
    cases hr : inlineEnd rest with
    | closed b a =>
      rw [hr] at h
      injection h with _ ha
      subst ha
      have := ih hr
      simp only [List.length_cons]; omega
    | nested => simp [hr, InlineEnd.prepend] at h
    | unclosed => simp [hr, InlineEnd.prepend] at h

theorem blockTag?_length {rest name after : List Char} (h : blockTag? rest = some (name, after)) :
    after.length ≤ rest.length := by
  have hlen : (rest.dropWhile isTagChar).length ≤ rest.length :=
    (List.dropWhile_sublist isTagChar).length_le
  simp only [blockTag?] at h
  split at h
  · injection h with h
    injection h with _ ha
    rw [← ha]
    exact hlen
  · simp at h

/-- Scans the rest of a comment. `fresh` says that the character before is a blank, or that there is
none, and `gap` holds the characters since the last tag in reverse order. -/
def scan (fresh : Bool) (gap : List Char) (s : List Char) : Lexed :=
  match s with
  | [] => { tokens := textToken gap }
  | '{' :: rest =>
    if opensInline rest then
      match h : inlineEnd rest with
      | .unclosed =>
        { tokens := textToken (rest.reverse ++ '{' :: gap), problems := [.unclosed] }
      | .nested =>
        let after := scan false ('{' :: gap) rest
        { after with problems := .strayBrace :: after.problems }
      | .closed body after =>
        let (name, text) := inlineParts body
        if isTagName name then
          have := inlineEnd_length h
          let next := scan false [] after
          let tag : Token := .inline (String.ofList name) (String.ofList text)
          { next with tokens := textToken gap ++ tag :: next.tokens }
        else
          let next := scan false ('{' :: gap) rest
          { next with problems := .badName (String.ofList name) :: next.problems }
    else scan false ('{' :: gap) rest
  | '@' :: rest =>
    match h : if fresh then blockTag? rest else none with
    | some (name, after) =>
      have : after.length ≤ rest.length := by
        split at h
        · exact blockTag?_length h
        · simp at h
      let next := scan false [] after
      { next with tokens := textToken gap ++ .tag (String.ofList name) :: next.tokens }
    | none => scan false ('@' :: gap) rest
  | c :: rest => scan (isBlank c) (c :: gap) rest
termination_by s.length

end Comment

/-- The tokens of a comment and its lexical problems. -/
def Token.ofComment (comment : String) : Lexed := Comment.scan true [] comment.toList

end DocTree
