import DocTree.FormatFault
import DocTree.Text.Percent
import DocTree.Yaml.Cursor

/-! Tags and directives of YAML as they are written. A tag is a name, or a handle with the end of a
name; directives say what handles stand for. -/

namespace DocTree.Yaml

/-- A tag as it is written: a whole name, or the end of one behind a handle. A lone exclamation mark
counts as a whole name. -/
structure TagMark where
  handle : Option String
  suffix : String
deriving DecidableEq, Repr

/-- A line before a document that says something about it. -/
inductive Directive where
  /-- the version of the format, of which only the first number matters -/
  | version (major : Nat)
  /-- what a handle stands for -/
  | handle (handle stem : String)
  /-- anything else -/
  | other
deriving DecidableEq, Repr

/-- The characters of names of anchors, handles and directives. -/
def isNameChar (c : Char) : Bool := c.isAlphanum || c == '-' || c == '_'

/-- The characters of a name that stand for themselves. -/
def isUriChar (c : Char) : Bool := c.isAlphanum || "-;/?:@&=+$,_.!~*'()[]".toList.contains c

/-- Whether a place lies before a space, a line end or the end of the text. -/
def atSpace : List Char → Bool
  | [] => true
  | c :: _ => c == ' ' || isBreak c

/-- The bytes that percent signs at a place stand for, each with two hexadecimal digits, and the
rest. -/
def escapedBytes : List Char → Except FormatFault (List Nat × List Char)
  | '%' :: a :: b :: rest =>
    match Text.byte? a b with
    | some n => (escapedBytes rest).map fun r => (n :: r.1, r.2)
    | none => .error (expectedDigits "URI escape sequence" 2 (a :: b :: rest))
  | '%' :: rest => .error (expectedDigits "URI escape sequence" 2 rest)
  | rest => .ok ([], rest)

/-- Reads the characters of a name: the text, and the rest. Bytes next to each other have to encode
characters. `steps` bounds the number of parts. -/
def uriChars : (steps : Nat) → List Char → Except FormatFault (List Char × List Char)
  | 0, s => .ok ([], s)
  | steps + 1, s =>
    match s with
    | [] => .ok ([], [])
    | c :: rest =>
      if isUriChar c then (uriChars steps rest).map fun r => (c :: r.1, r.2)
      else if c != '%' then .ok ([], s)
      else do
        let (bytes, rest) ← escapedBytes s
        let text ← (Text.utf8Chars bytes).mapError fun u => .grammar u.message
        let (more, rest) ← uriChars steps rest
        return (text ++ more, rest)

/-- Reads a name, which must not be empty. -/
def readUri (s : List Char) : Except FormatFault (String × List Char) := do
  let (text, rest) ← uriChars s.length s
  if rest.length < s.length then return (String.ofList text, rest) else throw (expected "URI" rest)

/-- Reads a handle: an exclamation mark alone, or a name between two. -/
def readHandle : List Char → Except FormatFault (String × List Char)
  | '!' :: rest =>
    if rest.head? == some ' ' then .ok ("!", rest)
    else
      let name := rest.takeWhile isNameChar
      match rest.drop name.length with
      | '!' :: behind => .ok (String.ofList ('!' :: name ++ ['!']), behind)
      | other => .error (expected "'!'" other)
  | s => .error (expected "'!'" s)

/-- Reads a tag without looking at what follows it. -/
def readTagMark (s : List Char) : Except FormatFault (TagMark × List Char) :=
  match s with
  | '!' :: '<' :: rest => do
    match ← readUri rest with
    | (name, '>' :: behind) => return (⟨none, name⟩, behind)
    | (_, other) => throw (expected "'>'" other)
  | '!' :: rest =>
    if atGap rest then .ok (⟨none, "!"⟩, rest)
    else if (rest.takeWhile fun c => !atSpace [c]).contains '!' then do
      let (handle, rest) ← readHandle s
      let (suffix, rest) ← readUri rest
      return (⟨some handle, suffix⟩, rest)
    else (readUri rest).map fun r => (⟨some "!", r.1⟩, r.2)
  | _ => .error (expected "'!'" s)

/-- Reads a tag, behind which a space or a line end has to stand. -/
def readTag (s : List Char) : Except FormatFault (TagMark × List Char) := do
  let (mark, rest) ← readTagMark s
  if atSpace rest then return (mark, rest) else throw (expected "' '" rest)

/-- Reads a number of a version. -/
def versionNumber (s : List Char) : Except FormatFault (Nat × List Char) :=
  let digits := s.takeWhile Char.isDigit
  if digits.isEmpty then .error (expected "a digit" s)
  else ((Text.limitedDecimal digits).mapError .numeral).map (·, s.drop digits.length)

/-- Reads the version that a directive gives. -/
def readVersion (s : List Char) : Except FormatFault (Directive × List Char) := do
  let (major, rest) ← versionNumber s
  match rest with
  | '.' :: rest =>
    let (_, rest) ← versionNumber rest
    if atSpace rest then return (.version major, rest)
    else throw (expected "a digit or ' '" rest)
  | _ => throw (expected "a digit or '.'" rest)

/-- Reads the handle that a directive declares. -/
def readDeclared (s : List Char) : Except FormatFault (Directive × List Char) := do
  let (handle, rest) ← readHandle s
  if rest.head? != some ' ' then throw (expected "' '" rest)
  let (stem, rest) ← readUri (rest.dropWhile (· == ' '))
  if atSpace rest then return (.handle handle stem, rest) else throw (expected "' '" rest)

/-- What follows a directive in its line: nothing but spaces and a comment. -/
def behindDirective (s : List Char) : Except FormatFault (List Char) :=
  let rest := s.dropWhile (· == ' ')
  match if rest.head? == some '#' then rest.dropWhile (!isBreak ·) else rest with
  | [] => .ok []
  | c :: rest =>
    if isBreak c then .ok rest else .error (expected "a comment or a line break" (c :: rest))

/-- Reads a directive behind its percent sign, up to the next line. -/
def readDirective (s : List Char) : Except FormatFault (Directive × List Char) := do
  let name := s.takeWhile isNameChar
  let rest := s.drop name.length
  if name.isEmpty || !atSpace rest then throw (expected "alphabetic or numeric character" rest)
  let spaced := rest.dropWhile (· == ' ')
  let (directive, rest) ← match String.ofList name with
    | "YAML" => readVersion spaced
    | "TAG" => readDeclared spaced
    | _ => pure (.other, rest.dropWhile (!isBreak ·))
  return (directive, ← behindDirective rest)

end DocTree.Yaml
