import DocTree.Yaml.Handle
import DocTree.Yaml.Scalar

/-! Tokens of YAML. The layout of a text becomes tokens of its own: where a block of entries or
fields starts and ends, and where a key was. That something is a key is only seen at its colon, so
the token for it is put before what was read already. Where a text cannot be read on, its last token
tells why. -/

namespace DocTree.Yaml

/-- The tokens of a document. -/
inductive Token where
  | directive (d : Directive)
  | documentStart
  | documentEnd
  | blockListStart
  | blockMappingStart
  | blockEnd
  | flowListStart
  | flowListEnd
  | flowMappingStart
  | flowMappingEnd
  | entry
  | comma
  | key
  | value
  | anchor (name : String)
  | alias (name : String)
  | tag (mark : TagMark)
  | plain (s : String)
  | text (s : String)
  | unreadable (fault : FormatFault)
deriving DecidableEq, Repr

/-- How a token is called in messages. -/
def Token.label : Token → String
  | .directive _ => "<directive>"
  | .documentStart => "<document start>"
  | .documentEnd => "<document end>"
  | .blockListStart => "<block sequence start>"
  | .blockMappingStart => "<block mapping start>"
  | .blockEnd => "<block end>"
  | .flowListStart => "["
  | .flowListEnd => "]"
  | .flowMappingStart => "\x7b"
  | .flowMappingEnd => "\x7d"
  | .entry => "-"
  | .comma => ","
  | .key => "?"
  | .value => ":"
  | .anchor _ => "<anchor>"
  | .alias _ => "<alias>"
  | .tag _ => "<tag>"
  | .plain _ | .text _ => "<scalar>"
  | .unreadable _ => "<stream end>"

/-- What may turn out to be a key: the number of its first token, and where it starts. At the
indentation of an open block it has to be one. -/
structure Candidate where
  number : Nat
  isRequired : Bool
  index : Nat
  line : Nat
  column : Nat

/-- The greatest number of lists and mappings that may lie in one another. -/
def nestingLimit : Nat := 490

/-- The greatest distance between the start of a key and its colon. -/
def keyLimit : Nat := 1024

/-- Whether a candidate can still be a key when its colon is met here. -/
def Candidate.isLive (k : Candidate) (c : Cursor) : Bool :=
  k.line == c.line && c.index - k.index ≤ keyLimit

/-- Takes a candidate away. One that has to be a key must not be lost. -/
def Candidate.lose (k : Candidate) : Except FormatFault (Option Candidate) :=
  if k.isRequired then .error (.grammar "could not find expected ':'") else .ok none

/-- A text that is being split into tokens. `limit` is its length. The tokens stand in reverse
order, and `count` is their number. `least` is one more than the indentation of the innermost block,
and `outer` are those of the blocks around it. `candidates` has an entry for each open bracket or
brace and one for the text around them, the innermost first. -/
structure Scanner where
  limit : Nat
  cursor : Cursor
  done : List Token := []
  count : Nat := 0
  least : Nat := 0
  outer : List Nat := []
  candidates : List (Option Candidate) := [none]
  mayKey : Bool := true

namespace Scanner

/-- Whether a bracket or a brace is open. -/
def inFlow (s : Scanner) : Bool := s.candidates.length > 1

/-- The number of blocks, brackets and braces that are open. -/
def depth (s : Scanner) : Nat := s.outer.length + s.candidates.length

/-- Adds a token. -/
def emit (t : Token) (s : Scanner) : Scanner :=
  { s with done := t :: s.done, count := s.count + 1 }

/-- Puts a token before that of a number. -/
def insert (t : Token) (number : Nat) (s : Scanner) : Scanner :=
  let later := s.count - number
  { s with done := s.done.take later ++ t :: s.done.drop later, count := s.count + 1 }

/-- Passes over a number of characters. -/
def skip (n : Nat) (s : Scanner) : Scanner := { s with cursor := s.cursor.skip n }

/-- Says whether a key may start here. -/
def allow (mayKey : Bool) (s : Scanner) : Scanner := { s with mayKey }

/-- Opens a block at a column if it is further in than the one that is open. -/
def openBlock? (column : Nat) (s : Scanner) : Option Scanner :=
  if s.least ≤ column then some { s with least := column + 1, outer := s.least :: s.outer }
  else none

/-- Opens a block at the cursor if it is further in than the one that is open, and adds its
token. -/
def openHere (t : Token) (s : Scanner) : Scanner :=
  match s.openBlock? s.cursor.column with
  | some opened => opened.emit t
  | none => s

/-- Closes blocks that hold no more once a block with this `least` is left. None is left inside of
brackets and braces. -/
def closeBlocks (least : Nat) (s : Scanner) : Scanner :=
  let rec close (current closed : Nat) : List Nat → Nat × List Nat × Nat
    | [] => (current, [], closed)
    | around :: outer =>
      if current > least then close around (closed + 1) outer
      else (current, around :: outer, closed)
  if s.inFlow then s
  else
    let (least, outer, closed) := close s.least 0 s.outer
    { s with
      least, outer
      done := List.replicate closed .blockEnd ++ s.done
      count := s.count + closed }

/-- Takes the innermost candidate away. -/
def dropCandidate (s : Scanner) : Except FormatFault Scanner :=
  match s.candidates with
  | some k :: rest => k.lose.map fun left => { s with candidates := left :: rest }
  | _ => .ok s

/-- Takes away the candidates that can be keys no more. -/
def dropStale (s : Scanner) : Except FormatFault Scanner := do
  let candidates ← s.candidates.mapM fun k =>
    match k with
    | none => .ok none
    | some k => if k.isLive s.cursor then .ok (some k) else k.lose
  return { s with candidates }

/-- Notes that what starts here may be a key, where one may start. -/
def noteCandidate (s : Scanner) : Except FormatFault Scanner :=
  if !s.mayKey then .ok s
  else do
    let s ← s.dropCandidate
    let c := s.cursor
    let k : Candidate :=
      ⟨s.count, !s.inFlow && s.least == c.column + 1, c.index, c.line, c.column⟩
    return { s with candidates := some k :: s.candidates.drop 1 }

/-- The characters before the next token, and whether there is a line end among them. A comment
goes to the end of its line. -/
def blanks : (inComment : Bool) → List Char → Nat × Bool
  | _, [] => (0, false)
  | inComment, c :: rest =>
    if isBreak c then let (n, _) := blanks false rest; (n + 1, true)
    else if inComment || c == '#' then let (n, passed) := blanks true rest; (n + 1, passed)
    else if c == ' ' then let (n, passed) := blanks false rest; (n + 1, passed)
    else (0, false)

/-- Goes on to the next token. A new line allows a key again, outside of brackets and braces. -/
def advance (s : Scanner) : Scanner :=
  let s := if s.cursor.index == 0 && s.cursor.rest.head?.any isByteOrderMark then s.skip 1 else s
  let (n, passed) := blanks false s.cursor.rest
  (s.skip n).allow (s.mayKey || (passed && !s.inFlow))

/-- Closes all blocks. No key may follow. -/
def leaveBlocks (s : Scanner) : Except FormatFault Scanner :=
  (s.closeBlocks 0).dropCandidate.map (allow false)

/-- The mark of a document's start or end. -/
def fetchMark (t : Token) (s : Scanner) : Except FormatFault Scanner := do
  let s ← s.leaveBlocks
  return (s.skip 3).emit t

/-- A directive, which takes up its line. -/
def fetchDirective (s : Scanner) : Except FormatFault Scanner := do
  let s ← s.leaveBlocks
  let (directive, rest) ← readDirective (s.cursor.rest.drop 1)
  let behind : Scanner := { s with cursor := s.cursor.skipTo rest }
  return behind.emit (.directive directive)

/-- An opening bracket or brace. -/
def fetchOpening (t : Token) (s : Scanner) : Except FormatFault Scanner := do
  let s ← s.noteCandidate
  let inside : Scanner := { s with candidates := none :: s.candidates, mayKey := true }
  return (inside.skip 1).emit t

/-- A closing bracket or brace. That none is open is only seen when nodes are read. -/
def fetchClosing (t : Token) (s : Scanner) : Except FormatFault Scanner := do
  let s ← s.dropCandidate
  let candidates := match s.candidates with
    | _ :: around :: rest => around :: rest
    | outermost => outermost
  let behind : Scanner := { s with candidates, mayKey := false }
  return (behind.skip 1).emit t

/-- A comma. -/
def fetchComma (s : Scanner) : Except FormatFault Scanner := do
  let s ← s.dropCandidate
  return ((s.allow true).skip 1).emit .comma

/-- The hyphen before an entry of a block list. -/
def fetchEntry (s : Scanner) : Except FormatFault Scanner :=
  if !s.inFlow && !s.mayKey then .error (.grammar "sequence entries are not allowed here")
  else do
    let s := if s.inFlow then s else s.openHere .blockListStart
    let s ← s.dropCandidate
    return ((s.allow true).skip 1).emit .entry

/-- The question mark before a key. -/
def fetchKey (s : Scanner) : Except FormatFault Scanner :=
  if !s.inFlow && !s.mayKey then .error (.grammar "mapping keys are not allowed here")
  else do
    let s := if s.inFlow then s else s.openHere .blockMappingStart
    let s ← s.dropCandidate
    return ((s.allow !s.inFlow).skip 1).emit .key

/-- The colon before a value. If there is a candidate it was the key, and it may start a block of
fields. -/
def fetchValue (s : Scanner) : Except FormatFault Scanner :=
  match s.candidates with
  | some k :: rest =>
    let s : Scanner := { s with candidates := none :: rest, mayKey := false }
    let s := s.insert .key k.number
    let s := match if s.inFlow then none else s.openBlock? k.column with
      | some opened => opened.insert .blockMappingStart k.number
      | none => s
    .ok ((s.skip 1).emit .value)
  | _ =>
    if !s.inFlow && !s.mayKey then .error (.grammar "mapping values are not allowed here")
    else
      let s := if s.inFlow then s else s.openHere .blockMappingStart
      .ok (((s.allow !s.inFlow).skip 1).emit .value)

/-- The name of an anchor behind its mark. -/
def fetchName (token : String → Token) (s : Scanner) : Except FormatFault Scanner := do
  let s ← s.noteCandidate
  let rest := s.cursor.rest.drop 1
  let name := rest.takeWhile isNameChar
  let after := rest.drop name.length
  let mayFollow (c : Char) : Bool := "?:,]\x7d%@".toList.contains c || c.toNat == 0x60
  if name.isEmpty || (!atGap after && !after.head?.any mayFollow) then
    throw (expected "alphabetic or numeric character" after)
  return ((s.allow false).skip (1 + name.length)).emit (token (String.ofList name))

/-- A tag. -/
def fetchTag (s : Scanner) : Except FormatFault Scanner := do
  let s ← s.noteCandidate
  let (mark, rest) ← readTag s.cursor.rest
  let behind : Scanner := { s with cursor := s.cursor.skipTo rest, mayKey := false }
  return behind.emit (.tag mark)

/-- A block of lines. -/
def fetchBlock (style : BlockStyle) (s : Scanner) : Except FormatFault Scanner := do
  let s ← s.dropCandidate
  let scanned ← readBlock style (max 1 s.least) s.cursor.next
  let behind : Scanner := { s with cursor := scanned.stop, mayKey := true }
  return behind.emit (.text (String.ofList scanned.text))

/-- A text in quotes. -/
def fetchQuoted (quote : Char) (s : Scanner) : Except FormatFault Scanner := do
  let s ← s.noteCandidate
  let (size, codes) ← readQuoted quote s.limit (s.cursor.rest.drop 1)
  return ((s.allow false).skip (size + 1)).emit (.text (String.ofList (Text.ofCodes codes)))

/-- A plain scalar. -/
def fetchPlain (s : Scanner) : Except FormatFault Scanner := do
  let s ← s.noteCandidate
  let scanned := readPlain s.inFlow s.least s.limit s.cursor
  let behind : Scanner := { s with cursor := scanned.stop, mayKey := scanned.freed }
  return behind.emit (.plain (String.ofList scanned.text))

/-- The characters that cannot start a plain scalar. -/
def isIndicator (c : Char) : Bool :=
  "-?:,[]\x7b\x7d#&*!|>'\"%@".toList.contains c || c.toNat == 0x60

/-- Whether a plain scalar starts with a character. A hyphen may start one if a word follows, and
outside of brackets and braces a question mark or a colon too. -/
def startsPlain (s : Scanner) (c : Char) (rest : List Char) : Bool :=
  (!isGap c && !isIndicator c) ||
    (!atGap rest && (c == '-' || (!s.inFlow && (c == '?' || c == ':'))))

/-- Reads the token at the cursor, which starts with a character. -/
def fetch (s : Scanner) (c : Char) (rest : List Char) : Except FormatFault Scanner :=
  if c == '%' && s.cursor.column == 0 then s.fetchDirective
  else if s.cursor.column == 0 && atMark (c :: rest) then
    s.fetchMark (if c == '-' then .documentStart else .documentEnd)
  else if c == '[' then s.fetchOpening .flowListStart
  else if c == '\x7b' then s.fetchOpening .flowMappingStart
  else if c == ']' then s.fetchClosing .flowListEnd
  else if c == '\x7d' then s.fetchClosing .flowMappingEnd
  else if c == ',' then s.fetchComma
  else if c == '-' && atGap rest then s.fetchEntry
  else if c == '?' && (s.inFlow || atGap rest) then s.fetchKey
  else if c == ':' && (s.inFlow || atGap rest) then s.fetchValue
  else if c == '*' then s.fetchName .alias
  else if c == '&' then s.fetchName .anchor
  else if c == '!' then s.fetchTag
  else if c == '|' && !s.inFlow then s.fetchBlock .literal
  else if c == '>' && !s.inFlow then s.fetchBlock .folded
  else if c == '\'' || c == '"' then s.fetchQuoted c
  else if s.startsPlain c rest then s.fetchPlain
  else
    .error (.grammar ("found character " ++ Text.quoted (String.ofList [c]) ++
      " that cannot start any token"))

/-- The tokens of a text that cannot be read on. -/
def stopped (s : Scanner) (fault : FormatFault) : List Token :=
  (s.emit (.unreadable fault)).done.reverse

/-- All tokens, once no more can be read. -/
def finish (s : Scanner) : List Token :=
  match s.leaveBlocks with
  | .ok s => s.done.reverse
  | .error fault => s.stopped fault

/-- Reads all tokens. `tokens` bounds their number. -/
def run : (tokens : Nat) → Scanner → List Token
  | 0, s => s.finish
  | tokens + 1, s =>
    match s.advance.dropStale with
    | .error fault => s.stopped fault
    | .ok fresh =>
      let here := fresh.closeBlocks (fresh.cursor.column + 1)
      match here.cursor.rest with
      | [] => here.finish
      | c :: rest =>
        match here.fetch c rest with
        | .error fault => s.stopped fault
        | .ok next =>
          if next.depth > nestingLimit then s.stopped .tooDeep else run tokens next

end Scanner

/-- What is wrong with a text that holds a character which it may not hold. -/
def notAllowed (c : Char) (index : Nat) : FormatFault :=
  .grammar ("unacceptable character #x" ++ String.ofList (Text.hex 4 c.toNat) ++
    ": special characters are not allowed\n  in \"<unicode string>\", position " ++ toString index)

/-- The tokens of a text. -/
def tokens (text : String) : List Token :=
  let chars := text.toList
  let allowed := chars.takeWhile isAllowed
  match chars.drop allowed.length with
  | c :: _ => [.unreadable (notAllowed c allowed.length)]
  | [] => Scanner.run (chars.length + 1) { limit := chars.length, cursor := { rest := chars } }

end DocTree.Yaml
