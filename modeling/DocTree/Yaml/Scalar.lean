import DocTree.FormatFault
import DocTree.Text.CodePoint
import DocTree.Yaml.Cursor

/-! Scalars of YAML as they are written: plain words, which may go over several lines, texts in
quotes, and blocks of lines. -/

namespace DocTree.Yaml

/-- A scalar that was read, and where it ends. `freed` says whether the last gap that was passed
holds a line end, so that a key may follow. -/
structure Scanned where
  text : List Char
  stop : Cursor
  freed : Bool := false

/-- The characters that end a plain word inside brackets and braces. -/
def isFlowMark (c : Char) : Bool := ",?[]\x7b\x7d".toList.contains c

/-- Whether a colon before a place ends a plain word. -/
def endsKey (inFlow : Bool) (rest : List Char) : Bool :=
  atGap rest || (inFlow && rest.head?.any fun c => isFlowMark c && c != '?')

/-- The plain word at the start of a text. -/
def plainWord (inFlow : Bool) : List Char → List Char
  | [] => []
  | c :: rest =>
    if isGap c || (c == ':' && endsKey inFlow rest) || (inFlow && isFlowMark c) then []
    else c :: plainWord inFlow rest

/-- A gap between two words: the number of its characters, and what it stands for. -/
structure Gap where
  size : Nat := 0
  text : List Char := []
  freed : Bool := false

/-- The lines behind the first line end of a gap: the number of characters, and the line ends;
nothing to go on with if the mark of a document follows. -/
def gapLines : List Char → Nat × Option (List Char)
  | [] => (0, some [])
  | c :: rest =>
    if c == ' ' then let (n, ends) := gapLines rest; (n + 1, ends)
    else if isBreak c then
      if atMark rest then (1, none)
      else let (n, ends) := gapLines rest; (n + 1, ends.map (breakText c :: ·))
    else (0, some [])

/-- The gap behind a plain word. It has no text if the scalar ends here. -/
def plainGap (s : List Char) : Gap :=
  let spaces := s.takeWhile (· == ' ')
  match s.dropWhile (· == ' ') with
  | [] => ⟨spaces.length, spaces, false⟩
  | c :: rest =>
    if !isBreak c then ⟨spaces.length, spaces, false⟩
    else if atMark rest then ⟨spaces.length + 1, [], true⟩
    else match gapLines rest with
      | (n, some ends) => ⟨spaces.length + 1 + n, foldBreaks (breakText c) ends, true⟩
      | (n, none) => ⟨spaces.length + 1 + n, [], true⟩

/-- Reads a plain scalar: words with gaps between them. Outside of brackets and braces its lines are
indented to `least`. `words` bounds the number of words. -/
def readPlain (inFlow : Bool) (least : Nat) : (words : Nat) → Cursor → Scanned
  | 0, c => ⟨[], c, false⟩
  | words + 1, c =>
    let word := plainWord inFlow c.rest
    let behind := c.skip word.length
    let gap := plainGap behind.rest
    let after := behind.skip gap.size
    if word.isEmpty then ⟨[], c, false⟩
    else if gap.text.isEmpty || after.rest.head? == some '#' ||
        (!inFlow && after.column < least) then ⟨word, after, gap.freed⟩
    else
      let more := readPlain inFlow least words after
      if more.text.isEmpty then ⟨word, after, gap.freed⟩
      else ⟨word ++ gap.text ++ more.text, more.stop, more.freed⟩

/-- What is wrong with a text in quotes that is not closed. -/
def endOfText : FormatFault := .grammar "found unexpected end of stream"

/-- Blanks and line ends inside quotes: the number of characters, and the line ends. The mark of a
document must not stand at the start of a line. -/
def quotedLines : (atStart : Bool) → List Char → Except FormatFault (Nat × List Char)
  | _, [] => .ok (0, [])
  | atStart, c :: rest =>
    if atStart && atMark (c :: rest) then .error (.grammar "found unexpected document separator")
    else if isSpace c then (quotedLines false rest).map fun r => (r.1 + 1, r.2)
    else if isBreak c then (quotedLines true rest).map fun r => (r.1 + 1, breakText c :: r.2)
    else .ok (0, [])

/-- A gap inside quotes: the number of characters, and what it stands for. Blanks within a line
stay. -/
def quotedGap (s : List Char) : Except FormatFault (Nat × List Char) :=
  let spaces := s.takeWhile isSpace
  match s.dropWhile isSpace with
  | [] => .error endOfText
  | c :: rest =>
    if isBreak c then
      (quotedLines true rest).map fun r =>
        (spaces.length + 1 + r.1, foldBreaks (breakText c) r.2)
    else .ok (spaces.length, spaces)

/-- The character that a letter stands for behind a backslash. -/
def escaped? : Char → Option Char
  | '0' => some '\x00'
  | 'a' => some '\x07'
  | 'b' => some '\x08'
  | 't' => some '\t'
  | '\t' => some '\t'
  | 'n' => some '\n'
  | 'v' => some '\x0b'
  | 'f' => some '\x0c'
  | 'r' => some '\r'
  | 'e' => some '\x1b'
  | ' ' => some ' '
  | '"' => some '"'
  | '/' => some '/'
  | '\\' => some '\\'
  | 'N' => some '\x85'
  | '_' => some '\xa0'
  | 'L' => some '\u2028'
  | 'P' => some '\u2029'
  | _ => none

/-- The number of hexadecimal digits behind an escape of this letter. -/
def escapeWidth? : Char → Option Nat
  | 'x' => some 2
  | 'u' => some 4
  | 'U' => some 8
  | _ => none

/-- The code point that a number of hexadecimal digits give. -/
def hexCode (width : Nat) (s : List Char) : Except FormatFault Nat :=
  let digits := s.take width
  match digits.foldlM (fun (n : Nat) c => (Text.hexDigit? c).map (n * 16 + ·)) 0 with
  | some n =>
    if digits.length < width then .error (expectedDigits "escape sequence" width s)
    else if n < Text.codeLimit then .ok n
    else .error (.notCharacter n)
  | none => .error (expectedDigits "escape sequence" width s)

/-- What stands behind a backslash: the number of characters, and the code points that they mean. -/
def readEscape (s : List Char) : Except FormatFault (Nat × List Nat) :=
  let e := s.headD '\x00'
  if isBreak e then (quotedLines true s.tail).map fun r => (r.1 + 1, r.2.map Char.toNat)
  else match s.head?.bind escaped?, escapeWidth? e with
    | some ch, _ => .ok (1, [ch.toNat])
    | none, some width => (hexCode width s.tail).map fun n => (width + 1, [n])
    | none, none =>
      .error (.grammar ("found unknown escape character " ++ Text.quoted (String.ofList [e])))

/-- Reads the rest of a text in quotes behind the opening quote: the number of characters up to and
with the closing quote, and the code points. In single quotes two quotes stand for one. `steps`
bounds the number of parts. -/
def readQuoted (quote : Char) : (steps : Nat) → List Char → Except FormatFault (Nat × List Nat)
  | 0, _ => .error endOfText
  | _, [] => .error endOfText
  | steps + 1, c :: rest =>
    let goOn (size : Nat) (codes : List Nat) : Except FormatFault (Nat × List Nat) :=
      (readQuoted quote steps ((c :: rest).drop size)).map fun r => (size + r.1, codes ++ r.2)
    if c == quote then
      if quote == '\'' && rest.head? == some '\'' then goOn 2 [c.toNat] else .ok (1, [])
    else if c == '\\' && quote == '"' then
      match readEscape rest with
      | .ok (size, codes) => goOn (size + 1) codes
      | .error fault => .error fault
    else if isGap c then
      match quotedGap (c :: rest) with
      | .ok (size, text) => goOn size (text.map Char.toNat)
      | .error fault => .error fault
    else goOn 1 [c.toNat]

/-- What becomes of the line ends at the end of a block: one is left, none, or all. -/
inductive Chomp where
  | clip
  | strip
  | keep
deriving DecidableEq

/-- The mark for the line ends of a block. -/
def Chomp.ofChar? : Char → Option Chomp
  | '-' => some .strip
  | '+' => some .keep
  | _ => none

/-- The end of a block: that of its last line, and those behind it. -/
def Chomp.ending (chomp : Chomp) (last more : List Char) : List Char :=
  match chomp with
  | .clip => last
  | .strip => []
  | .keep => last ++ more

/-- The digit in the head of a block that gives its indentation. -/
def indentDigit? (c : Char) : Option Nat :=
  if c.isDigit then some (c.toNat - '0'.toNat) else none

/-- The head of a block behind its first mark: what becomes of line ends, the indentation if it is
given, and the number of characters. -/
def blockMarks (s : List Char) : Chomp × Option Nat × Nat :=
  let first := s.head?
  let second := (s.drop 1).head?
  match first.bind Chomp.ofChar?, first.bind indentDigit? with
  | some chomp, _ =>
    match second.bind indentDigit? with
    | some digit => (chomp, some digit, 2)
    | none => (chomp, none, 1)
  | none, some digit =>
    match second.bind Chomp.ofChar? with
    | some chomp => (chomp, some digit, 2)
    | none => (.clip, some digit, 1)
  | none, none => (.clip, none, 0)

/-- Passes over the rest of a block's first line, which may only hold a comment behind spaces. -/
def blockStart (c : Cursor) : Except FormatFault Cursor :=
  if c.rest.head?.any fun ch => ch != ' ' && !isBreak ch then
    .error (expected "chomping or indentation indicators" c.rest)
  else
    let c := c.skip (c.rest.takeWhile (· == ' ')).length
    let comment := if c.rest.head? == some '#' then c.rest.takeWhile (!isBreak ·) else []
    let c := c.skip comment.length
    if c.rest.head?.any (!isBreak ·) then .error (expected "a comment or a line break" c.rest)
    else .ok c.next

/-- The empty lines before the text of a block, and the widest of them: the number of characters,
the line ends, and the column. -/
def blockLead : (column : Nat) → List Char → Nat × List Char × Nat
  | _, [] => (0, [], 0)
  | column, c :: rest =>
    if c == ' ' then
      let (n, ends, widest) := blockLead (column + 1) rest
      (n + 1, ends, max (column + 1) widest)
    else if isBreak c then
      let (n, ends, widest) := blockLead 0 rest
      (n + 1, breakText c :: ends, widest)
    else (0, [], 0)

/-- Empty lines and the indentation of the next line, up to a column: the number of characters, and
the line ends. -/
def blockGap (indent : Nat) : (column : Nat) → List Char → Nat × List Char
  | _, [] => (0, [])
  | column, c :: rest =>
    if c == ' ' then
      if column < indent then let (n, ends) := blockGap indent (column + 1) rest; (n + 1, ends)
      else (0, [])
    else if isBreak c then
      let (n, ends) := blockGap indent 0 rest
      (n + 1, breakText c :: ends)
    else (0, [])

/-- The style of a block: its lines are kept, or those that start with no blank are joined. -/
inductive BlockStyle where
  | literal
  | folded
deriving DecidableEq

/-- What stands between two lines of a block, with `ends` as the empty lines between them. -/
def lineJoint (style : BlockStyle) (line lineEnd ends next : List Char) : List Char :=
  let startsBlank (s : List Char) : Bool := s.head?.any isSpace
  if style == .folded && lineEnd == ['\n'] && !startsBlank line && !startsBlank next then
    if ends.isEmpty then [' '] else []
  else lineEnd

/-- Reads the lines of a block from a line that is indented to `indent`, with `ends` as the empty
lines before it. `lines` bounds their number. -/
def blockLines (style : BlockStyle) (chomp : Chomp) (indent : Nat) :
    (lines : Nat) → (ends : List Char) → Cursor → Scanned
  | 0, _, c => ⟨[], c, true⟩
  | lines + 1, ends, c =>
    let line := c.rest.takeWhile (!isBreak ·)
    let c := c.skip line.length
    let lineEnd := (c.rest.take 1).map breakText
    let c := c.next
    let (n, more) := blockGap indent c.column c.rest
    let c := c.skip n
    if c.column == indent && !c.rest.isEmpty then
      let behind := blockLines style chomp indent lines more c
      ⟨ends ++ line ++ lineJoint style line lineEnd more c.rest ++ behind.text, behind.stop, true⟩
    else ⟨ends ++ line ++ chomp.ending lineEnd more, c, true⟩

/-- Reads a block behind its first mark. Without a given indentation, which is not zero, the widest
line before the text tells it; it is at least `least`. -/
def readBlock (style : BlockStyle) (least : Nat) (c : Cursor) : Except FormatFault Scanned :=
  let (chomp, given, size) := blockMarks c.rest
  if given == some 0 then
    .error (.grammar "expected indentation indicator in the range 1-9, but found 0")
  else
    match blockStart (c.skip size) with
    | .error fault => .error fault
    | .ok c =>
      let (n, ends, indent) := match given with
        | some digit =>
          let indent := least + digit - 1
          let (n, ends) := blockGap indent c.column c.rest
          (n, ends, indent)
        | none =>
          let (n, ends, widest) := blockLead c.column c.rest
          (n, ends, max least widest)
      let c := c.skip n
      if c.column == indent && !c.rest.isEmpty then
        .ok (blockLines style chomp indent c.rest.length ends c)
      else .ok ⟨chomp.ending [] ends, c, true⟩

end DocTree.Yaml
