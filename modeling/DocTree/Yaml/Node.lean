import DocTree.Keyed
import DocTree.Yaml.Tag
import DocTree.Yaml.Token

/-! Nodes of YAML: the scalars, lists and mappings that the tokens of a document form. A node may be
given a tag and a name, and stands again wherever the name is called later. -/

namespace DocTree.Yaml

/-- A node of a document. -/
inductive Node where
  | scalar (tag : Tag) (text : String)
  | list (tag : Tag) (items : List Node)
  | mapping (tag : Tag) (fields : List (Node × Node))
  /-- a node around this one, once more -/
  | again
deriving Inhabited

namespace Node

/-- What a node is taken for. -/
def tag : Node → Tag
  | scalar t _ => t
  | list t _ => t
  | mapping t _ => t
  | again => .unknown ""

/-- The node that stands where nothing is written. -/
def empty : Node := scalar .null ""

/-- The tokens that are still to be read, the nodes that were given a name, and what handles stand
for. A node that is being read has its name already. -/
structure Rest where
  tokens : List Token
  named : List (String × Node) := []
  handles : List (String × String) := []

/-- The rest without its first token. -/
def Rest.tail (r : Rest) : Rest := { r with tokens := r.tokens.drop 1 }

/-- What is wrong where the next token does not fit. What was expected is told before it. -/
def Rest.fault (r : Rest) (start : String) : FormatFault :=
  let problem (label : String) : FormatFault := .grammar (start ++ Text.quoted label)
  match r.tokens with
  | .unreadable fault :: _ => fault
  | t :: _ => problem t.label
  | [] => problem "<stream end>"

/-- What is wrong where a node has to stand. -/
def Rest.noNode (r : Rest) : FormatFault := r.fault "expected the node content, but found "

/-- What is wrong where a block has to end. -/
def Rest.noBlockEnd (r : Rest) : FormatFault := r.fault "expected <block end>, but found "

/-- What is wrong where the items of a list or a mapping in brackets or braces have to go on or to
end. -/
def Rest.noComma (r : Rest) (closing : Token) : FormatFault :=
  r.fault ("expected ',' or '" ++ closing.label ++ "', but got ")

/-- What kind of node may stand at a place: any, any or a list at the indentation of its key, or
none that is a block. -/
inductive Place where
  | block
  | field
  | flow
deriving DecidableEq

/-- A node that was read, and what follows it. -/
abbrev Read : Type := Except FormatFault (Node × Rest)

/-- What is written before a node: its tag and its name. -/
structure Properties where
  tag : Option String := none
  name : Option String := none

/-- The name of a tag as it is written. Its handle has to be known. -/
def tagName (handles : List (String × String)) (mark : TagMark) : Except FormatFault String :=
  match mark.handle with
  | none => .ok mark.suffix
  | some handle =>
    match Keyed.get? handle handles with
    | some stem => .ok (stem ++ mark.suffix)
    | none => .error (.grammar ("found undefined tag handle " ++ Text.quoted handle))

/-- The tag of a scalar. A lone exclamation mark leaves it to the text, like nothing before a plain
scalar. -/
def Properties.scalarTag (p : Properties) (isPlain : Bool) (text : String) : Tag :=
  match p.tag with
  | none => if isPlain then .ofText text else .text
  | some "!" => .ofText text
  | some name => .ofName name

/-- The tag of a list or a mapping, which is usually that of its form. -/
def Properties.nodeTag (p : Properties) (usual : Tag) : Tag :=
  match p.tag with
  | none => usual
  | some "!" => usual
  | some name => .ofName name

/-- Reads what is written before a node: a tag and a name in any order. -/
def readProperties (r : Rest) : Except FormatFault (Properties × Rest) :=
  let ofTag (mark : TagMark) (name : Option String) (rest : List Token) :=
    (tagName r.handles mark).map fun tag => (⟨some tag, name⟩, { r with tokens := rest })
  match r.tokens with
  | .anchor name :: .tag mark :: rest => ofTag mark (some name) rest
  | .tag mark :: .anchor name :: rest => ofTag mark (some name) rest
  | .tag mark :: rest => ofTag mark none rest
  | .anchor name :: rest => .ok (⟨none, some name⟩, { r with tokens := rest })
  | _ => .ok ({}, r)

/-- Whether a token starts a node at a place. -/
def startsNode (place : Place) : Token → Bool
  | .plain _ | .text _ | .flowListStart | .flowMappingStart => true
  | .blockListStart | .blockMappingStart => place != .flow
  | .entry => place == .field
  | _ => false

/-- What follows the comma before an item. There is none before the first item, and none is needed
before the closing token. -/
def afterComma (isFirst : Bool) (closing : Token) (r : Rest) : Except FormatFault Rest :=
  match r.tokens with
  | .comma :: _ => .ok (if isFirst then r else r.tail)
  | t :: _ => if isFirst || t == closing then .ok r else .error (r.noComma closing)
  | [] => .error (r.noComma closing)

mutual

/-- Reads a node, with what is written before it. `fuel` bounds the depth of the calls. -/
def read : (fuel : Nat) → Place → Rest → Read
  | 0, _, r => .error r.noNode
  | fuel + 1, place, r =>
    match r.tokens with
    | .alias name :: _ =>
      match Keyed.get? name r.named with
      | some node => .ok (node, r.tail)
      | none => .error (.grammar ("found undefined alias " ++ Text.quoted name))
    | _ =>
      match readProperties r with
      | .error fault => .error fault
      | .ok (p, after) =>
        match p.name with
        | none => readContent fuel place p after
        | some name =>
          if Keyed.has name after.named then
            .error (.grammar ("found duplicate anchor " ++ Text.quoted name ++
              "; first occurrence\nsecond occurrence"))
          else
            let inside := { after with named := (name, .again) :: after.named }
            match readContent fuel place p inside with
            | .error fault => .error fault
            | .ok (node, r) => .ok (node, { r with named := Keyed.put name node r.named })

/-- Reads a node behind its tag and its name. If it has one of them, it may be empty. -/
def readContent : (fuel : Nat) → Place → Properties → Rest → Read
  | 0, _, _, r => .error r.noNode
  | fuel + 1, place, p, r =>
    if !r.tokens.head?.any (startsNode place) then
      if p.tag.isNone && p.name.isNone then .error r.noNode
      else .ok (scalar (p.scalarTag true "") "", r)
    else match r.tokens with
      | .plain s :: _ => .ok (scalar (p.scalarTag true s) s, r.tail)
      | .text s :: _ => .ok (scalar (p.scalarTag false s) s, r.tail)
      | .flowListStart :: _ => readFlowList fuel (p.nodeTag .list) true [] r.tail
      | .flowMappingStart :: _ => readFlowMapping fuel (p.nodeTag .mapping) true [] r.tail
      | .blockListStart :: _ => readEntries fuel (p.nodeTag .list) true [] r.tail
      | .blockMappingStart :: _ => readFields fuel (p.nodeTag .mapping) [] r.tail
      | _ => readEntries fuel (p.nodeTag .list) false [] r

/-- Reads the entries of a block list. One that is indented further than its key is closed by a
token; any other ends before the first token that is no entry. -/
def readEntries : (fuel : Nat) → Tag → (isClosed : Bool) → List Node → Rest → Read
  | 0, _, _, _, r => .error r.noNode
  | fuel + 1, tag, isClosed, done, r =>
    match r.tokens with
    | .entry :: _ =>
      let stops : List Token :=
        if isClosed then [.entry, .blockEnd] else [.entry, .key, .value, .blockEnd]
      match readUnless fuel .block stops r.tail with
      | .error fault => .error fault
      | .ok (item, r) => readEntries fuel tag isClosed (item :: done) r
    | .blockEnd :: _ => .ok (list tag done.reverse, if isClosed then r.tail else r)
    | _ => if isClosed then .error r.noBlockEnd else .ok (list tag done.reverse, r)

/-- Reads the fields of a block mapping. -/
def readFields : (fuel : Nat) → Tag → List (Node × Node) → Rest → Read
  | 0, _, _, r => .error r.noNode
  | fuel + 1, tag, done, r =>
    match r.tokens with
    | .key :: _ =>
      match readPair fuel .field [.key, .value, .blockEnd] r.tail with
      | .error fault => .error fault
      | .ok (pair, r) => readFields fuel tag (pair :: done) r
    | .blockEnd :: _ => .ok (mapping tag done.reverse, r.tail)
    | _ => .error r.noBlockEnd

/-- Reads the items of a list in brackets. An item may be a single field. -/
def readFlowList : (fuel : Nat) → Tag → (isFirst : Bool) → List Node → Rest → Read
  | 0, _, _, _, r => .error r.noNode
  | fuel + 1, tag, isFirst, done, r =>
    match afterComma isFirst .flowListEnd r with
    | .error fault => .error fault
    | .ok r =>
      match r.tokens with
      | .flowListEnd :: _ => .ok (list tag done.reverse, r.tail)
      | .key :: _ =>
        match readPair fuel .flow [.value, .comma, .flowListEnd] r.tail with
        | .error fault => .error fault
        | .ok (pair, r) => readFlowList fuel tag false (mapping .mapping [pair] :: done) r
      | _ =>
        match read fuel .flow r with
        | .error fault => .error fault
        | .ok (item, r) => readFlowList fuel tag false (item :: done) r

/-- Reads the fields of a mapping in braces. A key may stand alone. -/
def readFlowMapping : (fuel : Nat) → Tag → (isFirst : Bool) → List (Node × Node) → Rest → Read
  | 0, _, _, _, r => .error r.noNode
  | fuel + 1, tag, isFirst, done, r =>
    match afterComma isFirst .flowMappingEnd r with
    | .error fault => .error fault
    | .ok r =>
      match r.tokens with
      | .flowMappingEnd :: _ => .ok (mapping tag done.reverse, r.tail)
      | .key :: _ =>
        match readPair fuel .flow [.value, .comma, .flowMappingEnd] r.tail with
        | .error fault => .error fault
        | .ok (pair, r) => readFlowMapping fuel tag false (pair :: done) r
      | _ =>
        match read fuel .flow r with
        | .error fault => .error fault
        | .ok (key, r) => readFlowMapping fuel tag false ((key, empty) :: done) r

/-- Reads a key and its value. Both may be empty, and are before one of the tokens `stops`. -/
def readPair : (fuel : Nat) → Place → (stops : List Token) → Rest →
    Except FormatFault ((Node × Node) × Rest)
  | 0, _, _, r => .error r.noNode
  | fuel + 1, place, stops, r =>
    match readUnless fuel place stops r with
    | .error fault => .error fault
    | .ok (key, r) =>
      match r.tokens with
      | .value :: _ =>
        let stops := if place == .flow then stops.filter (· != .value) else stops
        match readUnless fuel place stops r.tail with
        | .error fault => .error fault
        | .ok (value, r) => .ok ((key, value), r)
      | _ => .ok ((key, empty), r)

/-- Reads a node, or the empty one before one of the tokens `stops`. -/
def readUnless : (fuel : Nat) → Place → (stops : List Token) → Rest → Read
  | 0, _, _, r => .error r.noNode
  | fuel + 1, place, stops, r =>
    if r.tokens.head?.any stops.contains then .ok (empty, r) else read fuel place r

end

/-- What handles stand for where no directive says it. -/
def usualHandles : List (String × String) := [("!", "!"), ("!!", Tag.stem)]

/-- Reads the directives before a document. Only one may give the version, and only one may declare
a handle. -/
def readDirectives (hasVersion : Bool) (handles : List (String × String)) :
    List Token → Except FormatFault Rest
  | .directive (.version major) :: rest =>
    if hasVersion then .error (.grammar "found duplicate YAML directive")
    else if major != 1 then
      .error (.grammar "found incompatible YAML document (version 1.* is required)")
    else readDirectives true handles rest
  | .directive (.handle handle stem) :: rest =>
    if Keyed.has handle handles then
      .error (.grammar ("duplicate tag handle " ++ Text.quoted handle))
    else readDirectives hasVersion ((handle, stem) :: handles) rest
  | .directive .other :: rest => readDirectives hasVersion handles rest
  | rest => .ok { tokens := rest, handles := handles ++ usualHandles }

/-- Reads the start of a document that does not go without it: directives and the mark. -/
def readStart (tokens : List Token) : Except FormatFault Rest := do
  let r ← readDirectives false [] tokens
  if r.tokens.head? == some .documentStart then return r.tail
  else throw (r.fault "expected '<document start>', but found ")

/-- Whether a token leaves the document empty that it stands in. -/
def endsDocument : Token → Bool
  | .directive _ | .documentStart | .documentEnd => true
  | _ => false

/-- The node that the tokens of a text form: a single document, whose marks may be left out unless
there are directives. -/
def ofTokens (tokens : List Token) : Except FormatFault Node := do
  let isBare := !tokens.head?.any fun t => t matches .directive _ || t matches .documentStart
  let start ← if isBare then pure { tokens, handles := usualHandles } else readStart tokens
  let (node, r) ←
    if start.tokens.isEmpty || (!isBare && start.tokens.head?.any endsDocument) then
      pure (empty, start)
    else read (4 * start.tokens.length + 4) .block start
  match r.tokens.dropWhile (· == .documentEnd) with
  | [] => return node
  | more => do
    let _ ← readStart more
    throw (.grammar "expected a single document in the stream\nbut found another document")

end Node

end DocTree.Yaml
