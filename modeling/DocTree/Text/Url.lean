import DocTree.Text.Split

/-! URLs: their parts, and what a relative one stands for beside a base. -/

namespace DocTree.Text

/-- The parts of a URL. -/
structure Url where
  scheme : List Char
  host : List Char
  path : List Char
  parameters : List Char
  query : List Char
  fragment : List Char

namespace Url

/-- The schemes whose URLs can be relative to one another. -/
def relativeSchemes : List String :=
  ["", "ftp", "http", "gopher", "nntp", "imap", "wais", "file", "https", "shttp", "mms", "prospero",
   "rtsp", "rtsps", "rtspu", "sftp", "svn", "svn+ssh", "ws", "wss"]

/-- The schemes whose URLs name a host. -/
def hostSchemes : List String :=
  ["", "ftp", "http", "gopher", "nntp", "telnet", "imap", "wais", "file", "mms", "https", "shttp",
   "snews", "prospero", "rtsp", "rtsps", "rtspu", "rsync", "svn", "svn+ssh", "sftp", "nfs", "git",
   "git+ssh", "ws", "wss"]

/-- The schemes whose URLs may have parameters in the last segment of their path. -/
def parameterSchemes : List String :=
  ["", "ftp", "hdl", "prospero", "http", "imap", "https", "shttp", "rtsp", "rtsps", "rtspu", "sip",
   "sips", "mms", "sftp", "tel"]

/-- Whether a scheme is in a list. -/
def isAmong (schemes : List String) (scheme : List Char) : Bool :=
  schemes.contains (String.ofList scheme)

/-- The scheme of a URL and the rest, if there is a scheme. -/
def scheme? (s : List Char) : Option (List Char × List Char) :=
  match cut ':' s with
  | (scheme, some rest) =>
    if scheme.head?.any Char.isAlpha &&
        scheme.all (fun c => c.isAlphanum || c == '+' || c == '-' || c == '.')
    then some (scheme.map Char.toLower, rest) else none
  | (_, none) => none

/-- A path without the parameters of its last segment, and the parameters, which a semicolon sets
apart. -/
def cutParameters (path : List Char) : List Char × List Char :=
  let isName (c : Char) : Bool := c != '/'
  let (name, parameters) := cut ';' (path.reverse.takeWhile isName).reverse
  ((path.reverse.dropWhile isName).reverse ++ name, parameters.getD [])

/-- The parts of a text that is a URL, with a scheme for one that has none. Control characters do
not count at the start, and tabs and line ends nowhere. -/
def ofText (usual : List Char) (text : List Char) : Url :=
  let s := (text.dropWhile (·.toNat ≤ 32)).filter fun c => c != '\t' && c != '\r' && c != '\n'
  let (scheme, s) := (scheme? s).getD (usual, s)
  let isPart (c : Char) : Bool := c != '/' && c != '?' && c != '#'
  let (host, s) := match s with
    | '/' :: '/' :: rest => rest.span isPart
    | other => ([], other)
  let (s, fragment) := cut '#' s
  let (path, query) := cut '?' s
  let (path, parameters) :=
    if isAmong parameterSchemes scheme then cutParameters path else (path, [])
  ⟨scheme, host, path, parameters, query.getD [], fragment.getD []⟩

/-- The text of a URL. Empty parts leave no mark. -/
def text (u : Url) : List Char :=
  let namesHost := !u.host.isEmpty || (!u.scheme.isEmpty && isAmong hostSchemes u.scheme) ||
    "//".toList.isPrefixOf u.path
  let path := u.path ++ (if u.parameters.isEmpty then [] else ';' :: u.parameters)
  let path :=
    if !namesHost then path
    else "//".toList ++ u.host ++
      (if path.isEmpty || path.head? == some '/' then path else '/' :: path)
  (if u.scheme.isEmpty then [] else u.scheme ++ [':']) ++ path ++
    (if u.query.isEmpty then [] else '?' :: u.query) ++
    (if u.fragment.isEmpty then [] else '#' :: u.fragment)

/-- The segments that are left once single dots are dropped and double dots lead back. -/
def settled (segments : List (List Char)) : List (List Char) :=
  let kept := segments.foldl (fun (done : List (List Char)) s =>
    if s == ['.', '.'] then done.drop 1 else if s == ['.'] then done else s :: done) []
  let isDots (s : List Char) : Bool := s == ['.'] || s == ['.', '.']
  (if segments.getLast?.any isDots then [] :: kept else kept).reverse

/-- A path beside the path of a base, whose last segment does not count unless it is empty. -/
def joinPaths (base path : List Char) : List Char :=
  let folder := base.splitOn '/'
  let folder := if folder.getLast? == some [] then folder else folder.dropLast
  let segments :=
    if path.head? == some '/' then path.splitOn '/'
    else
      let all := folder ++ path.splitOn '/'
      all.take 1 ++ ((all.drop 1).dropLast.filter fun s => !s.isEmpty) ++
        (if all.length > 1 then all.getLast?.toList else [])
  match ['/'].intercalate (settled segments) with
  | [] => ['/']
  | joined => joined

/-- The URL that a text stands for beside a base. -/
def join (base text : String) : String :=
  if base == "" then text
  else if text == "" then base
  else
    let b := ofText [] base.toList
    let u := ofText b.scheme text.toList
    if u.scheme != b.scheme || !isAmong relativeSchemes u.scheme then text
    else if isAmong hostSchemes u.scheme && !u.host.isEmpty then String.ofList u.text
    else
      let host := if isAmong hostSchemes u.scheme then b.host else u.host
      let u : Url := { u with host }
      String.ofList <| Url.text <|
        if u.path.isEmpty && u.parameters.isEmpty then
          { u with
            path := b.path
            parameters := b.parameters
            query := if u.query.isEmpty then b.query else u.query }
        else { u with path := joinPaths b.path u.path }

/-- A URL without its fragment, and the fragment. -/
def defragmented (s : String) : String × List Char :=
  if !s.toList.contains '#' then (s, [])
  else
    let u := ofText [] s.toList
    (String.ofList (Url.text { u with fragment := [] }), u.fragment)

end Url

end DocTree.Text
