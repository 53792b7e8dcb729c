import DocTree.Failure
import DocTree.Kind

/-! Declarations: the tree of exports, members and parameters that a declaration document
describes. -/

namespace DocTree

/-- What a declaration says about the item itself. -/
structure Heading where
  name : String
  kind : Kind
  comment : String := ""
  signature : String := ""
  location : String := ""
deriving DecidableEq, Repr, Inhabited

/-- A declaration with its members and parameters. -/
inductive Declaration where
  | mk (heading : Heading) (members parameters : List Declaration)

namespace Declaration

/-- What the declaration says about the item itself. -/
def heading : Declaration → Heading
  | mk h _ _ => h

/-- The members, in the order in which their names were first declared. -/
def members : Declaration → List Declaration
  | mk _ ms _ => ms

/-- The parameters in order. -/
def parameters : Declaration → List Declaration
  | mk _ _ ps => ps

/-- Adds a member: in the place of one of the same name if there is one, at the end otherwise. -/
def insert (d : Declaration) : List Declaration → List Declaration
  | [] => [d]
  | e :: rest =>
    if e.heading.name == d.heading.name then d :: rest else e :: insert d rest

/-- Members by name: of several with one name, the last stands in the place of the first. -/
def byName (declared : List Declaration) : List Declaration :=
  declared.foldl (fun ds d => insert d ds) []

mutual

/-- A comment, given as a text or as a list of lines, each of which may be given in this way. -/
def commentText : Value → String
  | .null => ""
  | .string s => s
  | .list lines => Text.join "\n" (commentLines lines)
  | v => v.text

/-- The texts of the lines of a comment. -/
def commentLines : List Value → List String
  | [] => []
  | v :: rest => commentText v :: commentLines rest

end

/-- The text of a field, empty if it is absent or stands for nothing. -/
def optionalText (key : String) (fields : Fields) : String :=
  (Value.orEmpty (.string "") (Keyed.get? (.text key) fields)).text

/-- The text of a field, whatever it holds. -/
def anyText (key : String) (fields : Fields) : String :=
  ((Keyed.get? (.text key) fields).getD .null).text

/-- The kind that a declaration states. Where there is a default, the kind may be left out. -/
def kindOf (default : Option Kind) (fields : Fields) :
    Except DeclarationFault Kind :=
  match (Keyed.get? (.text "kind") fields).getD .null, default with
  | .null, some kind => .ok kind
  | .null, none => .error (.noKind (anyText "name" fields))
  | v, _ =>
    match Kind.ofName? v.text with
    | some kind => .ok kind
    | none => .error (.unknownKind (anyText "name" fields) v.text)

/-- What the fields of a declaration say about the item itself. -/
def headingOf (default : Option Kind) (fields : Fields) :
    Except DeclarationFault Heading :=
  (kindOf default fields).map fun kind => {
    name := anyText "name" fields
    kind
    comment := commentText ((Keyed.get? (.text "comment") fields).getD .null)
    signature := optionalText "signature" fields
    location := optionalText "location" fields }

/-- A well-formed entry of a list of declarations is an object with a name. -/
def isNamed (fields : Fields) : Bool :=
  (Value.orEmpty .null (Keyed.get? (.text "name") fields)).isGiven

mutual

/-- The declaration that the fields of an object describe. -/
def ofFields (default : Option Kind) (fields : Fields) :
    Except Failure Declaration :=
  match headingOf default fields with
  | .error f => .error (.declaration f)
  | .ok heading =>
    match listOf "members" none fields with
    | .error f => .error f
    | .ok members =>
      match listOf "parameters" (some .parameter) fields with
      | .error f => .error f
      | .ok parameters => .ok (mk heading (byName members) parameters)
termination_by (sizeOf fields, 1)

/-- The declarations in a field, which is a list or stands for nothing. Texts and objects have no
well-formed entries. -/
def listOf (key : String) (default : Option Kind) (fields : Fields) :
    Except Failure (List Declaration) :=
  match h : Keyed.get? (.text key) fields with
  | some (.list entries) =>
    have := Keyed.sizeOf_get? h
    have : sizeOf entries < sizeOf fields := by
      have hlist : sizeOf (Value.list entries) = 1 + sizeOf entries := by simp
      omega
    ofEntries default entries
  | some v =>
    match v.items with
    | .ok _ => .ok []
    | .error m => if v.isGiven then .error (.mismatch m) else .ok []
  | none => .ok []
termination_by (sizeOf fields, 0)

/-- The declarations that the well-formed entries of a list describe. The others are passed
over. -/
def ofEntries (default : Option Kind) (entries : List Value) :
    Except Failure (List Declaration) :=
  match entries with
  | [] => .ok []
  | .object fields :: rest =>
    if isNamed fields then
      match ofFields default fields with
      | .error f => .error f
      | .ok d => (ofEntries default rest).map (d :: ·)
    else ofEntries default rest
  | _ :: rest => ofEntries default rest
termination_by (sizeOf entries, 0)

end

/-- The declaration that a value describes, which has to be an object with a name. -/
def ofValue (default : Option Kind) (v : Value) : Except Failure Declaration :=
  match v with
  | .object fields =>
    if Keyed.has (.text "name") fields then ofFields default fields else .error (.mismatch .noKey)
  | _ => .error (.mismatch .noParts)

/-- The package that a document describes, as the declaration of its exports. -/
def ofDocument (document : Value) : Except Failure Declaration :=
  match document with
  | .object top =>
    match Keyed.get? (.text "package") top with
    | some (.object fields) =>
      if isNamed fields then
        (listOf "exports" none fields).map fun exports =>
          mk { name := anyText "name" fields
               kind := .package
               comment := commentText ((Keyed.get? (.text "comment") fields).getD .null)
               location := optionalText "location" fields } (byName exports) []
      else .error (.declaration .noPackage)
    | _ => .error (.declaration .noPackage)
  | _ => .error (.mismatch .noFields)

end Declaration

end DocTree
