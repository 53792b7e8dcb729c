import DocTree.Path
import DocTree.Text.Digit

/-! The arguments of the command line: the declaration file, and options that may be given by the
start of their name. -/

namespace DocTree.Command

/-- What a run is asked to do. -/
structure Arguments where
  declarations : Path
  projectFolder : Option Path := none
  config : Option String := none
  report : Option Path := none
  verbose : Bool := false

/-- What a command line asks for: a run, the help text, or nothing that makes sense. -/
inductive Request where
  | run (arguments : Arguments)
  | help
  | usage

/-- The options. -/
inductive Switch where
  | help
  | projectFolder
  | config
  | json
  | verbose
deriving DecidableEq

/-- Whether an option takes a value. -/
def Switch.takesValue : Switch → Bool
  | .projectFolder | .config | .json => true
  | .help | .verbose => false

/-- The names of the options. -/
def switchNames : List (String × Switch) :=
  [("-h", .help), ("--help", .help), ("--project-folder", .projectFolder), ("--config", .config),
   ("--json", .json), ("-v", .verbose), ("--verbose", .verbose)]

/-- The option of a name. -/
def switch? (name : List Char) : Option Switch :=
  (switchNames.find? fun e => e.1.toList == name).map (·.2)

/-- An argument as it is seen on its own: a value, an option with the text attached to it, an option
that there is not, or the mark behind which everything is a value. -/
inductive Argument where
  | value (s : String)
  | switch (o : Switch) (isShort : Bool) (attached : Option (List Char))
  | unknown
  | mark

/-- A text without the line feed at its end, if it has one. -/
def withoutLineEnd (s : List Char) : List Char :=
  if s.getLast? == some '\n' then s.dropLast else s

/-- Whether a text looks like a negative number: digits of any script, and a point with more of
them. A line feed may follow. -/
def isNegativeNumber (s : List Char) : Bool :=
  match s with
  | '-' :: rest =>
    let rest := withoutLineEnd rest
    match rest.dropWhile Text.isDigit with
    | [] => !rest.isEmpty
    | '.' :: fraction => !fraction.isEmpty && fraction.all Text.isDigit
    | _ => false
  | _ => false

/-- Whether a name is that of a short option. -/
def isShortName (name : List Char) : Bool := name.length == 2

/-- The options that a text may stand for when it is no full name: long options by the start of
their name, and a short option with text attached. -/
def abbreviated (s : List Char) : List Argument :=
  match s with
  | '-' :: '-' :: _ =>
    let (name, attached) := Text.cut '=' s
    switchNames.filterMap fun (n, o) =>
      if name.isPrefixOf n.toList then some (.switch o false attached) else none
  | '-' :: c :: rest =>
    (switch? ['-', c]).toList.map fun o => .switch o true (some rest)
  | _ => []

/-- Looks at one argument. A text that may stand for several options makes no sense. -/
def classify (s : String) : Option Argument :=
  let chars := s.toList
  if chars.head? != some '-' || s == "-" then some (.value s)
  else if s == "--" then some .mark
  else
    let (name, attached) := Text.cut '=' chars
    match switch? chars, switch? name with
    | some o, _ => some (.switch o (isShortName chars) none)
    | none, some o => some (.switch o (isShortName name) attached)
    | none, none =>
      match abbreviated chars with
      | [a] => some a
      | _ :: _ :: _ => none
      | [] =>
        if isNegativeNumber chars || chars.contains ' ' then some (.value s) else some .unknown

/-- Looks at all arguments. Behind the mark all are values. -/
def classifyAll : List String → Option (List Argument)
  | [] => some []
  | s :: rest =>
    match classify s with
    | none => none
    | some .mark => some (.mark :: rest.map .value)
    | some a => (classifyAll rest).map (a :: ·)

/-- The arguments as they are gathered. -/
structure Gathered where
  declarations : Option String := none
  options : Arguments := { declarations := {} }
  surplus : Bool := false

/-- Sets an option that takes a value, or takes back what was set. -/
def Gathered.set (g : Gathered) (o : Switch) (s : Option String) : Gathered :=
  match o with
  | .projectFolder => { g with options := { g.options with projectFolder := s.map .ofString } }
  | .config => { g with options := { g.options with config := s } }
  | .json => { g with options := { g.options with report := s.map .ofString } }
  | _ => g

/-- The options that the letters attached to a short one stand for, if they all take no value. -/
def cluster : List Char → Option (List Switch)
  | [] => some []
  | c :: rest => do
    let o ← switch? ['-', c]
    if o.takesValue then none else (cluster rest).map (o :: ·)

/-- Sets options that take no value, one after another. -/
def Gathered.setAll (g : Gathered) : List Switch → Except Request Gathered
  | [] => .ok g
  | .help :: _ => .error .help
  | _ :: rest => setAll { g with options := { g.options with verbose := true } } rest

/-- Sets an option that takes no value, with those that are attached to it. -/
def Gathered.setFlag (g : Gathered) (o : Switch) (isShort : Bool) (attached : Option (List Char)) :
    Except Request Gathered :=
  match attached with
  | none => g.setAll [o]
  | some text =>
    if !isShort || text.isEmpty then .error .usage
    else
      match cluster text with
      | some more => g.setAll (o :: more)
      | none => .error .usage

/-- Takes a value that belongs to no option: the first is the declaration file, and every other is
one too many. -/
def Gathered.take (g : Gathered) (s : String) : Gathered :=
  if g.declarations.isSome then { g with surplus := true } else { g with declarations := some s }

/-- Takes an option without the argument behind it. The mark behind which everything is a value is
no value itself: attached to an option, it leaves the option without one. -/
def Gathered.takeSwitch (g : Gathered) (o : Switch) (isShort : Bool)
    (attached : Option (List Char)) : Except Request Gathered :=
  if !o.takesValue then g.setFlag o isShort attached
  else
    match attached with
    | none => .error .usage
    | some text =>
      .ok (g.set o (if text == ['-', '-'] then none else some (String.ofList text)))

/-- Goes through the arguments in order. The mark may stand directly before or behind the
declaration file, and everywhere else it is one argument too many. -/
def gather (g : Gathered) : List Argument → Except Request Gathered
  | [] => .ok g
  | .value s :: .mark :: rest => gather (g.take s) rest
  | .value s :: rest => gather (g.take s) rest
  | .mark :: .value s :: rest => gather (g.take s) rest
  | .mark :: rest => gather { g with surplus := true } rest
  | .unknown :: rest => gather { g with surplus := true } rest
  | .switch o isShort none :: .value s :: rest =>
    if o.takesValue then gather (g.set o (some s)) rest
    else
      match g.takeSwitch o isShort none with
      | .ok next => gather next (.value s :: rest)
      | .error r => .error r
  | .switch o isShort attached :: rest =>
    match g.takeSwitch o isShort attached with
    | .ok next => gather next rest
    | .error r => .error r
termination_by arguments => arguments.length
decreasing_by
  all_goals (simp only [List.length_cons]; omega)

/-- What a command line asks for. -/
def Request.parse (args : List String) : Request :=
  match classifyAll args with
  | none => .usage
  | some arguments =>
    match gather {} arguments with
    | .error r => r
    | .ok g =>
      match g.declarations with
      | some s => if g.surplus then .usage else .run { g.options with declarations := .ofString s }
      | none => .usage

end DocTree.Command
