/-! Kinds of declarations, and release tags. -/

namespace DocTree

/-- What a declaration declares. -/
inductive Kind where
  | classType
  | enum
  | enumValue
  | function
  | interface
  | method
  | package
  | parameter
  | property
  | typeLiteral
  | constructor
deriving DecidableEq, Repr, Inhabited

namespace Kind

/-- All kinds. -/
def all : List Kind :=
  [.classType, .enum, .enumValue, .function, .interface, .method, .package, .parameter, .property,
   .typeLiteral, .constructor]

/-- The word for a kind. -/
def name : Kind → String
  | .classType => "class"
  | .enum => "enum"
  | .enumValue => "enum_value"
  | .function => "function"
  | .interface => "interface"
  | .method => "method"
  | .package => "package"
  | .parameter => "parameter"
  | .property => "property"
  | .typeLiteral => "type_literal"
  | .constructor => "constructor"

/-- A character as a lowercase letter, as far as that can give an ASCII letter: capitals of ASCII
and the Kelvin sign have one. -/
def lowered (c : Char) : Char := if c.toNat == 0x212A then 'k' else c.toLower

/-- The kind that a word stands for, whatever its case. -/
def ofName? (word : String) : Option Kind :=
  let lower := String.ofList (word.toList.map lowered)
  all.find? fun k => k.name == lower

/-- Kinds whose members can be referred to. -/
def isContainer : Kind → Bool
  | .classType | .enum | .interface | .package | .typeLiteral => true
  | _ => false

/-- Kinds that have parameters and a result, which inherited documentation then covers. -/
def isCallable : Kind → Bool
  | .function | .method | .constructor => true
  | _ => false

/-- Kinds that may be approved in advance. -/
def isPreapprovable : Kind → Bool
  | .classType | .interface => true
  | _ => false

end Kind

/-- How far an item is released. -/
inductive ReleaseTag where
  | none
  | internal
  | alpha
  | beta
  | published
deriving DecidableEq, Repr, Inhabited

namespace ReleaseTag

/-- The word for a release tag. -/
def name : ReleaseTag → String
  | .none => "none"
  | .internal => "internal"
  | .alpha => "alpha"
  | .beta => "beta"
  | .published => "public"

/-- The tag as it is written in a comment. -/
def tagName (t : ReleaseTag) : String := "@" ++ t.name

/-- The release tag that a tag in a comment stands for. -/
def ofTag? (tag : String) : Option ReleaseTag :=
  [.internal, .alpha, .beta, .published].find? fun (t : ReleaseTag) => t.tagName == tag

end ReleaseTag

end DocTree
