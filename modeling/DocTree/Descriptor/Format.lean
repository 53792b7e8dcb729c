import DocTree.Descriptor.Schema

/-! The format of package descriptors: an object that describes a package by its exports, each with
its documentation, its members or values, its parameters and its result. -/

namespace DocTree.Descriptor

open Schema

/-- Values of a named type. -/
def ofType (name : String) : Schema := type [.string name]

/-- Values that satisfy a definition of the format. -/
def defined (name : String) : Schema := reference { name }

/-- A text. -/
def textSchema : Schema := allOf [ofType "string"]

/-- A truth value. -/
def flagSchema : Schema := allOf [ofType "boolean"]

/-- One of several words. -/
def wordSchema (words : List String) : Schema := allOf [oneOf (.list (words.map .string))]

/-- A list of documentation elements. -/
def elementsSchema : Schema := defined "docElementList"

/-- An object that maps names to values of a defined form. -/
def mapSchema (definition : String) : Schema :=
  allOf [ofType "object", additional (.object []) (defined definition)]

/-- A documentation element. -/
def elementDefinition : Schema :=
  allOf [
    ofType "object",
    required ["kind"],
    properties [
      ("kind", wordSchema ["textDocElement", "linkDocElement", "seeDocElement"]),
      ("value", textSchema),
      ("referenceType", wordSchema ["href", "code"]),
      ("targetUrl", textSchema),
      ("scopeName", textSchema),
      ("packageName", textSchema),
      ("exportName", textSchema),
      ("memberName", textSchema),
      ("seeElements", elementsSchema)]]

/-- The list of elements that `elementsSchema` refers to. -/
def elementListDefinition : Schema := allOf [ofType "array", items (defined "docElement")]

/-- A parameter. -/
def paramDefinition : Schema :=
  allOf [
    ofType "object",
    required ["name", "description"],
    properties [
      ("name", textSchema),
      ("description", elementsSchema),
      ("isOptional", flagSchema),
      ("isSpread", flagSchema),
      ("type", textSchema)]]

/-- The result of a function. -/
def resultDefinition : Schema :=
  allOf [
    ofType "object",
    required ["type", "description"],
    properties [("type", textSchema), ("description", elementsSchema)]]

/-- What every documented entry may have. -/
def documentedDefinition : Schema :=
  allOf [
    ofType "object",
    properties [
      ("summary", elementsSchema),
      ("remarks", elementsSchema),
      ("deprecatedMessage", elementsSchema),
      ("isBeta", flagSchema)]]

/-- A member of a class or an interface. -/
def memberDefinition : Schema :=
  allOf [allOf [
    defined "documented",
    allOf [
      ofType "object",
      required ["kind"],
      properties [
        ("kind", wordSchema ["property", "method", "constructor"]),
        ("signature", textSchema),
        ("parameters", mapSchema "param"),
        ("returnValue", defined "returnValue")]]]]

/-- A value of an enumeration. -/
def enumValueDefinition : Schema :=
  allOf [allOf [
    defined "documented",
    allOf [ofType "object", properties [("value", textSchema)]]]]

/-- An export of the package. -/
def exportDefinition : Schema :=
  allOf [allOf [
    defined "documented",
    allOf [
      ofType "object",
      required ["kind"],
      properties [
        ("kind", wordSchema ["class", "interface", "enum", "function", "package"]),
        ("members", mapSchema "member"),
        ("values", mapSchema "enumValue"),
        ("parameters", mapSchema "param"),
        ("returnValue", defined "returnValue")]]]]

/-- The form of a whole descriptor. -/
def packageSchema : Schema :=
  allOf [
    ofType "object",
    required ["kind", "exports"],
    properties [
      ("kind", allOf [const (.string "package")]),
      ("summary", elementsSchema),
      ("remarks", elementsSchema),
      ("exports", mapSchema "export")]]

/-- The definitions of the format by name. -/
def formatDefinitions : List (String × Schema) :=
  [("docElement", elementDefinition),
   ("docElementList", elementListDefinition),
   ("param", paramDefinition),
   ("returnValue", resultDefinition),
   ("documented", documentedDefinition),
   ("member", memberDefinition),
   ("enumValue", enumValueDefinition),
   ("export", exportDefinition)]

/-- The format of package descriptors. -/
def format : SchemaDocument where
  root := packageSchema
  definitions link := match Keyed.get? link.name formatDefinitions with
    | some schema => .ok schema
    | none => .error .unresolved

end DocTree.Descriptor
