import DocTree.Descriptor.Schema
import DocTree.Files
import DocTree.FormatFault
import DocTree.Reference

/-! Failures: what stops the work. -/

namespace DocTree

/-- What is wrong with a declaration document. -/
inductive DeclarationFault where
  | noPackage
  | noKind (name : String)
  | unknownKind (name kind : String)
  /-- the file is no YAML; of what its reader tells, the lines that show the place are left out -/
  | notYaml (path detail : String)
  | notMapping (path : String)

/-- The text that tells of the fault. -/
def DeclarationFault.message : DeclarationFault → String
  | noPackage => "The declaration document must have a \"package\" entry with a name"
  | noKind name => "Declaration \"" ++ name ++ "\" has no kind"
  | unknownKind name kind => "Declaration \"" ++ name ++ "\" has an unknown kind: " ++ kind
  | notYaml path detail => "Declaration file " ++ path ++ " is not valid YAML: " ++ detail
  | notMapping path => "Declaration file " ++ path ++ " is empty or not a mapping"

/-- What is wrong with the descriptor of a package. -/
inductive DescriptorFault where
  | notJson (path detail : String)
  | nonconforming (source : String) (violations : List Violation)

/-- The text that tells of the fault. -/
def DescriptorFault.message : DescriptorFault → String
  | notJson path detail => "Descriptor " ++ path ++ " is not valid JSON: " ++ detail
  | nonconforming source violations =>
    "Descriptor validation error - file does not conform to the api-json schema:\n" ++ source ++
      "\n" ++ Text.join "\n" (violations.map Violation.line)

/-- What stops the work. -/
inductive Failure where
  | scopedName (problem : Reference.Problem)
  | descriptor (fault : DescriptorFault)
  | declaration (fault : DeclarationFault)
  | noProject (folder : String)
  | mismatch (mismatch : Mismatch)
  | schema (fault : SchemaFault)
  | file (fault : FileFault) (path : String)
  | schemaSyntax (path detail : String)
  | configSyntax (path detail : String)
  | format (fault : FormatFault)

/-- The failure to read a text. A text that does not follow the rules of its format is told of in
the words of the one who wanted it, with the detail that the reader gave. -/
def FormatFault.failure (f : FormatFault) (illFormed : String → Failure) : Failure :=
  match f with
  | .grammar detail => illFormed detail
  | other => .format other

/-- The text for a failure that is told to the user. The others are breaches of what the program
relies on, and have none. -/
def Failure.message? : Failure → Option String
  | scopedName p => some p.message
  | descriptor f => some f.message
  | declaration f => some f.message
  | noProject folder =>
    some ("An NPM project was not found in the specified folder: " ++ folder)
  | _ => none

/-- An attempt: the state that it ended in, and the failure that ended it, if there was one. What
was done before a failure stays done. -/
structure Attempt (S : Type) where
  state : S
  failure : Option Failure := none

namespace Attempt

variable {S T : Type}

/-- Goes on from the state of an attempt that did not fail. -/
def andThen (a : Attempt S) (next : S → Attempt S) : Attempt S :=
  match a.failure with
  | some _ => a
  | none => next a.state

/-- Changes the state. -/
def mapState (f : S → T) (a : Attempt S) : Attempt T := ⟨f a.state, a.failure⟩

end Attempt

end DocTree
