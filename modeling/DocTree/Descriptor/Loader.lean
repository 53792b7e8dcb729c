import DocTree.Catalog
import DocTree.Config
import DocTree.Descriptor.Cache
import DocTree.Descriptor.Format
import DocTree.Descriptor.Schema.Document
import DocTree.Files
import DocTree.Json.Reader

/-! The loader of a project: references without a package are resolved in the package at hand, all
others in the descriptors of the packages installed in the project's folder. A descriptor is read
and checked once and then stored. -/

namespace DocTree

namespace Descriptor

/-- Reads and checks the descriptor at a path: the value or what is wrong, and what happened on the
way. -/
def load (files : Files) (schema : SchemaDocument) (path : Path) :
    Except Failure Value × List Event :=
  let start : List Event := [.loading path.text]
  match files.read path with
  | .error fault => (.error (.file fault path.text), start)
  | .ok text =>
    match Json.parse text with
    | .error fault =>
      (.error (fault.failure fun detail => .descriptor (.notJson path.text detail)), start)
    | .ok v =>
      match schema.violations v with
      | .error fault => (.error (.schema fault), start)
      | .ok [] => (.ok v, start)
      | .ok violations =>
        let fault : DescriptorFault := .nonconforming path.text violations
        (.error (.descriptor fault), start ++ [.rejected fault])

/-- The field that holds the members of an export of a kind. -/
def memberField? (kind : String) : Option String :=
  match kind with
  | "class" => some "members"
  | "interface" => some "members"
  | "enum" => some "values"
  | _ => none

/-- The entries of an object in a field, none if the field is absent or stands for nothing. -/
def mapField (key : String) (fields : Fields) :
    Except Mismatch (Fields) :=
  (Value.orEmpty (.object []) (Keyed.get? (.text key) fields)).fields

/-- The value of a field that is present and not null. -/
def present? (key : String) (fields : Fields) : Option Value :=
  match Keyed.get? (.text key) fields with
  | some .null => none
  | found => found

/-- The members of an export. -/
def membersOf (entry : Value) : Except Mismatch (Fields) := do
  let fields ← entry.fields
  match memberField? (Element.textField "kind" fields) with
  | some key => mapField key fields
  | none => return []

/-- Resolves a reference in a descriptor: an export, or a member of an export. -/
def resolve (descriptor : Value) (r : Reference) : Except Mismatch Answer := do
  let exports ← mapField "exports" (← descriptor.fields)
  match present? r.exportName exports with
  | none => return { problems := [.missingExport r] }
  | some entry =>
    if r.memberName == "" then return { target := some (← Target.ofJson entry) }
    else
      match present? r.memberName (← membersOf entry) with
      | none => return { problems := [.missingMember r] }
      | some member => return { target := some (← Target.ofJson member) }

end Descriptor

/-- A loader: the folder of the project, and its configuration. -/
structure Loader where
  folder : Path
  config : Config

namespace Loader

/-- What a loader keeps: the stored descriptors, and the schema once it was read. -/
structure Memory where
  cache : Cache := {}
  schema : Option SchemaDocument := none

/-- The loader of the project in a folder, which has to be one. -/
def ofFolder (files : Files) (folder : Path) (config : Value) : Except Failure Loader :=
  let mark := folder.join "package.json"
  match files.has mark with
  | .error fault => .error (.file fault mark.text)
  | .ok false => .error (.noProject folder.text)
  | .ok true =>
    match Config.ofValue config with
    | .error m => .error (.mismatch m)
    | .ok c => .ok ⟨folder, c⟩

/-- The path of the descriptor of a reference's package. -/
def packagePath (l : Loader) (r : Reference) : Except Mismatch Path := do
  let modules ← l.config.loaderText "node_modules_dir"
  let dist ← l.config.loaderText "dist_dir"
  let folder := l.folder.join modules
  let folder := if r.scope != "" then folder.join r.scope else folder
  return ((folder.join r.package).join dist).join (r.package ++ ".api.json")

/-- The schema for descriptors: the one that was read before, or the one that the configuration
names, or the usual one. It is kept, unless the file holds a null. -/
def schema (l : Loader) (files : Files) (memory : Memory) :
    Except Failure (SchemaDocument × Memory) :=
  match memory.schema with
  | some s => .ok (s, memory)
  | none =>
    match l.config.schemaPath? with
    | .error m => .error (.mismatch m)
    | .ok none => .ok (Descriptor.format, { memory with schema := some Descriptor.format })
    | .ok (some path) =>
      let path := Path.ofString path
      match files.read path with
      | .error fault => .error (.file fault path.text)
      | .ok text =>
        match Json.parse text with
        | .error fault => .error (fault.failure (.schemaSyntax path.text))
        | .ok .null => .ok (.ofValue .null, memory)
        | .ok v => .ok (.ofValue v, { memory with schema := some (.ofValue v) })

/-- What fetching a descriptor gives: the descriptor, or that there is none. -/
inductive Fetched where
  | descriptor (v : Value)
  | missing

/-- The descriptor of a reference's package: the stored one, or else the one in the project's
folder, which is then stored. -/
def fetch (l : Loader) (files : Files) (r : Reference) (memory : Memory) :
    Except Failure Fetched × List Event × Memory :=
  let key := r.packageKey
  match memory.cache.lookup key with
  | (some v, cache) => (.ok (.descriptor v), [.reused key], { memory with cache })
  | (none, _) =>
    match l.packagePath r with
    | .error m => (.error (.mismatch m), [], memory)
    | .ok path =>
      match files.has path with
      | .error fault => (.error (.file fault path.text), [], memory)
      | .ok false => (.ok .missing, [], memory)
      | .ok true =>
        match l.schema files memory with
        | .error f => (.error f, [], memory)
        | .ok (schema, memory) =>
          match Descriptor.load files schema path with
          | (.error f, events) => (.error f, events, memory)
          | (.ok v, events) =>
            (.ok (.descriptor v), events ++ [.stored key],
              { memory with cache := memory.cache.store key v })

/-- Resolves a reference to another package. A descriptor that is null has nothing to say. -/
def resolveForeign (l : Loader) (files : Files) (r : Reference) (memory : Memory) :
    Reply Memory :=
  match l.fetch files r memory with
  | (.error f, events, memory) => { outcome := .error f, events, state := memory }
  | (.ok .missing, events, memory) =>
    { outcome := .ok { problems := [.missingPackage r] }, events, state := memory }
  | (.ok (.descriptor .null), events, memory) => { outcome := .ok {}, events, state := memory }
  | (.ok (.descriptor v), events, memory) =>
    { outcome := (Descriptor.resolve v r).mapError .mismatch, events, state := memory }

/-- Resolves any reference. -/
def resolver (l : Loader) (files : Files) : Resolver Memory := fun catalog r memory =>
  if r.isLocal then
    { outcome := .ok (catalog.resolve r), events := [.resolving r], state := memory }
  else
    let reply := l.resolveForeign files r memory
    { reply with events := .resolving r :: reply.events }

end Loader

end DocTree
