import DocTree.Command.Arguments
import DocTree.Descriptor.Loader
import DocTree.Json.Writer
import DocTree.Report
import DocTree.Resolution
import DocTree.Yaml.Document

/-! The command: a declaration file is read, its package is resolved against a project, and what was
found is told and, if asked for, written to a report. -/

namespace DocTree

/-- Reads a declaration file. -/
def Declaration.load (files : Files) (p : Path) : Except Failure Declaration :=
  match files.read p with
  | .error fault => .error (.file fault p.text)
  | .ok text =>
    match Yaml.parse text with
    | .error fault => .error (fault.failure fun detail => .declaration (.notYaml p.text detail))
    | .ok (.object fields) => ofDocument (.object fields)
    | .ok _ => .error (.declaration (.notMapping p.text))

/-- Reads a configuration file. Without one, or where it does not exist, the defaults hold. -/
def Config.load (files : Files) (path : Option String) : Except Failure Config :=
  match path with
  | none => .ok defaults
  | some "" => .ok defaults
  | some s =>
    let p := Path.ofString s
    match files.has p, files.read p with
    | .error fault, _ => .error (.file fault p.text)
    | .ok false, _ => .ok defaults
    | .ok true, .error fault => .error (.file fault p.text)
    | .ok true, .ok text =>
      match Yaml.parse text with
      | .error fault => .error (fault.failure (.configSyntax p.text))
      | .ok v => (Config.ofValue v).mapError .mismatch

namespace Command

/-- How a run ends: with a code, with a last message, or because of a failure that is not told. -/
inductive Exit where
  | code (n : Nat)
  | message (text : String)
  | failed (failure : Failure)

/-- What a run leaves behind. A report is still to be written. -/
structure Outcome where
  exit : Exit
  output : String := ""
  events : List Event := []
  report : Option (Path × String) := none

/-- The outcome of a failure: it is told if there is a text for it. -/
def Outcome.ofFailure (f : Failure) (events : List Event) : Outcome :=
  match f.message? with
  | some text => { exit := .code 2, events := events ++ [.stopped text] }
  | none => { exit := .failed f, events }

/-- The outcome once the report was written, or could not be, in which case no more is told. -/
def Outcome.reported (o : Outcome) (path : Path) : Option FileFault → Outcome
  | none => { o with events := o.events ++ [.written path.text], report := none }
  | some fault => { exit := .failed (.file fault path.text), events := o.events }

/-- A configuration once more over the defaults, as every part of the program takes it. -/
def overDefaults (c : Config) : Except Failure Config :=
  (Config.ofValue (.object c.fields)).mapError .mismatch

/-- Resolves a package against a project: the resolution, its failure if there was one. -/
def resolvePackage (files : Files) (package : Package) (folder : Path) (config : Config) :
    Except Failure (Attempt (Resolution Loader.Memory)) := do
  let loader ← Loader.ofFolder files folder (.object config.fields)
  let engine : Engine Loader.Memory := ⟨← overDefaults config, loader.resolver files⟩
  return (Resolution.ofPackage package {}).resolve engine

/-- Tells what a resolution found, in a report too if asked for. -/
def conclude (args : Arguments) (r : Resolution Loader.Memory) : Outcome :=
  let catalog := r.work.catalog
  let records := (Event.findings r.work.trace).map Finding.record
  let cache := r.work.resolver.cache
  { exit := .code (if records.isEmpty then 0 else 1)
    output := String.join ((records.map Record.text ++ [Report.summaryLine catalog records]).map
      (· ++ "\n"))
    events := r.work.trace ++ [.finished cache.size cache.uses]
    report := args.report.map fun p => (p, Json.indented (Report.ofCatalog catalog records)) }

/-- Runs the command up to the writing of the report. -/
def run (files : Files) (args : Arguments) : Outcome :=
  match files.has args.declarations with
  | .error fault => .ofFailure (.file fault args.declarations.text) []
  | .ok false => { exit := .message ("Declaration file not found: " ++ args.declarations.text) }
  | .ok true =>
    let start : Except Failure (Attempt (Resolution Loader.Memory)) := do
      let config ← Config.load files args.config
      let declaration ← Declaration.load files args.declarations
      resolvePackage files (.ofDeclaration declaration)
        (args.projectFolder.getD args.declarations.parent) config
    match start with
    | .error f => .ofFailure f []
    | .ok done =>
      match done.failure with
      | some f => .ofFailure f done.state.work.trace
      | none => conclude args done.state

/-- Runs the command in a folder: the outcome, and the folder with the report in it. -/
def runIn (folder : Folder) (args : Arguments) : Outcome × Folder :=
  let outcome := run folder.view args
  match outcome.report with
  | none => (outcome, folder)
  | some (path, text) =>
    let change := folder.write path text.toUTF8
    (outcome.reported path change.fault, change.folder)

/-- The references to other packages in the comments of a package. -/
def foreignReferences (package : Package) : List Reference :=
  package.items.flatMap fun item =>
    let d := Documentation.ofComment item.heading.comment
    (d.pendingLinks.map (·.reference) ++ d.pendingReferences).filter fun r => !r.isLocal

/-- The paths at which a run looks, as far as the files known so far tell. -/
def wanted (files : Files) (args : Arguments) : List Path :=
  let first := args.declarations :: (args.config.map Path.ofString).toList
  let further : Except Failure (List Path) := do
    let config ← Config.load files args.config
    let declaration ← Declaration.load files args.declarations
    let folder := args.projectFolder.getD args.declarations.parent
    let loader : Loader := ⟨folder, ← overDefaults config⟩
    let schema ← (loader.config.schemaPath?).mapError Failure.mismatch
    let descriptors := (foreignReferences (.ofDeclaration declaration)).filterMap fun r =>
      (loader.packagePath r).toOption
    return folder.join "package.json" :: (schema.map Path.ofString).toList ++ descriptors
  first ++ further.toOption.getD []

end Command

end DocTree
