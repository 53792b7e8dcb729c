import DocTree.Catalog
import DocTree.Config
import DocTree.Walk

/-! Resolving the documentation of a whole package, in two passes. The first reads the comments, of
children before their parents. The second completes the documentation, of the items that others
inherit from before those. -/

namespace DocTree

/-- The state of the work that visits change: the catalog, the state of the resolver, and what
happened. -/
structure Work (σ : Type) where
  catalog : Catalog
  resolver : σ
  trace : List Event := []

namespace Work

variable {σ : Type}

/-- Notes problems at a place. -/
def report (w : Work σ) (location : String) (problems : List Problem) : Work σ :=
  { w with trace := w.trace ++ problems.map fun p => .found ⟨p, location⟩ }

/-- Changes the catalog. -/
def update (w : Work σ) (f : Catalog → Catalog) : Work σ := { w with catalog := f w.catalog }

end Work

/-- The fixed part of the work: the configuration and the resolver. -/
structure Engine (σ : Type) where
  config : Config
  resolver : Resolver σ

namespace Engine

variable {σ : Type}

/-- Approval in advance is only for classes and interfaces. -/
def checkPreapproved (w : Work σ) (i : Nat) (kind : Kind) (d : Documentation) : Work σ :=
  if d.isPreapproved && !kind.isPreapprovable then
    (w.report (w.catalog.package.location i) [.preapprovedKind]).update fun c =>
      c.setDocumentation i { d with isPreapproved := false }
  else w.update fun c => c.setDocumentation i d

/-- Reads the comment of an item and applies the rules on release tags: the package is public, and
so is an item directly in it that has no tag. -/
def readItem (e : Engine σ) (i : Nat) (w : Work σ) : Attempt (Work σ) :=
  match w.catalog.package.item? i with
  | none => ⟨w, none⟩
  | some item =>
    let location := w.catalog.package.location i
    let kind := item.heading.kind
    let d := Documentation.ofComment item.heading.comment
    let w := (w.report location d.problems).update fun c => c.setDocumentation i d
    if i == 0 then
      let w := if d.releaseTag != .none
        then w.report location [.packageReleaseTag d.releaseTag] else w
      ⟨checkPreapproved w i kind { d with releaseTag := .published }, none⟩
    else if w.catalog.package.isTopLevel i && d.releaseTag == .none then
      match e.config.requiresReleaseTags with
      | .error m => ⟨w, some (.mismatch m)⟩
      | .ok required =>
        let w := if required && !d.hasFailed
          then w.report location [.releaseTagMissing item.heading.name] else w
        ⟨checkPreapproved w i kind { d with releaseTag := .published }, none⟩
    else ⟨checkPreapproved w i kind d, none⟩

/-- A name of letters, digits and underscores that does not start with a digit. One line feed may
follow it. -/
def isSupportedName (name : String) : Bool :=
  let isLetter (c : Char) : Bool := c.isAlpha || c == '_'
  let cs := name.toList
  let cs := if cs.getLast? == some '\n' then cs.dropLast else cs
  match cs with
  | [] => false
  | c :: rest => isLetter c && rest.all fun c => isLetter c || c.isDigit

/-- The remarks on the name of an item. -/
def nameWarnings (heading : Heading) (tag : ReleaseTag) : List Warning :=
  if heading.kind == .package then []
  else
    let unsupported :=
      if isSupportedName heading.name then [] else [.unsupportedName heading.name]
    let underscore :=
      if heading.name.toList.head? == some '_' then
        if tag != .internal && tag != .none then [.underscoreNotInternal] else []
      else if tag == .internal then [.internalWithoutUnderscore]
      else []
    unsupported ++ underscore

/-- The package has its documentation marked, and nothing else has. -/
def packageProblems (heading : Heading) (d : Documentation) : List Problem :=
  if heading.kind == .package then
    if !(Text.trim heading.comment.toList).isEmpty && !d.isPackageDocumentation
    then [.packageTagMissing] else []
  else if d.isPackageDocumentation then [.packageTagOn heading.kind] else []

/-- Whether an item needs more documentation: its summary is too short, and it is no parameter,
which its function documents. -/
def needsDocumentation (config : Config) (kind : Kind) (d : Documentation) :
    Except Mismatch Bool := do
  let limit ← config.summaryLimit
  let length := (Text.halveSpaces (Element.plainText d.summary).toList).length
  if kind == .parameter then return false else Config.isWithin length limit

/-- Derives what is known of an item once its documentation is complete. -/
def concludeItem (e : Engine σ) (i : Nat) (heading : Heading) (d : Documentation) (w : Work σ) :
    Attempt (Work σ) :=
  let w := w.update fun c => c.modify i fun entry =>
    { entry with
      effectiveTag := c.effectiveTag i, effectiveDeprecated := c.effectiveDeprecated i }
  match needsDocumentation e.config heading.kind d with
  | .error m => ⟨w, some (.mismatch m)⟩
  | .ok needed =>
    let w := w.report (w.catalog.package.location i) (packageProblems heading d)
    ⟨w.update fun c => c.modify i fun entry =>
      { entry with
        needsDocumentation := needed
        hasSupportedName := heading.kind == .package || isSupportedName heading.name
        warnings := entry.warnings ++ nameWarnings heading d.releaseTag }, none⟩

/-- Completes the documentation of an item whose comment was read. -/
def completeItem (e : Engine σ) (i : Nat) (w : Work σ) : Attempt (Work σ) :=
  match w.catalog.package.item? i, w.catalog.documentation? i with
  | some item, some d =>
    let lookup : Lookup σ := fun d r s => e.resolver (w.catalog.setDocumentation i d) r s
    let done := d.complete lookup (w.catalog.package.location i) w.resolver
    let w : Work σ := {
      catalog := w.catalog.setDocumentation i done.state.doc
      resolver := done.state.state
      trace := w.trace ++ done.state.trace }
    match done.failure with
    | some f => ⟨w, some f⟩
    | none => e.concludeItem i item.heading done.state.doc w
  | _, _ => ⟨w, none⟩

/-- Notes that an item depends on itself. -/
def noteCircle (i : Nat) (w : Work σ) : Work σ :=
  w.report (w.catalog.package.location i) [.circular]

/-- The first pass: children come before their parents. -/
def reading (e : Engine σ) : Walk (Work σ) where
  before i w := w.catalog.package.children i
  visit := e.readItem
  again := noteCircle

/-- The second pass: items come after those that they inherit from. -/
def completing (e : Engine σ) : Walk (Work σ) where
  before i w := w.catalog.inheritSources i
  visit := e.completeItem
  again := noteCircle

end Engine

/-- A resolution on its way: the work, and the stages of the items in the two passes. -/
structure Resolution (σ : Type) where
  work : Work σ
  readStages : List Stage
  completeStages : List Stage

namespace Resolution

variable {σ : Type}

/-- A resolution that has not begun. -/
def ofPackage (p : Package) (state : σ) : Resolution σ where
  work := { catalog := .ofPackage p, resolver := state }
  readStages := p.items.map fun _ => .unresolved
  completeStages := p.items.map fun _ => .unresolved

/-- Lets the package grow by new items, which have not begun. -/
def grow (r : Resolution σ) (p : Package) : Resolution σ :=
  let more (stages : List Stage) : List Stage :=
    stages ++ List.replicate (p.items.length - stages.length) .unresolved
  { work := r.work.update (·.grow p)
    readStages := more r.readStages
    completeStages := more r.completeStages }

/-- Reads the comments of all items. -/
def readComments (e : Engine σ) (r : Resolution σ) : Attempt (Resolution σ) :=
  let done := e.reading.start 0 ⟨r.readStages, r.work⟩
  let r := { r with work := done.state.state, readStages := done.state.stages }
  match done.failure with
  | some f => ⟨r, some f⟩
  | none =>
    let count := r.readStages.countP (· != .unresolved)
    ⟨{ r with work := { r.work with trace := r.work.trace ++ [.commentsRead count] } }, none⟩

/-- Completes the documentation of all items. -/
def completeAll (e : Engine σ) (r : Resolution σ) : Attempt (Resolution σ) :=
  (e.completing.startAll r.work.catalog.package.allItems ⟨r.completeStages, r.work⟩).mapState
    fun done => { r with work := done.state, completeStages := done.stages }

/-- Both passes. -/
def resolve (e : Engine σ) (r : Resolution σ) : Attempt (Resolution σ) :=
  (r.readComments e).andThen (·.completeAll e)

/-- Does a piece of work on one item outside the passes. -/
def onItem (visit : Work σ → Attempt (Work σ)) (r : Resolution σ) : Attempt (Resolution σ) :=
  (visit r.work).mapState fun work => { r with work }

end Resolution

end DocTree
