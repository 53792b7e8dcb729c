import DocTree.Event
import DocTree.Target

/-! Completing the documentation of an item once all comments are read: its links are checked, and
the documentation that it inherits is copied.

References are resolved by a lookup, which may keep a state of its own, may tell of events, and may
fail. What was completed before a failure stays completed. -/

namespace DocTree

/-- What a lookup found for a reference, with the problems that it met. -/
structure Answer where
  target : Option Target := none
  problems : List Problem := []

/-- What a lookup returns: its answer or the failure that stopped it, what happened on the way, and
its state from then on. -/
structure Reply (σ : Type) where
  outcome : Except Failure Answer
  events : List Event := []
  state : σ

/-- A way to resolve references. The answer may depend on the documentation that is being completed,
as it stands. -/
abbrev Lookup (σ : Type) := Documentation → Reference → σ → Reply σ

namespace Documentation

/-- The reference in the text of an `@inheritdoc` tag, or the problems with it. -/
def inheritedReference (text : String) : Except (List Problem) Reference :=
  if text == "" || text.toList.contains ' ' then .error [.inheritedPattern]
  else
    match Reference.parse text with
    | .ok r => .ok r
    | .error (.scopeAlone name) => .error [.inheritedReference (.scopeAlone name)]
    | .error p => .error [.inheritedReference p, .inheritedFormat text]

/-- The references in the `@inheritdoc` tags that are still to be followed. -/
def pendingReferences (d : Documentation) : List Reference :=
  d.pendingInherits.filterMap fun text => (inheritedReference text).toOption

/-- Copies the documentation of a target. Parameters and the result are copied only from what can be
called. Who inherits from a deprecated item has to be deprecated as well. -/
def inherit (d : Documentation) (t : Target) : Documentation :=
  let isCallable := match t.kind with
    | some k => k.isCallable
    | none => false
  { d with
    summary := t.summary
    remarks := t.remarks
    params := if isCallable then t.params else d.params
    returns := if isCallable then t.returns else d.returns
    isInheritedDeprecated := d.isInheritedDeprecated || !t.deprecated.isEmpty }

/-- The problem of inheriting from a deprecated item without being deprecated. -/
def inheritProblems (d : Documentation) (t : Target) : List Problem :=
  if !t.deprecated.isEmpty && d.deprecated.isEmpty then [.inheritedDeprecated] else []

/-- What takes the place of documentation that cannot be found. -/
def inheritMissing (d : Documentation) (text : String) : Documentation :=
  { d with summary := [.text ("See documentation for " ++ text)] }

/-- A completion on its way: the documentation, the state of the lookup, and what happened. -/
structure Completion (σ : Type) where
  doc : Documentation
  state : σ
  trace : List Event := []

namespace Completion

variable {σ : Type}

/-- Notes problems, with the place of the item. -/
def report (c : Completion σ) (location : String) (problems : List Problem) : Completion σ :=
  { c with
    doc := { c.doc with problems := c.doc.problems ++ problems }
    trace := c.trace ++ problems.map fun p => .found ⟨p, location⟩ }

/-- Resolves a reference and goes on with the target, if there is one. -/
def resolve (lookup : Lookup σ) (location : String) (c : Completion σ) (r : Reference)
    (next : Option Target → Completion σ → Completion σ) : Attempt (Completion σ) :=
  let reply := lookup c.doc r c.state
  let c := { c with state := reply.state, trace := c.trace ++ reply.events }
  match reply.outcome with
  | .error f => ⟨c, some f⟩
  | .ok answer => ⟨next answer.target (c.report location answer.problems), none⟩

/-- Checks one link: its target must exist, which the lookup reports, and must not be internal. -/
def checkLink (lookup : Lookup σ) (location : String) (c : Completion σ) (l : CodeLink) :
    Attempt (Completion σ) :=
  c.resolve lookup location l.reference fun target c =>
    match target with
    | some t =>
      if t.releaseTag == .internal then c.report location [.internalTarget l.reference] else c
    | none => c

/-- Checks links in order. Each one leaves the queue before it is resolved. -/
def checkLinks (lookup : Lookup σ) (location : String) (c : Completion σ) :
    List CodeLink → Attempt (Completion σ)
  | [] => ⟨c, none⟩
  | l :: rest =>
    (checkLink lookup location { c with doc := { c.doc with pendingLinks := rest } } l).andThen
      fun c => checkLinks lookup location c rest

/-- Follows one `@inheritdoc` tag. -/
def followInherit (lookup : Lookup σ) (location : String) (c : Completion σ) (text : String) :
    Attempt (Completion σ) :=
  match inheritedReference text with
  | .error problems => ⟨c.report location problems, none⟩
  | .ok r =>
    c.resolve lookup location r fun target c =>
      match target with
      | none => { c with doc := c.doc.inheritMissing text }
      | some t =>
        let problems := c.doc.inheritProblems t
        { c with doc := c.doc.inherit t }.report location problems

/-- Follows `@inheritdoc` tags in order. Each one leaves the queue before it is followed. -/
def followInherits (lookup : Lookup σ) (location : String) (c : Completion σ) :
    List String → Attempt (Completion σ)
  | [] => ⟨c, none⟩
  | text :: rest =>
    (followInherit lookup location { c with doc := { c.doc with pendingInherits := rest } }
      text).andThen fun c => followInherits lookup location c rest

end Completion

/-- Completes the documentation of an item: first its links, then what it inherits. -/
def complete {σ : Type} (lookup : Lookup σ) (location : String) (d : Documentation) (state : σ) :
    Attempt (Completion σ) :=
  (Completion.checkLinks lookup location { doc := d, state } d.pendingLinks).andThen fun c =>
    Completion.followInherits lookup location c c.doc.pendingInherits

end Documentation

/-- A lookup in a table, whose exports go by the whole text of a reference. An entry that cannot be
read is a failure once it is asked for. The state holds the references that were asked for. -/
def Lookup.ofTable (table : String → Except Failure (Option Target)) : Lookup (List Reference) :=
  fun _ r asked =>
    let answer (found : Option Target) : Answer := match found with
      | some t => { target := some t }
      | none => { problems := [.missingExport { exportName := r.text }] }
    { outcome := (table r.text).map answer, state := asked ++ [r] }

end DocTree
