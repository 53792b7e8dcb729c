import DocTree.Failure
import DocTree.Problem

/-! Events: what happens while a package is resolved, in order, and the lines of the log that tell
of it. -/

namespace DocTree

/-- A message and the place that it is about, which may be empty. -/
structure Record where
  message : String
  location : String := ""
deriving DecidableEq, Repr

/-- The message with its place. -/
def Record.text (r : Record) : String :=
  if r.location != "" then r.location ++ ": " ++ r.message else r.message

/-- A problem and the place where it was found. -/
structure Finding where
  problem : Problem
  location : String
deriving DecidableEq, Repr

/-- The record of a finding. -/
def Finding.record (f : Finding) : Record := ⟨f.problem.message, f.location⟩

/-- Something that happened. -/
inductive Event where
  /-- a problem was found -/
  | found (finding : Finding)
  /-- the comments of a number of items were read -/
  | commentsRead (items : Nat)
  /-- a reference is about to be resolved -/
  | resolving (reference : Reference)
  /-- a descriptor is about to be read -/
  | loading (path : String)
  /-- a descriptor does not have the right form -/
  | rejected (fault : DescriptorFault)
  /-- a descriptor was stored -/
  | stored (key : String)
  /-- a stored descriptor was used -/
  | reused (key : String)
  /-- the work is done, with a number of stored descriptors and of their uses -/
  | finished (packages uses : Nat)
  /-- a report was written -/
  | written (path : String)
  /-- the work was stopped -/
  | stopped (message : String)

/-- How much an event matters, from `debug` to `error`. -/
inductive Level where
  | debug
  | info
  | warning
  | error
deriving DecidableEq, Repr

namespace Level

/-- The word for a level. -/
def name : Level → String
  | .debug => "DEBUG"
  | .info => "INFO"
  | .warning => "WARNING"
  | .error => "ERROR"

/-- Whether a level is shown when little is asked for. -/
def isUrgent : Level → Bool
  | .warning | .error => true
  | _ => false

end Level

namespace Event

/-- The level of an event. -/
def level : Event → Level
  | found _ => .warning
  | commentsRead _ | resolving _ | stored _ | reused _ => .debug
  | loading _ | finished _ _ | written _ => .info
  | rejected _ | stopped _ => .error

/-- The part of the program that an event comes from, as the log names it. -/
def source : Event → String
  | found _ => "apidoc.error_reporter"
  | commentsRead _ => "apidoc.resolution_engine"
  | resolving _ => "apidoc.doc_item_loader"
  | loading _ | rejected _ => "apidoc.load_descriptor"
  | stored _ | reused _ => "apidoc.package_cache"
  | finished _ _ | written _ => "apidoc.run_resolution"
  | stopped _ => "apidoc.resolve_docs"

/-- The text that tells of an event. -/
def message : Event → String
  | found f => f.record.text
  | commentsRead items => "Parsed documentation for " ++ toString items ++ " items"
  | resolving r => "Resolving reference " ++ r.text
  | loading path => "Loading API descriptor " ++ path
  | rejected fault => fault.message
  | stored key => "Cached package " ++ key
  | reused key => "Package cache hit: " ++ key
  | finished packages uses =>
    "Loaded " ++ toString packages ++ " external packages (" ++ toString uses ++ " cache hits)"
  | written path => "Wrote resolution report to " ++ path
  | stopped message => message

/-- The line of the log. -/
def line (e : Event) : String := e.level.name ++ " " ++ e.source ++ ": " ++ e.message ++ "\n"

/-- The finding that an event tells of. -/
def finding? : Event → Option Finding
  | found f => some f
  | _ => none

/-- The findings among events. -/
def findings (events : List Event) : List Finding := events.filterMap finding?

/-- The log of events: the urgent ones, or all if asked for. -/
def log (verbose : Bool) (events : List Event) : String :=
  String.join ((events.filter fun e => verbose || e.level.isUrgent).map line)

end Event

end DocTree
