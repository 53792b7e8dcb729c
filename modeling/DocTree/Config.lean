import DocTree.Value.Access
import DocTree.Value.Merge

/-! Configurations: where descriptors are looked for, how short a summary may be, and whether
release tags are required. A configuration is kept as it was written, merged over the defaults, and
its parts are read when they are needed. -/

namespace DocTree

/-- A configuration. -/
structure Config where
  fields : Fields

namespace Config

/-- The configuration that holds where nothing else is said. -/
def defaults : Config := ⟨[
  ("loader", .object [
    ("node_modules_dir", .string "node_modules"),
    ("dist_dir", .string "dist"),
    ("schema_path", .null)]),
  ("documentation", .object [("min_summary_length", .int 10)]),
  ("validation", .object [("missing_release_tags", .string "allow")])]⟩

/-- The configuration that a value describes, over the defaults. A value that stands for nothing
changes nothing. -/
def ofValue (v : Value) : Except Mismatch Config :=
  if v.isGiven then v.fields.map fun fields => ⟨Value.mergeFields defaults.fields fields⟩
  else .ok defaults

/-- A part of the configuration. -/
def part (c : Config) (key : String) : Value := (Keyed.get? (.text key) c.fields).getD .null

/-- Whether items directly in the package must have a release tag. -/
def requiresReleaseTags (c : Config) : Except Mismatch Bool :=
  ((c.part "validation").field? "missing_release_tags").map fun rule =>
    rule matches some (.string "error")

/-- The setting under a key of a part that has to be an object. -/
def setting (c : Config) (key name : String) : Except Mismatch Value :=
  match c.part key with
  | .object fields => .ok ((Keyed.get? (.text name) fields).getD .null)
  | _ => .error .noParts

/-- The greatest length of a summary that counts as too short. -/
def summaryLimit (c : Config) : Except Mismatch Value :=
  c.setting "documentation" "min_summary_length"

/-- Whether a length is at most a limit. A truth value counts as zero or one. -/
def isWithin (length : Nat) : Value → Except Mismatch Bool
  | .int n => .ok (decide ((length : Int) ≤ n))
  | .bool b => .ok (decide (length ≤ b.toNat))
  | .real x => .ok (x.atLeast length)
  | _ => .error .noOrder

/-- A setting of the loader that has to be a text. -/
def loaderText (c : Config) (name : String) : Except Mismatch String :=
  match c.setting "loader" name with
  | .ok (.string s) => .ok s
  | .ok _ => .error .noPath
  | .error m => .error m

/-- The path of the schema for descriptors, if it is not the usual one. -/
def schemaPath? (c : Config) : Except Mismatch (Option String) :=
  match c.setting "loader" "schema_path" with
  | .ok v =>
    if !v.isGiven then .ok none
    else match v with
      | .string s => .ok (some s)
      | _ => .error .noPath
  | .error m => .error m

end Config

end DocTree
