import DocTree.Catalog

/-! Reports: the resolved documentation of a package and the problems found, as a value to be
written. -/

namespace DocTree.Report

/-- The fields that show the documentation of an item. -/
def documentationFields (d : Documentation) : Fields :=
  [("summary", Element.listToJson d.summary),
   ("remarks", Element.listToJson d.remarks),
   ("returns", Element.listToJson d.returns),
   ("params", .object (d.params.map fun p => (p.name, Element.listToJson p.description))),
   ("isBeta", .bool d.isBeta),
   ("isReadOnly", .bool d.isReadOnly),
   ("preapproved", .bool d.isPreapproved)]

/-- The fields that show an item. Documentation that was not read, a deprecation message and
remarks are left out where there are none. -/
def itemFields (c : Catalog) (i : Nat) : Fields :=
  let entry := c.entry i
  let kind := ((c.package.item? i).map (·.heading.kind.name)).getD ""
  let heading : Fields :=
    [("name", .string (c.package.fullName i)),
     ("kind", .string kind),
     ("apiTag", .string entry.effectiveTag.name),
     ("needsDocumentation", .bool entry.needsDocumentation)]
  let documentation : Fields := match entry.documentation with
    | some d => documentationFields d
    | none => []
  let deprecated : Fields := if entry.effectiveDeprecated.isEmpty then []
    else [("deprecatedMessage", Element.listToJson entry.effectiveDeprecated)]
  let warnings : Fields := if entry.warnings.isEmpty then []
    else [("warnings", .list (entry.warnings.map fun w => .string w.message))]
  heading ++ documentation ++ deprecated ++ warnings

/-- The report on a package. -/
def ofCatalog (c : Catalog) (records : List Record) : Value :=
  .object [
    ("package", .string (c.package.name 0)),
    ("items", .list (c.package.allItems.map fun i => .object (itemFields c i))),
    ("errors", .list (records.map fun r =>
      .object [("message", .string r.message), ("location", .string r.location)]))]

/-- The line that sums a run up. -/
def summaryLine (c : Catalog) (records : List Record) : String :=
  let items := c.package.allItems
  let undocumented := items.countP fun i => (c.entry i).needsDocumentation
  "Resolved " ++ toString items.length ++ " items of " ++ c.package.name 0 ++ ": " ++
    toString records.length ++ " errors, " ++ toString undocumented ++ " items need documentation"

end DocTree.Report
