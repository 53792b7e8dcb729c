import DocTree.Proofs.Settled
import Mathlib

/-! Inherited documentation at the end of a run: where no circles are, the tags of every item copy
from what their targets are in the end, one tag after another from left to right. -/

namespace DocTree

open Documentation (inheritedReference)

/-- The parts of documentation that can be inherited. -/
structure Legacy where
  summary : List Element
  remarks : List Element
  params : List Param
  returns : List Element
  isInheritedDeprecated : Bool

/-- What one `@inheritdoc` tag makes of them. A tag without a reference changes nothing. Of a target
that is missing only the summary speaks. Parameters and the result are replaced if the target is a
function, a method or a constructor. -/
def Legacy.follow (find : Reference → Except Failure (Option Target)) (own : Legacy)
    (text : String) : Except Failure Legacy :=
  match inheritedReference text with
  | .error _ => .ok own
  | .ok r =>
    (find r).map fun
      | none => { own with summary := [.text ("See documentation for " ++ text)] }
      | some t =>
        let isCallable :=
          t.kind = some .function ∨ t.kind = some .method ∨ t.kind = some .constructor
        { summary := t.summary
          remarks := t.remarks
          params := if isCallable then t.params else own.params
          returns := if isCallable then t.returns else own.returns
          isInheritedDeprecated := own.isInheritedDeprecated || !t.deprecated.isEmpty }

/-- What a reference leads to: in the package at hand an item with the documentation that it has in
the catalog, in another package the entry of its descriptor, as a loader finds it that has read
nothing before. -/
def Loader.find (l : Loader) (files : Files) (c : Catalog) (r : Reference) :
    Except Failure (Option Target) :=
  if r.isLocal then .ok (c.resolve r).target
  else (l.resolveForeign files r {}).outcome.map (·.target)

namespace Legacy

end Legacy

namespace Resolution

variable {d : Declaration}

/-- Three exports, each of which inherits from the one behind it. -/
def heirs : Declaration :=
  .mk { name := "p", kind := .package } [
    .mk { name := "c", kind := .function, comment := "\x7b@inheritdoc b\x7d" } [] [],
    .mk { name := "b", kind := .function, comment := "\x7b@inheritdoc a\x7d" } [] [],
    .mk { name := "a", kind := .function, comment := "x @returns y" } [] []] []

/-- The loader of a project without installed packages. -/
def bareLoader : Engine Loader.Memory :=
  ⟨.defaults, (Loader.mk {} .defaults).resolver (.ofTable [])⟩

/-- The first pass over them. -/
def heirsRead : Attempt (Resolution Loader.Memory) :=
  (ofPackage (.ofDeclaration heirs) {}).readComments bareLoader

theorem heirsRead_failure : heirsRead.failure = none := by cbv

theorem heirs_failure :
    ((ofPackage (.ofDeclaration heirs) {}).resolve bareLoader).failure = none := by cbv

theorem heirs_sources : (List.range 4).map heirsRead.state.work.catalog.inheritSources =
    [[], [2], [3], []] := by cbv

theorem heirs_acyclic (i : Nat) : ¬OnCircle heirsRead.state.work.catalog.inheritSources i := by
  refine not_onCircle_of_rank (fun i => 4 - i) (fun k j hj => ?_) i
  have size : heirsRead.state.work.catalog.entries.length = 4 :=
    (isRead_of_readComments (Attempt.eq_done heirsRead_failure)).size
  have inRange := size ▸ Catalog.lt_of_inheritSources hj
  have sources := congrArg (·[k]?) heirs_sources
  simp only [List.getElem?_map, List.getElem?_range inRange, Option.map_some] at sources
  match k, inRange with
  | 0, _ | 1, _ | 2, _ | 3, _ => simp_all

end Resolution

end DocTree
