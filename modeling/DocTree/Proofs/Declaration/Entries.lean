import DocTree.Declaration
import Mathlib.Data.List.Forall2

/-! The entries of a declaration document. Entries without a name are passed over with all that is
below them; of the others, each that is met has to tell its kind, also one that a later entry of the
same name replaces. Where all of them do, a declaration is read from each. -/

namespace DocTree

namespace Declaration

open Keyed

/-! ### Entries -/

/-- The fields of an entry, if it is well-formed. -/
def namedFields? : Value → Option Fields
  | .object fields => if isNamed fields then some fields else none
  | _ => none

/-- The well-formed entries of the list under a key, in order. -/
def entriesOf (key : String) (fields : Fields) : List Fields :=
  match get? (.text key) fields with
  | some (.list entries) => entries.filterMap namedFields?
  | _ => []

/-- The entries that an entry leads to through well-formed ones, itself included, each with the kind
that it may leave out. -/
inductive Leads : Option Kind → Fields → Option Kind → Fields → Prop
  | here {k : Option Kind} {f : Fields} : Leads k f k f
  | member {k l : Option Kind} {f e g : Fields} (mem : e ∈ entriesOf "members" f)
      (below : Leads none e l g) : Leads k f l g
  | parameter {k l : Option Kind} {f e g : Fields} (mem : e ∈ entriesOf "parameters" f)
      (below : Leads (some .parameter) e l g) : Leads k f l g

/-- An entry from which no kind can be told: it has none, and none may be left out, or it has
something that is no word for one, in lowercase. -/
def NoKind (default : Option Kind) (fields : Fields) : Prop :=
  default = none ∧ (get? (.text "kind") fields).getD .null = .null ∨
    ∃ v, get? (.text "kind") fields = some v ∧ v ≠ .null ∧
      ∀ k : Kind, k.name ≠ String.ofList (v.text.toList.map Kind.lowered)

/-- Every entry that an entry leads to tells its kind. -/
def Sound (default : Option Kind) (fields : Fields) : Prop :=
  ∀ k f, Leads default fields k f → ¬NoKind k f

variable {default : Option Kind} {fields : Fields}

theorem Leads.trans {k l m : Option Kind} {f g h : Fields} (first : Leads k f l g)
    (second : Leads l g m h) : Leads k f m h := by
  induction first with
  | here => exact second
  | member mem _ ih => exact .member mem (ih second)
  | parameter mem _ ih => exact .parameter mem (ih second)

/-! ### What is read from entries -/

theorem name_of_headingOf {heading : Heading} (h : headingOf default fields = .ok heading) :
    heading.name = anyText "name" fields := by
  rw [headingOf] at h
  cases kind : kindOf default fields with
  | error f => simp [kind, Except.map] at h
  | ok k =>
    rw [kind] at h
    cases h
    rfl

/-- What the fields of a package say about the package itself. -/
def packageHeading (fields : Fields) : Heading where
  name := anyText "name" fields
  kind := .package
  comment := commentText ((get? (.text "comment") fields).getD .null)
  location := optionalText "location" fields

end Declaration

end DocTree
