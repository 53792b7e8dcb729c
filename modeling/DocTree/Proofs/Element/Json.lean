import DocTree.Descriptor.Format
import DocTree.Element.Json
import DocTree.Proofs.Package.Path
import DocTree.Proofs.Schema

/-! The JSON form of documentation elements is what the format of descriptors asks for, and tells
all of them: reading it gives the same elements back, however deep their groups are. -/

namespace DocTree

namespace Keyed

variable {κ α : Type} [DecidableEq κ]

theorem get?_append (key : κ) (first second : List (κ × α)) :
    get? key (first ++ second) = (get? key first).or (get? key second) := by
  induction first with
  | nil => rfl
  | cons f rest ih =>
    obtain ⟨k, a⟩ := f
    by_cases h : k = key <;> simp [get?, h, ih]

end Keyed

namespace Element

open Keyed

theorem get?_optionalField (key other text : String) :
    get? (.text key) (optionalField other text) =
      if text = "" ∨ other ≠ key then none else some (.string text) := by
  by_cases given : text = "" <;> by_cases same : other = key <;>
    simp [optionalField, get?, given, same]

theorem mem_optionalField {key text : String} {f : Key × Value} (h : f ∈ optionalField key text) :
    f.2 = .string text := by
  rw [optionalField] at h
  split at h
  · rw [List.mem_singleton.1 h]
  · cases h

theorem textField_of_string {key text : String} {fields : Fields}
    (h : get? (.text key) fields = some (.string text)) : textField key fields = text := by
  rw [textField, h]
  rfl

theorem textField_of_optional {key text : String} {fields : Fields}
    (h : get? (.text key) fields = if text = "" then none else some (.string text)) :
    textField key fields = text := by
  by_cases given : text = ""
  · simp [textField, h, given]
  · exact textField_of_string (by simp [h, given])

theorem linkOfFields_web {fields : Fields} {url display : String}
    (reference : get? (.text "referenceType") fields = some (.string "href"))
    (address : textField "targetUrl" fields = url) (value : textField "value" fields = display) :
    linkOfFields fields = .web url display := by
  simp [linkOfFields, reference, address, value]

theorem linkOfFields_code {fields : Fields} {r : Reference} {display : String}
    (reference : get? (.text "referenceType") fields = some (.string "code"))
    (scope : textField "scopeName" fields = r.scope)
    (package : textField "packageName" fields = r.package)
    (exportName : textField "exportName" fields = r.exportName)
    (memberName : textField "memberName" fields = r.memberName)
    (value : textField "value" fields = display) :
    linkOfFields fields = .code ⟨r, display⟩ := by
  simp [linkOfFields, reference, scope, package, exportName, memberName, value]

/-- The fields of an object, all of them texts, that describe a link. -/
structure DescribesLink (fields : Fields) (l : Link) : Prop where
  kind : get? (.text "kind") fields = some (.string "linkDocElement")
  reference : ∃ word ∈ ["href", "code"],
    get? (.text "referenceType") fields = some (.string word)
  noGroup : get? (.text "seeElements") fields = none
  texts : ∀ f ∈ fields, ∃ s, f.2 = .string s
  link : linkOfFields fields = l

theorem linkToJson_eq (l : Link) :
    ∃ fields, linkToJson l = .object fields ∧ DescribesLink fields l := by
  cases l with
  | web url display =>
    refine ⟨_, rfl, rfl, ⟨"href", .head _, rfl⟩, ?_, fun f hf => ?_, ?_⟩
    · simp [get?, get?_optionalField]
    · simp only [List.mem_append, List.mem_cons, List.not_mem_nil, or_false] at hf
      rcases hf with (rfl | rfl | rfl) | hf
      · exact ⟨_, rfl⟩
      · exact ⟨_, rfl⟩
      · exact ⟨_, rfl⟩
      · exact ⟨_, mem_optionalField hf⟩
    · exact linkOfFields_web rfl (textField_of_string rfl)
        (textField_of_optional (by simp [get?, get?_optionalField]))
  | code l =>
    obtain ⟨r, display⟩ := l
    refine ⟨_, rfl, rfl, ⟨"code", .tail _ (.head _), rfl⟩, ?_, fun f hf => ?_, ?_⟩
    · simp [get?_append, get?, get?_optionalField]
    · simp only [List.mem_append, List.mem_cons, List.not_mem_nil, or_false] at hf
      rcases hf with ((((rfl | rfl) | hf) | (rfl | rfl)) | hf) | hf
      · exact ⟨_, rfl⟩
      · exact ⟨_, rfl⟩
      · exact ⟨_, mem_optionalField hf⟩
      · exact ⟨_, rfl⟩
      · exact ⟨_, rfl⟩
      · exact ⟨_, mem_optionalField hf⟩
      · exact ⟨_, mem_optionalField hf⟩
    · apply linkOfFields_code rfl
      · exact textField_of_optional (by simp [get?_append, get?, get?_optionalField])
      · exact textField_of_string (by simp [get?_append, get?, get?_optionalField])
      · exact textField_of_string (by simp [get?_append, get?, get?_optionalField])
      · exact textField_of_optional (by simp [get?_append, get?, get?_optionalField])
      · exact textField_of_optional (by simp [get?_append, get?, get?_optionalField])

/-- A group of elements that are read back is read back. -/
theorem ofJson_see {items : List Value} {es : List Element} (h : itemsOfJson items = .ok es) :
    ofJson (.object [("kind", .string "seeDocElement"), ("seeElements", .list items)]) =
      .ok (some (.see es)) := by
  rw [ofJson]
  cases items with
  | nil =>
    obtain rfl : [] = es := by simpa [itemsOfJson] using h
    simp [get?, Value.isGiven]
  | cons v rest => simp [get?, Value.isGiven, listOfJson, h, Except.map]

mutual

theorem ofJson_toJson : ∀ e : Element, ofJson (toJson e) = .ok (some e)
  | .text value => by
    rw [toJson, ofJson]
    rfl
  | .link l => by
    obtain ⟨fields, hfields, describes⟩ := linkToJson_eq l
    rw [toJson, hfields, ofJson]
    simp only [describes.kind, describes.link]
  | .see children => by
    rw [toJson]
    exact ofJson_see (itemsOfJson_itemsToJson children)

theorem itemsOfJson_itemsToJson : ∀ es : List Element, itemsOfJson (itemsToJson es) = .ok es
  | [] => by rw [itemsToJson, itemsOfJson]
  | e :: rest => by
    rw [itemsToJson, itemsOfJson, ofJson_toJson e, itemsOfJson_itemsToJson rest]
    rfl

end

end Element

namespace Descriptor

open Keyed Element Schema

variable {limit : Nat} {v : Value}

theorem passes_defined {name : String} {schema : Schema}
    (known : get? name formatDefinitions = some schema)
    (h : Passes format.definitions limit schema v) :
    Passes format.definitions (limit + 1) (defined name) v := by
  refine passes_reference ?_ h
  simp only [format, known]

theorem passes_text (h : ∃ s, v = .string s) :
    Passes format.definitions limit textSchema v := by
  obtain ⟨s, rfl⟩ := h
  refine passes_allOf fun part hpart => ?_
  rw [List.mem_singleton.1 hpart]
  exact passes_type rfl

theorem passes_word {words : List String}
    (h : ∃ word ∈ words, v = .string word) :
    Passes format.definitions limit (wordSchema words) v := by
  obtain ⟨word, listed, rfl⟩ := h
  refine passes_allOf fun part hpart => ?_
  rw [List.mem_singleton.1 hpart]
  exact passes_oneOf listed

/-- An object of a known kind is an element if all its fields are texts, the type of reference is a
known one, and only the elements of a group are more than a text. -/
theorem passes_element {fields : Fields} {kind : String}
    (hkind : get? (.text "kind") fields = some (.string kind))
    (known : kind ∈ ["textDocElement", "linkDocElement", "seeDocElement"])
    (reference : ∀ v, get? (.text "referenceType") fields = some v →
      ∃ word ∈ ["href", "code"], v = .string word)
    (texts : ∀ f ∈ fields, f.1 ≠ .text "seeElements" → ∃ s, f.2 = .string s)
    (group : ∀ v, get? (.text "seeElements") fields = some v →
      Passes format.definitions referenceLimit elementsSchema v) :
    Passes format.definitions limit elementDefinition (.object fields) := by
  have text (key : String) (other : Key.text key ≠ .text "seeElements") (v : Value)
      (found : get? (.text key) fields = some v) :
      Passes format.definitions referenceLimit textSchema v :=
    passes_text (texts _ (mem_of_get? found) other)
  refine passes_allOf fun part hpart => ?_
  simp only [List.mem_cons, List.not_mem_nil, or_false] at hpart
  rcases hpart with rfl | rfl | rfl
  · exact passes_type rfl
  · refine passes_required fun name hname => ?_
    rw [List.mem_singleton.1 hname, has, hkind]
    rfl
  · refine passes_properties fun name schema mem v found => ?_
    simp only [List.mem_cons, Prod.mk.injEq, List.not_mem_nil, or_false] at mem
    rcases mem with ⟨rfl, rfl⟩ | ⟨rfl, rfl⟩ | ⟨rfl, rfl⟩ | ⟨rfl, rfl⟩ | ⟨rfl, rfl⟩ | ⟨rfl, rfl⟩ |
      ⟨rfl, rfl⟩ | ⟨rfl, rfl⟩ | ⟨rfl, rfl⟩
    · rw [hkind] at found
      cases found
      exact passes_word ⟨kind, known, rfl⟩
    · exact text "value" (by simp) v found
    · exact passes_word (reference v found)
    · exact text "targetUrl" (by simp) v found
    · exact text "scopeName" (by simp) v found
    · exact text "packageName" (by simp) v found
    · exact text "exportName" (by simp) v found
    · exact text "memberName" (by simp) v found
    · exact group v found

theorem passes_elements {items : List Value}
    (h : ∀ v ∈ items, ∀ limit, Passes format.definitions limit elementDefinition v) :
    Passes format.definitions (limit + 1) elementsSchema (.list items) := by
  refine passes_defined rfl (passes_allOf fun part hpart => ?_)
  simp only [List.mem_cons, List.not_mem_nil, or_false] at hpart
  rcases hpart with rfl | rfl
  · exact passes_type rfl
  · exact passes_items fun v hv => passes_defined rfl (h v hv _)

mutual

theorem passes_toJson : ∀ (e : Element) (limit : Nat),
    Passes format.definitions limit elementDefinition e.toJson
  | .text value, limit => by
    rw [toJson]
    refine passes_element rfl (.head _) (fun v h => by cases h) (fun f hf _ => ?_)
      (fun v h => by cases h)
    simp only [List.mem_cons, List.not_mem_nil, or_false] at hf
    rcases hf with rfl | rfl
    · exact ⟨_, rfl⟩
    · exact ⟨_, rfl⟩
  | .link l, limit => by
    obtain ⟨fields, hfields, describes⟩ := linkToJson_eq l
    obtain ⟨word, hword, found⟩ := describes.reference
    rw [toJson, hfields]
    refine passes_element describes.kind (.tail _ (.head _)) (fun v h => ?_)
      (fun f hf _ => describes.texts f hf) (fun v h => ?_)
    · exact ⟨word, hword, Option.some.inj (h.symm.trans found)⟩
    · rw [describes.noGroup] at h
      cases h
  | .see children, limit => by
    rw [toJson]
    refine passes_element rfl (.tail _ (.tail _ (.head _))) (fun v h => by cases h)
      (fun f hf other => ?_) (fun v h => ?_)
    · simp only [List.mem_cons, List.not_mem_nil, or_false] at hf
      rcases hf with rfl | rfl
      · exact ⟨_, rfl⟩
      · exact absurd rfl other
    · cases h
      exact passes_elements (passes_itemsToJson children)

theorem passes_itemsToJson : ∀ (es : List Element), ∀ v ∈ itemsToJson es, ∀ limit,
    Passes format.definitions limit elementDefinition v
  | [], v, hv => by
    rw [itemsToJson] at hv
    cases hv
  | e :: rest, v, hv => by
    rw [itemsToJson, List.mem_cons] at hv
    intro limit
    rcases hv with rfl | hv
    · exact passes_toJson e limit
    · exact passes_itemsToJson rest v hv limit

end

/-- The format of a list of elements. -/
def elementsFormat : SchemaDocument := { format with root := elementsSchema }

end Descriptor

/-- The JSON form of elements has the format that descriptors ask for, and the same elements are
read back from it. -/
theorem Element.json_faithful (es : List Element) :
    Descriptor.elementsFormat.violations (listToJson es) = .ok [] ∧
      listOfJson (listToJson es) = .ok es := by
  refine ⟨SchemaDocument.violations_of_passes ?_, ?_⟩
  · exact Descriptor.passes_elements (Descriptor.passes_itemsToJson es)
  · rw [listToJson, listOfJson, itemsOfJson_itemsToJson]

end DocTree
