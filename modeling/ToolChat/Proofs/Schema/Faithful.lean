import ToolChat.Proofs.Json.Unambiguous
import ToolChat.Proofs.Schema.Document

/-!
What the documents of schemas tell.

A schema whose properties have distinct names can be told from the text of its document, and so can
the description of a tool that is made of such schemas. Names of properties stand one level below
the keywords, so that one that looks like a keyword is taken for none.
-/

set_option autoImplicit false

namespace ToolChat

namespace Schema

/-- In a schema and everywhere inside of it, the properties of an object have distinct names. -/
inductive NamesDistinct : Schema → Prop
  | object {properties : List (String × Schema)} (required : List String)
      (description : Option String) (distinct : (properties.map (·.1)).Nodup)
      (each : ∀ pair ∈ properties, NamesDistinct pair.2) :
      NamesDistinct (.object properties required description)
  | array {items : Schema} (description : Option String) (inside : NamesDistinct items) :
      NamesDistinct (.array items description)
  | string (description : Option String) : NamesDistinct (.string description)
  | integer (description : Option String) : NamesDistinct (.integer description)
  | number (description : Option String) : NamesDistinct (.number description)
  | boolean (description : Option String) : NamesDistinct (.boolean description)
  | enumeration (values : List String) (description : Option String) :
      NamesDistinct (.enumeration values description)
  | reference (id : String) : NamesDistinct (.reference id)

section Keywords

variable {key : String} {value other : Option Json} {front back : List (String × Json)}

theorem lookup_append_keyword (fresh : key ∉ front.map (·.1)) :
    (front ++ keyword key value).lookup key = value := by
  rw [List.lookup_append, Dictionary.lookup_eq_none_iff.2 fresh, Option.none_or]
  cases value with
  | none => rfl
  | some json => exact List.lookup_cons_self

theorem append_keyword_inj (fresh : key ∉ front.map (·.1)) (also : key ∉ back.map (·.1))
    (same : front ++ keyword key value = back ++ keyword key other) :
    front = back ∧ value = other := by
  have values := congrArg (List.lookup key) same
  rw [lookup_append_keyword fresh, lookup_append_keyword also] at values
  subst values
  exact ⟨List.append_cancel_right same, rfl⟩

theorem string_map_inj {text other : Option String}
    (same : text.map Json.string = other.map .string) : text = other :=
  Option.map_injective (fun _ _ => Json.string.inj) same

theorem textArray_inj {texts others : List String} (same : textArray texts = textArray others) :
    texts = others :=
  List.map_injective_iff.2 (fun _ _ => Json.string.inj) (Json.array.inj same)

theorem unlessEmpty_inj {α : Type} (f : List α → Json) {list others : List α}
    (inj : f list = f others → list = others)
    (same : (if list.isEmpty then none else some (f list)) =
      if others.isEmpty then none else some (f others)) : list = others := by
  cases list <;> cases others <;> try cases same
  case nil.nil => rfl
  case cons.cons => exact inj (Option.some.inj same)

theorem documents_inj {schemas others : List (String × Schema)}
    (each : ∀ pair ∈ schemas, ∀ other ∈ others, pair.2.toJson = other.2.toJson → pair.2 = other.2)
    (same : documents schemas = documents others) : schemas = others := by
  induction schemas generalizing others with
  | nil =>
    cases others with
    | nil => rfl
    | cons => cases same
  | cons pair schemas ih =>
    cases others with
    | nil => cases same
    | cons other others =>
      obtain ⟨first, later⟩ := List.cons.inj same
      obtain ⟨name, document⟩ := Prod.mk.inj first
      have schema := each pair List.mem_cons_self other List.mem_cons_self document
      rw [ih (fun x inside y member => each x (List.mem_cons_of_mem _ inside) y
        (List.mem_cons_of_mem _ member)) later, Prod.ext name schema]

end Keywords

theorem pointer_inj {id other : String} (same : pointer id = pointer other) : id = other :=
  (String.append_right_inj _).1 same

def keywords : Schema → List (String × Json)
  | .object properties required _ =>
    [("type", .string "object"), ("properties", .object (Json.collect (documents properties)))]
      ++ keyword "required" (if required.isEmpty then none else some (textArray required))
  | .array items _ => [("type", .string "array"), ("items", items.toJson)]
  | .string _ => [("type", .string "string")]
  | .integer _ => [("type", .string "integer")]
  | .number _ => [("type", .string "number")]
  | .boolean _ => [("type", .string "boolean")]
  | .enumeration values _ => [("type", .string "string"), ("enum", textArray values)]
  | .reference id => [("$ref", .string (pointer id))]

theorem toJson_eq_keywords (schema : Schema) : schema.toJson =
    .object (schema.keywords ++ keyword "description" (schema.description?.map .string)) := by
  cases schema <;> rfl

theorem not_description_keywords (schema : Schema) :
    "description" ∉ schema.keywords.map (·.1) := by
  cases schema with
  | object properties required => cases required <;> simp [keywords, keyword]
  | _ => simp [keywords]

theorem keywords_inj {schema other : Schema} (same : schema.toJson = other.toJson) :
    schema.keywords = other.keywords ∧ schema.description? = other.description? := by
  rw [toJson_eq_keywords, toJson_eq_keywords] at same
  obtain ⟨front, description⟩ := append_keyword_inj (not_description_keywords schema)
    (not_description_keywords other) (Json.object.inj same)
  exact ⟨front, string_map_inj description⟩

theorem object_keywords_inj {properties others : List (String × Schema)}
    {required names : List String} {description other : Option String}
    (distinct : (properties.map (·.1)).Nodup) (also : (others.map (·.1)).Nodup)
    (same : (Schema.object properties required description).keywords =
      (Schema.object others names other).keywords) :
    documents properties = documents others ∧ required = names := by
  have fresh : ∀ documents : Json,
      "required" ∉ [("type", Json.string "object"), ("properties", documents)].map (·.1) := fun _ =>
    not_mem_keys_pair (by decide) _ (not_mem_keys_pair (by decide) _ List.not_mem_nil)
  obtain ⟨front, requireds⟩ := append_keyword_inj (fresh _) (fresh _) same
  rw [Json.collect_of_nodup (names_documents properties ▸ distinct),
    Json.collect_of_nodup (names_documents others ▸ also)] at front
  have entries := (Prod.mk.inj (List.cons.inj (List.cons.inj front).2).1).2
  exact ⟨Json.object.inj entries, unlessEmpty_inj textArray textArray_inj requireds⟩

section NumberFree

open Json (NumberFree)

theorem numberFree_keyword {key : String} {value : Option Json}
    (h : ∀ json, value = some json → json.NumberFree) :
    ∀ member ∈ keyword key value, member.2.NumberFree := by
  cases value with
  | none => exact List.forall_mem_nil _
  | some json => exact List.forall_mem_singleton.2 (h json rfl)

theorem numberFree_text (key : String) (text : Option String) :
    ∀ member ∈ keyword key (text.map .string), member.2.NumberFree := by
  refine numberFree_keyword fun json given => ?_
  obtain ⟨content, -, rfl⟩ := Option.map_eq_some_iff.1 given
  exact .string content

theorem numberFree_textArray (texts : List String) : (textArray texts).NumberFree := by
  refine .array fun item inside => ?_
  obtain ⟨text, -, rfl⟩ := List.mem_map.1 inside
  exact .string text

theorem numberFree_documents {schemas : List (String × Schema)}
    (each : ∀ pair ∈ schemas, pair.2.toJson.NumberFree) :
    (Json.object (documents schemas)).NumberFree := by
  refine .object fun member inside => ?_
  rw [map_documents] at inside
  obtain ⟨pair, there, rfl⟩ := List.mem_map.1 inside
  exact each pair there

theorem NamesDistinct.numberFree {schema : Schema} (h : schema.NamesDistinct) :
    schema.toJson.NumberFree := by
  induction h with
  | @object properties required description distinct each ih =>
    have entries := numberFree_documents ih
    rw [toJson, Json.collect_of_nodup (names_documents properties ▸ distinct)]
    refine .object (List.forall_mem_append.2
      ⟨List.forall_mem_append.2 ⟨?_, numberFree_keyword fun json given => ?_⟩, numberFree_text _ _⟩)
    · exact List.forall_mem_cons.2 ⟨.string _, List.forall_mem_singleton.2 entries⟩
    · split at given <;> cases given
      exact numberFree_textArray required
  | array description inside ih =>
    exact .object (List.forall_mem_cons.2
      ⟨.string _, List.forall_mem_cons.2 ⟨ih, numberFree_text _ _⟩⟩)
  | enumeration values description =>
    exact .object (List.forall_mem_cons.2
      ⟨.string _, List.forall_mem_cons.2 ⟨numberFree_textArray values, numberFree_text _ _⟩⟩)
  | reference id => exact .object (List.forall_mem_singleton.2 (.string _))
  | string | integer | number | boolean =>
    exact .object (List.forall_mem_cons.2 ⟨.string _, numberFree_text _ _⟩)

end NumberFree

namespace NamesDistinct

variable {schema other : Schema}

/-- A schema is told from its document. -/
theorem eq_of_toJson_eq (h : schema.NamesDistinct) (also : other.NamesDistinct)
    (same : schema.toJson = other.toJson) : schema = other := by
  -- Schemas of different kinds have different keywords, whatever the properties are named.
  induction h generalizing other with
  | object required description distinct each ih =>
    obtain ⟨keywords, descriptions⟩ := keywords_inj same
    cases also with
    | object names text unique others =>
      obtain ⟨properties, rfl⟩ := object_keywords_inj distinct unique keywords
      rw [documents_inj (fun pair inside other member => ih pair inside (others other member))
        properties]
      cases descriptions
      rfl
    | _ => simp [Schema.keywords] at keywords
  | array description inside ih =>
    obtain ⟨keywords, descriptions⟩ := keywords_inj same
    cases also with
    | array text others =>
      have items := (Prod.mk.inj (List.cons.inj (List.cons.inj keywords).2).1).2
      cases ih others items
      cases descriptions
      rfl
    | _ => simp [Schema.keywords] at keywords
  | enumeration values description =>
    obtain ⟨keywords, descriptions⟩ := keywords_inj same
    cases also with
    | enumeration others text =>
      have listed := (Prod.mk.inj (List.cons.inj (List.cons.inj keywords).2).1).2
      cases textArray_inj listed
      cases descriptions
      rfl
    | _ => simp [Schema.keywords] at keywords
  | reference id =>
    obtain ⟨keywords, -⟩ := keywords_inj same
    cases also with
    | reference other =>
      have pointers := Json.string.inj (Prod.mk.inj (List.cons.inj keywords).1).2
      cases pointer_inj pointers
      rfl
    | _ => simp [Schema.keywords] at keywords
  | string | integer | number | boolean =>
    obtain ⟨keywords, descriptions⟩ := keywords_inj same
    cases also <;> first | (cases descriptions; rfl) | simp [Schema.keywords] at keywords

end NamesDistinct

end Schema

namespace Specification

def NamesDistinct (s : Specification) : Prop :=
  (∀ schema, s.parameters = some schema → schema.NamesDistinct) ∧
    ∀ pair ∈ s.definitions, pair.2.NamesDistinct

variable {s t : Specification}

theorem definitions_inj {definitions others : Definitions}
    (each : ∀ pair ∈ definitions, pair.2.NamesDistinct)
    (also : ∀ pair ∈ others, pair.2.NamesDistinct)
    (same : Json.object (Schema.documents definitions) = .object (Schema.documents others)) :
    definitions = others :=
  Schema.documents_inj (fun pair inside other member =>
    (each pair inside).eq_of_toJson_eq (also other member)) (Json.object.inj same)

theorem parameters_inj {parameters others : Option Schema}
    (distinct : ∀ schema, parameters = some schema → schema.NamesDistinct)
    (also : ∀ schema, others = some schema → schema.NamesDistinct)
    (same : parameters.map Schema.toJson = others.map Schema.toJson) : parameters = others := by
  cases parameters <;> cases others <;> try cases same
  case none.none => rfl
  case some.some schema other =>
    have documents := Option.some.inj same
    exact congrArg some ((distinct schema rfl).eq_of_toJson_eq (also other rfl) documents)

theorem not_mem_name {key : String} (other : key ≠ "name") (s : Specification) :
    key ∉ [("name", Json.string s.name)].map (·.1) :=
  not_mem_keys_pair other _ List.not_mem_nil

theorem not_mem_name_description {key : String} (other : key ≠ "name") (also : key ≠ "description")
    (s : Specification) : key ∉ ([("name", Json.string s.name)] ++
      Schema.keyword "description" (s.description.map .string)).map (·.1) :=
  not_mem_keys_append (not_mem_name other s) (not_mem_keys_keyword also _)

/-- The description of a tool is told from its document. -/
theorem NamesDistinct.eq_of_toJson_eq (h : s.NamesDistinct) (also : t.NamesDistinct)
    (same : s.toJson = t.toJson) : s = t := by
  have last : ∀ s : Specification, "$defs" ∉ ([("name", Json.string s.name)] ++
      Schema.keyword "description" (s.description.map .string) ++
      Schema.keyword "parameters" (s.parameters.map Schema.toJson)).map (·.1) := fun s =>
    not_mem_keys_append (not_mem_name_description (by decide) (by decide) s)
      (not_mem_keys_keyword (by decide) _)
  obtain ⟨before, definitions⟩ :=
    Schema.append_keyword_inj (last s) (last t) (Json.object.inj same)
  obtain ⟨before, parameters⟩ := Schema.append_keyword_inj
    (not_mem_name_description (by decide) (by decide) s)
    (not_mem_name_description (by decide) (by decide) t) before
  obtain ⟨name, description⟩ := Schema.append_keyword_inj (not_mem_name (by decide) s)
    (not_mem_name (by decide) t) before
  have names := Json.string.inj (Prod.mk.inj (List.cons.inj name).1).2
  have descriptions := Schema.string_map_inj description
  have parameters := parameters_inj h.1 also.1 parameters
  have definitions := Schema.unlessEmpty_inj (fun schemas => .object (Schema.documents schemas))
    (definitions_inj h.2 also.2) definitions
  cases s
  cases t
  cases names
  cases descriptions
  cases parameters
  cases definitions
  rfl

theorem NamesDistinct.numberFree (h : s.NamesDistinct) : s.toJson.NumberFree := by
  refine .object (List.forall_mem_append.2 ⟨List.forall_mem_append.2 ⟨List.forall_mem_append.2
    ⟨List.forall_mem_singleton.2 (.string _), Schema.numberFree_text _ _⟩,
      Schema.numberFree_keyword fun json given => ?_⟩,
    Schema.numberFree_keyword fun json given => ?_⟩)
  · obtain ⟨schema, present, rfl⟩ := Option.map_eq_some_iff.1 given
    exact (h.1 schema present).numberFree
  · split at given <;> cases given
    exact Schema.numberFree_documents fun pair inside => (h.2 pair inside).numberFree

end Specification

/-- Schemas whose properties have distinct names are the same where the texts of their documents
are, and so are the descriptions of tools that are made of such schemas. -/
theorem text_tells_schema :
    (∀ a b : Schema, a.NamesDistinct → b.NamesDistinct →
      (a.toJson.text = b.toJson.text ↔ a = b)) ∧
    ∀ s t : Specification, s.NamesDistinct → t.NamesDistinct →
      (s.toJson.text = t.toJson.text ↔ s = t) := by
  constructor
  · intro a b distinct also
    refine ⟨fun same => ?_, congrArg fun schema : Schema => schema.toJson.text⟩
    exact distinct.eq_of_toJson_eq also (distinct.numberFree.eq_of_text_eq also.numberFree same)
  · intro s t distinct also
    refine ⟨fun same => ?_, congrArg fun tool : Specification => tool.toJson.text⟩
    exact distinct.eq_of_toJson_eq also (distinct.numberFree.eq_of_text_eq also.numberFree same)

def schemaOfSchemas : Schema :=
  .object [("type", .enumeration ["object"] none), ("$ref", .reference "Keyword"),
    ("required", .array (.string none) (some "required"))] ["type"] none

def schemaOfSchemasOtherwise : Schema :=
  .object [("type", .enumeration ["object"] none), ("$ref", .reference "Keyword"),
    ("required", .array (.string (some "required")) none)] [] (some "type")

theorem schemaOfSchemas_text :
    schemaOfSchemas.toJson.text ≠ schemaOfSchemasOtherwise.toJson.text ∧
      (Specification.mk "check" none (some schemaOfSchemas) []).toJson.text ≠
        (Specification.mk "check" none none [("parameters", schemaOfSchemas)]).toJson.text := by
  have first : schemaOfSchemas.NamesDistinct := .object _ _ (by decide)
    (by simpa using ⟨.enumeration _ _, .reference _, .array _ (.string _)⟩)
  have second : schemaOfSchemasOtherwise.NamesDistinct := .object _ _ (by decide)
    (by simpa using ⟨.enumeration _ _, .reference _, .array _ (.string _)⟩)
  constructor
  · exact fun same => nomatch (text_tells_schema.1 _ _ first second).1 same
  · refine fun same => nomatch (text_tells_schema.2 _ _ ⟨?_, ?_⟩ ⟨?_, ?_⟩).1 same
    · rintro _ ⟨⟩
      exact first
    · exact List.forall_mem_nil _
    · exact nofun
    · exact List.forall_mem_singleton.2 first

end ToolChat
