import ToolChat.Proofs.Argument.Conformance
import ToolChat.Proofs.Argument.RoundTrip

/-!
All that is wrong with arguments.

An exhaustive check goes over the whole JSON and never stops early: parameters and fields are taken
in the order of their declaration, items by position and entries in the order of the document. It
finds all that violates the shapes and nothing else (`mem_findings_iff`). The binder reports the
first finding of this check, and binds if there is none.
-/

set_option autoImplicit false

namespace ToolChat

/-- A place that is not as its shape demands, and the kind of error that it is reported as. -/
structure Finding where
  path : Path
  kind : ToolError.Kind
  deriving DecidableEq

def Shape.admits : Shape → Json → Bool
  | .integer kind, .number n => n.exactInt?.any kind.contains
  | .number kind, .number n => kind.contains n.toDouble
  | .boolean, .boolean _ => true
  | .string, .string _ => true
  | .enumeration shape, .string s => shape.contains s
  | _, _ => false

/-- All findings in JSON at a path. -/
def findings (index : ShapeIndex) (shape : Shape) (path : Path) (json : Json) : List Finding :=
  match json with
  | .array items =>
    match shape.item? with
    | some item => items.zipIdx.attach.flatMap fun place =>
        findings index item (.item path place.1.2) place.1.1
    | none => [⟨path, .argumentCoercion⟩]
  | .object members =>
    match shape.target? index, shape with
    | some object, _ => object.fields.flatMap fun field =>
        match _found : Json.member? field.name members with
        | some json => findings index field.shape (.field path field.name) json
        | none => if field.nullable then [] else [⟨.field path field.name, .missingField⟩]
    | none, .map value => members.attach.flatMap fun entry =>
        if entry.1.2.kind = .null then []
        else findings index value (.entry path entry.1.1) entry.1.2
    | none, _ => [⟨path, .argumentCoercion⟩]
  | json => if shape.admits json then [] else [⟨path, .argumentCoercion⟩]
termination_by sizeOf json
decreasing_by
  · exact Json.sizeOf_lt_array (List.fst_mem_of_mem_zipIdx place.2)
  · exact Json.sizeOf_lt_object_of_member? _found
  · exact Json.sizeOf_lt_object entry.2

def memberFindings (index : ShapeIndex) (members : List (String × Json)) (name : String)
    (shape : Shape) (optional : Bool) (path : Path) : List Finding :=
  match Json.member? name members with
  | some json => findings index shape path json
  | none => if optional then [] else [⟨path, .missingField⟩]

def argumentFindings (index : ShapeIndex) (members : List (String × Json))
    (named : List (String × Parameter)) : List Finding :=
  named.flatMap fun (name, parameter) =>
    memberFindings index members name parameter.shape parameter.optional (.argument name)

variable {index : ShapeIndex} {shape : Shape} {path : Path}

theorem Json.kind_ne_null {json : Json} (present : json ≠ .null) : json.kind ≠ .null := by
  cases json with
  | null => exact absurd rfl present
  | _ => exact nofun

section Steps

theorem findings_of_item? {item : Shape} (ofItems : shape.item? = some item) (items : List Json) :
    findings index shape path (.array items) = items.zipIdx.flatMap fun place =>
      findings index item (.item path place.2) place.1 := by
  rw [findings, ofItems]
  simp only [List.flatMap_subtype, List.unattach_attach]

theorem findings_of_target? {object : ObjectShape} (target : shape.target? index = some object)
    (members : List (String × Json)) :
    findings index shape path (.object members) = object.fields.flatMap fun field =>
      memberFindings index members field.name field.shape field.nullable
        (.field path field.name) := by
  rw [findings.eq_def]
  simp only [target]
  refine List.flatMap_congr fun field _ => ?_
  rw [memberFindings]
  split <;> simp_all only

theorem findings_map (value : Shape) (members : List (String × Json)) :
    findings index (.map value) path (.object members) = members.flatMap fun entry =>
      if entry.2.kind = .null then [] else findings index value (.entry path entry.1) entry.2 := by
  rw [findings.eq_def]
  simp only [Shape.target?, List.flatMap_subtype, List.unattach_attach]

theorem Shape.admits_eq_false (parts : shape.plain? = none) (json : Json) :
    shape.admits json = false := by
  cases shape with
  | integer | number | boolean | string | enumeration => cases parts
  | _ => rfl

theorem findings_of_unfit {json : Json} (parts : shape.plain? = none)
    (noItems : json.kind = .array → shape.item? = none)
    (noMembers : json.kind = .object → shape.target? index = none ∧ ∀ value, shape ≠ .map value) :
    findings index shape path json = [⟨path, .argumentCoercion⟩] := by
  rw [findings.eq_def]
  cases json with
  | array items => simp only [noItems rfl]
  | object members =>
    obtain ⟨noRecord, noMap⟩ := noMembers rfl
    cases shape with
    | map value => exact absurd rfl (noMap value)
    | _ => simp only [noRecord]
  | _ => simp only [Shape.admits_eq_false parts, Bool.false_eq_true, if_false]

theorem findings_of_plain {schema : Schema} (plain : shape.plain? = some schema) (json : Json) :
    findings index shape path json =
      if shape.admits json then [] else [⟨path, .argumentCoercion⟩] := by
  rw [findings.eq_def]
  cases shape with
  | integer | number | boolean | string | enumeration => cases json <;> rfl
  | _ => cases plain

theorem Shape.admits_iff {schema : Schema} (plain : shape.plain? = some schema) {json : Json} :
    shape.admits json = true ↔ Conforms index shape json := by
  cases shape with
  | integer kind =>
    cases json with
    | number n =>
      rw [admits, Option.any_eq_true]
      constructor
      · rintro ⟨m, exact, within⟩
        obtain ⟨low, high⟩ := IntegerKind.contains_iff.1 within
        exact .integer (Json.Number.exactInt?_eq_some_iff.1 exact).1 low high
      · intro conforms
        cases conforms with | @integer _ _ m whole low high
        have within := IntegerKind.contains_iff.2 ⟨low, high⟩
        exact ⟨m, (exactInt?_eq_some_iff_of_contains within).2 whole, within⟩
    | _ => exact iff_of_false nofun nofun
  | number kind =>
    cases json with
    | number n =>
      rw [admits, FloatKind.contains_iff]
      constructor
      · rintro ⟨x, rounded⟩
        exact .number rounded
      · intro conforms
        cases conforms with | @number _ _ x rounded
        exact ⟨x, rounded⟩
    | _ => exact iff_of_false nofun nofun
  | boolean =>
    cases json with
    | boolean b => exact iff_of_true rfl (.boolean b)
    | _ => exact iff_of_false nofun nofun
  | string =>
    cases json with
    | string s => exact iff_of_true rfl (.string s)
    | _ => exact iff_of_false nofun nofun
  | enumeration shape =>
    cases json with
    | string s =>
      rw [admits, EnumShape.contains, List.contains_iff_mem]
      constructor
      · exact .constant
      · intro conforms
        cases conforms with | constant listed
        exact listed
    | _ => exact iff_of_false nofun nofun
  | _ => cases plain

theorem Shape.parts_of_item? {item : Shape} (index : ShapeIndex)
    (ofItems : shape.item? = some item) :
    shape.plain? = none ∧ shape.target? index = none ∧ ∀ value, shape ≠ .map value := by
  cases shape with
  | list | set => exact ⟨rfl, rfl, nofun⟩
  | _ => cases ofItems

theorem Shape.parts_of_target? {object : ObjectShape} (target : shape.target? index = some object) :
    shape.plain? = none ∧ shape.item? = none := by
  cases shape with
  | object | ref => exact ⟨rfl, rfl⟩
  | _ => cases target

end Steps

def Violation.finding (v : Violation) : Finding :=
  ⟨v.path, v.toToolError.kind⟩

theorem Violation.finding_of_ne_missing {v : Violation} (other : v.cause ≠ .missing) :
    v.finding = ⟨v.path, .argumentCoercion⟩ := by
  obtain ⟨path, cause⟩ := v
  cases cause with
  | missing => exact absurd rfl other
  | _ => rfl

section Stopping

variable {α β : Type}

/-- The outcome of stopping at the first of some findings. -/
def StopsAt (outcome : Except Violation α) (found : List Finding) : Prop :=
  match outcome with
  | .ok _ => found = []
  | .error v => ∃ later, found = v.finding :: later

theorem StopsAt.map {outcome : Except Violation α} {found : List Finding}
    (h : StopsAt outcome found) (f : α → β) : StopsAt (outcome.map f) found := by
  cases outcome <;> exact h

/-- To stop at the first of all findings is to go from element to element, up to the first with a
finding. -/
theorem stopsAt_mapM {f : α → Except Violation β} {found : α → List Finding} {list : List α}
    (each : ∀ a ∈ list, StopsAt (f a) (found a)) : StopsAt (list.mapM f) (list.flatMap found) := by
  induction list with
  | nil => exact List.flatMap_nil
  | cons a list ih =>
    obtain ⟨first, rest⟩ := List.forall_mem_cons.1 each
    have later := ih rest
    rw [List.mapM_cons, List.flatMap_cons]
    cases here : f a with
    | error v =>
      rw [here] at first
      obtain ⟨more, same⟩ := first
      exact ⟨more ++ list.flatMap found, by rw [same, List.cons_append]⟩
    | ok b =>
      rw [here] at first
      have none : found a = [] := first
      rw [none, List.nil_append]
      exact later.map (b :: ·)

end Stopping

theorem stopsAt_of_plain {schema : Schema} (plain : shape.plain? = some schema) (json : Json) :
    StopsAt (bindValue index shape path json) (findings index shape path json) := by
  rw [findings_of_plain plain]
  cases bound : bindValue index shape path json with
  | ok value =>
    exact if_pos ((Shape.admits_iff plain).2 (exists_bindValue_iff.1 ⟨value, bound⟩))
  | error v =>
    obtain ⟨here, other, -⟩ := cause_of_plain plain bound
    have refused : ¬shape.admits json = true := by
      intro admitted
      obtain ⟨value, fine⟩ := exists_bindValue_iff.2 ((Shape.admits_iff plain).1 admitted)
      cases bound.symm.trans fine
    exact ⟨[], by rw [if_neg refused, Violation.finding_of_ne_missing other, here]⟩

theorem stopsAt_unfit {α : Type} {json : Json} {cause : Violation.Cause}
    (other : cause ≠ .missing) (parts : shape.plain? = none)
    (noItems : json.kind = .array → shape.item? = none)
    (noMembers : json.kind = .object → shape.target? index = none ∧ ∀ value, shape ≠ .map value) :
    StopsAt (.error ⟨path, cause⟩ : Except Violation α) (findings index shape path json) := by
  rw [findings_of_unfit parts noItems noMembers]
  exact ⟨[], by rw [Violation.finding_of_ne_missing other]⟩

section Members

variable {members : List (String × Json)} {name : String} {optional : Bool}
  (present : ∀ json, Json.member? name members = some json →
    StopsAt (bindValue index shape path json) (findings index shape path json))
include present

theorem stopsAt_member :
    StopsAt (match Json.member? name members with
      | some json => bindValue index shape path json
      | none => if optional then .ok .null else .error ⟨path, .missing⟩)
      (memberFindings index members name shape optional path) := by
  rw [memberFindings]
  cases found : Json.member? name members with
  | some json => exact present json found
  | none =>
    cases optional with
    | true => rfl
    | false => exact ⟨[], rfl⟩

end Members

theorem stopsAt_field {field : Field} {members : List (String × Json)}
    (present : ∀ json, Json.member? field.name members = some json →
      StopsAt (bindValue index field.shape (.field path field.name) json)
        (findings index field.shape (.field path field.name) json)) :
    StopsAt (bindField index field path members)
      (memberFindings index members field.name field.shape field.nullable
        (.field path field.name)) := by
  have same : bindField index field path members = match Json.member? field.name members with
      | some json => bindValue index field.shape (.field path field.name) json
      | none =>
        if field.nullable then .ok .null else .error ⟨.field path field.name, .missing⟩ := by
    cases found : Json.member? field.name members with
    | some json => exact bindField_of_present found
    | none => exact bindField_of_absent found
  rw [same]
  exact stopsAt_member present

theorem stopsAt_entry {json : Json} (present : json ≠ .null →
      StopsAt (bindValue index shape path json) (findings index shape path json)) :
    StopsAt (bindEntry index shape path json)
      (if json.kind = .null then [] else findings index shape path json) := by
  by_cases null : json = .null
  · rw [null, bindEntry]
    rfl
  · rw [bindEntry_of_ne_null null, if_neg (Json.kind_ne_null null)]
    exact present null

/-- The binder stops at the first finding. -/
theorem stopsAt_findings (index : ShapeIndex) (shape : Shape) (path : Path) (json : Json) :
    StopsAt (bindValue index shape path json) (findings index shape path json) := by
  -- On the JSON alone, as a shape may refer to itself.
  induction json using Json.size_induction generalizing shape path with | step json ih
  rcases shape.eq_cases index with ⟨schema, plain⟩ | ⟨item, ofItems⟩ | ⟨object, target⟩ |
    ⟨value, rfl⟩ | ⟨name, rfl, missing⟩ | ⟨name, rfl⟩
  · exact stopsAt_of_plain plain json
  · rw [bindValue_of_item? ofItems]
    obtain ⟨parts, noRecord, noMap⟩ := Shape.parts_of_item? index ofItems
    cases json with
    | array items =>
      rw [findings_of_item? ofItems]
      dsimp only
      rw [bindItems_eq_mapM]
      refine (stopsAt_mapM fun place inside => ?_).map _
      exact ih place.1 (Json.sizeOf_lt_array (List.fst_mem_of_mem_zipIdx inside)) _ _
    | _ =>
      exact stopsAt_unfit (by rintro ⟨⟩) parts (by rintro ⟨⟩) fun _ => ⟨noRecord, noMap⟩
  · rw [bindValue_of_target? target]
    obtain ⟨parts, noItems⟩ := Shape.parts_of_target? target
    cases json with
    | object members =>
      rw [findings_of_target? target]
      dsimp only
      rw [bindFields_eq_mapM]
      refine (stopsAt_mapM fun field _ => ?_).map _
      exact (stopsAt_field fun json present =>
        ih json (Json.sizeOf_lt_object_of_member? present) _ _).map _
    | _ => exact stopsAt_unfit (by rintro ⟨⟩) parts (fun _ => noItems) (by rintro ⟨⟩)
  · cases json with
    | object members =>
      rw [findings_map, bindValue, bindEntries_eq_mapM]
      refine (stopsAt_mapM fun entry inside => ?_).map _
      exact (stopsAt_entry fun _ => ih entry.2 (Json.sizeOf_lt_object inside) _ _).map _
    | _ =>
      simp only [bindValue]
      exact stopsAt_unfit (by rintro ⟨⟩) rfl (fun _ => rfl) (by rintro ⟨⟩)
  · rw [bindValue, missing]
    exact stopsAt_unfit (by rintro ⟨⟩) rfl (fun _ => rfl) fun _ => ⟨missing, by rintro _ ⟨⟩⟩
  · rw [bindValue]
    exact stopsAt_unfit (by rintro ⟨⟩) rfl (fun _ => rfl) fun _ => ⟨rfl, by rintro _ ⟨⟩⟩

theorem StopsAt.mem {α : Type} {v : Violation} {found : List Finding}
    (h : StopsAt (.error v : Except Violation α) found) : v.finding ∈ found := by
  obtain ⟨later, rfl⟩ := h
  exact List.mem_cons_self

theorem finding_mem_of_bindValue {json : Json} {v : Violation}
    (refused : bindValue index shape path json = .error v) :
    v.finding ∈ findings index shape path json := by
  have stops := stopsAt_findings index shape path json
  rw [refused] at stops
  exact stops.mem

theorem Violates.finding_mem {json : Json} {v : Violation}
    (h : Violates index shape path json v) : v.finding ∈ findings index shape path json := by
  induction h with
  | plain _ refused => exact finding_mem_of_bindValue refused
  | @notObject _ _ _ json target other =>
    refine finding_mem_of_bindValue ?_
    rw [bindValue_of_target? target]
    cases json <;> first | rfl | exact absurd rfl other
  | @notArray _ _ _ json ofItems other =>
    refine finding_mem_of_bindValue ?_
    rw [bindValue_of_item? ofItems]
    cases json <;> first | rfl | exact absurd rfl other
  | @notMap _ _ json other =>
    refine finding_mem_of_bindValue ?_
    cases json <;> first | exact absurd rfl other | simp only [bindValue]
  | undeclared missing => exact finding_mem_of_bindValue (by rw [bindValue, missing])
  | undescribed => exact finding_mem_of_bindValue (by rw [bindValue])
  | missing target inside absent required =>
    rw [findings_of_target? target]
    refine List.mem_flatMap.2 ⟨_, inside, ?_⟩
    rw [memberFindings, absent, required]
    exact List.mem_cons_self
  | field target inside present _ ih =>
    rw [findings_of_target? target]
    refine List.mem_flatMap.2 ⟨_, inside, ?_⟩
    rw [memberFindings, present]
    exact ih
  | @item _ _ _ position _ json _ ofItems found _ ih =>
    rw [findings_of_item? ofItems]
    exact List.mem_flatMap.2 ⟨(json, position), List.mem_zipIdx_iff_getElem?.2 found, ih⟩
  | @entry _ _ key _ json _ inside present _ ih =>
    rw [findings_map]
    refine List.mem_flatMap.2 ⟨(key, json), inside, ?_⟩
    rw [if_neg (Json.kind_ne_null present)]
    exact ih

theorem exists_violates_of_sole {json : Json} {finding other : Finding}
    (h : finding ∈ findings index shape path json)
    (sole : findings index shape path json = [other]) :
    ∃ v, Violates index shape path json v ∧ v.finding = finding := by
  have stops := stopsAt_findings index shape path json
  cases bound : bindValue index shape path json with
  | ok value =>
    rw [bound] at stops
    cases sole.symm.trans stops
  | error v =>
    rw [bound, sole] at stops
    obtain ⟨later, same⟩ := stops
    rw [sole, List.mem_singleton] at h
    exact ⟨v, violates_of_bindValue bound, h ▸ (List.cons.inj same).1.symm⟩

theorem exists_violates_of_mem_findings {json : Json} {finding : Finding}
    (h : finding ∈ findings index shape path json) :
    ∃ v, Violates index shape path json v ∧ v.finding = finding := by
  induction json using Json.size_induction generalizing shape path with | step json ih
  rcases shape.eq_cases index with ⟨schema, plain⟩ | ⟨item, ofItems⟩ | ⟨object, target⟩ |
    ⟨value, rfl⟩ | ⟨name, rfl, missing⟩ | ⟨name, rfl⟩
  · have refused : ¬shape.admits json = true := by
      intro admitted
      rw [findings_of_plain plain, if_pos admitted] at h
      cases h
    exact exists_violates_of_sole h ((findings_of_plain plain json).trans (if_neg refused))
  · obtain ⟨parts, noRecord, noMap⟩ := Shape.parts_of_item? index ofItems
    cases json with
    | array items =>
      rw [findings_of_item? ofItems] at h
      obtain ⟨⟨json, position⟩, inside, h⟩ := List.mem_flatMap.1 h
      have smaller := Json.sizeOf_lt_array (List.fst_mem_of_mem_zipIdx inside)
      obtain ⟨v, below, same⟩ := ih json smaller h
      exact ⟨v, .item ofItems (List.mem_zipIdx_iff_getElem?.1 inside) below, same⟩
    | _ =>
      exact exists_violates_of_sole h
        (findings_of_unfit parts nofun fun _ => ⟨noRecord, noMap⟩)
  · obtain ⟨parts, noItems⟩ := Shape.parts_of_target? target
    cases json with
    | object members =>
      rw [findings_of_target? target] at h
      obtain ⟨field, inside, h⟩ := List.mem_flatMap.1 h
      rw [memberFindings] at h
      cases found : Json.member? field.name members with
      | some json =>
        rw [found] at h
        obtain ⟨v, below, same⟩ := ih json (Json.sizeOf_lt_object_of_member? found) h
        exact ⟨v, .field target inside found below, same⟩
      | none =>
        rw [found] at h
        cases required : field.nullable with
        | true =>
          rw [required] at h
          cases h
        | false =>
          rw [required] at h
          exact ⟨_, .missing target inside found required, (List.mem_singleton.1 h).symm⟩
    | _ => exact exists_violates_of_sole h (findings_of_unfit parts (fun _ => noItems) nofun)
  · cases json with
    | object members =>
      rw [findings_map] at h
      obtain ⟨⟨key, json⟩, inside, h⟩ := List.mem_flatMap.1 h
      by_cases null : json = .null
      · rw [null] at h
        cases h
      · rw [if_neg (Json.kind_ne_null null)] at h
        obtain ⟨v, below, same⟩ := ih json (Json.sizeOf_lt_object inside) h
        exact ⟨v, .entry inside null below, same⟩
    | _ => exact exists_violates_of_sole h (findings_of_unfit rfl (fun _ => rfl) nofun)
  · exact exists_violates_of_sole h
      (findings_of_unfit rfl (fun _ => rfl) fun _ => ⟨missing, nofun⟩)
  · exact exists_violates_of_sole h (findings_of_unfit rfl (fun _ => rfl) fun _ => ⟨rfl, nofun⟩)

/-- The check is exhaustive, and finds nothing else. -/
theorem mem_findings_iff {json : Json} {finding : Finding} :
    finding ∈ findings index shape path json ↔
      ∃ v, Violates index shape path json v ∧ v.finding = finding := by
  constructor
  · exact exists_violates_of_mem_findings
  · rintro ⟨v, violates, rfl⟩
    exact violates.finding_mem

theorem stopsAt_argumentFindings (index : ShapeIndex) (members : List (String × Json))
    (named : List (String × Parameter)) :
    StopsAt (bindParameters index members named) (argumentFindings index members named) := by
  rw [bindParameters_eq_mapM]
  refine stopsAt_mapM fun pair _ => StopsAt.map ?_ _
  rw [bindParameter]
  exact stopsAt_member fun json _ => stopsAt_findings index _ _ json

theorem Violation.message_toToolError (v : Violation) :
    v.finding.kind = .missingField ∧
        v.toToolError.message = "missing required field '" ++ v.path.text ++ "'" ∨
      v.finding.kind = .argumentCoercion ∧
        ∃ reason, v.toToolError.message = "argument '" ++ v.path.text ++ "': " ++ reason := by
  obtain ⟨path, cause⟩ := v
  cases cause with
  | missing => exact .inl ⟨rfl, rfl⟩
  | _ => exact .inr ⟨rfl, _, rfl⟩

/-- Of arguments that can be read, the binder reports the first of all findings, with its kind and
its path, and binds if there are none. -/
theorem bindArguments_reports_first (parameters : List Parameter) (index : ShapeIndex)
    (text : String) (members : List (String × Json)) (read : readArguments text = .ok members) :
    ((∃ arguments, bindArguments parameters index text = .ok arguments) ↔
      argumentFindings index members (nameParameters parameters) = []) ∧
    ∀ e, bindArguments parameters index text = .error e →
      ∃ first later,
        argumentFindings index members (nameParameters parameters) = first :: later ∧
        e.kind = first.kind ∧
        (first.kind = .missingField ∧
            e.message = "missing required field '" ++ first.path.text ++ "'" ∨
          first.kind = .argumentCoercion ∧
            ∃ reason, e.message = "argument '" ++ first.path.text ++ "': " ++ reason) := by
  have stops := stopsAt_argumentFindings index members (nameParameters parameters)
  rw [bindArguments, read]
  dsimp only
  cases bound : bindParameters index members (nameParameters parameters) with
  | ok values =>
    rw [bound] at stops
    exact ⟨iff_of_true ⟨_, rfl⟩ stops, by rintro _ ⟨⟩⟩
  | error v =>
    rw [bound] at stops
    refine ⟨iff_of_false (by rintro ⟨_, ⟨⟩⟩) (List.ne_nil_of_mem stops.mem), ?_⟩
    rintro e ⟨⟩
    obtain ⟨later, found⟩ := stops
    exact ⟨v.finding, later, found, rfl, v.message_toToolError⟩

def purchasing : List Parameter :=
  [{ name := some "order", shape := .object ⟨"Order", [⟨"id", .integer .i32, none, false⟩,
      ⟨"lines", .list (.object ⟨"Line", [⟨"quantity", .integer .u8, none, false⟩]⟩), none,
        false⟩]⟩ },
    { name := some "note", shape := .string }]

def purchasedMembers : List (String × Json) :=
  [("order", .object [("lines", .array [.object [("quantity", .number (.integer 1 (by decide)))],
      .object [("quantity", .number (.integer 300 (by decide)))], .object [("quantity", .null)]]),
    ("id", .number (.integer 9 (by decide)))])]

theorem readArguments_purchased :
    readArguments (Json.object purchasedMembers).text = .ok purchasedMembers := by
  have integer : ∀ (depth : Nat) (n : Int) (range : Json.InExactRange n),
      Json.Spelled depth (.number (.integer n range)) := fun depth n range => .integer n range
  have lines : Json.Spelled 3 (.array [.object [("quantity", .number (.integer 1 (by decide)))],
      .object [("quantity", .number (.integer 300 (by decide)))],
      .object [("quantity", .null)]]) := by
    refine .array ?_
    simp only [List.forall_mem_cons]
    exact ⟨spelled_member (integer ..), spelled_member (integer ..), spelled_member .null,
      List.forall_mem_nil _⟩
  have order : Json.Spelled 4 (.object [("lines", .array
      [.object [("quantity", .number (.integer 1 (by decide)))],
        .object [("quantity", .number (.integer 300 (by decide)))], .object [("quantity", .null)]]),
      ("id", .number (.integer 9 (by decide)))]) := by
    refine .object (by decide) ?_
    simp only [List.forall_mem_cons]
    exact ⟨lines, integer .., List.forall_mem_nil _⟩
  exact readArguments_text (spelled_member order) (by decide)

theorem purchased_reports_first : ∃ e,
    bindArguments purchasing (.ofParameters purchasing) (Json.object purchasedMembers).text =
        .error e ∧
      e.kind = .argumentCoercion ∧
      argumentFindings (.ofParameters purchasing) purchasedMembers (nameParameters purchasing) =
        [⟨.field (.item (.field (.argument "order") "lines") 1) "quantity", .argumentCoercion⟩,
          ⟨.field (.item (.field (.argument "order") "lines") 2) "quantity", .missingField⟩,
          ⟨.argument "note", .missingField⟩] ∧
      ∃ reason, e.message = "argument 'order.lines[1].quantity': " ++ reason := by
  have found :
      argumentFindings (.ofParameters purchasing) purchasedMembers (nameParameters purchasing) =
        [⟨.field (.item (.field (.argument "order") "lines") 1) "quantity", .argumentCoercion⟩,
          ⟨.field (.item (.field (.argument "order") "lines") 2) "quantity", .missingField⟩,
          ⟨.argument "note", .missingField⟩] := by decide +kernel
  obtain ⟨binds, fails⟩ := bindArguments_reports_first purchasing (.ofParameters purchasing)
    (Json.object purchasedMembers).text purchasedMembers readArguments_purchased
  cases outcome : bindArguments purchasing (.ofParameters purchasing)
      (Json.object purchasedMembers).text with
  | ok arguments =>
    rw [found] at binds
    cases binds.1 ⟨arguments, outcome⟩
  | error e =>
    obtain ⟨first, later, all, kind, message⟩ := fails e outcome
    rw [found] at all
    obtain ⟨rfl, -⟩ := List.cons.inj all
    rcases message with ⟨missing, -⟩ | ⟨-, reason, message⟩
    · cases missing
    · exact ⟨e, rfl, kind, found, reason, message⟩

end ToolChat
