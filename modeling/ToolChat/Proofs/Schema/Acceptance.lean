import ToolChat.Proofs.Argument.Binding
import ToolChat.Proofs.Schema.Coverage
import ToolChat.Tool.Toolset

/-!
Which parameters have a schema.

If record types of one name are the same, then parameters have a schema exactly if their names are
distinct and their shapes are sound. What the generation of a schema has found to be declared the
binder finds as well, so no call of a registered tool fails for the declaration of a type.
-/

set_option autoImplicit false

namespace ToolChat

variable {index : ShapeIndex}

theorem Violates.exists_undeclared {shape : Shape} {path : Path} {json : Json} {v : Violation}
    (h : Violates index shape path json v) {name : String}
    (cause : v.cause = .undeclaredType name ∨ v.cause = .undescribedType name) :
    ∃ reached, shape.Reaches index reached ∧ ¬reached.Declared index := by
  induction h with
  | plain plain refused =>
    obtain ⟨-, -, known⟩ := cause_of_plain plain refused
    rcases cause with cause | cause
    · exact absurd cause (known name).1
    · exact absurd cause (known name).2
  | notObject | notArray | notMap | missing => rcases cause with cause | cause <;> cases cause
  | @undeclared other _ _ missing =>
    have undeclared : ¬(Shape.ref other).Declared index := by
      intro declared
      have found := (index.contains_eq_isSome other).symm.trans declared
      rw [missing] at found
      cases found
    exact ⟨.ref other, .refl, undeclared⟩
  | @undescribed other _ _ => exact ⟨.undescribed other, .refl, id⟩
  | field target inside _ _ ih =>
    obtain ⟨reached, steps, undeclared⟩ := ih cause
    exact ⟨reached, .head (.part (.field target inside)) steps, undeclared⟩
  | item items _ _ ih =>
    obtain ⟨reached, steps, undeclared⟩ := ih cause
    exact ⟨reached, .head (.part (.item items)) steps, undeclared⟩
  | entry _ _ _ ih =>
    obtain ⟨reached, steps, undeclared⟩ := ih cause
    exact ⟨reached, .head .value steps, undeclared⟩

theorem unsound_of_generateProperties {session : Session} {done : List (String × Schema)}
    {named : List (String × Parameter)} {e : SchemaError}
    (h : generateProperties session done named = .error e)
    (sound : ∀ pair ∈ named, pair.2.shape.Sound session.index) :
    ¬(done.map (·.1) ++ named.map (·.1)).Nodup := by
  induction named generalizing session done with
  | nil => cases h
  | cons first rest ih =>
    obtain ⟨name, parameter⟩ := first
    obtain ⟨here, later⟩ := List.forall_mem_cons.1 sound
    rw [generateProperties] at h
    split at h
    · next twice => exact not_nodup_of_any twice _
    · cases made : session.generate parameter.shape with
      | mk outcome between =>
        rw [made] at h
        cases outcome with
        | error cause =>
          unfold Session.generate at made
          cases generated : generateShape session.index [] parameter.shape session.memory with
          | mk answer memory =>
            rw [generated] at made
            cases made
            exact absurd here (unsound_of_generateShape.1 _ _ _ _ _ generated)
        | ok schema =>
          have same := (generates_of_generate made).1
          rw [← same] at later
          have twice := ih h later
          rw [List.map_append, List.append_assoc] at twice
          exact twice

variable {parameters : List Parameter}

theorem eq_nil_of_generateParameters (h : generateParameters parameters = .ok none) :
    parameters = [] := by
  unfold generateParameters generateParametersWith at h
  split at h
  · next empty => exact List.isEmpty_iff.1 empty
  · split at h <;> cases h

/-- Parameters that have a schema have distinct names and sound shapes. -/
theorem sound_of_generateParameters (agree : NamesAgree (parameters.map (·.shape)))
    {bundle : SchemaBundle} (generated : generateParameters parameters = .ok (some bundle)) :
    ((nameParameters parameters).map (·.1)).Nodup ∧
      ∀ parameter ∈ parameters, parameter.shape.Sound (.ofParameters parameters) := by
  obtain ⟨properties, after, made, -⟩ := generates_of_generateParametersWith generated
  have distinct := made.distinct List.nodup_nil
  rw [List.map_nil, List.nil_append, names_parameterFields] at distinct
  obtain ⟨inner, -, family, within⟩ := made.family (complete_collect agree)
    (resolved_parameterFields agree) Memory.family_initial
  refine ⟨distinct, fun parameter member => ?_⟩
  obtain ⟨name, named⟩ := exists_name_of_mem_parameters member
  have field : ⟨name, parameter.shape, parameter.description, parameter.optional⟩ ∈
      parameterFields (nameParameters parameters) := List.mem_map.2 ⟨_, named, rfl⟩
  exact family.sound (within _ field)

theorem exists_generated_of_sound (distinct : ((nameParameters parameters).map (·.1)).Nodup)
    (sound : ∀ parameter ∈ parameters, parameter.shape.Sound (.ofParameters parameters)) :
    ∃ generated, generateParameters parameters = .ok generated := by
  unfold generateParameters generateParametersWith
  split
  · exact ⟨none, rfl⟩
  · cases made : generateProperties (.withIndex (.ofParameters parameters)) []
        (nameParameters parameters) with
    | ok whole => exact ⟨_, rfl⟩
    | error e =>
      have twice := unsound_of_generateProperties made fun pair member =>
        sound pair.2 (mem_parameters_of_mem_nameParameters member)
      exact absurd distinct twice

theorem declared_of_bindParameters {members : List (String × Json)}
    {named : List (String × Parameter)} {v : Violation}
    (sound : ∀ pair ∈ named, pair.2.shape.Sound index)
    (h : bindParameters index members named = .error v) (name : String) :
    v.cause ≠ .undeclaredType name ∧ v.cause ≠ .undescribedType name := by
  obtain ⟨argument, parameter, inside, ⟨-, -, rfl⟩ | ⟨json, -, violates⟩⟩ :=
    violates_of_bindParameters h
  · exact ⟨nofun, nofun⟩
  · have declared : ∀ reached, parameter.shape.Reaches index reached → reached.Declared index :=
      (sound _ inside).declared
    rw [← not_or]
    intro cause
    obtain ⟨reached, steps, undeclared⟩ := violates.exists_undeclared cause
    exact undeclared (declared reached steps)

/-- Parameters whose record types are told apart by their names have a schema exactly if their names
are distinct, everything that they reach is declared, and the fields of each record type that they
reach outside of maps have distinct names. A call of a registered tool then fails in no other way
than that its text cannot be read or that its arguments do not have their shapes: never because a
type is not declared or cannot be bound. -/
theorem generateParameters_ok_iff (parameters : List Parameter)
    (agree : NamesAgree (parameters.map (·.shape))) :
    ((∃ generated, generateParameters parameters = .ok generated) ↔
      ((nameParameters parameters).map (·.1)).Nodup ∧
      (∀ parameter ∈ parameters, ∀ reached,
        parameter.shape.Reaches (.ofParameters parameters) reached →
          reached.Declared (.ofParameters parameters)) ∧
      ∀ parameter ∈ parameters, ∀ reached object,
        parameter.shape.ReachesOutside (.ofParameters parameters) reached →
          reached.target? (.ofParameters parameters) = some object →
            (object.fields.map (·.name)).Nodup) ∧
    ∀ (σ : Type) (tools after : Toolset σ) (tool : Tool σ), tool.parameters = parameters →
      tools.register tool = .ok after →
        ∃ entry, after.get? tool.name = some entry ∧ ∀ text e, entry.bind text = .error e →
          readArguments text = .error e ∨
          ∃ members v, readArguments text = .ok members ∧
            bindParameters entry.shapes members (nameParameters entry.parameters) = .error v ∧
            e = v.toToolError ∧
            ∀ name, v.cause ≠ .undeclaredType name ∧ v.cause ≠ .undescribedType name := by
  have sound : ∀ generated, generateParameters parameters = .ok generated →
      ((nameParameters parameters).map (·.1)).Nodup ∧
        ∀ parameter ∈ parameters, parameter.shape.Sound (.ofParameters parameters) := by
    intro generated made
    cases generated with
    | none =>
      cases eq_nil_of_generateParameters made
      exact ⟨List.nodup_nil, nofun⟩
    | some bundle => exact sound_of_generateParameters agree made
  refine ⟨⟨?_, ?_⟩, ?_⟩
  · rintro ⟨generated, made⟩
    obtain ⟨distinct, sound⟩ := sound generated made
    exact ⟨distinct, fun parameter member => (sound parameter member).declared,
      fun parameter member => (sound parameter member).distinct⟩
  · rintro ⟨distinct, declared, fields⟩
    refine exists_generated_of_sound distinct fun parameter member => ?_
    exact ⟨declared parameter member, fields parameter member⟩
  · intro σ tools after tool same registered
    obtain ⟨entry, made, found⟩ := Toolset.exists_entry_of_register registered
    obtain ⟨-, ofTool, shapes, generated, accepted, -⟩ := RegisteredTool.of_ofTool_eq_ok made
    rw [same] at ofTool shapes accepted
    obtain ⟨-, sound⟩ := sound generated accepted
    refine ⟨entry, found, fun text e failed => ?_⟩
    rcases bindArguments_eq_error failed with unread | ⟨members, v, read, bound, rfl⟩
    · exact .inl unread
    · refine .inr ⟨members, v, read, bound, rfl, ?_⟩
      rw [shapes, ofTool] at bound
      exact declared_of_bindParameters
        (fun pair member => sound pair.2 (mem_parameters_of_mem_nameParameters member)) bound

def address : ObjectShape :=
  ⟨"Address", [⟨"city", .string, none, false⟩, ⟨"lines", .list .string, none, true⟩]⟩

def shipping : List Parameter :=
  [{ name := some "home", shape := .object address },
    { name := some "others", shape := .map (.ref "Address"), optional := true }]

def ship : Tool Unit where
  name := "ship"
  parameters := shipping
  handler := { body := fun _ _ => return .ok (.text "on its way") }

theorem eq_address_of_occurs {object : ObjectShape} (h : Occurs (shipping.map (·.shape)) object) :
    object = address := by
  refine h.eq_of_heads ?_ nofun
  intro shape root object head
  rcases List.mem_cons.1 root with rfl | root
  · cases head
    rfl
  · rw [List.mem_singleton.1 root] at head
    cases head

theorem shipping_names_agree : NamesAgree (shipping.map (·.shape)) := by
  intro first second one other _
  rw [eq_address_of_occurs one, eq_address_of_occurs other]

theorem shipping_generated : ∃ generated, generateParameters shipping = .ok generated := by
  have given : shipping.isEmpty = false := rfl
  have names : nameParameters shipping =
      [("home", ⟨some "home", .object address, none, false⟩),
        ("others", ⟨some "others", .map (.ref "Address"), none, true⟩)] := rfl
  simp [generateParameters, generateParametersWith, given, names, generateProperties,
    Session.generate, Session.withIndex, generateShape, generateFields, settleObject,
    Memory.initial, Memory.built?, Memory.settle, checkBindable, address]

theorem ship_registered : ∃ after, Toolset.empty.register ship = .ok after := by
  obtain ⟨_, generated⟩ := shipping_generated
  exact Toolset.exists_register rfl (by decide) generated

theorem shipping_accepted :
    ((nameParameters shipping).map (·.1)).Nodup ∧
      (∀ parameter ∈ shipping, ∀ reached,
        parameter.shape.Reaches (.ofParameters shipping) reached →
          reached.Declared (.ofParameters shipping)) ∧
      ∃ after entry, Toolset.empty.register ship = .ok after ∧ after.get? "ship" = some entry ∧
        ∀ text e, entry.bind text = .error e → readArguments text = .error e ∨
          ∃ members v, readArguments text = .ok members ∧
            bindParameters entry.shapes members (nameParameters entry.parameters) = .error v ∧
            e = v.toToolError ∧
            ∀ name, v.cause ≠ .undeclaredType name ∧ v.cause ≠ .undescribedType name := by
  obtain ⟨after, entered⟩ := ship_registered
  obtain ⟨schemas, calls⟩ := generateParameters_ok_iff shipping shipping_names_agree
  obtain ⟨distinct, declared, -⟩ := schemas.1 shipping_generated
  obtain ⟨entry, found, bound⟩ := calls Unit .empty after ship rfl entered
  exact ⟨distinct, declared, after, entry, entered, found, bound⟩

end ToolChat
