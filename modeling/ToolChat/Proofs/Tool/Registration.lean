import Mathlib.Data.List.Forall2
import Mathlib.Data.List.Nodup
import ToolChat.Tool.Stock

/-!
Registering tools one after the other.

A registry keeps its names twice: in the order of the items, and with the place of each item. The
two agree after any number of insertions, so a look-up finds the first item of a name. A set of
tools adds a third name, that of the specification. Whatever tools are registered in an empty set,
and whether or not some of them are refused on the way, the set holds the entries of those that were
not, in their order.
-/

set_option autoImplicit false

namespace ToolChat

namespace Registry

variable {α : Type} {r after : Registry α} {name : String} {item : α}

/-- The positions of a registry are those of its items, whose names are distinct. -/
structure Indexed (r : Registry α) : Prop where
  positions : r.positions = r.names.zipIdx
  distinct : r.names.Nodup

theorem indexed_empty : (empty : Registry α).Indexed :=
  ⟨rfl, List.nodup_nil⟩

theorem Indexed.keys (h : r.Indexed) : r.positions.map (·.1) = r.names := by
  rw [h.positions]
  exact List.zipIdx_map_fst 0 r.names

theorem Indexed.contains_iff (h : r.Indexed) : r.contains name = true ↔ name ∈ r.names := by
  rw [contains, Option.isSome_iff_ne_none, ne_eq, Dictionary.lookup_eq_none_iff, h.keys, not_not]

theorem Indexed.item_at (h : r.Indexed) {position : Nat} (stored : (name, position) ∈ r.positions) :
    ∃ item, r.items[position]? = some (name, item) := by
  rw [h.positions, List.mem_zipIdx_iff_getElem?, names, List.getElem?_map] at stored
  obtain ⟨⟨_, item⟩, found, rfl⟩ := Option.map_eq_some_iff.1 stored
  exact ⟨item, found⟩

theorem Indexed.get?_eq_lookup (h : r.Indexed) (name : String) :
    r.get? name = r.items.lookup name := by
  unfold get?
  cases found : r.positions.lookup name with
  | none =>
    have absent : name ∉ r.names := by
      rw [← h.keys]
      exact Dictionary.lookup_eq_none_iff.1 found
    exact (Dictionary.lookup_eq_none_iff.2 absent).symm
  | some position =>
    obtain ⟨item, there⟩ := h.item_at (Dictionary.mem_of_lookup_eq_some found)
    have first : r.items.lookup name = some item :=
      Dictionary.lookup_eq_some_of_mem h.distinct (List.mem_of_getElem? there)
    simp only [there, first, Option.map_some]

theorem lookup_eq_find? {items : List (String × α)} {own : α → String}
    (same : ∀ item ∈ items, own item.2 = item.1) (name : String) :
    items.lookup name = (items.map (·.2)).find? (own · == name) := by
  induction items with
  | nil => rfl
  | cons item items ih =>
    obtain ⟨first, rest⟩ := List.forall_mem_cons.1 same
    rw [List.lookup_cons, List.map_cons, List.find?_cons, first, ih rest, BEq.comm]

theorem Indexed.insert?_eq_some_iff (h : r.Indexed) :
    r.insert? name item = some after ↔ name ∉ r.names ∧ after =
      ⟨r.positions ++ [(name, r.items.length)], r.items ++ [(name, item)]⟩ := by
  rw [← h.contains_iff, insert?]
  by_cases taken : r.contains name = true
  · simp [taken]
  · simp [taken, eq_comm]

theorem Indexed.insert? (h : r.Indexed) (made : r.insert? name item = some after) :
    after.Indexed ∧ after.names = r.names ++ [name] ∧ after.values = r.values ++ [item] := by
  obtain ⟨new, rfl⟩ := h.insert?_eq_some_iff.1 made
  have extended : (r.items ++ [(name, item)]).map (·.1) = r.names ++ [name] := List.map_append
  refine ⟨⟨?_, ?_⟩, extended, List.map_append⟩
  · have count : r.names.length = r.items.length := List.length_map _
    rw [names, extended, List.zipIdx_append, ← h.positions, List.zipIdx_singleton, Nat.zero_add,
      count]
  · rw [names, extended]
    exact List.concat_eq_append ▸ List.Nodup.concat new h.distinct

end Registry

namespace Toolset

variable {σ : Type} {tools more : Toolset σ} {registered : List (Tool σ)} {tool : Tool σ}

def trying (tools : Toolset σ) (tool : Tool σ) : Toolset σ :=
  match tools.register tool with
  | .ok more => more
  | .error _ => tools

def after (tools : Toolset σ) (history : List (Tool σ)) : Toolset σ :=
  history.foldl trying tools

def admitted (tools : Toolset σ) : List (Tool σ) → List (Tool σ)
  | [] => []
  | tool :: rest =>
    match tools.register tool with
    | .ok more => tool :: more.admitted rest
    | .error _ => tools.admitted rest

/-- The set holds the entries of some tools, in their order and each under its own name. -/
structure Keeps (tools : Toolset σ) (registered : List (Tool σ)) : Prop where
  indexed : tools.entries.Indexed
  names : tools.names = registered.map (·.name)
  visible : ∀ name ∈ tools.names, isBlank name = false
  entries : List.Forall₂ (fun tool entry => RegisteredTool.ofTool tool = .ok entry) registered
    tools.entries.values
  own : ∀ item ∈ tools.entries.items, item.2.specification.name = item.1

/-- What can be read off a set that holds the entries of some tools. -/
structure Lists (tools : Toolset σ) (registered : List (Tool σ)) : Prop where
  names : tools.names = registered.map (·.name)
  distinct : tools.names.Nodup
  visible : ∀ name ∈ tools.names, isBlank name = false
  entries : List.Forall₂ (fun tool entry => RegisteredTool.ofTool tool = .ok entry) registered
    tools.entries.values
  specifications : List.Forall₂ (fun tool specification => ∃ entry,
    RegisteredTool.ofTool tool = .ok entry ∧ specification = entry.specification) registered
      tools.specifications
  size : tools.size = registered.length
  contains : ∀ name, tools.contains name = true ↔ name ∈ tools.names
  /-- A look-up finds something exactly for the name of a tool of the set. -/
  found : ∀ name, (∃ entry, tools.get? name = some entry) ↔ ∃ tool ∈ registered, tool.name = name
  /-- It finds the first entry with the name. -/
  first : ∀ name, tools.get? name = tools.entries.values.find? (·.specification.name == name)
  named : ∀ name entry, tools.get? name = some entry → entry.specification.name = name
  /-- Every position that is stored leads to the entry of its name. -/
  places : ∀ name position, (name, position) ∈ tools.entries.positions →
    ∃ entry, tools.entries.items[position]? = some (name, entry)

structure Decides (history : List (Tool σ)) (tool : Tool σ) : Prop where
  accepts_iff : (∃ more, (empty.after history).register tool = .ok more) ↔
    tool.name ∉ (empty.after history).names ∧ ∃ entry, RegisteredTool.ofTool tool = .ok entry
  refuses_iff : ∀ e, (empty.after history).register tool = .error e ↔
    tool.name ∈ (empty.after history).names ∧ e = .duplicateName tool.name ∨
      tool.name ∉ (empty.after history).names ∧ RegisteredTool.ofTool tool = .error e
  accepted : ∀ more, (empty.after history).register tool = .ok more →
    empty.after (history ++ [tool]) = more ∧
      empty.admitted (history ++ [tool]) = empty.admitted history ++ [tool]
  /-- A tool that is refused leaves the set as it was. -/
  refused : ∀ e, (empty.after history).register tool = .error e →
    empty.after (history ++ [tool]) = empty.after history ∧
      empty.admitted (history ++ [tool]) = empty.admitted history
  /-- A name that was found free is still free when the entry is inserted. -/
  free : ∀ entry, (empty.after history).contains tool.name = false →
    RegisteredTool.ofTool tool = .ok entry →
      ∃ entries, (empty.after history).entries.insert? entry.specification.name entry =
        some entries

theorem keeps_empty : (empty : Toolset σ).Keeps [] :=
  ⟨Registry.indexed_empty, rfl, nofun, .nil, nofun⟩

theorem not_isBlank_of_ofTool {entry : RegisteredTool σ}
    (made : RegisteredTool.ofTool tool = .ok entry) : isBlank tool.name = false := by
  unfold RegisteredTool.ofTool at made
  split at made
  · cases made
  · next visible => exact Bool.eq_false_iff.2 visible

section Passing

theorem after_cons_of_ok (done : tools.register tool = .ok more) (history : List (Tool σ)) :
    tools.after (tool :: history) = more.after history := by
  rw [after, List.foldl_cons, trying, done]
  rfl

theorem after_cons_of_error {e : ToolError} (refused : tools.register tool = .error e)
    (history : List (Tool σ)) : tools.after (tool :: history) = tools.after history := by
  rw [after, List.foldl_cons, trying, refused]
  rfl

theorem admitted_cons_of_ok (done : tools.register tool = .ok more) (history : List (Tool σ)) :
    tools.admitted (tool :: history) = tool :: more.admitted history := by
  simp only [admitted, done]

theorem admitted_cons_of_error {e : ToolError} (refused : tools.register tool = .error e)
    (history : List (Tool σ)) : tools.admitted (tool :: history) = tools.admitted history := by
  simp only [admitted, refused]

theorem after_append (before rest : List (Tool σ)) :
    tools.after (before ++ rest) = (tools.after before).after rest :=
  List.foldl_append

theorem admitted_append (before rest : List (Tool σ)) :
    tools.admitted (before ++ rest) =
      tools.admitted before ++ (tools.after before).admitted rest := by
  induction before generalizing tools with
  | nil => rfl
  | cons first before ih =>
    cases step : tools.register first with
    | ok next =>
      rw [List.cons_append, admitted_cons_of_ok step, admitted_cons_of_ok step,
        after_cons_of_ok step, ih, List.cons_append]
    | error e =>
      rw [List.cons_append, admitted_cons_of_error step, admitted_cons_of_error step,
        after_cons_of_error step, ih]

end Passing

section Register

variable (keeps : tools.Keeps registered)
include keeps

theorem Keeps.exists_insert? {entry : RegisteredTool σ}
    (made : RegisteredTool.ofTool tool = .ok entry) (free : tool.name ∉ tools.names) :
    ∃ entries, tools.entries.insert? entry.specification.name entry = some entries := by
  rw [(RegisteredTool.of_ofTool_eq_ok made).1]
  exact ⟨_, keeps.indexed.insert?_eq_some_iff.2 ⟨free, rfl⟩⟩

theorem Keeps.register_of_taken (taken : tool.name ∈ tools.names) :
    tools.register tool = .error (.duplicateName tool.name) := by
  have known : tools.contains tool.name = true := keeps.indexed.contains_iff.2 taken
  rw [register, if_pos known]

theorem Keeps.register_of_free (free : tool.name ∉ tools.names) :
    (∃ entry entries, RegisteredTool.ofTool tool = .ok entry ∧
        tools.entries.insert? entry.specification.name entry = some entries ∧
        tools.register tool = .ok ⟨entries⟩) ∨
      ∃ e, RegisteredTool.ofTool tool = .error e ∧ tools.register tool = .error e := by
  have unknown : ¬tools.contains tool.name = true := mt keeps.indexed.contains_iff.1 free
  cases made : RegisteredTool.ofTool tool with
  | error e => exact .inr ⟨e, rfl, by rw [register, if_neg unknown, made]⟩
  | ok entry =>
    obtain ⟨entries, inserted⟩ := keeps.exists_insert? made free
    refine .inl ⟨entry, entries, rfl, inserted, ?_⟩
    rw [register, if_neg unknown, made]
    simp only [inserted]

theorem Keeps.register_eq_ok_iff : (∃ more, tools.register tool = .ok more) ↔
    tool.name ∉ tools.names ∧ ∃ entry, RegisteredTool.ofTool tool = .ok entry := by
  by_cases taken : tool.name ∈ tools.names
  · simp [keeps.register_of_taken taken, taken]
  · rcases keeps.register_of_free taken with ⟨entry, entries, made, -, done⟩ | ⟨e, failed, refused⟩
    · simp [done, made, taken]
    · simp [refused, failed]

theorem Keeps.register_eq_error_iff {e : ToolError} : tools.register tool = .error e ↔
    tool.name ∈ tools.names ∧ e = .duplicateName tool.name ∨
      tool.name ∉ tools.names ∧ RegisteredTool.ofTool tool = .error e := by
  by_cases taken : tool.name ∈ tools.names
  · simp [keeps.register_of_taken taken, taken, eq_comm]
  · rcases keeps.register_of_free taken with ⟨entry, entries, made, -, done⟩ | ⟨f, failed, refused⟩
    · simp [done, made, taken]
    · simp [refused, failed, taken]

/-- A set that a tool is registered in holds its entry after all others. -/
theorem Keeps.register (done : tools.register tool = .ok more) :
    more.Keeps (registered ++ [tool]) := by
  have free : tool.name ∉ tools.names := (keeps.register_eq_ok_iff.1 ⟨more, done⟩).1
  rcases keeps.register_of_free free with ⟨entry, entries, made, inserted, same⟩ | ⟨e, -, refused⟩
  · cases done.symm.trans same
    have own : entry.specification.name = tool.name := (RegisteredTool.of_ofTool_eq_ok made).1
    rw [own] at inserted
    obtain ⟨indexed, names, values⟩ := keeps.indexed.insert? inserted
    obtain ⟨-, rfl⟩ := keeps.indexed.insert?_eq_some_iff.1 inserted
    have extended : tools.names ++ [tool.name] = (registered ++ [tool]).map (·.name) := by
      rw [keeps.names, List.map_append, List.map_singleton]
    refine ⟨indexed, names.trans extended, fun name listed => ?_, ?_, fun item stored => ?_⟩
    · rcases List.mem_append.1 (names ▸ listed : name ∈ tools.names ++ [tool.name]) with old | new
      · exact keeps.visible name old
      · exact List.mem_singleton.1 new ▸ not_isBlank_of_ofTool made
    · rw [values]
      exact List.rel_append keeps.entries (.cons made .nil)
    · rcases List.mem_append.1 stored with old | new
      · exact keeps.own item old
      · exact List.mem_singleton.1 new ▸ own
  · cases done.symm.trans refused

/-- Whatever is tried, the set holds the entries of what was not refused. -/
theorem Keeps.after (history : List (Tool σ)) :
    (tools.after history).Keeps (registered ++ tools.admitted history) := by
  induction history generalizing tools registered with
  | nil => exact (List.append_nil registered).symm ▸ keeps
  | cons tool rest ih =>
    cases done : tools.register tool with
    | ok more =>
      rw [after_cons_of_ok done, admitted_cons_of_ok done, List.append_cons]
      exact ih (keeps.register done)
    | error e =>
      rw [after_cons_of_error done, admitted_cons_of_error done]
      exact ih keeps

theorem Keeps.get?_eq_find? (name : String) :
    tools.get? name = tools.entries.values.find? (·.specification.name == name) := by
  rw [get?, keeps.indexed.get?_eq_lookup]
  exact Registry.lookup_eq_find? keeps.own name

theorem Keeps.exists_get?_iff (name : String) :
    (∃ entry, tools.get? name = some entry) ↔ ∃ tool ∈ registered, tool.name = name := by
  have known : (∃ entry, tools.get? name = some entry) ↔ name ∈ tools.names := by
    rw [← Option.ne_none_iff_exists', get?, keeps.indexed.get?_eq_lookup, ne_eq,
      Dictionary.lookup_eq_none_iff, not_not]
    rfl
  rw [known, keeps.names, List.mem_map]

theorem Keeps.lists : tools.Lists registered where
  names := keeps.names
  distinct := keeps.indexed.distinct
  visible := keeps.visible
  entries := keeps.entries
  specifications := List.forall₂_map_right_iff.2 (keeps.entries.imp fun _ entry made =>
    ⟨entry, made, rfl⟩)
  size := by
    have count : tools.entries.items.length = tools.names.length := (List.length_map _).symm
    rw [size, Registry.size, count, keeps.names, List.length_map]
  contains _ := keeps.indexed.contains_iff
  found := keeps.exists_get?_iff
  first := keeps.get?_eq_find?
  named name entry found := by
    rw [keeps.get?_eq_find? name] at found
    simpa using List.find?_some found
  places _ _ stored := keeps.indexed.item_at stored

end Register

section History

variable {history : List (Tool σ)}

theorem keeps_after_empty (history : List (Tool σ)) :
    (empty.after history).Keeps (empty.admitted history) :=
  keeps_empty.after history

theorem decides (history : List (Tool σ)) (tool : Tool σ) : Decides history tool where
  accepts_iff := (keeps_after_empty history).register_eq_ok_iff
  refuses_iff _ := (keeps_after_empty history).register_eq_error_iff
  accepted more done := by
    rw [after_append, admitted_append, after_cons_of_ok done, admitted_cons_of_ok done]
    exact ⟨rfl, rfl⟩
  refused e refused := by
    rw [after_append, admitted_append, after_cons_of_error refused,
      admitted_cons_of_error refused]
    exact ⟨rfl, List.append_nil _⟩
  free entry unknown made := by
    have keeps := keeps_after_empty history
    refine keeps.exists_insert? made fun taken => ?_
    exact Bool.eq_false_iff.1 unknown (keeps.indexed.contains_iff.2 taken)

theorem length_admitted_le (history : List (Tool σ)) :
    (tools.admitted history).length ≤ history.length := by
  induction history generalizing tools with
  | nil => exact Nat.le_refl 0
  | cons tool rest ih =>
    cases step : tools.register tool with
    | ok next =>
      rw [admitted_cons_of_ok step]
      exact Nat.succ_le_succ ih
    | error e =>
      rw [admitted_cons_of_error step]
      exact Nat.le_succ_of_le ih

theorem admitted_ne_of_error {e : ToolError} (refused : tools.register tool = .error e) :
    tools.admitted (tool :: history) ≠ tool :: history := by
  intro all
  have short := tools.length_admitted_le history
  rw [← admitted_cons_of_error refused, all, List.length_cons] at short
  omega

theorem registerAll_eq_error_iff {all : List (Tool σ)} {e : ToolError} :
    tools.registerAll all = .error e ↔ ∃ before tool rest, all = before ++ tool :: rest ∧
      tools.admitted before = before ∧ (tools.after before).register tool = .error e := by
  induction all generalizing tools with
  | nil => simp [registerAll]
  | cons first others ih =>
    rw [registerAll]
    cases step : tools.register first with
    | error f =>
      constructor
      · intro failed
        exact ⟨[], first, others, rfl, rfl, step.trans failed⟩
      · rintro ⟨before, tool, rest, split, all, refused⟩
        cases before with
        | nil =>
          cases split
          exact step.symm.trans refused
        | cons earlier before =>
          cases split
          exact absurd all (admitted_ne_of_error step)
    | ok next =>
      constructor
      · intro failed
        obtain ⟨before, tool, rest, rfl, all, refused⟩ := ih.1 failed
        refine ⟨first :: before, tool, rest, rfl, ?_, ?_⟩
        · rw [admitted_cons_of_ok step, all]
        · rwa [after_cons_of_ok step]
      · rintro ⟨before, tool, rest, split, all, refused⟩
        cases before with
        | nil =>
          cases split
          cases step.symm.trans refused
        | cons earlier before =>
          cases split
          rw [admitted_cons_of_ok step] at all
          rw [after_cons_of_ok step] at refused
          exact ih.2 ⟨before, tool, rest, rfl, (List.cons.inj all).2, refused⟩

theorem registerAll_eq_ok_iff {all : List (Tool σ)} :
    tools.registerAll all = .ok more ↔ tools.admitted all = all ∧ more = tools.after all := by
  induction all generalizing tools with
  | nil => simp [registerAll, admitted, after, eq_comm]
  | cons first others ih =>
    rw [registerAll]
    cases step : tools.register first with
    | error f => simp [admitted_ne_of_error step]
    | ok next =>
      simp only [ih, admitted_cons_of_ok step, after_cons_of_ok step, List.cons.injEq, true_and]

theorem admitted_eq_self_iff {all : List (Tool σ)} :
    tools.admitted all = all ↔ ∀ before tool rest, all = before ++ tool :: rest →
      ∃ more, (tools.after before).register tool = .ok more := by
  induction all generalizing tools with
  | nil => simp [admitted]
  | cons first others ih =>
    cases step : tools.register first with
    | error e =>
      refine iff_of_false (admitted_ne_of_error step) fun each => ?_
      obtain ⟨more, done⟩ := each [] first others rfl
      cases step.symm.trans done
    | ok next =>
      rw [admitted_cons_of_ok step, List.cons.injEq, eq_self, true_and, ih]
      constructor
      · intro each before tool rest split
        cases before with
        | nil =>
          cases split
          exact ⟨next, step⟩
        | cons earlier before =>
          cases split
          rw [after_cons_of_ok step]
          exact each before tool rest rfl
      · intro each before tool rest split
        have whole : first :: others = (first :: before) ++ tool :: rest := by
          rw [split, List.cons_append]
        exact after_cons_of_ok step before ▸ each (first :: before) tool rest whole

end History

/-- Whatever tools are registered in an empty set, and whichever of them are refused, the set lists
those that were not refused: in their order, under distinct names that are not blank, and each found
by its name. One more tool is admitted exactly if its name is free and it has an entry, and a tool
that is refused leaves the set as it was. Registering all of some tools at once comes to the same,
or to the error of the first that is refused. -/
theorem registrations_listed :
    (∀ history : List (Tool σ), (empty.after history).Lists (empty.admitted history)) ∧
    (∀ (history : List (Tool σ)) (tool : Tool σ), Decides history tool) ∧
    ∀ all : List (Tool σ),
      ((∃ made, ofTools all = .ok made) ↔ ∀ before tool rest, all = before ++ tool :: rest →
        ∃ more, (empty.after before).register tool = .ok more) ∧
      (∀ made, ofTools all = .ok made → empty.admitted all = all ∧ made = empty.after all) ∧
      ∀ e, ofTools all = .error e ↔ ∃ before tool rest, all = before ++ tool :: rest ∧
        empty.admitted before = before ∧ (empty.after before).register tool = .error e := by
  refine ⟨fun history => (keeps_after_empty history).lists, decides, fun all => ⟨?_, ?_, ?_⟩⟩
  · rw [← admitted_eq_self_iff]
    constructor
    · rintro ⟨made, done⟩
      exact (registerAll_eq_ok_iff.1 done).1
    · exact fun whole => ⟨_, registerAll_eq_ok_iff.2 ⟨whole, rfl⟩⟩
  · exact fun made done => registerAll_eq_ok_iff.1 done
  · exact fun e => registerAll_eq_error_iff

def ring : Tool RunCounts where
  name := "ring"
  handler := .constant .unit

def dial : Tool RunCounts where
  name := "dial"
  parameters := [{ name := some "digits", shape := .string }]
  handler := .constant .unit

/-- Two tools to register, and three that are refused: without a name, under a name that is taken,
and with a parameter that has no schema. -/
def catalog : List (Tool RunCounts) :=
  [ring, { ring with name := " " }, { dial with name := "ring" },
    { ring with name := "clock", parameters := [{ shape := .undescribed "Clock" }] }, dial]

theorem ring_entered : RegisteredTool.ofTool ring =
    .ok ⟨{ name := "ring" }, [], .empty, ring.handler, false, false⟩ := rfl

theorem dial_entered : ∃ entry, RegisteredTool.ofTool dial = .ok entry ∧
    entry.specification.name = "dial" := by
  have given : dial.parameters.isEmpty = false := rfl
  have names : nameParameters dial.parameters =
      [("digits", ⟨some "digits", .string, none, false⟩)] := rfl
  have generated : ∃ generated, generateParameters dial.parameters = .ok generated := by
    simp [generateParameters, generateParametersWith, given, names, generateProperties,
      Session.generate, Session.withIndex, generateShape]
  obtain ⟨_, generated⟩ := generated
  have entered := RegisteredTool.ofTool_eq_ok (by decide) generated
  exact ⟨_, entered, (RegisteredTool.of_ofTool_eq_ok entered).1⟩

theorem clock_refused : ∃ e, RegisteredTool.ofTool
    { ring with name := "clock", parameters := [{ shape := .undescribed "Clock" }] } = .error e := by
  have named : isBlank "clock" = false := by decide
  have names : nameParameters [{ shape := .undescribed "Clock" }] =
      [("arg0", ⟨none, .undescribed "Clock", none, false⟩)] := rfl
  simp [RegisteredTool.ofTool, named, generateParametersWith, names, generateProperties,
    Session.generate, Session.withIndex, generateShape]

theorem admitted_catalog : empty.admitted catalog = [ring, dial] := by
  have blank : RegisteredTool.ofTool { ring with name := " " } =
      .error (.invalidDefinition "tool name must not be empty") := rfl
  obtain ⟨_, clock⟩ := clock_refused
  obtain ⟨entry, last, name⟩ := dial_entered
  have ringing : ring.name = "ring" := rfl
  have dialling : dial.name = "dial" := rfl
  simp [catalog, admitted, register, contains, empty, ring_entered, blank, clock, last, name,
    ringing, dialling, Registry.contains, Registry.insert?, Registry.empty, List.lookup_cons]

theorem ofTools_ring_dial : ∃ made, ofTools [ring, dial] = .ok made := by
  obtain ⟨entry, last, name⟩ := dial_entered
  have ringing : ring.name = "ring" := rfl
  have dialling : dial.name = "dial" := rfl
  simp [ofTools, registerAll, register, contains, empty, ring_entered, last, name, ringing,
    dialling, Registry.contains, Registry.insert?, Registry.empty, List.lookup_cons]

theorem catalog_listed :
    (empty.after catalog).Lists [ring, dial] ∧
    (∃ e, (empty.after [ring]).register { dial with name := "ring" } = .error e ∧
      e = .duplicateName "ring" ∧
      empty.after [ring, { dial with name := "ring" }] = empty.after [ring]) ∧
    (∃ made, ofTools [ring, dial] = .ok made ∧ made = empty.after [ring, dial]) ∧
    ofTools catalog = .error (.invalidDefinition "tool name must not be empty") := by
  obtain ⟨listed, decided, composed⟩ := registrations_listed (σ := RunCounts)
  refine ⟨admitted_catalog ▸ listed catalog, ?_, ?_, ?_⟩
  · have refused : (empty.after [ring]).register { dial with name := "ring" } =
        .error (.duplicateName "ring") := rfl
    exact ⟨_, refused, rfl, ((decided [ring] _).refused _ refused).1⟩
  · obtain ⟨made, done⟩ := ofTools_ring_dial
    exact ⟨made, done, ((composed [ring, dial]).2.1 made done).2⟩
  · refine ((composed catalog).2.2 _).2 ⟨[ring], { ring with name := " " }, _, rfl, ?_, ?_⟩
    · rfl
    · rfl

end Toolset

end ToolChat
