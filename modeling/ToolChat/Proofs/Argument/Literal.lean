import Mathlib.Tactic.NormNum
import ToolChat.Proofs.Argument.Bound
import ToolChat.Proofs.Argument.RoundTrip
import ToolChat.Proofs.Json.Numeral

/-!
Integer arguments as they are written.

An integer parameter is bound to the number that the reader makes of the literal in the text. Where
this is the integer that the literal stands for, or none in bounds just as the literal stands for
none, the outcome is exact. It is for each plain literal of digits, up to those slightly below the
least signed 64-bit integer, and for each moderate one.
-/

set_option autoImplicit false

namespace ToolChat

/-- A text gives a name a literal: before the literal the reader comes to the value of the name in
the outermost object, whatever follows there, and each value that it went on with after the literal
would be the member of the name. -/
def Gives (text name : String) (numeral : Json.Numeral) : Prop :=
  ∃ before cs after done, text.toList = before ++ cs ∧
    (∀ rest, Json.readValue [] (before ++ rest) = Json.readValue [.members done name] rest) ∧
    Json.scanNumeral (Json.skipBlanks cs) = .ok (numeral, after) ∧
    ∀ value, ∃ members, Json.resume [.members done name] value after = .ok (.object members) ∧
      members.lookup name = some value

/-- An outcome is exact for a value: it is the integer that the value is, in bounds, or a coercion
that fails because there is none. -/
inductive ExactFor (kind : IntegerKind) (value : ℚ) : Except Violation Value → Prop
  | bound {m : Int} (whole : value = m) (inBounds : kind.contains m = true) :
      ExactFor kind value (.ok (.integer m))
  | refused {v : Violation} (coercion : v.toToolError.kind = .argumentCoercion)
      (none : ∀ m : Int, value = m → kind.contains m = false) : ExactFor kind value (.error v)

section Reading

variable {text name : String} {numeral : Json.Numeral}

theorem isWhiteSpace_eq_false {c : Char} (starts : c = '-' ∨ c.isDigit = true) :
    isWhiteSpace c = false := by
  rcases starts with rfl | digit
  · decide
  · have range := Char.isDigit_iff_toNat.1 digit
    have first : '0'.toNat = 48 := rfl
    have last : '9'.toNat = 57 := rfl
    unfold isWhiteSpace
    simp only [Bool.or_eq_false_iff, Bool.and_eq_false_iff, decide_eq_false_iff_not,
      beq_eq_false_iff_ne]
    omega

theorem Gives.visible (gives : Gives text name numeral) : isBlank text = false := by
  obtain ⟨before, cs, after, done, split, -, scanned, -⟩ := gives
  obtain ⟨c, inside, here, starts⟩ := Json.Numeral.starts_of_scanNumeral scanned
  have inText : c ∈ text.toList := by
    have inRest : c ∈ Json.skipBlanks cs := here ▸ List.mem_cons_self
    rw [split]
    exact List.mem_append_right _ ((List.dropWhile_sublist _).subset inRest)
  rw [isBlank, List.all_eq_false]
  exact ⟨c, inText, by rw [isWhiteSpace_eq_false starts]; decide⟩

theorem Gives.read {number : Json.Number} (gives : Gives text name numeral)
    (value : numeral.value = .ok number) :
    ∃ members, readArguments text = .ok members ∧
      Json.member? name members = some (.number number) := by
  have visible := gives.visible
  obtain ⟨before, cs, after, done, split, comes, scanned, goes⟩ := gives
  obtain ⟨members, ends, found⟩ := goes (.number number)
  refine ⟨members, readArguments_of_object visible ?_, Json.member?_of_lookup found nofun⟩
  rw [Json.read, split, comes, Json.Numeral.readValue_of_numeral scanned, value]
  exact ends

theorem Gives.unread {unseen : Nat} (gives : Gives text name numeral)
    (value : numeral.value = .error unseen) :
    ∃ fault : Json.Fault, fault.reason = .numberOutOfRange ∧ readArguments text =
      .error (.invalidArguments ("invalid JSON arguments: " ++ fault.report text.toList)) := by
  have visible := gives.visible
  obtain ⟨before, cs, after, done, split, comes, scanned, -⟩ := gives
  have failed : Json.read text.toList =
      .error ⟨.numberOutOfRange, Json.byteCount after + unseen⟩ := by
    rw [Json.read, split, comes, Json.Numeral.readValue_of_numeral scanned, value]
  refine ⟨⟨.numberOutOfRange, Json.byteCount after + unseen⟩, rfl, ?_⟩
  rw [readArguments, if_neg (Bool.eq_false_iff.1 visible), readJson, failed]

theorem Gives.digits (gives : Gives text name numeral) : ∀ c ∈ numeral.whole, c.isDigit = true := by
  obtain ⟨before, cs, after, done, -, -, scanned, -⟩ := gives
  exact Json.Numeral.isDigit_of_scanNumeral scanned

end Reading

section Outcomes

variable {index : ShapeIndex} {kind : IntegerKind} {number : Json.Number} {path : Path}

/-- The outcome is exact for a value exactly if the number agrees with it about the integers in
bounds. -/
theorem exactFor_bindInteger_iff {value : ℚ} :
    ExactFor kind value (bindInteger kind path (.number number)) ↔
      ∀ m : Int, kind.contains m = true → (number.Is m ↔ value = m) := by
  rw [bindInteger]
  constructor
  · intro exact m inBounds
    rw [← exactInt?_eq_some_iff_of_contains inBounds]
    cases whole : number.exactInt? with
    | none =>
      rw [whole] at exact
      cases exact with
      | refused _ none =>
        refine iff_of_false (Option.some_ne_none m).symm fun same => ?_
        cases inBounds.symm.trans (none m same)
    | some k =>
      rw [whole] at exact
      dsimp only at exact
      split at exact
      · cases exact with
        | bound same _ => rw [same, Option.some_inj, Int.cast_inj]
      · next outside =>
        cases exact with
        | refused _ none =>
          refine iff_of_false ?_ fun same => ?_
          · rintro ⟨⟩
            exact outside inBounds
          · cases inBounds.symm.trans (none m same)
  · intro agree
    have none : ∀ m : Int, number.exactInt? ≠ some m → value = m → kind.contains m = false := by
      intro m other same
      refine Bool.eq_false_iff.2 fun inBounds => other ?_
      exact (exactInt?_eq_some_iff_of_contains inBounds).2 ((agree m inBounds).2 same)
    cases whole : number.exactInt? with
    | none => exact .refused rfl fun m => none m (by rw [whole]; exact (Option.some_ne_none m).symm)
    | some k =>
      dsimp only
      split
      · next inBounds =>
        refine .bound ?_ inBounds
        exact (agree k inBounds).1 ((exactInt?_eq_some_iff_of_contains inBounds).1 whole)
      · next outside =>
        refine .refused rfl fun m same => ?_
        by_cases this : k = m
        · rw [← this]
          exact Bool.eq_false_iff.2 outside
        · refine none m ?_ same
          rw [whole]
          exact fun other => this (Option.some.inj other)

theorem exactFor_iff_of_plain {numeral : Json.Numeral} (plain : numeral.Plain)
    (digits : ∀ c ∈ numeral.whole, c.isDigit = true) (value : numeral.value = .ok number) :
    ExactFor kind numeral.exact (bindInteger kind path (.number number)) ↔
      ¬(kind = .i64 ∧ numeral.Slips) := by
  rw [exactFor_bindInteger_iff]
  constructor
  · rintro exact ⟨rfl, slips⟩
    have least : IntegerKind.i64.contains (-9223372036854775808) = true := by decide
    have same := (exact _ least).1 (Json.Numeral.is_of_slips plain slips value)
    have below := slips.2
    rw [same] at below
    norm_num at below
  · exact fun kept m inBounds => Json.Numeral.is_iff_of_plain plain digits value inBounds kept

theorem exactFor_of_moderate {numeral : Json.Numeral} (moderate : numeral.Moderate)
    (digits : ∀ c ∈ numeral.whole, c.isDigit = true) (value : numeral.value = .ok number) :
    ExactFor kind numeral.exact (bindInteger kind path (.number number)) :=
  exactFor_bindInteger_iff.2 fun _ inBounds =>
    Json.Numeral.is_iff_of_moderate digits moderate value inBounds

theorem bindParameters_append (members : List (String × Json))
    (before after : List (String × Parameter)) :
    bindParameters index members (before ++ after) =
      match bindParameters index members before with
      | .error v => .error v
      | .ok values => (bindParameters index members after).map (values ++ ·) := by
  induction before with
  | nil =>
    dsimp only [List.nil_append, bindParameters]
    cases bindParameters index members after <;> rfl
  | cons first before ih =>
    obtain ⟨name, parameter⟩ := first
    rw [List.cons_append, bindParameters, bindParameters, ih]
    cases bindParameter index members name parameter with
    | error v => rfl
    | ok value =>
      cases bindParameters index members before with
      | error v => rfl
      | ok values => cases bindParameters index members after <;> rfl

theorem exists_of_bindParameters {members : List (String × Json)} {name : String}
    {parameter : Parameter} {before after : List (String × Parameter)}
    {values : List (String × Value)}
    (h : bindParameters index members (before ++ (name, parameter) :: after) = .ok values) :
    ∃ value, bindParameter index members name parameter = .ok value ∧ (name, value) ∈ values := by
  rw [bindParameters_append] at h
  cases earlier : bindParameters index members before with
  | error v =>
    rw [earlier] at h
    cases h
  | ok first =>
    cases here : bindParameter index members name parameter with
    | error v =>
      rw [earlier, bindParameters, here] at h
      cases h
    | ok value =>
      rw [earlier, bindParameters, here] at h
      cases later : bindParameters index members after with
      | error v =>
        rw [later] at h
        cases h
      | ok last =>
        rw [later] at h
        cases h
        exact ⟨value, rfl, List.mem_append_right _ List.mem_cons_self⟩

/-- An integer parameter is bound to its literal exactly, if the literal is plain and is not rounded
to the least signed 64-bit integer, or if it is moderate. -/
theorem bindArguments_literal (parameters : List Parameter) (index : ShapeIndex)
    (text name : String) (parameter : Parameter) (before after : List (String × Parameter))
    (kind : IntegerKind) (numeral : Json.Numeral)
    (declared : nameParameters parameters = before ++ (name, parameter) :: after)
    (integral : parameter.shape = .integer kind) (gives : Gives text name numeral) :
    (∃ unseen, numeral.value = .error unseen ∧
      ∃ fault : Json.Fault, fault.reason = .numberOutOfRange ∧ bindArguments parameters index text =
        .error (.invalidArguments ("invalid JSON arguments: " ++ fault.report text.toList))) ∨
    ∃ number members outcome, numeral.value = .ok number ∧ readArguments text = .ok members ∧
      bindParameter index members name parameter = outcome ∧
      (ExactFor kind numeral.exact outcome ↔
        ∀ m : Int, kind.contains m = true → (number.Is m ↔ numeral.exact = m)) ∧
      (numeral.Plain → (ExactFor kind numeral.exact outcome ↔ ¬(kind = .i64 ∧ numeral.Slips))) ∧
      (numeral.Moderate → ExactFor kind numeral.exact outcome) ∧
      (∀ arguments, bindArguments parameters index text = .ok arguments →
        ∃ value, outcome = .ok value ∧ (name, value) ∈ arguments.values) ∧
      ∀ values v, bindParameters index members before = .ok values → outcome = .error v →
        bindArguments parameters index text = .error v.toToolError := by
  cases value : numeral.value with
  | error unseen =>
    obtain ⟨fault, reason, unread⟩ := gives.unread value
    refine .inl ⟨unseen, rfl, fault, reason, ?_⟩
    rw [bindArguments, unread]
  | ok number =>
    obtain ⟨members, read, given⟩ := gives.read value
    have settled : bindParameter index members name parameter =
        bindInteger kind (.argument name) (.number number) := by
      rw [bindParameter, given]
      dsimp only
      rw [integral, bindValue]
    refine .inr ⟨number, members, _, rfl, read, settled, exactFor_bindInteger_iff,
      fun plain => exactFor_iff_of_plain plain gives.digits value,
      fun moderate => exactFor_of_moderate moderate gives.digits value, ?_, ?_⟩
    · intro arguments bound
      obtain ⟨again, read', values⟩ := bindArguments_eq_ok bound
      obtain rfl := Except.ok.inj (read.symm.trans read')
      rw [declared] at values
      rw [← settled]
      exact exists_of_bindParameters values
    · intro values v earlier failed
      rw [bindArguments, read]
      dsimp only
      rw [declared, bindParameters_append, earlier, bindParameters, settled, failed]
      rfl

end Outcomes

section Sole

def soleText (name : String) (literal : List Char) : String :=
  String.ofList ('\x7b' :: Json.quoted name ++ ':' :: literal ++ ['\x7d'])

variable {name : String} {literal : List Char} {numeral : Json.Numeral}

theorem gives_sole (scanned : Json.scanNumeral (literal ++ ['\x7d']) = .ok (numeral, ['\x7d'])) :
    Gives (soleText name literal) name numeral := by
  refine ⟨'\x7b' :: Json.quoted name ++ [':'], literal ++ ['\x7d'], ['\x7d'], [], ?_, ?_, ?_, ?_⟩
  · rw [soleText, String.toList_ofList, List.append_assoc, List.append_assoc]
    rfl
  · intro rest
    have opened : Json.readValue [] ('\x7b' :: (Json.quoted name ++ ':' :: rest)) =
        Json.readMember [] [] (Json.quoted name ++ ':' :: rest) := Json.readValue_object (by decide)
    rw [List.append_assoc]
    exact opened.trans Json.readMember_quoted
  · obtain ⟨c, inside, here, starts⟩ := Json.Numeral.starts_of_scanNumeral scanned
    have visible : Json.isJsonBlank c = false := by
      rcases starts with rfl | digit
      · decide
      · exact Json.visible_of_isDigit digit
    rw [here, Json.skipBlanks_of_visible visible, ← here]
    exact scanned
  · intro value
    refine ⟨[(name, value)], ?_, List.lookup_cons_self⟩
    rw [Json.resume_closeObject, Json.resume]
    rfl

def counting (kind : IntegerKind) : List Parameter :=
  [{ name := some "n", shape := .integer kind }]

theorem bindArguments_counting {kind : IntegerKind} {index : ShapeIndex} {text : String}
    {members : List (String × Json)} {value : Value} (read : readArguments text = .ok members)
    (bound : bindParameter index members "n" { name := some "n", shape := .integer kind } =
      .ok value) : bindArguments (counting kind) index text = .ok ⟨[("n", value)]⟩ := by
  have named : nameParameters (counting kind) =
      [("n", { name := some "n", shape := .integer kind })] := rfl
  rw [bindArguments, read]
  dsimp only
  rw [named, bindParameters, bound]
  rfl

theorem bindArguments_sole {kind : IntegerKind} {index : ShapeIndex} {m : Int}
    (scanned : Json.scanNumeral (literal ++ ['\x7d']) = .ok (numeral, ['\x7d']))
    (made : numeral.value.toOption.bind Json.Number.exactInt? = some m)
    (inBounds : kind.contains m = true) :
    bindArguments (counting kind) index (soleText "n" literal) = .ok ⟨[("n", .integer m)]⟩ := by
  cases value : numeral.value with
  | error unseen =>
    rw [value] at made
    cases made
  | ok number =>
    rw [value] at made
    have whole : number.exactInt? = some m := made
    obtain ⟨members, read, given⟩ := (gives_sole scanned).read value
    refine bindArguments_counting read ?_
    rw [bindParameter, given]
    dsimp only
    rw [bindValue, bindInteger, whole]
    exact if_pos inBounds

end Sole

def twelve : Json.Numeral := ⟨false, ['1', '2'], some ['0'], none⟩

theorem twelve_moderate : twelve.Moderate where
  fits := by decide
  fine := by decide
  apart := by
    have magnitude : twelve.magnitude = 12 := by
      norm_num [Json.Numeral.magnitude, show twelve.coefficient = 120 from rfl,
        show twelve.power = -1 from rfl]
    rw [magnitude]
    norm_num

theorem twelve_exact : twelve.exact = 12 := by
  norm_num [Json.Numeral.exact, Json.Numeral.magnitude, show twelve.coefficient = 120 from rfl,
    show twelve.power = -1 from rfl, show twelve.negative = false from rfl]

theorem gives_twelve : Gives "\x7b\"n\":12.0\x7d" "n" twelve := by
  have text : soleText "n" ['1', '2', '.', '0'] = "\x7b\"n\":12.0\x7d" := by decide +kernel
  rw [← text]
  exact gives_sole rfl

theorem twelve_bound_exactly :
    Gives "\x7b\"n\":12.0\x7d" "n" twelve ∧ twelve.exact = 12 ∧
      bindArguments (counting .i8) (.ofParameters (counting .i8)) "\x7b\"n\":12.0\x7d" =
        .ok ⟨[("n", .integer 12)]⟩ := by
  refine ⟨gives_twelve, twelve_exact, ?_⟩
  rcases bindArguments_literal (counting .i8) (.ofParameters (counting .i8)) _ "n"
    { name := some "n", shape := .integer .i8 } [] [] .i8 twelve rfl rfl gives_twelve with
    ⟨unseen, refused, -⟩ | ⟨number, members, outcome, -, read, settled, -, -, exact, -, -⟩
  · have accepted : twelve.value.toOption.isSome = true := by decide +kernel
    rw [refused] at accepted
    cases accepted
  · have kept := exact twelve_moderate
    rw [twelve_exact] at kept
    cases kept with
    | @bound m whole inBounds =>
      obtain rfl : 12 = m := by exact_mod_cast whole
      exact bindArguments_counting read settled
    | refused _ none => cases none 12 (by norm_num)

/-- A text gives the only parameter a literal, and it is bound to an integer that the literal does
not stand for. -/
def Changes (text : String) (kind : IntegerKind) (numeral : Json.Numeral) (m : Int) : Prop :=
  Gives text "n" numeral ∧ numeral.exact ≠ m ∧
    bindArguments (counting kind) (.ofParameters (counting kind)) text = .ok ⟨[("n", .integer m)]⟩

theorem changes_of_sole {text : String} (literal : List Char) {kind : IntegerKind}
    {numeral : Json.Numeral} {m : Int} (spelled : soleText "n" literal = text)
    (scanned : Json.scanNumeral (literal ++ ['\x7d']) = .ok (numeral, ['\x7d']))
    (made : numeral.value.toOption.bind Json.Number.exactInt? = some m)
    (inBounds : kind.contains m = true) (other : numeral.exact ≠ m) :
    Changes text kind numeral m := by
  rw [← spelled]
  exact ⟨gives_sole scanned, other, bindArguments_sole scanned made inBounds⟩

def belowLeast : Json.Numeral := ⟨true, "9223372036854775809".toList, none, none⟩

def beyondPrecision : Json.Numeral := ⟨false, "9007199254740993".toList, some ['0'], none⟩

def tooSmall : Json.Numeral := ⟨false, ['1'], none, some (true, ['4', '0', '0'])⟩

/-- Integers are bound that the literals do not stand for: the one before the least, one beyond the
precision and a fraction close to zero. -/
theorem literals_changed :
    Changes "\x7b\"n\":-9223372036854775809\x7d" .i64 belowLeast (-9223372036854775808) ∧
      Changes "\x7b\"n\":9007199254740993.0\x7d" .i64 beyondPrecision 9007199254740994 ∧
      Changes "\x7b\"n\":1e-400\x7d" .i8 tooSmall 0 := by
  refine ⟨?_, ?_, ?_⟩
  · have exact : belowLeast.exact = -9223372036854775809 := by
      norm_num [Json.Numeral.exact, Json.Numeral.magnitude,
        show belowLeast.coefficient = 9223372036854775809 from rfl,
        show belowLeast.power = 0 from rfl, show belowLeast.negative = true from rfl]
    refine changes_of_sole "-9223372036854775809".toList (by decide +kernel) rfl
      (by decide +kernel) (by decide) ?_
    rw [exact]
    norm_num
  · have exact : beyondPrecision.exact = 9007199254740993 := by
      norm_num [Json.Numeral.exact, Json.Numeral.magnitude,
        show beyondPrecision.coefficient = 90071992547409930 from rfl,
        show beyondPrecision.power = -1 from rfl, show beyondPrecision.negative = false from rfl]
    refine changes_of_sole "9007199254740993.0".toList (by decide +kernel) rfl
      (by decide +kernel) (by decide) ?_
    rw [exact]
    norm_num
  · have exact : tooSmall.exact = 10 ^ (-400 : Int) := by
      have one : tooSmall.coefficient = 1 := rfl
      have power : tooSmall.power = -400 := rfl
      have positive : tooSmall.negative = false := rfl
      rw [Json.Numeral.exact, Json.Numeral.magnitude, one, power, positive]
      simp
    refine changes_of_sole "1e-400".toList (by decide +kernel) rfl
      (by decide +kernel) (by decide) ?_
    rw [exact]
    exact_mod_cast (zpow_pos (by norm_num : (0 : ℚ) < 10) _).ne'

end ToolChat
