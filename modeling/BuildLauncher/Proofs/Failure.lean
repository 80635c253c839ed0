import BuildLauncher.Failure

/-!
# The details of a failed command

The details travel with a failure as data and are read back from it.  They are read from data of any
origin, too: from an object with the right values in the right fields, whatever else it holds, or
from the list of the three values.

* `Json.field?_eq_iff`, `Json.asNullable?_getD_eq_some_iff`: what is read of one field.
* `Failure.CommandDetails.ofJson?_eq_some_iff`: the data that holds the details is what they are
  read from, and `Failure.CommandDetails.ofJson?_toJson` says that they are read from what they are
  written as.
* `Failure.commandDetails?_ofCommand`, `Failure.commandDetails?_ofBootstrap`: either failure of a
  command has its details.
* `Failure.foldl_withHint`: what becomes of a failure that gets hints.
* `Failure.details_recovered`: the details of failures, made in whatever way.
-/

namespace BuildLauncher

/-! ## Fields and values -/

namespace Json

/-- What stands in a field: nothing when no field has that name, else the value of the first that
has. -/
def At (fields : List (String × Json)) (name : String) : Option Json → Prop
  | none => ∀ field ∈ fields, field.1 ≠ name
  | some value => ∃ before behind, fields = before ++ (name, value) :: behind ∧
      ∀ field ∈ before, field.1 ≠ name

/-- The data is the text. -/
def IsText (json : Json) (s : String) : Prop := json = .text s

/-- The data is the integer, which fits into 32 bits. -/
def IsInt32 (json : Json) (n : Int32) : Prop :=
  ∃ i : Int, json = .integer i ∧ -2147483648 ≤ i ∧ i ≤ 2147483647 ∧ n.toInt = i

/-- The data of a value that may be missing: nothing at all or `null` when it is, else data of the
value. -/
inductive Maybe {α : Type} (Is : Json → α → Prop) : Option Json → Option α → Prop
  | absent : Maybe Is none none
  | null : Maybe Is (some .null) none
  | filled {json : Json} {a : α} : Is json a → Maybe Is (some json) (some a)

/-- The data of a value that may be missing is what the value is written as. -/
theorem Maybe.map {α : Type} {Is : Json → α → Prop} (write : α → Json) (is : ∀ a, Is (write a) a)
    (a? : Option α) : Maybe Is (a?.map write) a? := by
  cases a? with
  | none => exact .absent
  | some a => exact .filled (is a)

theorem isInt32_integer (n : Int32) : IsInt32 (.integer n.toInt) n :=
  ⟨n.toInt, rfl, n.minValue_le_toInt, n.toInt_le, rfl⟩

variable {fields : List (String × Json)} {name : String} {json : Json}

theorem field?_cons (key name : String) (value : Json) (rest : List (String × Json)) :
    field? ((key, value) :: rest) name = if key = name then some value else field? rest name := by
  unfold field?
  rw [List.find?_cons]
  by_cases same : key = name
  · rw [decide_eq_true same, if_pos same]
    rfl
  · rw [decide_eq_false same, if_neg same]

theorem field?_eq_iff {value? : Option Json} :
    field? fields name = value? ↔ At fields name value? := by
  unfold field? At
  cases value? with
  | none => simp [List.find?_eq_none]
  | some value =>
    rw [Option.map_eq_some_iff]
    constructor
    · rintro ⟨⟨key, found⟩, first, rfl⟩
      obtain ⟨same, before, behind, split, others⟩ := List.find?_eq_some_iff_append.mp first
      obtain rfl := of_decide_eq_true same
      refine ⟨before, behind, split, fun field mem => ?_⟩
      simpa using others field mem
    · rintro ⟨before, behind, split, others⟩
      refine ⟨(name, value), List.find?_eq_some_iff_append.mpr ?_, rfl⟩
      refine ⟨decide_eq_true rfl, before, behind, split, fun field mem => ?_⟩
      simpa using others field mem

theorem asText?_eq_some_iff {s : String} : json.asText? = some s ↔ json.IsText s := by
  cases json <;> simp [asText?, IsText]

theorem asInt32?_eq_some_iff {n : Int32} : json.asInt32? = some n ↔ json.IsInt32 n := by
  constructor
  · intro read
    unfold asInt32? at read
    split at read
    · next i =>
      split at read
      · next fits =>
        cases read
        exact ⟨i, rfl, fits.1, fits.2, Int32.toInt_ofInt_of_le fits.1 (Int.lt_of_le_sub_one fits.2)⟩
      · cases read
    · cases read
  · rintro ⟨i, rfl, -, -, rfl⟩
    rw [asInt32?, if_pos ⟨n.minValue_le_toInt, n.toInt_le⟩, Int32.ofInt_toInt]

/-- A value that may be missing is read when the data is of it, as long as `null` is not. -/
theorem asNullable?_getD_eq_some_iff {α : Type} (read : Json → Option α) (Is : Json → α → Prop)
    (reads : ∀ json a, read json = some a ↔ Is json a) (filled : ∀ a, ¬ Is .null a)
    {value? : Option Json} {a? : Option α} :
    (value?.getD .null).asNullable? read = some a? ↔ Maybe Is value? a? := by
  cases value? with
  | none =>
    change some none = some a? ↔ _
    constructor
    · rintro ⟨⟩
      exact .absent
    · rintro ⟨⟩
      rfl
  | some value =>
    change asNullable? read value = some a? ↔ _
    unfold asNullable?
    split
    · constructor
      · rintro ⟨⟩
        exact .null
      · intro maybe
        cases maybe with
        | null => rfl
        | filled is => exact absurd is (filled _)
    · next other =>
      rw [Option.map_eq_some_iff]
      constructor
      · rintro ⟨a, found, rfl⟩
        exact .filled ((reads _ _).mp found)
      · intro maybe
        cases maybe with
        | null => exact absurd rfl other
        | filled is => exact ⟨_, (reads _ _).mpr is, rfl⟩

theorem not_isInt32_null (n : Int32) : ¬ IsInt32 .null n := by
  rintro ⟨i, same, -⟩
  cases same

theorem not_isText_null (s : String) : ¬ IsText .null s := nofun

end Json

namespace Failure

/-! ## The data of details -/

namespace CommandDetails

/-- The details as the fields of an object. -/
structure InFields (fields : List (String × Json)) (d : CommandDetails) : Prop where
  command : Json.At fields "command" (some (.text d.command))
  exitCode : ∃ value?, Json.At fields "exitCode" value? ∧ Json.Maybe Json.IsInt32 value? d.exitCode
  launchError : ∃ value?,
    Json.At fields "launchError" value? ∧ Json.Maybe Json.IsText value? d.launchError

/-- The data that holds the details: an object with the right fields, or a list of three. -/
inductive Holds : Json → CommandDetails → Prop
  | object {fields : List (String × Json)} {d : CommandDetails} :
    InFields fields d → Holds (.object fields) d
  | list {code reason : Json} {d : CommandDetails} :
    Json.Maybe Json.IsInt32 (some code) d.exitCode →
    Json.Maybe Json.IsText (some reason) d.launchError →
    Holds (.list [.text d.command, code, reason]) d

theorem ofFields?_eq_some_iff {fields : List (String × Json)} {d : CommandDetails} :
    ofFields? fields = some d ↔ InFields fields d := by
  have code {value? n?} : (Option.getD value? Json.null).asNullable? Json.asInt32? = some n? ↔ _ :=
    Json.asNullable?_getD_eq_some_iff Json.asInt32? Json.IsInt32
      (fun _ _ => Json.asInt32?_eq_some_iff) Json.not_isInt32_null
  have reason {value? s?} : (Option.getD value? Json.null).asNullable? Json.asText? = some s? ↔ _ :=
    Json.asNullable?_getD_eq_some_iff Json.asText? Json.IsText
      (fun _ _ => Json.asText?_eq_some_iff) Json.not_isText_null
  unfold ofFields?
  simp only [Option.bind_eq_bind, Option.bind_eq_some_iff, Json.asText?_eq_some_iff, code, reason,
    Option.some.injEq]
  constructor
  · rintro ⟨_, commandField, _, rfl, _, exitCode, _, launchError, rfl⟩
    exact ⟨Json.field?_eq_iff.mp commandField, ⟨_, Json.field?_eq_iff.mp rfl, exitCode⟩,
      ⟨_, Json.field?_eq_iff.mp rfl, launchError⟩⟩
  · rintro ⟨commandField, ⟨_, codeField, exitCode⟩, ⟨_, reasonField, launchError⟩⟩
    rw [← Json.field?_eq_iff] at commandField codeField reasonField
    subst codeField reasonField
    exact ⟨_, commandField, _, rfl, _, exitCode, _, launchError, rfl⟩

/-- A list of three is read as the three fields would be. -/
theorem inFields_of_list {command code reason : Json} {d : CommandDetails} :
    InFields [("command", command), ("exitCode", code), ("launchError", reason)] d ↔
      command = .text d.command ∧ Json.Maybe Json.IsInt32 (some code) d.exitCode ∧
        Json.Maybe Json.IsText (some reason) d.launchError := by
  have commandField : Json.field? [("command", command), ("exitCode", code),
    ("launchError", reason)] "command" = some command := rfl
  have codeField : Json.field? [("command", command), ("exitCode", code),
    ("launchError", reason)] "exitCode" = some code := rfl
  have reasonField : Json.field? [("command", command), ("exitCode", code),
    ("launchError", reason)] "launchError" = some reason := rfl
  constructor
  · rintro ⟨commandAt, ⟨_, codeAt, exitCode⟩, ⟨_, reasonAt, launchError⟩⟩
    rw [← Json.field?_eq_iff] at commandAt codeAt reasonAt
    rw [commandField] at commandAt
    rw [codeField] at codeAt
    rw [reasonField] at reasonAt
    subst codeAt reasonAt
    exact ⟨Option.some.inj commandAt, exitCode, launchError⟩
  · rintro ⟨rfl, exitCode, launchError⟩
    exact ⟨Json.field?_eq_iff.mp commandField, ⟨_, Json.field?_eq_iff.mp codeField, exitCode⟩,
      ⟨_, Json.field?_eq_iff.mp reasonField, launchError⟩⟩

/-- What is read of the data is what it holds. -/
theorem ofJson?_eq_some_iff {json : Json} {d : CommandDetails} :
    ofJson? json = some d ↔ Holds json d := by
  unfold ofJson?
  split
  · rw [ofFields?_eq_some_iff]
    constructor
    · exact .object
    · rintro ⟨⟩
      assumption
  · rw [ofFields?_eq_some_iff, inFields_of_list]
    constructor
    · rintro ⟨rfl, exitCode, launchError⟩
      exact .list exitCode launchError
    · rintro ⟨⟩
      exact ⟨rfl, by assumption, by assumption⟩
  · next notObject notList =>
    constructor
    · rintro ⟨⟩
    · intro holds
      cases holds with
      | object => exact absurd rfl (notObject _)
      | list => exact absurd rfl (notList _ _ _)

/-- A number with a point is no exit code, whatever its value. -/
example : ofJson? (.list [.text "cargo", .real 1 0, .null]) = none := rfl

theorem field?_optional_append (key name : String) (value? : Option Json)
    (rest : List (String × Json)) :
    Json.field? (optional key value? ++ rest) name =
      if key = name then value?.or (Json.field? rest name) else Json.field? rest name := by
  cases value? with
  | none =>
    change Json.field? rest name = _
    split <;> rfl
  | some value => exact Json.field?_cons key name value rest

/-- What the details are written as holds them. -/
theorem holds_toJson (d : CommandDetails) : Holds d.toJson d := by
  obtain ⟨command, exitCode, launchError⟩ := d
  let code? := exitCode.map fun n => Json.integer n.toInt
  let reason? := launchError.map Json.text
  let fields := ("command", .text command) ::
    (optional "exitCode" code? ++ (optional "launchError" reason? ++ []))
  have absent (name : String) : Json.field? [] name = none := rfl
  have commandField : Json.field? fields "command" = some (.text command) :=
    Json.field?_cons ..
  have codeField : Json.field? fields "exitCode" = code? := by
    rw [Json.field?_cons, if_neg (by decide), field?_optional_append, if_pos rfl,
      field?_optional_append, if_neg (by decide), absent]
    exact Option.or_none
  have reasonField : Json.field? fields "launchError" = reason? := by
    rw [Json.field?_cons, if_neg (by decide), field?_optional_append, if_neg (by decide),
      field?_optional_append, if_pos rfl, absent]
    exact Option.or_none
  have code : Json.Maybe Json.IsInt32 code? exitCode := .map _ Json.isInt32_integer exitCode
  have reason : Json.Maybe Json.IsText reason? launchError :=
    .map .text (fun _ => rfl) launchError
  have written : toJson ⟨command, exitCode, launchError⟩ = .object fields := by
    rw [toJson, ← List.append_nil (optional "launchError" _)]
  rw [written]
  exact .object ⟨Json.field?_eq_iff.mp commandField, ⟨code?, Json.field?_eq_iff.mp codeField, code⟩,
    ⟨reason?, Json.field?_eq_iff.mp reasonField, reason⟩⟩

/-- What is read back is what was written. -/
theorem ofJson?_toJson (d : CommandDetails) : ofJson? d.toJson = some d :=
  ofJson?_eq_some_iff.mpr d.holds_toJson

end CommandDetails

/-! ## The details of failures -/

theorem commandDetails?_ofCommand (d : CommandDetails) :
    (ofCommand d).commandDetails? = some d :=
  d.ofJson?_toJson

theorem commandDetails?_ofBootstrap (d : CommandDetails) :
    (ofBootstrap d).commandDetails? = some d :=
  d.ofJson?_toJson

/-- Hints go behind those that are there, and nothing else changes. -/
theorem foldl_withHint (hints : List String) (f : Failure) :
    hints.foldl withHint f = { f with hints := f.hints ++ hints } := by
  induction hints generalizing f with
  | nil => simp
  | cons hint rest ih => simp [ih, withHint]

theorem commandDetails?_foldl_withHint (hints : List String) (f : Failure) :
    (hints.foldl withHint f).commandDetails? = f.commandDetails? := by
  rw [foldl_withHint]
  rfl

theorem commandDetails?_of_command {f : Failure}
    (command : f.code = .command ∨ f.code = .bootstrap) :
    f.commandDetails? = CommandDetails.ofJson? f.details := by
  unfold commandDetails?
  rcases command with code | code <;> rw [code]

theorem commandDetails?_of_other {f : Failure} (other : f.code = .invalidArgument ∨ f.code = .io) :
    f.commandDetails? = none := by
  unfold commandDetails?
  rcases other with code | code <;> rw [code]

/-- **Details are recovered.**  A failure made of the details of a command gives them back, whatever
hints it got.  Of any failure of a command there are details just when its data holds some, and they
are what it holds; a failure of another kind has none. -/
theorem details_recovered :
    (∀ (d : CommandDetails) (hints : List String),
      (hints.foldl withHint (ofCommand d)).commandDetails? = some d ∧
      (hints.foldl withHint (ofBootstrap d)).commandDetails? = some d) ∧
    ∀ f : Failure,
      (f.code = .invalidArgument ∨ f.code = .io → f.commandDetails? = none) ∧
      (f.code = .command ∨ f.code = .bootstrap →
        (f.commandDetails?.isSome = true ↔ ∃ d, CommandDetails.Holds f.details d) ∧
        ∀ d, f.commandDetails? = some d ↔ CommandDetails.Holds f.details d) := by
  refine ⟨fun d hints => ⟨?_, ?_⟩, fun f => ⟨commandDetails?_of_other, fun command => ?_⟩⟩
  · rw [commandDetails?_foldl_withHint]
    exact commandDetails?_ofCommand d
  · rw [commandDetails?_foldl_withHint]
    exact commandDetails?_ofBootstrap d
  · have holds (d : CommandDetails) :
        f.commandDetails? = some d ↔ CommandDetails.Holds f.details d := by
      rw [commandDetails?_of_command command]
      exact CommandDetails.ofJson?_eq_some_iff
    refine ⟨?_, holds⟩
    rw [Option.isSome_iff_exists]
    exact exists_congr holds

end Failure

end BuildLauncher
