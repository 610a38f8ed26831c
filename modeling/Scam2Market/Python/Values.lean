import Mathlib.Data.Rat.Floor
import Mathlib.Algebra.Order.Field.Rat
import Mathlib.Data.String.Basic

/-!
# Python values

The values the program computes with.

* Instants and durations are whole microseconds (`Datetime`, `Timedelta`), the resolution of
  `datetime`.
* A `float` is the rational number it stands for and arithmetic on floats is exact; an `int` is an
  integer.
* `Json`: the values of a `dict[str, Any]` that JSON can carry, with the operations the program
  applies to them without looking at their type: truth, `len`, iteration.
* `JsonObject`: a dictionary.  Dictionaries are equal when they have the same items, whatever the
  order of insertion, so a dictionary is its items in key order.
* `PyError`: the exceptions, with the text or the field they name.
* `Uuid` and `Digest`: name-based identifiers and hash values.  `uuid5` and SHA-256 are taken to be
  injective: an identifier is the name it is made from and a digest is the text it is taken of, each
  with the parts the program formats into it.
-/

namespace Scam2Market

/-- An instant, in microseconds since the epoch. -/
abbrev Datetime := ℤ

/-- A duration, in microseconds. -/
abbrev Timedelta := ℤ

/-- `timedelta(seconds=n)`. -/
def timedeltaSeconds (n : ℤ) : Timedelta :=
  n * 1000000

/-- `delta.total_seconds()`. -/
def totalSeconds (d : Timedelta) : ℚ :=
  (d : ℚ) / 1000000

/-- `uuid5(NAMESPACE_URL, name)`, as the parts of the name. -/
structure Uuid (α : Type) where
  name : α
  deriving DecidableEq, Repr

/-- `hashlib.sha256(material).hexdigest()`, as the material. -/
structure Digest (α : Type) where
  material : α
  deriving DecidableEq, Repr

/-- The exceptions of the program.  An `IntegrityError` names the unique key that a row violates, a
`LookupError` says what was not found, without its id, and a `ValidationError` lists every field that
was refused, with the message; what a model validator raises stands under no field. -/
inductive PyError where
  | typeError (operation : String)
  | attributeError (name : String)
  | keyError (key : String)
  | lookupError (message : String)
  | valueError (message : String)
  | runtimeError (message : String)
  | timeoutError (message : String)
  | integrityError (key : String)
  | invalidCampaignTransition (message : String)
  | zeroDivisionError
  | overflowError (message : String)
  | validationError (errors : List (String × String))
  deriving DecidableEq, Repr

/-- The error of a model validator that raised a `ValueError`. -/
def PyError.ofValidator (message : String) : PyError :=
  .validationError [("", s!"Value error, {message}")]

/-! ## Rounding -/

/-- `round(value)`: a half is rounded to the even neighbour. -/
def roundHalfEven (value : ℚ) : ℤ :=
  let below := ⌊value⌋
  if value - below < 1 / 2 then below
  else if 1 / 2 < value - below then below + 1
  else if below % 2 = 0 then below else below + 1

/-- `round(value, digits)`. -/
def roundTo (digits : ℕ) (value : ℚ) : ℚ :=
  roundHalfEven (value * 10 ^ digits) / 10 ^ digits

/-! ## Strings -/

/-- `c.isspace()`. -/
def isSpace (c : Char) : Bool :=
  let n := c.toNat
  (9 ≤ n && n ≤ 13) || (28 ≤ n && n ≤ 32) || n = 133 || n = 160 || n = 5760 ||
    (8192 ≤ n && n ≤ 8202) || n = 8232 || n = 8233 || n = 8239 || n = 8287 || n = 12288

/-- `not value.strip()`. -/
def isBlank (value : String) : Bool :=
  value.toList.all isSpace

/-! ## JSON -/

/-- The values JSON can carry.  The fields of an object stand in key order. -/
inductive Json where
  | null
  | bool (b : Bool)
  | int (n : ℤ)
  | float (q : ℚ)
  | str (s : String)
  | list (items : List Json)
  | obj (fields : List (String × Json))

namespace Json

/-- `bool(value)`. -/
def truthy : Json → Bool
  | null => false
  | bool b => b
  | int n => n ≠ 0
  | float q => q ≠ 0
  | str s => s ≠ ""
  | list items => !items.isEmpty
  | obj fields => !fields.isEmpty

/-- `len(value)`. -/
def len : Json → Except PyError ℕ
  | str s => .ok s.length
  | list items => .ok items.length
  | obj fields => .ok fields.length
  | _ => .error (.typeError "len")

/-- The items of `for item in value`: the characters of a string, the items of a list, the keys of
a dictionary. -/
def iter : Json → Except PyError (List Json)
  | str s => .ok (s.toList.map fun c => str (String.singleton c))
  | list items => .ok items
  | obj fields => .ok (fields.map fun field => str field.1)
  | _ => .error (.typeError "iter")

/-- The string a value is, if it is one: `isinstance(value, str)`. -/
def asStr? : Json → Option String
  | str s => some s
  | _ => none

end Json

/-- A dictionary with string keys, as its items in key order. -/
structure JsonObject where
  fields : List (String × Json)
  sorted : fields.Pairwise fun a b => a.1 < b.1

namespace JsonObject

theorem ext {a b : JsonObject} (h : a.fields = b.fields) : a = b := by
  cases a
  cases b
  congr

/-- The dictionary without items. -/
def empty : JsonObject :=
  ⟨[], List.Pairwise.nil⟩

/-- Write an item into a list of items in key order. -/
def insertField (key : String) (value : Json) : List (String × Json) → List (String × Json)
  | [] => [(key, value)]
  | field :: fields =>
    if key < field.1 then (key, value) :: field :: fields
    else if field.1 < key then field :: insertField key value fields
    else (key, value) :: fields

theorem mem_insertField {key : String} {value : Json} {fields : List (String × Json)}
    {field : String × Json} (h : field ∈ insertField key value fields) :
    field = (key, value) ∨ field ∈ fields := by
  induction fields with
  | nil => exact Or.inl (by simpa [insertField] using h)
  | cons head fields ih =>
    rw [insertField] at h
    split_ifs at h with h1 h2
    · exact (List.mem_cons.mp h).imp_right id
    · rcases List.mem_cons.mp h with rfl | h
      · exact Or.inr List.mem_cons_self
      · exact (ih h).imp_right (List.mem_cons_of_mem head)
    · exact (List.mem_cons.mp h).imp_right (List.mem_cons_of_mem head)

theorem sorted_insertField (key : String) (value : Json) {fields : List (String × Json)}
    (h : fields.Pairwise fun a b => a.1 < b.1) :
    (insertField key value fields).Pairwise fun a b => a.1 < b.1 := by
  induction fields with
  | nil => exact List.pairwise_singleton _ _
  | cons head fields ih =>
    obtain ⟨hhead, htail⟩ := List.pairwise_cons.mp h
    rw [insertField]
    split_ifs with h1 h2
    · refine List.pairwise_cons.mpr ⟨fun field hfield => ?_, h⟩
      rcases List.mem_cons.mp hfield with rfl | hfield
      · exact h1
      · exact lt_trans h1 (hhead field hfield)
    · refine List.pairwise_cons.mpr ⟨fun field hfield => ?_, ih htail⟩
      rcases mem_insertField hfield with rfl | hfield
      · exact h2
      · exact hhead field hfield
    · have hkey : key = head.1 := le_antisymm (not_lt.mp h2) (not_lt.mp h1)
      refine List.pairwise_cons.mpr ⟨fun field hfield => ?_, htail⟩
      rw [hkey]
      exact hhead field hfield

/-- The dictionary with the given items; the keys of a JSON object are distinct. -/
def ofFields (fields : List (String × Json)) : JsonObject :=
  fields.foldr (fun field object =>
    ⟨insertField field.1 field.2 object.fields,
      sorted_insertField field.1 field.2 object.sorted⟩) empty

/-- `values.get(key)`. -/
def get? (object : JsonObject) (key : String) : Option Json :=
  (object.fields.find? fun field => field.1 = key).map Prod.snd

/-- `values.get(key, default)`. -/
def getD (object : JsonObject) (key : String) (default : Json) : Json :=
  (object.get? key).getD default

theorem fields_ofFields {fields : List (String × Json)}
    (h : fields.Pairwise fun a b => a.1 < b.1) : (ofFields fields).fields = fields := by
  induction fields with
  | nil => rfl
  | cons field fields ih =>
    obtain ⟨hhead, htail⟩ := List.pairwise_cons.mp h
    show insertField field.1 field.2 (ofFields fields).fields = field :: fields
    rw [ih htail]
    cases fields with
    | nil => rfl
    | cons next fields => rw [insertField, if_pos (hhead next List.mem_cons_self)]

/-- A dictionary is rebuilt from its items. -/
theorem ofFields_fields (object : JsonObject) : ofFields object.fields = object :=
  ext (fields_ofFields object.sorted)

end JsonObject

end Scam2Market
