import RevPiModbus.Fault
import RevPiModbus.Lib.CString

/-!
# JSON values, and json-c

json-c is not part of the repository. Its values are an inductive type here, with JSON `null` for
the pointer `NULL`, as in json-c; strings and keys are the C strings that json-c hands out. The
access functions do what their documentation says; what depends on more than the value is
a parameter of the model.

* `Json`: values; an object has its entries in the order of json-c;
* `Json.objectGetEx`, `Json.objectForeach`, `Json.getArray`, `arrayListGetIdx`: access to parts;
* `Platform`: the text parser of json-c, its conversions, and the widths of two C types;
* `Platform.getString`, `Platform.strtoul`, `strtoumax`: conversions to strings and numbers.
-/

namespace RevPiModbus

/-- The values of json-c. A double is given by its bits. -/
inductive Json
  | null
  | boolean (b : Bool)
  | int (n : ℤ)
  | double (bits : UInt64)
  | string (s : List Char)
  | array (items : List Json)
  | object (entries : List (List Char × Json))

/-- Comparison with `NULL`. -/
def Json.isNull : Json → Bool
  | .null => true
  | _ => false

/-- `json_object_object_get_ex`: the value under a key, if there is one. -/
def Json.objectGetEx (json : Json) (key : List Char) : Option Json :=
  match json with
  | .object entries => entries.lookup key
  | _ => none

/-- The entries that `json_object_object_foreach` runs over. The macro takes the table out of what
it is given without looking at its type. -/
def Json.objectForeach : Json → Except Fault (List (List Char × Json))
  | .object entries => .ok entries
  | _ => .error .nullPointer

/-- `json_object_get_array`. -/
def Json.getArray : Json → Option (List Json)
  | .array items => some items
  | _ => none

/-- `array_list_get_idx`; there is `NULL` past the end. -/
def arrayListGetIdx (items : List Json) (i : ℕ) : Json :=
  items.getD i .null

/-- What the parser takes from outside the repository: `json_tokener_parse`, with `NULL` for a text
that is not JSON; `json_object_to_json_string`; `json_object_get_int`, with a flag for
`errno ≠ 0`; the bits of `unsigned long` and the value of `CHAR_MAX`. -/
structure Platform where
  jsonTokenerParse : List Char → Json
  jsonObjectToJsonString : Json → List Char
  jsonObjectGetInt : Json → ℤ × Bool
  ulongBits : ℕ
  charMax : ℕ
  le_ulongBits : 32 ≤ ulongBits

/-- `json_object_get_string`: of a value that is no string, its JSON text. -/
def Platform.getString (platform : Platform) : Json → Option (List Char)
  | .null => none
  | .string s => some s
  | json => some (platform.jsonObjectToJsonString json)

/-- `strtoul(s, NULL, 10)`. -/
def Platform.strtoul (platform : Platform) (s : List Char) : ℕ × Bool :=
  CString.strtounsigned platform.ulongBits s

/-- `strtoumax(s, NULL, 10)`. -/
def strtoumax (s : List Char) : ℕ × Bool :=
  CString.strtounsigned 64 s

/-- A pointer that is used. -/
def deref {α : Type} : Option α → Except Fault α
  | some a => .ok a
  | none => .error .nullPointer

@[simp] theorem deref_some {α : Type} (a : α) : deref (some a) = .ok a := rfl

theorem deref_eq_ok {α : Type} {o : Option α} {a : α} : deref o = .ok a ↔ o = some a := by
  cases o <;> simp [deref]

end RevPiModbus
