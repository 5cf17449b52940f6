import DynamicProperties.Library.Json
import DynamicProperties.Cpp.Codec
import DynamicProperties.Python.Adapter

/-!
# Import documents in Python

`json.loads` as `import_collection` calls it, and `_decoded_value`.

The module `json` is given by what it documents: a document is read where it spells
a tree of the grammar in which no object repeats a name, and its value is the value
of that tree.  Beyond RFC 8259 it takes `NaN`, `Infinity` and `-Infinity` for
numbers, and an escaped surrogate need not belong to a pair.  What the interpreter
adds (how it converts numbers and words its errors) is a parameter.
-/

namespace DynamicProperties.Python

open DynamicProperties.Library

/-! ## What `json.loads` returns -/

/-- An object `json.loads` builds; a dictionary keeps the order of the document. -/
inductive PyJson where
  | none
  | bool (value : Bool)
  | int (value : Int)
  | float (value : Cpp.Double)
  | str (value : Str)
  | list (elements : List PyJson)
  | dict (items : List (Str × PyJson))

/-- What the code takes from the interpreter it runs in. -/
structure Interpreter where
  /-- `sys.get_int_max_str_digits()`, or no limit. -/
  maxIntDigits : Option Nat := some 4300
  /-- `float(text)`, for a literal with a fraction or an exponent. -/
  float : List UInt8 → Cpp.Double
  /-- `float(value)`, for an integer in range. -/
  ofInt : Int → Cpp.Double
  /-- `repr`. -/
  repr : PyJson → Str
  /-- `str(exc)`. -/
  describe : PyError → Str
  /-- What the error about a document that cannot be read says. -/
  complaint : Str → Str

abbrev Tree := Json.Tree CodePoint

abbrev Member := List (Json.StringUnit CodePoint) × Tree

/-! ## Numbers -/

/-- How a `str` spells an ASCII character. -/
def asciiPoint (c : UInt8) : CodePoint := Fin.ofNat 0x110000 c.toNat

def nanLiteral : List UInt8 := [0x4E, 0x61, 0x4E]

def infinityLiteral : List UInt8 := [0x49, 0x6E, 0x66, 0x69, 0x6E, 0x69, 0x74, 0x79]

/-- `float('nan')`, `float('inf')` and `float('-inf')`. -/
def nan : Cpp.Double := ⟨0x7FF8000000000000⟩

def infinity : Cpp.Double := ⟨0x7FF0000000000000⟩

def negativeInfinity : Cpp.Double := ⟨0xFFF0000000000000⟩

/-- The literal has neither a fraction nor an exponent. -/
def isInteger (digits : List UInt8) : Bool :=
  digits.all fun c => c = 0x2D || Cpp.isDigit c

/-- `int(text)`, for the literal of an integer. -/
def intOfLiteral (digits : List UInt8) : Int :=
  let value : Nat := (digits.filter Cpp.isDigit).foldl (fun n c => 10 * n + (c.toNat - 0x30)) 0
  if digits.head? = some 0x2D then -value else value

/-- `int(text)` returns: it refuses to read more digits than the limit. -/
def Interpreter.ReadsInt (interp : Interpreter) (digits : List UInt8) : Prop :=
  ∀ limit ∈ interp.maxIntDigits, (digits.filter Cpp.isDigit).length ≤ limit

/-- The JSON of the Python module, over code points. -/
def Interpreter.dialect (interp : Interpreter) : Json.Dialect CodePoint where
  ascii := asciiPoint
  number digits :=
    (Json.NumberLiteral digits ∧ (isInteger digits = true → interp.ReadsInt digits)) ∨
      digits ∈ [nanLiteral, infinityLiteral, 0x2D :: infinityLiteral]

namespace Interpreter

variable (interp : Interpreter)

def readNumber (digits : List UInt8) : PyJson :=
  if digits = nanLiteral then .float nan
  else if digits = infinityLiteral then .float infinity
  else if digits = 0x2D :: infinityLiteral then .float negativeInfinity
  else if isInteger digits then .int (intOfLiteral digits)
  else .float (interp.float digits)

/-! ## Values -/

/-- The `str` a literal denotes; a lone surrogate stands for itself. -/
def readString (units : List (Json.StringUnit CodePoint)) : Str :=
  Json.decodeUnits (fun code => [Fin.ofNat 0x110000 code]) units

mutual

/-- The object a tree is read as; `_object_without_duplicates` refuses an object that
repeats a name. -/
def read : Tree → Option PyJson
  | .null => some .none
  | .bool value => some (.bool value)
  | .number digits => some (interp.readNumber digits)
  | .string units => some (.str (readString units))
  | .array elements => (readElements elements).map .list
  | .object members =>
      (readMembers members).bind fun items =>
        if (items.map Prod.fst).Nodup then some (.dict items) else none

def readElements : List Tree → Option (List PyJson)
  | [] => some []
  | tree :: rest => (read tree).bind fun value => (readElements rest).map (value :: ·)

def readMembers : List Member → Option (List (Str × PyJson))
  | [] => some []
  | (key, tree) :: rest =>
      (read tree).bind fun value => (readMembers rest).map ((readString key, value) :: ·)

end

/-- The document is read as this value. -/
def Reads (document : Str) (value : PyJson) : Prop :=
  ∃ tree, Json.IsText interp.dialect tree document ∧ interp.read tree = some value

open Classical in
/-- `json.loads`. -/
noncomputable def loads (document : Str) : Except PyError PyJson :=
  if h : ∃ value, interp.Reads document value then .ok h.choose
  else .error (.valueError (interp.complaint document))

/-! ## `_decoded_value` -/

/-- `float(value)` of a number. -/
def toFloat : PyJson → Except PyError Cpp.Double
  | .float value => .ok value
  | .int value =>
      if 2 ^ 1024 - 2 ^ 970 ≤ value.natAbs then
        .error (.overflowError (str "int too large to convert to float"))
      else .ok (interp.ofInt value)
  | _ => .error (.typeError (str "float() argument must be a string or a real number"))

/-- `isinstance(value, (int, float)) and not isinstance(value, bool)`. -/
def isNumber : PyJson → Bool
  | .int _ | .float _ => true
  | _ => false

/-- `set(data) == {"type", "value"}`, with the two values. -/
def typeAndValue (items : List (Str × PyJson)) : Option (PyJson × PyJson) :=
  if items.all fun item => item.1 = str "type" || item.1 = str "value" then
    match items.lookup (str "type"), items.lookup (str "value") with
    | some type, some value => some (type, value)
    | _, _ => none
  else none

/-- `raise ValueError(f"invalid {type_name!r} property value")`. -/
def invalidValue (type : PyJson) : Except PyError PyObject :=
  .error (.valueError (str "invalid " ++ interp.repr type ++ str " property value"))

def decodedNumber (type value : PyJson) : Except PyError PyObject := do
  if isNumber value then
    let number ← interp.toFloat value
    if number.isFinite then return .float number
    else .error (.valueError (str "number must be finite"))
  else interp.invalidValue type

def decodedVector (type value : PyJson) : Except PyError PyObject := do
  match value with
  | .list [x, y, z] =>
      if [x, y, z].all isNumber then
        let x ← interp.toFloat x
        let y ← interp.toFloat y
        let z ← interp.toFloat z
        if x.isFinite && y.isFinite && z.isFinite then
          return .vector3 (.float x) (.float y) (.float z)
        else .error (.valueError (str "vector coordinates must be finite"))
      else .error (.valueError (str "vector coordinates must be numbers"))
  | _ => interp.invalidValue type

/-- The branches of `_decoded_value`. -/
def decodedTyped (type value : PyJson) : Except PyError PyObject :=
  match type, value with
  | .str name, value =>
      if name = str "bool" then
        match value with
        | .bool value => .ok (.bool value)
        | _ => interp.invalidValue type
      else if name = str "number" then interp.decodedNumber type value
      else if name = str "string" then
        match value with
        | .str value => .ok (.str value)
        | _ => interp.invalidValue type
      else if name = str "vector3" then interp.decodedVector type value
      else interp.invalidValue type
  | type, _ => interp.invalidValue type

/-- `_decoded_value`. -/
def decodedValue (data : PyJson) : Except PyError PyObject :=
  match data with
  | .dict items =>
      match typeAndValue items with
      | some (type, value) => interp.decodedTyped type value
      | none => .error (.valueError (str "property entry must contain only type and value"))
  | _ => .error (.valueError (str "property entry must contain only type and value"))

end Interpreter

/-! ## Documents -/

/-- `mapping[key] = value`: an old key keeps its place. -/
def PropertyMapping.set (mapping : PropertyMapping) (key : Str) (value : PyObject) :
    PropertyMapping :=
  if h : key ∈ mapping.items.map Prod.fst then
    ⟨mapping.items.map fun entry => if entry.1 = key then (entry.1, value) else entry, by
      have hkeys : (mapping.items.map fun entry => if entry.1 = key then (entry.1, value)
          else entry).map Prod.fst = mapping.items.map Prod.fst := by
        rw [List.map_map]
        apply List.map_congr_left
        intro entry _
        show (if entry.1 = key then (entry.1, value) else entry).1 = entry.1
        split <;> rfl
      rw [hkeys]
      exact mapping.distinct⟩
  else
    ⟨mapping.items ++ [(key, value)], by
      rw [List.map_append, List.nodup_append]
      refine ⟨mapping.distinct, List.nodup_singleton key, fun k hk k' hk' heq => h ?_⟩
      have hkey : k' = key := List.mem_singleton.mp hk'
      rw [← hkey, ← heq]
      exact hk⟩

/-- `value == 1`: so is `True`. -/
def equalsOne : PyJson → Bool
  | .bool value => value
  | .int value => value = 1
  | .float value => value = Cpp.doubleOne
  | _ => false

/-- `allowed_fields`. -/
def allowedFields : List Str :=
  [str "schema", str "target", str "collection", str "revision", str "properties"]

namespace Interpreter

variable (interp : Interpreter)

/-- The items of `properties`, in a document that uses schema 1. -/
def documentItems (root : PyJson) : Except PyError (List (Str × PyJson)) :=
  match root with
  | .dict fields =>
      match fields.lookup (str "schema"), fields.lookup (str "properties") with
      | some schema, some (.dict items) =>
          if equalsOne schema && fields.all fun field => allowedFields.contains field.1 then
            .ok items
          else
            .error (.valueError (str "document must use schema 1 with a properties object"))
      | _, _ => .error (.valueError (str "document must use schema 1 with a properties object"))
  | _ => .error (.valueError (str "document must use schema 1 with a properties object"))

/-- `{key: _decoded_value(value) for key, value in …}`. -/
def decodedProperties : List (Str × PyJson) → PropertyMapping → Except PyError PropertyMapping
  | [], mapping => .ok mapping
  | (key, data) :: rest, mapping => do
      let value ← interp.decodedValue data
      decodedProperties rest (mapping.set key value)

/-- The `try` block of `import_collection`: `none` for a document that is too long. -/
noncomputable def decodeDocument (limits : ValidationLimits) (document : Str) :
    Except PyError (Option PropertyMapping) := do
  let encoded ← encodeUtf8 document
  if limits.maxImportBytes < encoded.length then return none
  else
    let root ← interp.loads document
    let items ← documentItems root
    let properties ← interp.decodedProperties items ⟨[], List.nodup_nil⟩
    return some properties

end Interpreter

end DynamicProperties.Python
