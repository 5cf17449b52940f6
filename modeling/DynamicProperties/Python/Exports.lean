import DynamicProperties.Library.JsonWriter
import DynamicProperties.Library.Mirror
import DynamicProperties.Python.StoredLimits
import DynamicProperties.Python.Undisturbed

/-!
# Exports of the Python service

`export_collection` and what `json.dumps` writes for it: keys sorted, no white space, and
every character beyond ASCII escaped.  How a float is spelled, and what an object of
another type is written as, is a parameter.

What it writes is laid open by `exportDocument_writes`, value by value: `Writes` says how a
stored value appears in a document.
-/

namespace DynamicProperties.Python

open Std
open DynamicProperties.Library
open DynamicProperties.Library.Fallible
open DynamicProperties.Library.Collections
open DynamicProperties.Library.Requests
open DynamicProperties.Library.Raising
open DynamicProperties.Library.Mirror

/-! ## `json.dumps` -/

/-- What the code takes from the module `json`. -/
structure Encoder where
  /-- `float.__repr__`, for a finite number. -/
  floatRepr : Cpp.Double → List UInt8
  /-- What an object of another type is written as, by its type and its `__float__`. -/
  foreign : Str → Option Cpp.Double → Tree

/-- The text of a type name. -/
def ValueType.text : ValueType → Str
  | .bool => str "bool"
  | .number => str "number"
  | .string => str "string"
  | .vector3 => str "vector3"

/-- A `str` as it is written: `ensure_ascii` is on. -/
def asciiUnits (text : Str) : List (Json.StringUnit CodePoint) :=
  Json.escapedAll asciiPoint (text.map Fin.val)

/-- A dictionary as it is written. -/
def dictTree (items : List (Str × Tree)) : Tree :=
  .object (items.map fun item => (asciiUnits item.1, item.2))

/-- One object as it is, and several as a list. -/
def listTree : List Tree → Tree
  | [tree] => tree
  | trees => .array trees

/-- The dictionary of one property as it is written. -/
def typedTree (type : ValueType) (value : Tree) : Tree :=
  dictTree [(str "type", .string (asciiUnits type.text)), (str "value", value)]

namespace Encoder

variable (encoder : Encoder)

def floatLiteral (value : Cpp.Double) : List UInt8 :=
  if value.isFinite then encoder.floatRepr value
  else if value = infinity then infinityLiteral
  else if value = negativeInfinity then 0x2D :: infinityLiteral
  else nanLiteral

/-- How an object is written. -/
def objectTree : PyObject → Except PyError Tree
  | .none => .ok .null
  | .bool value => .ok (.bool value)
  | .int value => do
      let _ ← intText value
      return .number (Cpp.text (toString value))
  | .float value => .ok (.number (encoder.floatLiteral value))
  | .str text => .ok (.string (asciiUnits text))
  | .vector3 _ _ _ => .error (.typeError (str "Object of type Vector3 is not JSON serializable"))
  | .other typeName asFloat serializable =>
      if serializable then .ok (encoder.foreign typeName asFloat)
      else
        .error (.typeError (str "Object of type " ++ typeName ++ str " is not JSON serializable"))

/-- How one property is written, under its key. -/
def entryTree (entry : Str × EncodedValue) : Except PyError (Str × Tree) := do
  let trees ← entry.2.value.mapM encoder.objectTree
  return (entry.1, typedTree entry.2.type (listTree trees))

/-- The dictionary of an export, its keys sorted. -/
def exportTree (ref : CollectionRef) (target : Str) (revision : Tree)
    (properties : List (Str × Tree)) : Tree :=
  dictTree [(str "collection", .string (asciiUnits ref.collection)),
    (str "properties", dictTree properties), (str "revision", revision),
    (str "schema", .number (Cpp.text "1")), (str "target", .string (asciiUnits target))]

/-- The document of an export. -/
def exportDocument (interp : Interpreter) (ref : CollectionRef) (snapshot : CollectionSnapshot) :
    Except PyError Str := do
  let target ← describeTarget ref.target
  let encoded ← snapshot.properties.toList.mapM encodedEntry
  let properties ← encoded.mapM encoder.entryTree
  let revision ← encoder.objectTree (.int snapshot.revision)
  return (exportTree ref target revision properties).compact interp.dialect

end Encoder

/-! ## `export_collection` -/

structure ExportResult where
  status : Status
  message : Str
  document : Str := []
  revision : Int := 0
  deriving DecidableEq

namespace DynamicPropertyService

variable (service : DynamicPropertyService)

/-- `export_collection`. -/
def exportCollection (interp : Interpreter) (encoder : Encoder) (ref : CollectionRef)
    (context : AccessContext) : RaisingCall ExportResult :=
  if !service.capabilities.exportImport then
    pure { status := .unsupported, message := str "adapter does not support export" }
  else do
    let captured ← service.capture ref context
    match captured.ok, captured.snapshot with
    | true, some snapshot =>
        let document ← outcome (encoder.exportDocument interp ref snapshot)
        pure { status := .captured, message := str "exported", document
               revision := snapshot.revision }
    | _, _ => pure { status := captured.status, message := captured.message }

end DynamicPropertyService

/-! ## What is written -/

/-- How a value of a property appears in a document. -/
inductive Encoder.Writes (encoder : Encoder) : PyObject → Tree → Prop
  | bool (value : Bool) : encoder.Writes (.bool value) (typedTree .bool (.bool value))
  | float (value : Cpp.Double) :
      encoder.Writes (.float value) (typedTree .number (.number (encoder.floatLiteral value)))
  | str (text : Str) :
      encoder.Writes (.str text) (typedTree .string (.string (asciiUnits text)))
  | vector3 {x y z : PyObject} {xTree yTree zTree : Tree} (hx : encoder.objectTree x = .ok xTree)
      (hy : encoder.objectTree y = .ok yTree) (hz : encoder.objectTree z = .ok zTree) :
      encoder.Writes (.vector3 x y z) (typedTree .vector3 (.array [xTree, yTree, zTree]))

section Written

variable {encoder : Encoder} {interp : Interpreter}

theorem entryTree_writes {entry : Str × PyObject} {encoded : Str × EncodedValue}
    {written : Str × Tree} (hencoded : encodedEntry entry = .ok encoded)
    (hwritten : encoder.entryTree encoded = .ok written) :
    EntriesRelated Eq encoder.Writes entry written := by
  obtain ⟨key, value⟩ := entry
  obtain ⟨content, hcontent, h⟩ := bind_eq_ok.mp hencoded
  obtain rfl := Except.ok.inj h
  obtain ⟨trees, htrees, h⟩ := bind_eq_ok.mp hwritten
  obtain rfl := Except.ok.inj h
  refine ⟨rfl, ?_⟩
  cases value with
  | none | int value | other typeName asFloat serializable => cases hcontent
  | bool value =>
      obtain rfl := Except.ok.inj hcontent
      obtain rfl := Except.ok.inj htrees
      exact .bool value
  | float value =>
      obtain rfl := Except.ok.inj hcontent
      obtain rfl := Except.ok.inj htrees
      exact .float value
  | str text =>
      obtain rfl := Except.ok.inj hcontent
      obtain rfl := Except.ok.inj htrees
      exact .str text
  | vector3 x y z =>
      obtain rfl := Except.ok.inj hcontent
      obtain ⟨xTree, others, hx, hothers, rfl⟩ :=
        List.forall₂_cons_left_iff.mp (forall₂_of_mapM htrees)
      obtain ⟨yTree, last, hy, hlast, rfl⟩ := List.forall₂_cons_left_iff.mp hothers
      obtain ⟨zTree, none, hz, hnone, rfl⟩ := List.forall₂_cons_left_iff.mp hlast
      obtain rfl := List.forall₂_nil_left_iff.mp hnone
      exact .vector3 hx hy hz

/-- **What a document of an export says.** -/
theorem exportDocument_writes {ref : CollectionRef} {snapshot : CollectionSnapshot}
    {document : Str} (h : encoder.exportDocument interp ref snapshot = .ok document) :
    ∃ target properties revision, describeTarget ref.target = .ok target ∧
      List.Forall₂ (EntriesRelated Eq encoder.Writes) snapshot.properties.toList properties ∧
      encoder.objectTree (.int snapshot.revision) = .ok revision ∧
      document = (Encoder.exportTree ref target revision properties).compact interp.dialect := by
  obtain ⟨target, htarget, h⟩ := bind_eq_ok.mp h
  obtain ⟨encoded, hencoded, h⟩ := bind_eq_ok.mp h
  obtain ⟨properties, hproperties, h⟩ := bind_eq_ok.mp h
  obtain ⟨revision, hrevision, h⟩ := bind_eq_ok.mp h
  have hwritten : ∀ {entries : List (Str × PyObject)} {encoded written},
      List.Forall₂ (fun entry result => encodedEntry entry = .ok result) entries encoded →
      List.Forall₂ (fun entry result => encoder.entryTree entry = .ok result) encoded written →
      List.Forall₂ (EntriesRelated Eq encoder.Writes) entries written := by
    intro entries encoded written hfirst hsecond
    induction hfirst generalizing written with
    | nil =>
        obtain rfl := List.forall₂_nil_left_iff.mp hsecond
        exact .nil
    | cons hentry _ ih =>
        obtain ⟨item, rest, hitem, hrest, rfl⟩ := List.forall₂_cons_left_iff.mp hsecond
        exact .cons (entryTree_writes hentry hitem) (ih hrest)
  exact ⟨target, properties, revision, htarget,
    hwritten (forall₂_of_mapM hencoded) (forall₂_of_mapM hproperties), hrevision,
    (Except.ok.inj h).symm⟩

end Written

/-! ## The call -/

section Call

variable {digest : Canonical → UInt64} {interp : Interpreter} {encoder : Encoder}
  {service : DynamicPropertyService} {context : AccessContext} {ref : CollectionRef}
  {world world' : World} {exported : ExportResult}

/-- What `_validate_ref` rejects with is no captured status. -/
theorem status_of_validateRef {error : OperationResult}
    (h : (service.validateRef context ref).report = .ok (some error)) :
    error.status ≠ .captured := by
  unfold DynamicPropertyService.validateRef at h
  cases htarget : validateTarget ref.target with
  | some invalid =>
      rw [htarget] at h
      obtain rfl := Option.some.inj (Except.ok.inj h)
      nofun
  | none =>
      rw [htarget] at h
      by_cases hcapable : service.targetCapable ref.target.kind = true
      · cases hname : validateCollection ref.collection service.limits with
        | some invalid =>
            rw [require, if_pos hcapable, hname] at h
            obtain rfl := Option.some.inj (Except.ok.inj h)
            nofun
        | none =>
            rw [require, if_pos hcapable, hname] at h
            by_cases haccess : service.accessPolicy.canAccess context ref = true
            · rw [require, if_pos haccess] at h
              cases h
            · rw [require, if_neg haccess] at h
              obtain rfl := Option.some.inj (Except.ok.inj h)
              nofun
      · rw [require, if_neg hcapable] at h
        obtain rfl := Option.some.inj (Except.ok.inj h)
        nofun

/-- A call of `capture` that captures is the capture of the adapter, under a legal
reference. -/
theorem returns_serviceCapture {captured : CaptureResult}
    (h : TwoRuns.Returns (I := serviceInterface) (Acts digest)
      (service.capture ref context).run world (.ok captured) world')
    (hok : captured.ok = true) :
    LegalReference service.limits ref ∧ world.adapter.capture digest ref = .ok captured := by
  unfold DynamicPropertyService.capture at h
  rcases TwoRuns.returns_then h with ⟨raised, -, hraised⟩ | ⟨verdict, between, hvalidate, hrest⟩
  · cases hraised
  obtain ⟨hverdict, rfl⟩ := TwoRuns.returns_done hvalidate
  cases verdict with
  | some error =>
      obtain ⟨hcaptured, -⟩ := TwoRuns.returns_done hrest
      obtain rfl := Except.ok.inj hcaptured
      exact absurd (of_decide_eq_true hok) (status_of_validateRef hverdict.symm)
  | none =>
      refine ⟨legalReference_of_validateRef (report_none.mp hverdict.symm), ?_⟩
      dsimp only at hrest
      split at hrest
      · obtain ⟨hcaptured, -⟩ := TwoRuns.returns_done hrest
        obtain rfl := Except.ok.inj hcaptured
        cases hok
      · exact (returns_capture hrest).1.symm

/-- The revision of a snapshot is what the hash says. -/
theorem revision_of_captured {availability : Availability} {store : Store}
    {captured : CaptureResult} {snapshot : CollectionSnapshot}
    (h : captureIn digest availability store ref = .ok captured)
    (hsnapshot : captured.snapshot = some snapshot) :
    ∃ revision : UInt64, snapshot.revision = (revision.toNat : Int) := by
  rw [captureIn_available digest (available_of_snapshot h hsnapshot)] at h
  obtain ⟨taken, htaken, h⟩ := bind_eq_ok.mp h
  obtain rfl := Except.ok.inj h
  obtain rfl := Option.some.inj hsnapshot
  simp only [snapshotOf, bind_eq_ok] at htaken
  obtain ⟨byteCount, -, target, -, encoded, -, u, -, htaken⟩ := htaken
  obtain rfl := Except.ok.inj htaken
  exact ⟨_, rfl⟩

/-- A capture that succeeds has taken a snapshot. -/
theorem snapshot_of_ok {availability : Availability} {store : Store} {captured : CaptureResult}
    (h : captureIn digest availability store ref = .ok captured) (hok : captured.ok = true) :
    ∃ snapshot, captured.snapshot = some snapshot := by
  cases havailable : targetAvailable availability ref.target with
  | false =>
      rw [captureIn, havailable] at h
      obtain rfl := Except.ok.inj h
      cases hok
  | true =>
      rw [captureIn_available digest havailable] at h
      obtain ⟨snapshot, -, h⟩ := bind_eq_ok.mp h
      obtain rfl := Except.ok.inj h
      exact ⟨snapshot, rfl⟩

/-- A captured export is the document of a snapshot of the collection, which can be read,
under a legal reference. -/
theorem returns_exportCollection
    (h : TwoRuns.Returns (I := serviceInterface) (Acts digest)
      (service.exportCollection interp encoder ref context).run world (.ok exported) world')
    (hcaptured : exported.status = .captured) :
    LegalReference service.limits ref ∧ Readable (contents world.adapter.store) ref ∧ ∃ snapshot,
      snapshot.properties = (contents world.adapter.store ref).getD ∅ ∧
      (∃ revision : UInt64, snapshot.revision = (revision.toNat : Int)) ∧
      encoder.exportDocument interp ref snapshot = .ok exported.document := by
  unfold DynamicPropertyService.exportCollection at h
  split at h
  · obtain ⟨hexported, -⟩ := TwoRuns.returns_done h
    obtain rfl := Except.ok.inj hexported
    cases hcaptured
  rcases TwoRuns.returns_then h with ⟨raised, -, hraised⟩ | ⟨captured, between, hcapture, hrest⟩
  · cases hraised
  split at hrest
  next snapshot hok hsnapshot =>
    obtain ⟨hlegal, htaken⟩ := returns_serviceCapture hcapture hok
    rcases TwoRuns.returns_then hrest with ⟨raised, -, hraised⟩ | ⟨document, middle, hwrite, hdone⟩
    · cases hraised
    obtain ⟨hdocument, -⟩ := TwoRuns.returns_done hwrite
    obtain ⟨hexported, -⟩ := TwoRuns.returns_done hdone
    obtain rfl := Except.ok.inj hexported
    obtain ⟨hread, hproperties, -⟩ := snapshot_of_captured htaken hsnapshot
    exact ⟨hlegal, hread, snapshot, hproperties, revision_of_captured htaken hsnapshot,
      hdocument.symm⟩
  next hnot =>
    obtain ⟨hexported, -⟩ := TwoRuns.returns_done hrest
    obtain rfl := Except.ok.inj hexported
    have hok : captured.ok = true := decide_eq_true hcaptured
    obtain ⟨-, htaken⟩ := returns_serviceCapture hcapture hok
    obtain ⟨snapshot, hsnapshot⟩ := snapshot_of_ok htaken hok
    exact absurd hsnapshot (hnot snapshot hok)

end Call

end DynamicProperties.Python
