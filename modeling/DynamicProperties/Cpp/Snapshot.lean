import DynamicProperties.Cpp.Value

/-!
# Collection snapshots and revisions

`snapshot.h` and `snapshot.cpp`.  A revision is an FNV-1a fold over the target
text, the collection name, the existence word and, in key order, each key with
the eight bytes of its value hash.  `revisionInput` is the byte sequence that
fold consumes; `calculateRevision_eq_hashBytes` is the only place where the
interleaved `mixBytes` and `mixNumber` calls of the source are unfolded.
-/

namespace DynamicProperties.Cpp

open Std

structure CollectionSnapshot where
  ref : CollectionRef
  properties : DynamicPropertyMap := ∅
  byteCount : UInt64 := 0
  revision : UInt64 := 0
  exists_ : Bool := false
  loaded : Bool := false
  persistent : Bool := false
  writable : Bool := false
  deriving DecidableEq

structure CaptureResult where
  status : DynamicPropertyStatus := .adapterError
  message : ByteString := []
  snapshot : Option CollectionSnapshot := none
  deriving DecidableEq

def CaptureResult.ok (result : CaptureResult) : Bool :=
  result.status = .captured

structure ListCollectionsResult where
  status : DynamicPropertyStatus := .adapterError
  message : ByteString := []
  collections : List ByteString := []
  deriving DecidableEq

def ListCollectionsResult.ok (result : ListCollectionsResult) : Bool :=
  result.status = .captured

def mixBytes (hash : UInt64) (data : ByteString) : UInt64 :=
  data.foldl fnvRound hash

def mixNumber (hash value : UInt64) : UInt64 :=
  (littleEndian value).foldl fnvRound hash

def calculateRevision (snapshot : CollectionSnapshot) : UInt64 :=
  let hash := mixBytes FnvOffset (describeTarget snapshot.ref.target)
  let hash := mixBytes hash snapshot.ref.collection
  let hash := mixNumber hash (if snapshot.exists_ then 1 else 0)
  snapshot.properties.toList.foldl
    (fun hash entry => mixNumber (mixBytes hash entry.1) (hashValue entry.2)) hash

def makeSnapshot (ref : CollectionRef) (properties : DynamicPropertyMap)
    (exists_ : Bool := true) (loaded : Bool := true) (persistent : Bool := true)
    (writable : Bool := true) : CollectionSnapshot :=
  let out : CollectionSnapshot :=
    { ref, properties, exists_, loaded, persistent, writable
      byteCount := properties.toList.foldl
        (fun count entry => count + estimateStoredBytes entry.1 entry.2) 0 }
  { out with revision := calculateRevision out }

/-! ## The bytes a revision is folded from -/

/-- Key bytes, then the hash bytes of the value, property by property. -/
def propertyBytes (properties : DynamicPropertyMap) : ByteString :=
  properties.toList.flatMap fun entry => entry.1 ++ littleEndian (hashValue entry.2)

/-- Everything `calculateRevision` feeds into its fold, in order. -/
def revisionInput (ref : CollectionRef) (exists_ : Bool) (properties : DynamicPropertyMap) :
    ByteString :=
  describeTarget ref.target ++ ref.collection ++ littleEndian (if exists_ then 1 else 0)
    ++ propertyBytes properties

private theorem foldl_mix_eq (entries : List (ByteString × DynamicPropertyValue)) :
    ∀ hash : UInt64,
      entries.foldl (fun hash entry => mixNumber (mixBytes hash entry.1) (hashValue entry.2))
          hash =
        hashBytes hash (entries.flatMap fun entry =>
          entry.1 ++ littleEndian (hashValue entry.2)) := by
  induction entries with
  | nil => intro hash; rfl
  | cons entry rest ih =>
      intro hash
      rw [List.foldl_cons, ih, List.flatMap_cons]
      simp only [hashBytes, mixBytes, mixNumber, List.foldl_append]

/-- A revision is the FNV-1a hash of `revisionInput`. -/
theorem calculateRevision_eq_hashBytes (snapshot : CollectionSnapshot) :
    calculateRevision snapshot =
      hashBytes FnvOffset
        (revisionInput snapshot.ref snapshot.exists_ snapshot.properties) := by
  rw [calculateRevision, foldl_mix_eq]
  simp only [revisionInput, propertyBytes, hashBytes, mixBytes, mixNumber, List.foldl_append]

section MakeSnapshot

variable (ref : CollectionRef) (properties : DynamicPropertyMap)
  (exists_ loaded persistent writable : Bool)

@[simp] theorem makeSnapshot_ref :
    (makeSnapshot ref properties exists_ loaded persistent writable).ref = ref := rfl

@[simp] theorem makeSnapshot_properties :
    (makeSnapshot ref properties exists_ loaded persistent writable).properties = properties :=
  rfl

@[simp] theorem makeSnapshot_exists :
    (makeSnapshot ref properties exists_ loaded persistent writable).exists_ = exists_ := rfl

theorem makeSnapshot_revision :
    (makeSnapshot ref properties exists_ loaded persistent writable).revision =
      hashBytes FnvOffset (revisionInput ref exists_ properties) := by
  simp only [makeSnapshot, calculateRevision_eq_hashBytes]

end MakeSnapshot

end DynamicProperties.Cpp
