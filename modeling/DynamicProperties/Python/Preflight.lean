import Mathlib.Data.Finset.Union
import DynamicProperties.Python.Validation

/-!
# The limit simulation of the Python service

`_validate_property_limits`: capture every collection the operations name, then
replay the operations over two dictionaries, of key sets and of existence flags.
The source reads the dictionaries with `keys[ref]`; every reference it asks for is
one of those captured, so the defaults of `keysOf` and `existsOf` are never used.
-/

namespace DynamicProperties.Python

open DynamicProperties.Library.OrderedMap

/-- `keys` and `exists`. -/
structure Shadow where
  keys : Finmap (fun _ : CollectionRef => Finset Str) := ∅
  exists_ : Finmap (fun _ : CollectionRef => Bool) := ∅

namespace Shadow

/-- `keys[ref]`. -/
def keysOf (shadow : Shadow) (ref : CollectionRef) : Finset Str :=
  (shadow.keys.lookup ref).getD ∅

/-- `exists[ref]`. -/
def existsOf (shadow : Shadow) (ref : CollectionRef) : Bool :=
  (shadow.exists_.lookup ref).getD false

def setKeys (shadow : Shadow) (ref : CollectionRef) (keys : Finset Str) : Shadow :=
  { shadow with keys := shadow.keys.insert ref keys }

def setExists (shadow : Shadow) (ref : CollectionRef) (value : Bool) : Shadow :=
  { shadow with exists_ := shadow.exists_.insert ref value }

/-- Keys arriving at a destination: `none` when the policy forbids it. -/
def arrive (shadow : Shadow) (policy : ImportPolicy) (ref : CollectionRef)
    (arriving : Finset Str) : Option Shadow :=
  if policy = .failIfDestinationExists ∧ shadow.existsOf ref then none
  else
    let destinationKeys :=
      if policy = .merge ∧ shadow.existsOf ref then shadow.keysOf ref ∪ arriving else arriving
    some ((shadow.setKeys ref destinationKeys).setExists ref true)

/-- Forget a collection that was moved away. -/
def vacate (shadow : Shadow) (ref : CollectionRef) : Shadow :=
  (shadow.setKeys ref ∅).setExists ref false

/-- The branches of the second loop: `none` at `stop_for_failed_precondition`. -/
def step (shadow : Shadow) : Operation → Option Shadow
  | .setProperty entry =>
      some ((shadow.setKeys entry.ref (insert entry.key (shadow.keysOf entry.ref))).setExists
        entry.ref true)
  | .setMany entry =>
      some ((shadow.setKeys entry.ref
        (shadow.keysOf entry.ref ∪ (entry.values.items.map Prod.fst).toFinset)).setExists
          entry.ref true)
  | .removeProperty entry =>
      if entry.requireExisting ∧ entry.key ∉ shadow.keysOf entry.ref then none
      else some (shadow.setKeys entry.ref ((shadow.keysOf entry.ref).erase entry.key))
  | .removeMany entry =>
      if entry.requireAllExisting ∧ ¬ entry.keys.toFinset ⊆ shadow.keysOf entry.ref then none
      else some (shadow.setKeys entry.ref (shadow.keysOf entry.ref \ entry.keys.toFinset))
  | .clearCollection entry =>
      some ((shadow.setKeys entry.ref ∅).setExists entry.ref (!entry.removeCollection))
  | .renameCollection entry =>
      if !shadow.existsOf entry.sourceRef then none
      else
        (shadow.arrive entry.destinationPolicy entry.destinationRef
          (shadow.keysOf entry.sourceRef)).map (·.vacate entry.sourceRef)
  | .transferProperty entry =>
      if entry.sourceKey ∉ shadow.keysOf entry.source then none
      else if entry.destinationKey ∈ shadow.keysOf entry.destination ∧ !entry.overwrite then none
      else
        let shadow := (shadow.setKeys entry.destination
          (insert entry.destinationKey (shadow.keysOf entry.destination))).setExists
            entry.destination true
        if entry.removeSource then
          some (shadow.setKeys entry.source ((shadow.keysOf entry.source).erase entry.sourceKey))
        else some shadow
  | .transferCollection entry =>
      if !shadow.existsOf entry.source then none
      else
        (shadow.arrive entry.destinationPolicy entry.destination
          (shadow.keysOf entry.source)).map fun shadow =>
            if entry.removeSource then shadow.vacate entry.source else shadow
  | .importCollection entry =>
      shadow.arrive entry.policy entry.destination
        (entry.properties.items.map Prod.fst).toFinset

/-- `any(len(collection_keys) > limit for collection_keys in keys.values())`. -/
def exceeds (shadow : Shadow) (limit : Int) : Bool :=
  shadow.keys.any fun _ keys => limit < keys.card

/-- The second loop: stop quietly at the first operation that cannot apply, and
report the first state that exceeds the limit. -/
def overflows (limit : Int) : List Operation → Shadow → Bool
  | [], _ => false
  | operation :: rest, shadow =>
      match shadow.step operation with
      | none => false
      | some shadow => if shadow.exceeds limit then true else overflows limit rest shadow

/-- What the first loop records of one captured collection. -/
def record (shadow : Shadow) (ref : CollectionRef) (snapshot : CollectionSnapshot) : Shadow :=
  (shadow.setKeys ref (keySet snapshot.properties)).setExists ref snapshot.exists_

end Shadow

/-- The collections named by any operation of a list, each once. -/
def namedRefs (operations : List Operation) : List CollectionRef :=
  (operations.flatMap operationRefs).eraseDups

/-- The error of a transaction that would leave a collection over the limit. -/
def propertyCountError : OperationResult :=
  { status := .invalidValue, message := str "resulting collection exceeds property-count limit" }

section Over

variable {m : Type → Type} [Monad m] (capture : CollectionRef → m CaptureResult)

/-- The first loop, over a way to capture. -/
def captureShadowOver : List CollectionRef → Shadow → m (Except OperationResult Shadow)
  | [], shadow => pure (.ok shadow)
  | ref :: rest, shadow => do
      let captured ← capture ref
      match captured.snapshot with
      | some snapshot => captureShadowOver rest (shadow.record ref snapshot)
      | none =>
          pure (.error
            { status := if captured.status ≠ .captured then captured.status else .adapterError
              message := if captured.message.isEmpty then
                str "adapter capture failed during commit validation" else captured.message })

/-- `_validate_property_limits`, over a way to capture: outside the commit each
capture is a step of its own. -/
def validatePropertyLimitsOver (limits : ValidationLimits) (operations : List Operation) :
    m (Option OperationResult) := do
  match ← captureShadowOver capture (namedRefs operations) {} with
  | .error error => pure (some error)
  | .ok shadow =>
      if shadow.overflows limits.maxPropertiesPerCollection operations then
        pure (some propertyCountError)
      else pure none

end Over

section Limits

variable (digest : Canonical → UInt64) (adapter : InMemoryAdapter)

/-- The first loop, under the adapter's guard. -/
def captureShadow (refs : List CollectionRef) (shadow : Shadow) :
    Except PyError (Except OperationResult Shadow) :=
  captureShadowOver (adapter.capture digest) refs shadow

/-- `_validate_property_limits`, under the adapter's guard. -/
def validatePropertyLimits (limits : ValidationLimits) (operations : List Operation) :
    Except PyError (Option OperationResult) :=
  validatePropertyLimitsOver (adapter.capture digest) limits operations

end Limits

end DynamicProperties.Python
