import DynamicProperties.Cpp.Calls
import DynamicProperties.Cpp.Sha256
import DynamicProperties.Cpp.VersionGate

/-!
# The gate of the native plugin

`native_binary_identity.cpp` from the path of the running program on, `native_manifest.cpp`,
`bds_26_30_adapter.cpp` and `plugin.cpp`: what the plugin is compiled with, what it finds out
about the server it is loaded into, and the service it registers or refuses to register.

The adapter that reaches into the server is not part of the repository.  A build either has a
function that makes one or has none; what that adapter can do is up to it.

* `currentExecutablePath_eq`: the growing buffer yields the whole path or an error.
* `complete_iff`: the report of the activation is complete exactly on an attested server.
* `plugin_registers_iff`: after any sequence of enabling and disabling, a service is
  registered exactly when it was registered on an attested server and not disabled since.
-/

namespace DynamicProperties.Cpp

open DynamicProperties.Library.Bits

/-! ## The running executable -/

/-- What `_WIN32` decides. -/
inductive Platform where
  | windows
  | linux
  deriving DecidableEq, Repr

namespace Platform

/-- Places of the buffer that a path leaves free, besides the last. -/
def slack : Platform → Nat
  | windows => 1
  | linux => 0

/-- The size of a buffer that is not doubled any more. -/
def limit : Platform → Nat
  | windows => 32768
  | linux => 1 <<< 20

def pathFailed : Platform → ByteString
  | windows => text "GetModuleFileNameW failed"
  | linux => text "readlink(/proc/self/exe) failed"

def pathTooLong : Platform → ByteString
  | windows => text "executable path exceeds Windows path limit"
  | linux => text "executable path is unexpectedly long"

end Platform

/-- What the process can ask of its system: the path of its executable, in the characters of
the platform, and the files. -/
structure Process (α : Type) where
  executable : Option (List α)
  fileSize : List α → Except ByteString UInt64
  open_ : List α → Option InputFile

section Executable

variable {α : Type} (platform : Platform)

/-- The loop of `currentExecutablePath`.  Both systems write as much of the path as fits, and
say how much that was. -/
def pathFrom (path : List α) (doublings : Nat) : Except ByteString (List α) :=
  let size := 1024 * 2 ^ doublings
  let length := min path.length size
  if length < size - platform.slack then .ok (path.take length)
  else if platform.limit < size then .error platform.pathTooLong
  else pathFrom path (doublings + 1)
termination_by platform.limit + 1 - 1024 * 2 ^ doublings
decreasing_by
  have hpos := Nat.two_pow_pos doublings
  rw [Nat.pow_succ]
  omega

def currentExecutablePath : Option (List α) → Except ByteString (List α)
  | none => .error platform.pathFailed
  | some path =>
      -- the length 0 is how Windows reports a failure
      if platform = .windows && path.isEmpty then .error platform.pathFailed
      else pathFrom platform path 0

structure RuntimeExecutableIdentity (α : Type) where
  path : List α := []
  sha256 : ByteString := []
  size : UInt64 := 0
  error : ByteString := []

def RuntimeExecutableIdentity.ok (identity : RuntimeExecutableIdentity α) : Bool :=
  identity.error.isEmpty && !identity.path.isEmpty && !identity.sha256.isEmpty &&
    identity.size ≠ 0

def inspectCurrentProcessExecutable (process : Process α) : RuntimeExecutableIdentity α :=
  match currentExecutablePath platform process.executable with
  | .error error => { error }
  | .ok path =>
      match process.fileSize path with
      -- `file_size` returns `static_cast<uintmax_t>(-1)` beside its error code
      | .error error => { path, size := UInt64.ofNat (2 ^ 64 - 1), error }
      | .ok size =>
          if size = 0 then { path, size, error := text "executable file size is zero" }
          else
            let (sha256, error) := sha256File (process.open_ path)
            { path, size, sha256, error := error.getD [] }

end Executable

/-! ## The generated header -/

/-- The constants of `native_manifest_data.h` that the functions below read. -/
structure GeneratedHeader where
  bdsPackageVersion : ByteString := text "1.26.33.1"
  runtimeBds : ByteString := text "26.33"
  endstoneVersion : ByteString := text "0.11.6"
  executableSha256 : ByteString := []
  executableSize : UInt64 := 0
  nativeManifestActivated : Bool := false
  exactBuildMatch : Bool := false
  exactBinaryHashMatch : Bool := false
  symbolsValidated : Bool := false
  storageContractsValidated : Bool := false
  externalHooksValidated : Bool := false
  stageProbePassed : Bool := false

/-- The header as it stands in source control. -/
def closedHeader : GeneratedHeader := {}

structure NativeGateStatus where
  manifestActivated : Bool := false
  exactBuildMatch : Bool := false
  exactBinaryHashMatch : Bool := false
  symbolsValidated : Bool := false
  storageContractsValidated : Bool := false
  externalHooksValidated : Bool := false
  stageProbePassed : Bool := false
  bdsPackageVersion : ByteString := []
  runtimeBds : ByteString := []
  endstoneVersion : ByteString := []

namespace NativeGateStatus

def complete (status : NativeGateStatus) : Bool :=
  status.manifestActivated && status.exactBuildMatch && status.exactBinaryHashMatch &&
    status.symbolsValidated && status.storageContractsValidated &&
    status.externalHooksValidated && status.stageProbePassed

def failureReason (status : NativeGateStatus) : ByteString :=
  if !status.manifestActivated then text "native manifest is not activated"
  else if !status.exactBuildMatch then text "runtime BDS/Endstone build does not match"
  else if !status.exactBinaryHashMatch then text "BDS executable identity was not verified"
  else if !status.symbolsValidated then text "required symbols are not fully verified"
  else if !status.storageContractsValidated then
    text "offline-player and stored-entity contracts are not verified"
  else if !status.externalHooksValidated then
    text "external mutation hooks are not verified"
  else if !status.stageProbePassed then text "complete-control stage probe has not passed"
  else []

end NativeGateStatus

def compiledNativeGateStatus (header : GeneratedHeader) : NativeGateStatus where
  manifestActivated := header.nativeManifestActivated
  exactBuildMatch := header.exactBuildMatch
  exactBinaryHashMatch := header.exactBinaryHashMatch
  symbolsValidated := header.symbolsValidated
  storageContractsValidated := header.storageContractsValidated
  externalHooksValidated := header.externalHooksValidated
  stageProbePassed := header.stageProbePassed
  bdsPackageVersion := header.bdsPackageVersion
  runtimeBds := header.runtimeBds
  endstoneVersion := header.endstoneVersion

def nativeServiceCanRegister (header : GeneratedHeader) : Bool :=
  (compiledNativeGateStatus header).complete

/-- A gate is complete when it has no reason to fail. -/
theorem complete_iff_failureReason (status : NativeGateStatus) :
    status.complete = true ↔ status.failureReason = [] := by
  unfold NativeGateStatus.complete NativeGateStatus.failureReason
  repeat' split
  all_goals simp_all
  all_goals decide

/-! ## The report of the activation -/

/-- What `endstone::Server` says of itself. -/
structure Server where
  minecraftVersion : ByteString
  version : ByteString

/-- What the plugin finds when it is enabled. -/
structure Environment (α : Type) where
  locale : Locale
  server : Server
  process : Process α

structure NativeActivationReport where
  runtimeVersionMatch : Bool := false
  endstoneVersionMatch : Bool := false
  executableHashMatch : Bool := false
  manifestActivated : Bool := false
  symbolsValidated : Bool := false
  storageContractsValidated : Bool := false
  externalHooksValidated : Bool := false
  stageProbePassed : Bool := false
  verifiedBridgeCompiled : Bool := false
  failures : List ByteString := []

def NativeActivationReport.complete (report : NativeActivationReport) : Bool :=
  report.runtimeVersionMatch && report.endstoneVersionMatch && report.executableHashMatch &&
    report.manifestActivated && report.symbolsValidated && report.storageContractsValidated &&
    report.externalHooksValidated && report.stageProbePassed && report.verifiedBridgeCompiled &&
    report.failures.isEmpty

def canonicalBdsBuild (build : ByteString) : ByteString :=
  let build := if (text "1.").isPrefixOf build then build.drop 2 else build
  if build = text "26.33.1" then text "26.33" else build

/-- `if (!passed) report.failures.emplace_back(message);` -/
def failUnless (passed : Bool) (message : String) : List ByteString :=
  if passed then [] else [text message]

/-- The block of the activation that looks at the executable: does it match, and what is there
to report? -/
def inspectExecutable {α : Type} (platform : Platform) (header : GeneratedHeader)
    (process : Process α) : Bool × List ByteString :=
  if !header.executableSha256.isEmpty && header.executableSize ≠ 0 then
    let identity := inspectCurrentProcessExecutable platform process
    (identity.ok && identity.size = header.executableSize &&
        identity.sha256 = header.executableSha256,
      if identity.ok then []
      else [text "runtime executable identity failed: " ++ identity.error])
  else (false, [])

/-- `inspectBds2633DynamicPropertyActivation`, in a build with or without the bridge. -/
def inspectBds2633DynamicPropertyActivation {α : Type} (platform : Platform)
    (header : GeneratedHeader) (bridge : Bool) (environment : Environment α) :
    NativeActivationReport :=
  let server := environment.server
  let runtimeVersionMatch := canonicalBdsBuild server.minecraftVersion = header.runtimeBds
  let endstoneVersionMatch := expectedEndstoneVersion environment.locale server.version
  let (executableHashMatch, failures) := inspectExecutable platform header environment.process
  { runtimeVersionMatch, endstoneVersionMatch, executableHashMatch
    manifestActivated := header.nativeManifestActivated
    symbolsValidated := header.symbolsValidated
    storageContractsValidated := header.storageContractsValidated
    externalHooksValidated := header.externalHooksValidated
    stageProbePassed := header.stageProbePassed
    verifiedBridgeCompiled := bridge
    failures := failures ++
      failUnless runtimeVersionMatch "BDS runtime version mismatch" ++
      failUnless endstoneVersionMatch "Endstone runtime version mismatch" ++
      failUnless header.nativeManifestActivated "platform manifest is not activated" ++
      failUnless executableHashMatch "executable SHA-256 mismatch or not activated" ++
      failUnless header.symbolsValidated "native symbols are not behavior-verified" ++
      failUnless header.storageContractsValidated
        "offline/stored target contracts are incomplete" ++
      failUnless header.externalHooksValidated "external mutation hooks are incomplete" ++
      failUnless header.stageProbePassed "complete-control stage probe has not passed" ++
      failUnless bridge "verified native bridge is not compiled" }

/-- A list of failures behind a message. -/
def withFailures (message : ByteString) (failures : List ByteString) : ByteString :=
  if failures.isEmpty then message
  else message ++ text ": " ++ (failures.intersperse (text ", ")).flatten

/-! ## The adapters -/

/-- All capability flags of an adapter: those the service asks for, and the others. -/
structure AdapterCapabilities extends DynamicPropertyCapabilities where
  listIds : Bool := false
  byteCount : Bool := false
  collectionMigration : Bool := false
  rollback : Bool := false
  audit : Bool := false
  watches : Bool := false
  exactBuildMatch : Bool := false
  exactBinaryHashMatch : Bool := false
  symbolsValidated : Bool := false
  stageProbePassed : Bool := false

def AdapterCapabilities.completeControl (caps : AdapterCapabilities) : Bool :=
  caps.world && caps.onlinePlayers && caps.offlinePlayers && caps.loadedEntities &&
    caps.storedEntities && caps.playerInventoryItems && caps.playerArmorItems &&
    caps.playerOffhandItems && caps.playerEnderChestItems && caps.blockContainerItems &&
    caps.droppedItems && caps.blockEntities && caps.blockDynamicProperties && caps.read &&
    caps.write && caps.remove && caps.clear && caps.listIds && caps.listCollections &&
    caps.byteCount && caps.bulkSet && caps.collectionRename && caps.propertyCopyMove &&
    caps.collectionCopyMove && caps.collectionMigration && caps.exportImport &&
    caps.atomicTransactions && caps.rollback && caps.audit && caps.watches &&
    caps.externalChangeObservation && caps.externalChangeCancellation &&
    caps.persistenceFlush && caps.exactBuildMatch && caps.exactBinaryHashMatch &&
    caps.symbolsValidated && caps.stageProbePassed

structure GuardedBds2633DynamicPropertyAdapter where
  report : NativeActivationReport

namespace GuardedBds2633DynamicPropertyAdapter

variable (adapter : GuardedBds2633DynamicPropertyAdapter)

def name : ByteString :=
  if !adapter.report.runtimeVersionMatch || !adapter.report.endstoneVersionMatch then
    text "bds-1.26.33.1-dynamic-properties-runtime-mismatch"
  else if !adapter.report.executableHashMatch then
    text "bds-1.26.33.1-dynamic-properties-binary-identity-gate"
  else text "bds-1.26.33.1-dynamic-properties-complete-control-gate-closed"

def capabilities : AdapterCapabilities where
  exactBuildMatch := adapter.report.runtimeVersionMatch && adapter.report.endstoneVersionMatch
  exactBinaryHashMatch := adapter.report.executableHashMatch
  symbolsValidated := adapter.report.symbolsValidated
  stageProbePassed := adapter.report.stageProbePassed

def closedResult : OperationResult :=
  if !adapter.report.runtimeVersionMatch || !adapter.report.endstoneVersionMatch then
    failure .runtimeMismatch (text ("Dynamic Properties API requires BDS package " ++
      "1.26.33.1/runtime 26.33 with Endstone 0.11.6"))
  else if !adapter.report.executableHashMatch then
    failure .binaryIdentityMismatch
      (text "the running BDS executable does not match the activated platform manifest")
  else
    failure .symbolValidationFailed (withFailures (text ("complete dynamic-property control " ++
      "is disabled until live, offline, stored, block and external-hook validation all pass"))
      adapter.report.failures)

def capture (_ref : CollectionRef) : CaptureResult :=
  { status := adapter.closedResult.status, message := adapter.closedResult.message }

def listCollections (_target : DynamicPropertyTarget) : ListCollectionsResult :=
  { status := adapter.closedResult.status, message := adapter.closedResult.message }

def apply (_operation : DynamicPropertyOperation) (_force : Bool) : OperationResult :=
  adapter.closedResult

def transact (_transaction : DynamicPropertyTransaction) : TransactionResult :=
  { status := adapter.closedResult.status, message := adapter.closedResult.message
    operationResults := [adapter.closedResult] }

def flush (_target : DynamicPropertyTarget) : OperationResult := adapter.closedResult

end GuardedBds2633DynamicPropertyAdapter

/-- What the plugin knows of the adapter that the bridge makes. -/
structure VerifiedAdapter where
  name : ByteString
  capabilities : AdapterCapabilities

inductive NativeAdapter where
  | guarded (adapter : GuardedBds2633DynamicPropertyAdapter)
  | verified (adapter : VerifiedAdapter)

def NativeAdapter.name : NativeAdapter → ByteString
  | guarded adapter => adapter.name
  | verified adapter => adapter.name

def NativeAdapter.capabilities : NativeAdapter → AdapterCapabilities
  | guarded adapter => adapter.capabilities
  | verified adapter => adapter.capabilities

/-- `DynamicPropertyService::capabilities`, of a service with an event bus and an audit sink. -/
def serviceCapabilities (adapter : NativeAdapter) : AdapterCapabilities :=
  { adapter.capabilities with audit := true, watches := true }

/-! ## The plugin -/

/-- What the plugin was compiled with: `verifiedBridge` is
`makeVerifiedBds2633DynamicPropertyAdapter`, where there is one; it may return a null pointer. -/
structure Build where
  platform : Platform
  header : GeneratedHeader := closedHeader
  /-- `ENDSTONE_DYNAMIC_PROPERTIES_NATIVE_2630` -/
  nativeBoundary : Bool := true
  verifiedBridge : Option (Server → Option VerifiedAdapter) := none
  /-- `ENDSTONE_DYNAMIC_PROPERTIES_VERSION` -/
  version : ByteString := text "0.1.0-alpha.1"

inductive LogEntry where
  | error (message : ByteString)
  | info (message : ByteString)

/-- The plugin, the services the server has of it, and what it has logged. -/
structure Plugin where
  adapter : Option NativeAdapter := none
  service : Option NativeAdapter := none
  provider : Option NativeAdapter := none
  registered : List NativeAdapter := []
  log : List LogEntry := []

namespace Build

variable {α : Type} (build : Build)

def inspect (environment : Environment α) : NativeActivationReport :=
  inspectBds2633DynamicPropertyActivation build.platform build.header
    build.verifiedBridge.isSome environment

def makeBds2633DynamicPropertyAdapter (environment : Environment α) : Option NativeAdapter :=
  let report := build.inspect environment
  match build.verifiedBridge with
  | some makeVerified =>
      if report.complete then (makeVerified environment.server).map .verified
      else some (.guarded ⟨report⟩)
  | none => some (.guarded ⟨report⟩)

/-- `DynamicPropertyServiceName` -/
def serviceName : ByteString := text "endstone:dynamic-properties:v1"

/-- `onEnable`.  When the plugin refuses, it looks at the server again for its message. -/
def onEnable (first later : Environment α) (plugin : Plugin) : Plugin :=
  if !build.nativeBoundary then
    { plugin with
      log := plugin.log ++
        [.error (text "Dynamic Properties API package contains no BDS 26.30 native boundary")] }
  else
    match build.makeBds2633DynamicPropertyAdapter first with
    | none =>
        { plugin with
          adapter := none
          log := plugin.log ++
            [.error (text "Dynamic Properties API could not create its guarded native adapter")] }
    | some adapter =>
        if !(serviceCapabilities adapter).completeControl then
          { plugin with
            adapter := none
            service := none
            log := plugin.log ++ [.error (withFailures
              (text "Dynamic Properties API refused to register " ++ serviceName ++
                text " because the complete live + stored control contract is not verified")
              (build.inspect later).failures)] }
        else
          { adapter := some adapter
            service := some adapter
            provider := some adapter
            registered := plugin.registered ++ [adapter]
            log := plugin.log ++ [.info (text "Dynamic Properties API " ++ build.version ++
              text " registered complete service " ++ serviceName ++ text " using " ++
              adapter.name)] }

end Build

/-- `onDisable` -/
def onDisable (plugin : Plugin) : Plugin :=
  { plugin with adapter := none, service := none, provider := none, registered := [] }

/-- What the server does to the plugin. -/
inductive PluginEvent (α : Type) where
  | enable (first later : Environment α)
  | disable

def Build.step {α : Type} (build : Build) (plugin : Plugin) : PluginEvent α → Plugin
  | .enable first later => build.onEnable first later plugin
  | .disable => onDisable plugin

/-- The plugin after some events, in their order. -/
def Build.run {α : Type} (build : Build) (events : List (PluginEvent α)) : Plugin :=
  events.foldl build.step {}

/-! ## The identity of the executable -/

section Identity

variable {α : Type} {platform : Platform} {process : Process α}

/-- How often the buffer is doubled at most. -/
def Platform.doublings : Platform → Nat
  | windows => 6
  | linux => 11

/-- Every path shorter than this fits into the last buffer. -/
def Platform.capacity (platform : Platform) : Nat := 1024 * 2 ^ platform.doublings - platform.slack

/-- The buffers before the last are doubled, and the last is not. -/
theorem limit_lt_iff {k : Nat} (h : k ≤ platform.doublings) :
    platform.limit < 1024 * 2 ^ k ↔ k = platform.doublings := by
  have hlast : platform.limit < 1024 * 2 ^ platform.doublings := by cases platform <;> decide
  have hbefore : 1024 * 2 ^ (platform.doublings - 1) ≤ platform.limit := by
    cases platform <;> decide
  constructor
  · intro hlimit
    by_contra hne
    have hpow : 2 ^ k ≤ 2 ^ (platform.doublings - 1) := Nat.pow_le_pow_right (by decide) (by omega)
    omega
  · rintro rfl
    exact hlast

theorem slack_le (platform : Platform) : platform.slack ≤ 1 := by cases platform <;> decide

/-- **The growing buffer** holds the whole path in the end, or there is an error. -/
theorem pathFrom_eq (path : List α) {k : Nat} (h : k ≤ platform.doublings) :
    pathFrom platform path k =
      if path.length < platform.capacity then .ok path else .error platform.pathTooLong := by
  have hslack := slack_le platform
  fun_induction pathFrom platform path k with
  | case1 k size length hfits =>
      -- the buffer was not filled, so the path is all that was written
      have hpow : 2 ^ k ≤ 2 ^ platform.doublings := Nat.pow_le_pow_right (by decide) h
      have hall : length = path.length := by omega
      have hcapacity : path.length < platform.capacity := by
        unfold Platform.capacity
        omega
      rw [hall, List.take_length, if_pos hcapacity]
  | case2 k size length hfull hlimit =>
      obtain rfl := (limit_lt_iff h).mp hlimit
      have hcapacity : ¬ path.length < platform.capacity := by
        unfold Platform.capacity
        omega
      rw [if_neg hcapacity]
  | case3 k size length hfull hlimit ih =>
      have hne : k ≠ platform.doublings := fun hk => hlimit ((limit_lt_iff h).mpr hk)
      exact ih (by omega)

theorem currentExecutablePath_eq (path : List α) (h : path ≠ []) :
    currentExecutablePath platform (some path) =
      if path.length < platform.capacity then .ok path else .error platform.pathTooLong := by
  have hempty : path.isEmpty = false := by rwa [List.isEmpty_eq_false_iff]
  rw [currentExecutablePath, hempty, Bool.and_false, if_neg Bool.false_ne_true,
    pathFrom_eq path (Nat.zero_le _)]

/-- What the class finds at the path of the executable. -/
theorem currentExecutablePath_eq_ok {executable : Option (List α)} {path : List α}
    (h : path ≠ []) :
    currentExecutablePath platform executable = .ok path ↔
      executable = some path ∧ path.length < platform.capacity := by
  constructor
  · intro hpath
    cases executable with
    | none => cases hpath
    | some written =>
        have hwritten : written ≠ [] := by
          rintro rfl
          cases platform with
          | windows => cases hpath
          | linux =>
              have hnil : currentExecutablePath .linux (some ([] : List α)) = .ok [] := by
                rw [currentExecutablePath, pathFrom_eq _ (Nat.zero_le _)]
                rfl
              rw [hnil] at hpath
              exact h (Except.ok.inj hpath).symm
        rw [currentExecutablePath_eq written hwritten] at hpath
        split at hpath
        next hfits =>
          obtain rfl := Except.ok.inj hpath
          exact ⟨rfl, hfits⟩
        next => cases hpath
  · rintro ⟨rfl, hfits⟩
    rw [currentExecutablePath_eq path h, if_pos hfits]

/-- The digest of the standard, as the class writes it. -/
def standardHex (bytes : List UInt8) : ByteString :=
  text (String.ofList (hexDigits (standardDigest bytes)))

theorem sha256File_standard {bytes : List UInt8} (h : bytes.length < 2 ^ 61) :
    sha256File (some ⟨bytes, .eof⟩) = (standardHex bytes, none) := by
  rw [sha256File_eof, sha256Bytes, toHex_eq, Sha256.finish_update bytes h, standardHex,
    standardDigest]

theorem standardHex_ne_nil (bytes : List UInt8) : standardHex bytes ≠ [] := by
  intro h
  rw [standardHex, text_eq_encode, String.toList_ofList] at h
  have hlength : (hexDigits (standardDigest bytes)).length = 64 := by
    rw [hexDigits_length, standardDigest, Library.Sha256.sha256, Library.Sha256.hashBits_length]
  rw [Library.Utf8.encode_injective (h.trans Library.Utf8.encode_nil.symm)] at hlength
  cases hlength

/-- The running executable can be found and read to its end, and has the digest and the
size. -/
def IsExecutable (platform : Platform) (process : Process α) (sha256 : ByteString)
    (size : UInt64) : Prop :=
  ∃ path bytes, path ≠ [] ∧ path.length < platform.capacity ∧ process.executable = some path ∧
    process.fileSize path = .ok size ∧ size ≠ 0 ∧ process.open_ path = some ⟨bytes, .eof⟩ ∧
    standardHex bytes = sha256

/-- Files are shorter than 2⁶¹ bytes, what SHA-256 is defined for. -/
def Process.Hashable (process : Process α) : Prop :=
  ∀ path file, process.open_ path = some file → file.bytes.length < 2 ^ 61

/-- **The identity of the running executable.** -/
theorem inspectCurrentProcessExecutable_iff (hhashable : process.Hashable) {sha256 : ByteString}
    {size : UInt64} :
    ((inspectCurrentProcessExecutable platform process).ok = true ∧
        (inspectCurrentProcessExecutable platform process).size = size ∧
        (inspectCurrentProcessExecutable platform process).sha256 = sha256) ↔
      IsExecutable platform process sha256 size := by
  constructor
  · rintro ⟨hok, rfl, rfl⟩
    unfold inspectCurrentProcessExecutable at hok ⊢
    cases hpath : currentExecutablePath platform process.executable with
    | error error =>
        rw [hpath] at hok
        simp [RuntimeExecutableIdentity.ok] at hok
    | ok path =>
        rw [hpath] at hok
        dsimp only at hok ⊢
        cases hsize : process.fileSize path with
        | error error =>
            rw [hsize] at hok
            simp [RuntimeExecutableIdentity.ok] at hok
        | ok size =>
            rw [hsize] at hok
            dsimp only at hok ⊢
            by_cases hzero : size = 0
            · rw [if_pos hzero] at hok
              simp [RuntimeExecutableIdentity.ok, hzero] at hok
            rw [if_neg hzero] at hok ⊢
            cases hopened : process.open_ path with
            | none =>
                rw [hopened] at hok
                simp [RuntimeExecutableIdentity.ok, sha256File] at hok
            | some file =>
                obtain ⟨bytes, ending⟩ := file
                rw [hopened] at hok
                cases ending with
                | failure => simp [RuntimeExecutableIdentity.ok, sha256File] at hok
                | eof =>
                    have hfile := sha256File_standard (hhashable path _ hopened)
                    simp only [hfile, RuntimeExecutableIdentity.ok, Bool.and_eq_true,
                      Bool.not_eq_true', List.isEmpty_eq_false_iff] at hok ⊢
                    have hfound := (currentExecutablePath_eq_ok hok.1.1.2).mp hpath
                    exact ⟨path, bytes, hok.1.1.2, hfound.2, hfound.1, hsize, hzero, hopened, rfl⟩
  · rintro ⟨path, bytes, hne, hfits, hexecutable, hsize, hzero, hopened, rfl⟩
    have hpath := (currentExecutablePath_eq_ok hne).mpr ⟨hexecutable, hfits⟩
    have hidentity : inspectCurrentProcessExecutable platform process =
        { path, size, sha256 := standardHex bytes } := by
      rw [inspectCurrentProcessExecutable, hpath]
      dsimp only
      rw [hsize]
      dsimp only
      rw [if_neg hzero, hopened, sha256File_standard (hhashable path _ hopened)]
      rfl
    rw [hidentity]
    refine ⟨?_, rfl, rfl⟩
    simp [RuntimeExecutableIdentity.ok, hne, standardHex_ne_nil, hzero]

end Identity

/-! ## When the report is complete -/

/-- The flags of the header that the activation asks for. -/
structure GeneratedHeader.Opened (header : GeneratedHeader) : Prop where
  manifest : header.nativeManifestActivated = true
  symbols : header.symbolsValidated = true
  storage : header.storageContractsValidated = true
  hooks : header.externalHooksValidated = true
  probes : header.stageProbePassed = true

/-- The server is the one the header was written for. -/
structure Attested {α : Type} (platform : Platform) (header : GeneratedHeader)
    (environment : Environment α) : Prop where
  bds : canonicalBdsBuild environment.server.minecraftVersion = header.runtimeBds
  endstone : environment.server.version ∈ versions
  executable : IsExecutable platform environment.process header.executableSha256
    header.executableSize

/-- The server tells its version in ASCII, and its files can be hashed. -/
structure Environment.Plain {α : Type} (environment : Environment α) : Prop where
  ascii : Ascii environment.server.version
  hashable : environment.process.Hashable

section Report

variable {α : Type} {platform : Platform} {header : GeneratedHeader} {environment : Environment α}

theorem expectedEndstoneVersion_of_ascii {locale : Locale} {runtime : ByteString}
    (h : Ascii runtime) : expectedEndstoneVersion locale runtime = true ↔ runtime ∈ versions :=
  (accepts_iff (ascii_withoutV h)).trans mem_versions_iff_withoutV.symm

theorem inspectExecutable_iff {process : Process α} (h : process.Hashable) :
    (inspectExecutable platform header process).1 = true ↔
      IsExecutable platform process header.executableSha256 header.executableSize := by
  unfold inspectExecutable
  split
  · rw [← inspectCurrentProcessExecutable_iff h]
    simp only [Bool.and_eq_true, decide_eq_true_eq, and_assoc]
  · next hclosed =>
    refine iff_of_false Bool.false_ne_true ?_
    rintro ⟨path, bytes, -, -, -, -, hsize, -, hsha256⟩
    refine hclosed ?_
    rw [Bool.and_eq_true, Bool.not_eq_true', List.isEmpty_eq_false_iff, decide_eq_true_eq,
      ← hsha256]
    exact ⟨standardHex_ne_nil bytes, hsize⟩

/-- An executable that matches leaves nothing to report. -/
theorem inspectExecutable_failures {process : Process α}
    (h : (inspectExecutable platform header process).1 = true) :
    (inspectExecutable platform header process).2 = [] := by
  unfold inspectExecutable at h ⊢
  split
  · next hopen =>
    rw [if_pos hopen] at h
    simp only [Bool.and_eq_true] at h
    exact if_pos h.1.1
  · rfl

theorem failUnless_true (message : String) : failUnless true message = [] := rfl

/-- **A complete report**: an attested server, an opened header and a build with the bridge. -/
theorem complete_iff (h : environment.Plain) {bridge : Bool} :
    (inspectBds2633DynamicPropertyActivation platform header bridge environment).complete = true ↔
      bridge = true ∧ header.Opened ∧ Attested platform header environment := by
  have hendstone : expectedEndstoneVersion environment.locale environment.server.version = true ↔ _ :=
    expectedEndstoneVersion_of_ascii h.ascii
  have hexecutable : (inspectExecutable platform header environment.process).1 = true ↔ _ :=
    inspectExecutable_iff h.hashable
  constructor
  · intro hcomplete
    simp only [NativeActivationReport.complete, inspectBds2633DynamicPropertyActivation,
      Bool.and_eq_true, decide_eq_true_eq] at hcomplete
    obtain ⟨⟨⟨⟨⟨⟨⟨⟨⟨hbds, hversion⟩, hhash⟩, hmanifest⟩, hsymbols⟩, hstorage⟩, hhooks⟩, hprobes⟩,
      hbridge⟩, -⟩ := hcomplete
    exact ⟨hbridge, ⟨hmanifest, hsymbols, hstorage, hhooks, hprobes⟩,
      ⟨hbds, hendstone.mp hversion, hexecutable.mp hhash⟩⟩
  · rintro ⟨rfl, hopened, hattested⟩
    have hversion := hendstone.mpr hattested.endstone
    have hhash := hexecutable.mpr hattested.executable
    have hfailures := inspectExecutable_failures hhash
    simp only [NativeActivationReport.complete, inspectBds2633DynamicPropertyActivation, hversion,
      hhash, hfailures, hattested.bds, hopened.manifest, hopened.symbols, hopened.storage,
      hopened.hooks, hopened.probes, failUnless_true, decide_true, List.append_nil,
      List.isEmpty_nil, Bool.and_self]

/-- The guarded adapter controls nothing. -/
theorem guarded_completeControl (adapter : GuardedBds2633DynamicPropertyAdapter) :
    (serviceCapabilities (.guarded adapter)).completeControl = false := by
  simp only [serviceCapabilities, NativeAdapter.capabilities,
    GuardedBds2633DynamicPropertyAdapter.capabilities, AdapterCapabilities.completeControl,
    Bool.false_and]

end Report

/-! ## Runs of the plugin -/

section Plugin

variable {α : Type} {build : Build} {events : List (PluginEvent α)}

/-- The plugin was enabled in the environment, and not disabled since. -/
def Standing (events : List (PluginEvent α)) (environment : Environment α) : Prop :=
  ∃ earlier later rest, events = earlier ++ .enable environment later :: rest ∧ .disable ∉ rest

theorem standing_enable {first later environment : Environment α} :
    Standing (events ++ [.enable first later]) environment ↔
      Standing events environment ∨ environment = first := by
  constructor
  · rintro ⟨earlier, other, rest, hevents, hrest⟩
    rcases List.eq_nil_or_concat rest with rfl | ⟨start, last, rfl⟩
    · obtain ⟨-, hlast⟩ := List.append_inj' hevents rfl
      exact .inr (PluginEvent.enable.inj (List.cons.inj hlast).1).1.symm
    · rw [List.concat_eq_append, ← List.cons_append, ← List.append_assoc] at hevents
      obtain ⟨hstart, -⟩ := List.append_inj' hevents rfl
      rw [List.concat_eq_append, List.mem_append, not_or] at hrest
      exact .inl ⟨earlier, other, start, hstart, hrest.1⟩
  · rintro (⟨earlier, other, rest, rfl, hrest⟩ | rfl)
    · refine ⟨earlier, other, rest ++ [.enable first later], ?_, ?_⟩
      · rw [List.append_assoc, List.cons_append]
      · rw [List.mem_append, List.mem_singleton]
        exact fun h => h.elim hrest nofun
    · exact ⟨events, later, [], rfl, List.not_mem_nil⟩

theorem not_standing_disable {environment : Environment α} :
    ¬ Standing (events ++ [.disable]) environment := by
  rintro ⟨earlier, other, rest, hevents, hrest⟩
  rcases List.eq_nil_or_concat rest with rfl | ⟨start, last, rfl⟩
  · obtain ⟨-, hlast⟩ := List.append_inj' hevents rfl
    cases (List.cons.inj hlast).1
  · rw [List.concat_eq_append, ← List.cons_append, ← List.append_assoc] at hevents
    obtain ⟨-, hlast⟩ := List.append_inj' hevents rfl
    rw [List.concat_eq_append, List.mem_append, not_or] at hrest
    exact hrest.2 (hlast ▸ List.mem_singleton_self _)

/-- Enabling the plugin in the environment registers a service of the adapter. -/
def Build.Registers (build : Build) (environment : Environment α) (adapter : NativeAdapter) :
    Prop :=
  build.nativeBoundary = true ∧
    build.makeBds2633DynamicPropertyAdapter environment = some adapter ∧
    (serviceCapabilities adapter).completeControl = true

/-- One call of `onEnable`. -/
theorem onEnable_registered (first later : Environment α) (plugin : Plugin)
    (adapter : NativeAdapter) :
    adapter ∈ (build.onEnable first later plugin).registered ↔
      adapter ∈ plugin.registered ∨ build.Registers first adapter := by
  unfold Build.onEnable Build.Registers
  cases build.nativeBoundary with
  | false => simp
  | true =>
      cases build.makeBds2633DynamicPropertyAdapter first with
      | none => simp
      | some made =>
          dsimp only
          rw [Bool.not_true, if_neg Bool.false_ne_true]
          cases hcontrol : (serviceCapabilities made).completeControl with
          | false =>
              rw [Bool.not_false, if_pos rfl]
              refine (or_iff_left ?_).symm
              rintro ⟨-, hmade, hcontrol'⟩
              rw [← Option.some.inj hmade, hcontrol] at hcontrol'
              cases hcontrol'
          | true =>
              rw [Bool.not_true, if_neg Bool.false_ne_true, List.mem_append, List.mem_singleton]
              refine or_congr_right ⟨?_, fun h => (Option.some.inj h.2.1).symm⟩
              rintro rfl
              exact ⟨rfl, rfl, hcontrol⟩

/-- The services of any run. -/
theorem run_registered (events : List (PluginEvent α)) (adapter : NativeAdapter) :
    adapter ∈ (build.run events).registered ↔
      ∃ environment, Standing events environment ∧ build.Registers environment adapter := by
  induction events using List.reverseRecOn with
  | nil =>
      refine iff_of_false List.not_mem_nil ?_
      rintro ⟨_, ⟨earlier, _, _, hevents, -⟩, -⟩
      cases earlier <;> cases hevents
  | append_singleton events event ih =>
      rw [Build.run, List.foldl_append, List.foldl_cons, List.foldl_nil]
      change adapter ∈ (build.step (build.run events) event).registered ↔ _
      cases event with
      | enable first later =>
          rw [Build.step, onEnable_registered, ih]
          constructor
          · rintro (⟨environment, hstanding, hregisters⟩ | hregisters)
            · exact ⟨environment, standing_enable.mpr (.inl hstanding), hregisters⟩
            · exact ⟨first, standing_enable.mpr (.inr rfl), hregisters⟩
          · rintro ⟨environment, hstanding, hregisters⟩
            rcases standing_enable.mp hstanding with h | rfl
            · exact .inl ⟨environment, h, hregisters⟩
            · exact .inr hregisters
      | disable =>
          refine iff_of_false List.not_mem_nil ?_
          rintro ⟨environment, hstanding, -⟩
          exact not_standing_disable hstanding

/-- The service of the adapter that the bridge makes, with all it controls. -/
def Build.Provides (build : Build) (server : Server) (adapter : NativeAdapter) : Prop :=
  ∃ makeVerified verified, build.verifiedBridge = some makeVerified ∧
    makeVerified server = some verified ∧ adapter = .verified verified ∧
    (serviceCapabilities adapter).completeControl = true

/-- **When a service is registered**: its adapter was made on an attested server. -/
theorem registers_iff {environment : Environment α} (h : environment.Plain)
    {adapter : NativeAdapter} :
    build.Registers environment adapter ↔
      build.nativeBoundary = true ∧ build.header.Opened ∧
        Attested build.platform build.header environment ∧
        build.Provides environment.server adapter := by
  have hcomplete : (build.inspect environment).complete = true ↔ _ := complete_iff h
  unfold Build.Registers Build.Provides Build.makeBds2633DynamicPropertyAdapter
  cases hbridge : build.verifiedBridge with
  | none =>
      constructor
      · rintro ⟨-, hmade, hcontrol⟩
        rw [← Option.some.inj hmade, guarded_completeControl] at hcontrol
        cases hcontrol
      · rintro ⟨-, -, -, _, _, hnone, -⟩
        cases hnone
  | some makeVerified =>
      rw [hbridge] at hcomplete
      constructor
      · rintro ⟨hboundary, hmade, hcontrol⟩
        dsimp only at hmade
        split at hmade
        · next hreport =>
          obtain ⟨-, hopened, hattested⟩ := hcomplete.mp hreport
          obtain ⟨verified, hverified, rfl⟩ := Option.map_eq_some_iff.mp hmade
          exact ⟨hboundary, hopened, hattested, makeVerified, verified, rfl, hverified, rfl,
            hcontrol⟩
        · rw [← Option.some.inj hmade, guarded_completeControl] at hcontrol
          cases hcontrol
      · rintro ⟨hboundary, hopened, hattested, _, verified, hbridge', hverified, rfl, hcontrol⟩
        obtain rfl := Option.some.inj hbridge'
        refine ⟨hboundary, ?_, hcontrol⟩
        dsimp only
        rw [if_pos (hcomplete.mpr ⟨rfl, hopened, hattested⟩), hverified]
        rfl

/-- **The services of the plugin**, after any sequence of enabling and disabling. -/
theorem plugin_registers_iff (build : Build) (events : List (PluginEvent α))
    (h : ∀ first later, .enable first later ∈ events → first.Plain) (adapter : NativeAdapter) :
    adapter ∈ (build.run events).registered ↔
      build.nativeBoundary = true ∧ build.header.Opened ∧
        ∃ environment, Standing events environment ∧
          Attested build.platform build.header environment ∧
          build.Provides environment.server adapter := by
  have hplain : ∀ environment, Standing events environment → environment.Plain := by
    rintro environment ⟨earlier, later, rest, rfl, -⟩
    exact h environment later (List.mem_append_right _ List.mem_cons_self)
  rw [run_registered]
  constructor
  · rintro ⟨environment, hstanding, hregisters⟩
    obtain ⟨hboundary, hopened, hattested, hprovides⟩ :=
      (registers_iff (hplain environment hstanding)).mp hregisters
    exact ⟨hboundary, hopened, environment, hstanding, hattested, hprovides⟩
  · rintro ⟨hboundary, hopened, environment, hstanding, hattested, hprovides⟩
    exact ⟨environment, hstanding, (registers_iff (hplain environment hstanding)).mpr
      ⟨hboundary, hopened, hattested, hprovides⟩⟩

/-- A build with the header of source control registers nothing. -/
theorem closedHeader_registers_nothing (h : build.header = closedHeader) :
    (build.run events).registered = [] := by
  rw [List.eq_nil_iff_forall_not_mem]
  intro adapter hadapter
  obtain ⟨environment, -, -, hmade, hcontrol⟩ := (run_registered events adapter).mp hadapter
  have hreport : (build.inspect environment).complete = false := by
    rw [Build.inspect, h]
    simp only [NativeActivationReport.complete, inspectBds2633DynamicPropertyActivation,
      closedHeader, Bool.and_false, Bool.false_and]
  have hguarded : build.makeBds2633DynamicPropertyAdapter environment =
      some (.guarded ⟨build.inspect environment⟩) := by
    unfold Build.makeBds2633DynamicPropertyAdapter
    cases build.verifiedBridge with
    | none => rfl
    | some makeVerified =>
        dsimp only
        rw [hreport, if_neg Bool.false_ne_true]
  rw [hguarded] at hmade
  rw [← Option.some.inj hmade, guarded_completeControl] at hcontrol
  cases hcontrol

end Plugin

/-! ## A server with three bytes for its executable -/

/-- A Linux server whose executable is `/bds`, with the content `abc`. -/
def abcServer : Environment UInt8 where
  locale := minimalLocale
  server := ⟨text "1.26.33.1", text "0.11.6"⟩
  process :=
    { executable := some (text "/bds")
      fileSize := fun path => if path = text "/bds" then .ok 3 else .error (text "not found")
      open_ := fun path => if path = text "/bds" then some ⟨text "abc", .eof⟩ else none }

/-- The header for it, opened. -/
def abcHeader : GeneratedHeader where
  executableSha256 := text "ba7816bf8f01cfea414140de5dae2223b00361a396177a9cb410ff61f20015ad"
  executableSize := 3
  nativeManifestActivated := true
  symbolsValidated := true
  storageContractsValidated := true
  externalHooksValidated := true
  stageProbePassed := true

/-- An adapter that controls everything. -/
def completeAdapter : VerifiedAdapter where
  name := text "bds-1.26.33.1"
  capabilities :=
    { InMemoryAdapter.capabilities with
      listIds := true, byteCount := true, collectionMigration := true, rollback := true
      exactBuildMatch := true, exactBinaryHashMatch := true, symbolsValidated := true
      stageProbePassed := true }

def abcBuild : Build where
  platform := .linux
  header := abcHeader
  verifiedBridge := some fun _ => some completeAdapter

theorem abcServer_plain : abcServer.Plain where
  ascii := by
    intro c hc
    exact of_decide_eq_true (List.all_eq_true.mp (by decide : (text "0.11.6").all (· < 0x80)) c hc)
  hashable := by
    intro path file hfile
    simp only [abcServer] at hfile
    split at hfile
    · rw [← Option.some.inj hfile]
      decide
    · cases hfile

theorem abcServer_executable : IsExecutable .linux abcServer.process abcHeader.executableSha256
    abcHeader.executableSize := by
  have hsize : abcServer.process.fileSize (text "/bds") = .ok 3 := by simp [abcServer]
  have hopen : abcServer.process.open_ (text "/bds") = some ⟨text "abc", .eof⟩ := by
    simp [abcServer]
  refine ⟨text "/bds", text "abc", by decide, by decide, rfl, hsize, by decide, hopen, ?_⟩
  have hfile := sha256File_standard (show (text "abc").length < 2 ^ 61 by decide)
  have hvalue : sha256File (some ⟨text "abc", .eof⟩) = (abcHeader.executableSha256, none) := by
    rw [sha256File_eof, show text "abc" = [0x61, 0x62, 0x63] by decide, sha256Bytes_abc]
    rfl
  exact (Prod.mk.inj (hfile.symm.trans hvalue)).1

theorem plugin_registers_iff_abc :
    .verified completeAdapter ∈ (abcBuild.run
      [.enable abcServer abcServer, .disable, .enable abcServer abcServer]).registered := by
  refine (plugin_registers_iff abcBuild _ (fun first later hmem => ?_) _).mpr
    ⟨rfl, ⟨rfl, rfl, rfl, rfl, rfl⟩, abcServer,
      ⟨[.enable abcServer abcServer, .disable], abcServer, [], rfl, List.not_mem_nil⟩,
      ⟨by decide, ?_, abcServer_executable⟩, _, completeAdapter, rfl, rfl, rfl, by decide⟩
  · rcases List.mem_cons.mp hmem with h | hmem
    · exact (PluginEvent.enable.inj h).1 ▸ abcServer_plain
    rcases List.mem_cons.mp hmem with h | hmem
    · cases h
    · exact (PluginEvent.enable.inj (List.mem_singleton.mp hmem)).1 ▸ abcServer_plain
  · exact (expectedEndstoneVersion_of_ascii abcServer_plain.ascii).mp
      (by decide : expectedEndstoneVersion minimalLocale (text "0.11.6") = true)

end DynamicProperties.Cpp
