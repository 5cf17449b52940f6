import DynamicProperties.Python.Documents

/-!
# The gate of the native manifest

`_validation_errors` of `native.py`, section by section.  The function asks the
interpreter for the text of an object and for a digest, and the file system for the
evidence; both are parameters.  It raises where a lookup gets an object that cannot be
hashed, where `str()` refuses an integer, and where the file system does.
-/

namespace DynamicProperties.Python.Native

open DynamicProperties.Library

/-! ## The surroundings -/

/-- What a validator may raise. -/
inductive NativeError where
  | python (error : PyError)
  | osError (message : Str)
  deriving DecidableEq

/-- An aware or a naive `datetime`, with its position on the time line. -/
structure Timestamp where
  instant : Int
  aware : Bool
  deriving DecidableEq

/-- What the validators take from the interpreter. -/
structure Host where
  /-- `str` of a float, a list or a dictionary. -/
  repr : PyJson → Except NativeError Str
  /-- `hashlib.sha256(content).hexdigest()`. -/
  sha256 : Cpp.ByteString → Str
  /-- `datetime.fromisoformat`, where it returns. -/
  fromIsoFormat : Str → Option Timestamp

/-- A file system, with the paths of its flavour. -/
structure FileTree (Path : Type) where
  path : Str → Path
  isAbsolute : Path → Bool
  join : Path → Path → Path
  resolve : Path → Except NativeError Path
  /-- `path.relative_to(other)` returns. -/
  isRelativeTo : Path → Path → Bool
  isFile : Path → Except NativeError Bool
  read : Path → Except NativeError Cpp.ByteString

/-! ## Objects -/

/-- `items.get(name, default)`. -/
def field (items : List (Str × PyJson)) (name : String) (default : PyJson := .none) : PyJson :=
  (items.lookup (str name)).getD default

/-- `_mapping`. -/
def mapping : PyJson → List (Str × PyJson)
  | .dict items => items
  | _ => []

/-- `value == text`. -/
def isText (value : PyJson) (text : Str) : Bool :=
  match value with
  | .str other => other = text
  | _ => false

/-- `value is True`. -/
def isTrue : PyJson → Bool
  | .bool value => value
  | _ => false

/-- An `int` that is no `bool`, and positive. -/
def isPositiveInt : PyJson → Bool
  | .int value => 0 < value
  | _ => false

/-- `str.isspace` of one character. -/
def isSpace (c : CodePoint) : Bool :=
  (0x09 ≤ c && c ≤ 0x0D) || (0x1C ≤ c && c ≤ 0x20) || c = 0x85 || c = 0xA0 || c = 0x1680 ||
    (0x2000 ≤ c && c ≤ 0x200A) || c = 0x2028 || c = 0x2029 || c = 0x202F || c = 0x205F || c = 0x3000

/-- `isinstance(value, str) and value.strip()`. -/
def hasText : PyJson → Bool
  | .str text => text.any fun c => !isSpace c
  | _ => false

/-- `value in names`, for a set or a dictionary of strings. -/
def isMember (names : List Str) : PyJson → Except NativeError Bool
  | .str text => .ok (names.contains text)
  | .list _ => .error (.python (.typeError (str "unhashable type: 'list'")))
  | .dict _ => .error (.python (.typeError (str "unhashable type: 'dict'")))
  | _ => .ok false

/-- `str(value)`. -/
def Host.text (host : Host) : PyJson → Except NativeError Str
  | .str text => .ok text
  | .none => .ok (str "None")
  | .bool value => .ok (if value then str "True" else str "False")
  | .int value => (intText value).mapError .python
  | value => host.repr value

/-- Two sets of strings, given by their members, are equal. -/
def sameNames (names others : List Str) : Bool :=
  names.all others.contains && others.all names.contains

def isDigit (c : CodePoint) : Bool := 0x30 ≤ c && c ≤ 0x39

def isLowerHex (c : CodePoint) : Bool := isDigit c || (0x61 ≤ c && c ≤ 0x66)

def isHex (c : CodePoint) : Bool := isLowerHex c || (0x41 ≤ c && c ≤ 0x46)

/-- `_HEX64`. -/
def matchesHex64 (text : Str) : Bool := text.length = 64 && text.all isLowerHex

/-- `_HEX_BYTES`. -/
def matchesHexBytes (text : Str) : Bool := !text.isEmpty && text.all isHex

/-- `_COMMIT_HASH`. -/
def matchesCommitHash (text : Str) : Bool :=
  (text.length = 40 || text.length = 64) && text.all isLowerHex

/-- `errors.append(message)`, if something is wrong. -/
def complain (wrong : Bool) (message : Str) : List Str := if wrong then [message] else []

/-- The errors of a loop over names. -/
def complainEach (errors : Str → Except NativeError (List Str)) :
    List Str → Except NativeError (List Str)
  | [] => return []
  | name :: rest => do
      let first ← errors name
      let others ← complainEach errors rest
      return first ++ others

/-! ## The tables -/

def expectedArchives : List (Str × Str) :=
  [(str "linux-x64", str "68c52ababde987741029de091c09cd736fe894bc1fe99cf20f9ed5c659f0c180"),
    (str "windows-x64", str "fc6c0ad6f82cfb11c65c6756a1a8e49b21ffa8cc203da587df59df365d82a2ad")]

def expectedExecutables : List (Str × Str) :=
  [(str "linux-x64", str "bedrock_server"), (str "windows-x64", str "bedrock_server.exe")]

def requiredSymbols : List Str :=
  ["dynamic_properties_get", "dynamic_properties_get_ids", "dynamic_properties_get_total_bytes",
    "dynamic_properties_set", "dynamic_properties_remove", "dynamic_properties_clear_collection",
    "dynamic_properties_update_collection_name", "dynamic_properties_validate",
    "property_collection_to_variant_map", "property_collection_from_variant_map",
    "server_level_get_or_add_dynamic_properties", "server_level_get_dynamic_properties_manager",
    "dynamic_properties_manager_write_level_storage", "actor_get_or_add_dynamic_properties",
    "item_dynamic_properties_get_all", "item_dynamic_properties_get", "item_dynamic_properties_set",
    "item_dynamic_properties_remove", "item_dynamic_properties_clear",
    "offline_player_storage_read",
    "offline_player_storage_write", "stored_entity_read", "stored_entity_write",
    "block_dynamic_properties_get_component", "block_dynamic_properties_mark_dirty",
    "hook_dynamic_properties_set", "hook_dynamic_properties_remove",
    "hook_dynamic_properties_clear"].map str

def requiredStageProbes : List Str :=
  ["world_get_set_remove_clear", "world_list_ids_and_byte_count", "world_bulk_set",
    "world_collection_rename", "world_restart_persistence", "online_player_get_set_remove_clear",
    "online_player_disconnect_reconnect", "offline_player_read_while_offline",
    "offline_player_write_while_offline", "offline_player_join_after_write",
    "offline_player_restart_persistence", "loaded_entity_get_set_remove_clear",
    "stored_entity_read_while_unloaded", "stored_entity_write_while_unloaded",
    "stored_entity_chunk_reload", "stored_entity_restart_persistence",
    "main_inventory_item_properties", "armor_item_properties", "offhand_item_properties",
    "ender_chest_item_properties", "block_container_item_properties", "dropped_item_properties",
    "item_slot_client_refresh", "item_stackability_guard", "item_slot_stale_revision_guard",
    "block_dynamic_property_read_write", "block_dynamic_property_remove_clear",
    "block_dynamic_property_chunk_reload", "block_dynamic_property_restart_persistence",
    "block_replacement_cleanup", "property_copy", "property_move", "collection_copy",
    "collection_move", "behavior_pack_uuid_migration", "export_import_round_trip",
    "plugin_collection_isolation", "raw_admin_collection_access",
    "cross_target_atomic_transaction", "transaction_rollback", "stale_revision_conflict",
    "persistence_flush", "external_script_set_observed", "external_script_remove_observed",
    "external_script_clear_observed", "external_script_set_cancelled",
    "external_script_remove_cancelled", "external_script_clear_cancelled", "hook_recursion_guard",
    "world_load_event_suppression", "rollback_event_suppression", "audit_records_complete",
    "no_live_leveldb_editing", "server_shutdown_flush", "crash_recovery_no_partial_commit"].map str

def abiTextFields : List String :=
  ["reviewer", "property_variant_contract", "vector3_argument_contract",
    "reflection_context_contract", "actor_component_contract", "item_stack_mutation_contract",
    "offline_player_storage_contract", "stored_entity_storage_contract",
    "block_component_contract", "hook_calling_convention_notes"]

def externalHookFields : List String :=
  ["installed", "set_before_mutation", "remove_before_mutation", "clear_before_mutation",
    "cancellable", "original_call_preserved", "recursion_guard_verified",
    "load_suppression_verified", "rollback_suppression_verified"]

def storageFields : List String :=
  ["offline_player_read_write_verified", "stored_entity_read_write_verified",
    "main_thread_coordination_verified", "no_direct_live_leveldb_writes",
    "crash_safe_commit_verified"]

/-- `table[platform]`, if `platform in table`. -/
def expectedOf (table : List (Str × Str)) : PyJson → Option Str
  | .str platform => table.lookup platform
  | _ => none

/-- The platform is in the table, and the value is not the one it gives. -/
def departs (table : List (Str × Str)) (platform value : PyJson) : Bool :=
  (expectedOf table platform).any fun expected => !isText value expected

/-! ## The sections -/

section Sections

variable (host : Host)

/-- The checks of the schema, the platform and the versions. -/
def identityErrors (data : List (Str × PyJson)) : Except NativeError (List Str) := do
  let platform := field data "platform"
  let supported ← isMember (expectedArchives.map Prod.fst) platform
  return complain (!equalsOne (field data "schema")) (str "schema=1")
    ++ complain (!supported) (str "supported platform")
    ++ complain (!isText (field data "bds_package_version") (str "1.26.33.1"))
      (str "bds_package_version=1.26.33.1")
    ++ complain (!isText (field data "runtime_bds") (str "26.33")) (str "runtime_bds=26.33")
    ++ complain (!isText (field data "endstone_version") (str "0.11.6"))
      (str "endstone_version=0.11.6")
    ++ complain (departs expectedArchives platform (field data "archive_sha256"))
      (str "official archive SHA-256")

def executableErrors (data : List (Str × PyJson)) : Except NativeError (List Str) := do
  let executable := mapping (field data "executable")
  let sha256 ← host.text (field executable "sha256" (.str []))
  return complain (departs expectedExecutables (field data "platform")
    (field executable "filename"))
      (str "executable.filename")
    ++ complain (!matchesHex64 sha256) (str "executable.sha256")
    ++ complain (!isPositiveInt (field executable "size")) (str "executable.size")

def abiErrors (data : List (Str × PyJson)) : Except NativeError (List Str) := do
  let abi := mapping (field data "abi")
  let commit ← host.text (field abi "review_commit" (.str []))
  return complain (!isTrue (field abi "reviewed")) (str "abi.reviewed")
    ++ abiTextFields.flatMap (fun name =>
      complain (!hasText (field abi name)) (str "abi." ++ str name))
    ++ complain (!matchesCommitHash commit) (str "abi.review_commit")

/-- `symbols`: the entries by their identifier, the last one of each. -/
def symbolTable (entries : List PyJson) : AList fun _ : Str => List (Str × PyJson) :=
  entries.foldl (fun table entry =>
    match entry with
    | .dict items =>
        match field items "id" with
        | .str id => table.insert id items
        | _ => table
    | _ => table) ∅

/-- What is wrong with the fingerprint of a symbol. -/
def fingerprintErrors (symbol fingerprint : Str) : List Str :=
  if fingerprint.isEmpty || fingerprint.length % 2 ≠ 0 || !matchesHexBytes fingerprint then
    [str "symbols." ++ symbol ++ str ".fingerprint_hex"]
  else complain (24 < fingerprint.length / 2)
    (str "symbols." ++ symbol ++ str ".fingerprint_hex<=24-bytes")

def symbolErrors (table : AList fun _ : Str => List (Str × PyJson)) (symbol : Str) :
    Except NativeError (List Str) := do
  let entry := (table.lookup symbol).getD []
  let fingerprint ← host.text (field entry "fingerprint_hex" (.str []))
  return ["resolved", "unique", "signature_verified", "behavior_verified"].flatMap (fun flag =>
      complain (!isTrue (field entry flag)) (str "symbols." ++ symbol ++ str "." ++ str flag))
    ++ complain (!isPositiveInt (field entry "rva")) (str "symbols." ++ symbol ++ str ".rva")
    ++ fingerprintErrors symbol fingerprint
    ++ complain (!hasText (field entry "verification_notes"))
      (str "symbols." ++ symbol ++ str ".verification_notes")

def symbolsErrors (data : List (Str × PyJson)) : Except NativeError (List Str) := do
  let entries := match field data "symbols" with
    | .list entries => entries
    | _ => []
  let table := symbolTable entries
  let exact := sameNames table.keys requiredSymbols
    && entries.length = requiredSymbols.dedup.length && table.keys.length = entries.length
  let each ← complainEach (symbolErrors host table) requiredSymbols
  return complain (!exact) (str "exact required symbol set") ++ each

/-- A section whose fields all have to be `True`. -/
def flagErrors (section_ : String) (fields : List String) (data : List (Str × PyJson)) : List Str :=
  fields.flatMap fun name =>
    complain (!isTrue (field (mapping (field data section_)) name))
      (str section_ ++ str "." ++ str name)

section Evidence

variable {Path : Type} (files : FileTree Path) (root : Path)

/-- `_evidence_path`. -/
def evidencePath : PyJson → Except NativeError (Option Path)
  | .str text =>
      if text.isEmpty || files.isAbsolute (files.path text) then return none
      else do
        let candidate ← files.resolve (files.join root (files.path text))
        match files.resolve root with
        | .error (.python (.valueError _)) => return none
        | .error raised => .error raised
        | .ok base => return if files.isRelativeTo candidate base then some candidate else none
  | _ => return none

/-- What is wrong with a file that the manifest names with its hash. -/
def evidenceErrors (path : PyJson) (hash : Str) (missing mismatch : String) :
    Except NativeError (List Str) := do
  match ← evidencePath files root path with
  | none => return [str missing]
  | some file =>
      if !(← files.isFile file) then return [str missing]
      else if !matchesHex64 hash then return []
      else
        let content ← files.read file
        return complain (host.sha256 content ≠ hash) (str mismatch)

def stageProbeErrors (data : List (Str × PyJson)) : Except NativeError (List Str) := do
  let stage := mapping (field data "stage_probe")
  let reportHash ← host.text (field stage "report_sha256" (.str []))
  let results := mapping (field stage "results")
  let evidence ← evidenceErrors host files root (field stage "report_path") reportHash
    "stage_probe.report_path" "stage_probe report SHA-256 match"
  return complain (!isTrue (field stage "passed")) (str "stage_probe.passed")
    ++ complain (!matchesHex64 reportHash) (str "stage_probe.report_sha256")
    ++ complain (!sameNames (results.map Prod.fst) requiredStageProbes)
      (str "exact required stage-probe set")
    ++ requiredStageProbes.flatMap (fun probe =>
      complain (!isTrue ((results.lookup probe).getD .none)) (str "stage_probe.results." ++ probe))
    ++ evidence

def bridgeErrors (data : List (Str × PyJson)) : Except NativeError (List Str) := do
  let bridge := mapping (field data "bridge")
  let bridgeHash ← host.text (field bridge "source_sha256" (.str []))
  let evidence ← evidenceErrors host files root (field bridge "source_path") bridgeHash
    "bridge.source_path" "bridge source SHA-256 match"
  return complain (!isTrue (field bridge "reviewed")) (str "bridge.reviewed")
    ++ complain (!matchesHex64 bridgeHash) (str "bridge.source_sha256")
    ++ evidence

/-- `_validation_errors`. -/
def validationErrors : PyJson → Except NativeError (List Str)
  | .dict data => do
      let identity ← identityErrors data
      let executable ← executableErrors host data
      let abi ← abiErrors host data
      let symbols ← symbolsErrors host data
      let stageProbe ← stageProbeErrors host files root data
      let bridge ← bridgeErrors host files root data
      return identity ++ executable ++ abi ++ symbols
        ++ flagErrors "external_hooks" externalHookFields data
        ++ flagErrors "storage" storageFields data
        ++ stageProbe ++ bridge
        ++ complain (!isText (field data "status") (str "verified")) (str "status=verified")
  | _ => return [str "manifest root must be an object"]

end Evidence

end Sections

end DynamicProperties.Python.Native
