import DynamicProperties.Python.ManifestEvidence

/-!
# The generator of the native gate

`main` of `tools/activate_verified_manifest.py` behind its call of `validate`: it turns
an accepted manifest into the header that opens the C++ gate.  It reads the same fields
as `_validation_errors`, but asks other things of them.  Where the validator takes the
text of a fingerprint, the generator takes the fingerprint itself; and where the validator
asks for a positive integer, the header declares a `std::uint64_t`.

A `GeneratedGate` is what the header is meant to declare, with the types it declares.
The generator writes the header of one exactly when the manifest is `Representable`
(`gate_generated_iff`).
-/

namespace DynamicProperties.Python.Native

open DynamicProperties.Library
open DynamicProperties.Library.Fallible

/-! ## The generator -/

/-- What the generator may raise. -/
inductive ActivationError where
  | keyError (key : PyJson)
  | systemExit (message : Str)
  | raised (error : NativeError)

def typeError {α : Type} (message : Str) : Except ActivationError α :=
  .error (.raised (.python (.typeError message)))

/-- `type(value).__name__`. -/
def typeName : PyJson → Str
  | .none => str "NoneType"
  | .bool _ => str "bool"
  | .int _ => str "int"
  | .float _ => str "float"
  | .str _ => str "str"
  | .list _ => str "list"
  | .dict _ => str "dict"

/-- `value[key]`. -/
def subscript (value : PyJson) (key : String) : Except ActivationError PyJson :=
  match value with
  | .dict items =>
      match items.lookup (str key) with
      | some found => .ok found
      | none => .error (.keyError (.str (str key)))
  | .list _ => typeError (str "list indices must be integers or slices, not str")
  | .str _ => typeError (str "string indices must be integers, not 'str'")
  | other => typeError (str "'" ++ typeName other ++ str "' object is not subscriptable")

/-- What a `for` loop goes through. -/
def iterate : PyJson → Except ActivationError (List PyJson)
  | .list elements => .ok elements
  | .dict items => .ok (items.map fun item => .str item.1)
  | .str text => .ok (text.map fun c => .str [c])
  | other => typeError (str "'" ++ typeName other ++ str "' object is not iterable")

/-- The value of a hexadecimal digit. -/
def hexDigitValue (c : CodePoint) : Option Nat :=
  if isDigit c then some (c.val - 0x30)
  else if 0x61 ≤ c && c ≤ 0x66 then some (c.val - 0x61 + 10)
  else if 0x41 ≤ c && c ≤ 0x46 then some (c.val - 0x41 + 10)
  else none

/-- White space between the bytes of a `bytes.fromhex` text. -/
def isAsciiSpace (c : CodePoint) : Bool := (0x09 ≤ c && c ≤ 0x0D) || c = 0x20

def notHexadecimal {α : Type} (position : Nat) : Except ActivationError α :=
  .error (.raised (.python (.valueError
    (str "non-hexadecimal number found in fromhex() arg at position " ++ str (toString position)))))

/-- The loop of `bytes.fromhex`, from a position on. -/
def hexBytes (position : Nat) : Str → Except ActivationError (List UInt8)
  | [] => .ok []
  | [c] =>
      if isAsciiSpace c then .ok []
      else if (hexDigitValue c).isSome then notHexadecimal (position + 1)
      else notHexadecimal position
  | c :: d :: rest =>
      if isAsciiSpace c then hexBytes (position + 1) (d :: rest)
      else
        match hexDigitValue c, hexDigitValue d with
        | some high, some low => do
            let bytes ← hexBytes (position + 2) rest
            return UInt8.ofNat (16 * high + low) :: bytes
        | some _, none => notHexadecimal (position + 1)
        | none, _ => notHexadecimal position

/-- `bytes.fromhex(value)`. -/
def fromHex : PyJson → Except ActivationError (List UInt8)
  | .str text =>
      match text.findIdx? (0x80 ≤ ·) with
      | some position => notHexadecimal position
      | none => hexBytes 0 text
  | other => typeError (str "fromhex() argument must be str, not " ++ typeName other)

/-- A number in capital hexadecimal digits, at least so many of them. -/
def hexUpper (width n : Nat) : Str :=
  str (String.ofList (((Nat.toDigits 16 n).map Char.toUpper).leftpad width '0'))

/-- `f"0x\x7bvalue:02X\x7d"`. -/
def byteLiteral (value : UInt8) : Str := str "0x" ++ hexUpper 2 value.toNat

/-- `bytes_array`. -/
def bytesArray (value : PyJson) : Except ActivationError (Str × Nat) := do
  let raw ← fromHex value
  if 24 < raw.length then .error (.systemExit (str "fingerprints must be at most 24 bytes"))
  else
    let padded := raw ++ List.replicate (24 - raw.length) 0
    return (joined (padded.map byteLiteral), raw.length)

/-- `SYMBOL_ENUM`. -/
def symbolEnum : List (Str × Str) :=
  [
    ("dynamic_properties_get", "DynamicPropertiesGet"),
    ("dynamic_properties_get_ids", "DynamicPropertiesGetIds"),
    ("dynamic_properties_get_total_bytes", "DynamicPropertiesGetTotalBytes"),
    ("dynamic_properties_set", "DynamicPropertiesSet"),
    ("dynamic_properties_remove", "DynamicPropertiesRemove"),
    ("dynamic_properties_clear_collection", "DynamicPropertiesClearCollection"),
    ("dynamic_properties_update_collection_name", "DynamicPropertiesUpdateCollectionName"),
    ("dynamic_properties_validate", "DynamicPropertiesValidate"),
    ("property_collection_to_variant_map", "PropertyCollectionToVariantMap"),
    ("property_collection_from_variant_map", "PropertyCollectionFromVariantMap"),
    ("server_level_get_or_add_dynamic_properties", "ServerLevelGetOrAddDynamicProperties"),
    ("server_level_get_dynamic_properties_manager", "ServerLevelGetDynamicPropertiesManager"),
    ("dynamic_properties_manager_write_level_storage", "DynamicPropertiesManagerWriteLevelStorage"),
    ("actor_get_or_add_dynamic_properties", "ActorGetOrAddDynamicProperties"),
    ("item_dynamic_properties_get_all", "ItemDynamicPropertiesGetAll"),
    ("item_dynamic_properties_get", "ItemDynamicPropertiesGet"),
    ("item_dynamic_properties_set", "ItemDynamicPropertiesSet"),
    ("item_dynamic_properties_remove", "ItemDynamicPropertiesRemove"),
    ("item_dynamic_properties_clear", "ItemDynamicPropertiesClear"),
    ("offline_player_storage_read", "OfflinePlayerStorageRead"),
    ("offline_player_storage_write", "OfflinePlayerStorageWrite"),
    ("stored_entity_read", "StoredEntityRead"),
    ("stored_entity_write", "StoredEntityWrite"),
    ("block_dynamic_properties_get_component", "BlockDynamicPropertiesGetComponent"),
    ("block_dynamic_properties_mark_dirty", "BlockDynamicPropertiesMarkDirty"),
    ("hook_dynamic_properties_set", "HookDynamicPropertiesSet"),
    ("hook_dynamic_properties_remove", "HookDynamicPropertiesRemove"),
    ("hook_dynamic_properties_clear", "HookDynamicPropertiesClear")
  ].map fun entry => (str entry.1, str entry.2)

/-- `SYMBOL_ENUM[key]`. -/
def enumName : PyJson → Except ActivationError Str
  | .str id =>
      match symbolEnum.lookup id with
      | some name => .ok name
      | none => .error (.keyError (.str id))
  | .list _ => typeError (str "unhashable type: 'list'")
  | .dict _ => typeError (str "unhashable type: 'dict'")
  | other => .error (.keyError other)

/-- `"%X" % value`. -/
def formatHex : PyJson → Except ActivationError Str
  | .int value => .ok ((if value < 0 then str "-" else []) ++ hexUpper 0 value.natAbs)
  | .bool value => .ok (hexUpper 0 value.toNat)
  | other => typeError (str "%X format: an integer is required, not " ++ typeName other)

/-- A line of the table. -/
def entryLine (name rva fingerprint : Str) (size : Nat) : Str :=
  str "    \x7bNativeDynamicPropertySymbol::" ++ name ++ str ", 0x" ++ rva ++ str "ULL, \x7b" ++
    fingerprint ++ str "\x7d, " ++ str (toString size) ++ str "\x7d,"

/-- The body of the loop over the symbols. -/
def symbolLine (symbol : PyJson) : Except ActivationError Str := do
  let (fingerprint, size) ← bytesArray (← subscript symbol "fingerprint_hex")
  let name ← enumName (← subscript symbol "id")
  let rva ← formatHex (← subscript symbol "rva")
  return entryLine name rva fingerprint size

/-- The lines of the header, around the values that are filled in. -/
def headerLines (bdsPackageVersion runtimeBds endstoneVersion platform archiveSha256
    executableSha256 executableSize : Str) (entries : List Str) : List Str :=
  [str "#pragma once", [], str "#include \"endstone_dynamic_properties/native_manifest.h\"", [],
    str "#include <array>", str "#include <cstdint>", str "#include <string_view>", [],
    str "namespace endstone_dynamic_properties::generated \x7b", [],
    str "struct GeneratedSymbolEntry \x7b",
    str "    NativeDynamicPropertySymbol symbol\x7b\x7d;",
    str "    std::uint64_t rva\x7b\x7d;",
    str "    std::array<std::uint8_t, 24> fingerprint\x7b\x7d;",
    str "    std::uint8_t fingerprint_size\x7b\x7d;",
    str "\x7d;", [],
    str "inline constexpr std::string_view BdsPackageVersion = \"" ++ bdsPackageVersion ++
      str "\";",
    str "inline constexpr std::string_view RuntimeBds = \"" ++ runtimeBds ++ str "\";",
    str "inline constexpr std::string_view EndstoneVersion = \"" ++ endstoneVersion ++ str "\";",
    str "inline constexpr std::string_view Platform = \"" ++ platform ++ str "\";",
    str "inline constexpr std::string_view ArchiveSha256 = \"" ++ archiveSha256 ++ str "\";",
    str "inline constexpr std::string_view ExecutableSha256 = \"" ++ executableSha256 ++ str "\";",
    str "inline constexpr std::uint64_t ExecutableSize = " ++ executableSize ++ str "ULL;",
    str "inline constexpr bool NativeManifestActivated = true;",
    str "inline constexpr bool ExactBuildMatch = true;",
    str "inline constexpr bool ExactBinaryHashMatch = true;",
    str "inline constexpr bool SymbolsValidated = true;",
    str "inline constexpr bool StorageContractsValidated = true;",
    str "inline constexpr bool ExternalHooksValidated = true;",
    str "inline constexpr bool StageProbePassed = true;",
    str "inline constexpr std::array<GeneratedSymbolEntry, " ++ str (toString entries.length) ++
      str "> Symbols\x7b\x7b"] ++ entries ++
  [str "\x7d\x7d;", [], str "\x7d // namespace endstone_dynamic_properties::generated", []]

/-- `"\n".join(lines)`, written as UTF-8. -/
def written (lines : List Str) : Except ActivationError Cpp.ByteString :=
  (encodeUtf8 (lines.intersperse (str "\n")).flatten).mapError fun error => .raised (.python error)

/-- A value in an f-string. -/
def interpolated (host : Host) (value : PyJson) : Except ActivationError Str :=
  (host.text value).mapError .raised

/-- The content of the header that `main` writes. -/
def generatedHeader (host : Host) (data : PyJson) : Except ActivationError Cpp.ByteString := do
  let entries ← (← iterate (← subscript data "symbols")).mapM symbolLine
  let bdsPackageVersion ← interpolated host (← subscript data "bds_package_version")
  let runtimeBds ← interpolated host (← subscript data "runtime_bds")
  let endstoneVersion ← interpolated host (← subscript data "endstone_version")
  let platform ← interpolated host (← subscript data "platform")
  let archiveSha256 ← interpolated host (← subscript data "archive_sha256")
  let executableSha256 ← interpolated host (← subscript (← subscript data "executable") "sha256")
  let executableSize ← interpolated host (← subscript (← subscript data "executable") "size")
  written (headerLines bdsPackageVersion runtimeBds endstoneVersion platform archiveSha256
    executableSha256 executableSize entries)

/-! ## What the header declares -/

/-- The enumerator of a symbol. -/
def enumerator (id : Str) : Str := (symbolEnum.lookup id).getD []

/-- An entry of the table, with the types of the C++ struct. -/
structure GeneratedSymbolEntry where
  symbol : Str
  rva : UInt64
  fingerprint : Vector UInt8 24
  fingerprintSize : UInt8

/-- The values of the header, with the types it gives them. -/
structure GeneratedGate where
  bdsPackageVersion : Str
  runtimeBds : Str
  endstoneVersion : Str
  platform : Str
  archiveSha256 : Str
  executableSha256 : Str
  executableSize : UInt64
  symbols : List GeneratedSymbolEntry

/-- How an entry is written. -/
def GeneratedSymbolEntry.line (entry : GeneratedSymbolEntry) : Str :=
  entryLine entry.symbol (hexUpper 0 entry.rva.toNat)
    (joined (entry.fingerprint.toList.map byteLiteral)) entry.fingerprintSize.toNat

/-- How a gate is written. -/
def GeneratedGate.lines (gate : GeneratedGate) : List Str :=
  headerLines gate.bdsPackageVersion gate.runtimeBds gate.endstoneVersion gate.platform
    gate.archiveSha256 gate.executableSha256 (str (toString gate.executableSize.toNat))
    (gate.symbols.map GeneratedSymbolEntry.line)

/-- The entry is the one of a symbol of the manifest: its enumerator, a nonzero address that
is the `rva`, and a fingerprint of 1 to 24 bytes that are the decoded text, with zeros
behind them. -/
structure Declares (symbol : PyJson) (entry : GeneratedSymbolEntry) : Prop where
  named : ∃ id, field (mapping symbol) "id" = .str id ∧ entry.symbol = enumerator id
  rva : field (mapping symbol) "rva" = .int entry.rva.toNat
  nonzero : entry.rva ≠ 0
  fingerprint : ∃ bytes, fromHex (field (mapping symbol) "fingerprint_hex") = .ok bytes ∧
    bytes.length = entry.fingerprintSize.toNat ∧ 1 ≤ bytes.length ∧ bytes.length ≤ 24 ∧
    entry.fingerprint.toList = bytes ++ List.replicate (24 - bytes.length) 0

/-- The generator raises nothing, and what it writes is the header of a gate with one entry
for each required symbol, those of the manifest, and with the size of the executable. -/
def GeneratesGate (host : Host) (data : PyJson) : Prop :=
  ∃ gate : GeneratedGate, generatedHeader host data = written gate.lines ∧
    Returns (generatedHeader host data) ∧
    (gate.symbols.map GeneratedSymbolEntry.symbol).Perm (requiredSymbols.map enumerator) ∧
    List.Forall₂ Declares (elements (field (mapping data) "symbols")) gate.symbols ∧
    field (mapping (field (mapping data) "executable")) "size" = .int gate.executableSize.toNat

/-- The numbers of the manifest fit into 64 bits, and its fingerprints are texts. -/
structure Representable (data : PyJson) : Prop where
  size : ∃ size : Nat, field (mapping (field (mapping data) "executable")) "size" = .int size ∧
    size < 2 ^ 64
  rva : ∀ symbol ∈ elements (field (mapping data) "symbols"), ∃ rva : Nat,
    field (mapping symbol) "rva" = .int rva ∧ rva < 2 ^ 64
  fingerprint : ∀ symbol ∈ elements (field (mapping data) "symbols"), ∃ text,
    field (mapping symbol) "fingerprint_hex" = .str text

/-! ## Fingerprints -/

theorem isHex_spec {c : CodePoint} (h : isHex c = true) :
    isAsciiSpace c = false ∧ (∃ value, hexDigitValue c = some value) ∧ c < 0x80 := by
  simp only [isHex, isLowerHex, isDigit, Bool.or_eq_true, Bool.and_eq_true, decide_eq_true_iff] at h
  change ((0x30 ≤ c.val ∧ c.val ≤ 0x39) ∨ (0x61 ≤ c.val ∧ c.val ≤ 0x66)) ∨
    (0x41 ≤ c.val ∧ c.val ≤ 0x46) at h
  refine ⟨?_, ?_, ?_⟩
  · simp only [isAsciiSpace, Bool.or_eq_false_iff, Bool.and_eq_false_iff, decide_eq_false_iff_not,
      Fin.ext_iff]
    show (¬ 0x09 ≤ c.val ∨ ¬ c.val ≤ 0x0D) ∧ ¬ c.val = 0x20
    omega
  · unfold hexDigitValue
    split
    · exact ⟨_, rfl⟩
    split
    · exact ⟨_, rfl⟩
    split
    · exact ⟨_, rfl⟩
    · next hdigit hlower hupper =>
      simp only [isDigit, Bool.and_eq_true, decide_eq_true_iff] at hdigit hlower hupper
      change ¬ (0x30 ≤ c.val ∧ c.val ≤ 0x39) at hdigit
      change ¬ (0x61 ≤ c.val ∧ c.val ≤ 0x66) at hlower
      change ¬ (0x41 ≤ c.val ∧ c.val ≤ 0x46) at hupper
      omega
  · show c.val < 0x80
    omega

/-- Pairs of hexadecimal digits are bytes. -/
theorem hexBytes_of_hex : ∀ (text : Str) (position : Nat), (∀ c ∈ text, isHex c = true) →
    text.length % 2 = 0 →
    ∃ bytes, hexBytes position text = .ok bytes ∧ 2 * bytes.length = text.length
  | [], _, _, _ => ⟨[], rfl, rfl⟩
  | [c], _, _, heven => absurd heven (by rw [List.length_singleton]; decide)
  | c :: d :: rest, position, hhex, heven => by
      obtain ⟨hspace, ⟨high, hhigh⟩, -⟩ := isHex_spec (hhex c List.mem_cons_self)
      obtain ⟨-, ⟨low, hlow⟩, -⟩ :=
        isHex_spec (hhex d (List.mem_cons_of_mem _ List.mem_cons_self))
      have hrest : rest.length % 2 = 0 := by
        rw [List.length_cons, List.length_cons] at heven
        omega
      obtain ⟨bytes, hbytes, hlength⟩ := hexBytes_of_hex rest (position + 2)
        (fun c hc => hhex c (List.mem_cons_of_mem _ (List.mem_cons_of_mem _ hc))) hrest
      refine ⟨UInt8.ofNat (16 * high + low) :: bytes, ?_, ?_⟩
      · simp only [hexBytes, hspace, hhigh, hlow, hbytes]
        rfl
      · rw [List.length_cons, List.length_cons, List.length_cons]
        omega

/-- A text the validator takes for a fingerprint has the bytes it asks for. -/
theorem fromHex_of_matchesFingerprint {text : Str} (h : matchesFingerprint text = true) :
    ∃ bytes, fromHex (.str text) = .ok bytes ∧ 1 ≤ bytes.length ∧ bytes.length ≤ 24 := by
  simp only [matchesFingerprint, matchesHexBytes, Bool.and_eq_true, Bool.not_eq_true',
    List.isEmpty_eq_false_iff, decide_eq_true_eq] at h
  obtain ⟨⟨⟨hne, hhex⟩, heven⟩, hshort⟩ := h
  have hlist := List.all_eq_true.mp hhex
  obtain ⟨bytes, hbytes, hlength⟩ := hexBytes_of_hex text 0 hlist heven
  have hascii : text.findIdx? (0x80 ≤ ·) = none :=
    List.findIdx?_eq_none_iff.mpr fun c hc =>
      decide_eq_false (Fin.not_le.mpr (isHex_spec (hlist c hc)).2.2)
  have hpositive := List.length_pos_iff.mpr hne
  refine ⟨bytes, ?_, by omega, by omega⟩
  rw [fromHex, hascii]
  exact hbytes

/-! ## Lines of the table -/

theorem subscript_of_lookup {value : PyJson} {key : String} {found : PyJson}
    (h : (mapping value).lookup (str key) = some found) : subscript value key = .ok found := by
  cases value with
  | dict items =>
      change items.lookup (str key) = some found at h
      simp only [subscript, h]
  | _ => cases h

theorem subscript_of_field {value : PyJson} {key : String} {found : PyJson}
    (h : field (mapping value) key = found) (hfound : found ≠ .none) :
    subscript value key = .ok found :=
  subscript_of_lookup (lookup_of_field h hfound)

theorem symbolEnum_keys : symbolEnum.map Prod.fst = requiredSymbols := by
  simp only [symbolEnum, requiredSymbols, List.map_cons, List.map_nil]

theorem lookup_symbolEnum {id : Str} (h : id ∈ requiredSymbols) :
    symbolEnum.lookup id = some (enumerator id) ∧ (id, enumerator id) ∈ symbolEnum := by
  rw [← symbolEnum_keys] at h
  obtain ⟨name, hlookup, hmem⟩ := exists_lookup h
  rw [enumerator, hlookup]
  exact ⟨rfl, hmem⟩

/-- The line of an entry. -/
theorem symbolLine_of_declares {symbol : PyJson} {entry : GeneratedSymbolEntry}
    (h : Declares symbol entry) (hid : ∀ id, field (mapping symbol) "id" = .str id →
      id ∈ requiredSymbols) :
    symbolLine symbol = .ok entry.line := by
  obtain ⟨id, hfield, hname⟩ := h.named
  obtain ⟨bytes, hbytes, hlength, -, hle, hpadded⟩ := h.fingerprint
  have htext : field (mapping symbol) "fingerprint_hex" ≠ .none := fun hnone => by
    rw [hnone] at hbytes
    cases hbytes
  have hfingerprint : bytesArray (field (mapping symbol) "fingerprint_hex") =
      .ok (joined (entry.fingerprint.toList.map byteLiteral), entry.fingerprintSize.toNat) := by
    rw [bytesArray, hbytes, hpadded, ← hlength]
    exact if_neg (by omega)
  have henum : enumName (.str id) = .ok entry.symbol := by
    rw [enumName, (lookup_symbolEnum (hid id hfield)).1, hname]
  have hrva : formatHex (.int entry.rva.toNat) = .ok (hexUpper 0 entry.rva.toNat) := by
    rw [formatHex, if_neg (by omega), Int.natAbs_natCast, List.nil_append]
  exact bind_eq_ok.mpr ⟨_, subscript_of_field rfl htext, bind_eq_ok.mpr ⟨_, hfingerprint,
    bind_eq_ok.mpr ⟨_, subscript_of_field hfield (by simp), bind_eq_ok.mpr ⟨_, henum,
      bind_eq_ok.mpr ⟨_, subscript_of_field h.rva (by simp), bind_eq_ok.mpr ⟨_, hrva, rfl⟩⟩⟩⟩⟩⟩

/-- An entry for a symbol whose values fit. -/
theorem exists_declares {symbol : PyJson} {id : Str} {rva : Nat} {bytes : List UInt8}
    (hid : field (mapping symbol) "id" = .str id)
    (hrva : field (mapping symbol) "rva" = .int rva) (hpositive : 0 < rva) (hfits : rva < 2 ^ 64)
    (hbytes : fromHex (field (mapping symbol) "fingerprint_hex") = .ok bytes)
    (hone : 1 ≤ bytes.length) (hle : bytes.length ≤ 24) :
    ∃ entry, Declares symbol entry ∧ entry.symbol = enumerator id := by
  have hsize : (bytes ++ List.replicate (24 - bytes.length) 0).toArray.size = 24 := by
    rw [List.size_toArray, List.length_append, List.length_replicate]
    omega
  have hvalue : (UInt64.ofNat rva).toNat = rva := by
    rw [UInt64.toNat_ofNat']
    omega
  refine ⟨⟨enumerator id, UInt64.ofNat rva, ⟨_, hsize⟩, UInt8.ofNat bytes.length⟩,
    ⟨⟨id, hid, rfl⟩, ?_, ?_, bytes, hbytes, ?_, hone, hle, rfl⟩, rfl⟩
  · rw [hvalue]
    exact hrva
  · intro hzero
    have := congrArg UInt64.toNat hzero
    rw [hvalue] at this
    exact absurd this (Nat.pos_iff_ne_zero.mp hpositive)
  · rw [UInt8.toNat_ofNat']
    omega

/-! ## Texts that can be encoded -/

/-- No lone surrogates. -/
def Encodable (text : Str) : Prop := ∀ c ∈ text, isSurrogate c = false

theorem encodable_str (literal : String) : Encodable (str literal) := by
  intro c hc
  obtain ⟨char, -, rfl⟩ := List.mem_map.mp hc
  have hvalid := char.valid
  change char.toNat < 0xD800 ∨ 0xDFFF < char.toNat ∧ char.toNat < 0x110000 at hvalid
  have hvalue : (Fin.ofNat 0x110000 char.toNat).val = char.toNat := by
    rw [Fin.val_ofNat]
    omega
  unfold isSurrogate
  rw [hvalue, Bool.and_eq_false_iff, decide_eq_false_iff_not, decide_eq_false_iff_not]
  omega

theorem encodable_nil : Encodable [] := nofun

theorem encodable_append {first second : Str} (hfirst : Encodable first)
    (hsecond : Encodable second) : Encodable (first ++ second) :=
  List.forall_mem_append.mpr ⟨hfirst, hsecond⟩

/-- Texts put together with a separator. -/
theorem encodable_intersperse {texts : List Str} (h : ∀ text ∈ texts, Encodable text)
    (separator : String) : Encodable (texts.intersperse (str separator)).flatten := by
  induction texts with
  | nil => exact encodable_nil
  | cons first rest ih =>
      have hfirst := h first List.mem_cons_self
      have hrest := ih fun text htext => h text (List.mem_cons_of_mem _ htext)
      cases rest with
      | nil => exact encodable_append hfirst encodable_nil
      | cons second rest =>
          rw [List.intersperse_cons_cons, List.flatten_cons, List.flatten_cons]
          exact encodable_append hfirst (encodable_append (encodable_str separator) hrest)

theorem encodable_of_matchesHex64 {text : Str} (h : matchesHex64 text = true) :
    Encodable text := by
  intro c hc
  have hhex : isHex c = true := by
    rw [isHex, List.all_eq_true.mp (Bool.and_eq_true_iff.mp h).2 c hc]
    rfl
  have hascii : c.val < 0x80 := (isHex_spec hhex).2.2
  unfold isSurrogate
  rw [Bool.and_eq_false_iff, decide_eq_false_iff_not]
  omega

theorem returns_written {lines : List Str} (h : ∀ line ∈ lines, Encodable line) :
    Returns (written lines) := by
  have hnone : (lines.intersperse (str "\n")).flatten.any isSurrogate = false :=
    List.any_eq_false.mpr fun c hc => by
      rw [encodable_intersperse h "\n" c hc]
      exact Bool.false_ne_true
  rw [written, encodeUtf8, hnone]
  exact ⟨_, rfl⟩

theorem encodable_enumerator {id : Str} (h : id ∈ requiredSymbols) :
    Encodable (enumerator id) := by
  obtain ⟨entry, -, hentry⟩ := List.mem_map.mp (lookup_symbolEnum h).2
  rw [← (Prod.mk.inj hentry).2]
  exact encodable_str _

theorem encodable_line {entry : GeneratedSymbolEntry} (h : Encodable entry.symbol) :
    Encodable entry.line := by
  have hbytes : Encodable (joined (entry.fingerprint.toList.map byteLiteral)) := by
    refine encodable_intersperse (fun text htext => ?_) ", "
    obtain ⟨value, -, rfl⟩ := List.mem_map.mp htext
    exact encodable_append (encodable_str _) (encodable_str _)
  unfold GeneratedSymbolEntry.line entryLine
  exact encodable_append (encodable_append (encodable_append (encodable_append (encodable_append
    (encodable_append (encodable_append (encodable_append (encodable_str _) h) (encodable_str _))
      (encodable_str _)) (encodable_str _)) hbytes) (encodable_str _)) (encodable_str _))
    (encodable_str _)

/-- A gate whose texts can be encoded can be written. -/
theorem returns_written_lines {gate : GeneratedGate} (hbds : Encodable gate.bdsPackageVersion)
    (hruntime : Encodable gate.runtimeBds) (hendstone : Encodable gate.endstoneVersion)
    (hplatform : Encodable gate.platform) (harchive : Encodable gate.archiveSha256)
    (hsha256 : Encodable gate.executableSha256)
    (hsymbols : ∀ entry ∈ gate.symbols, Encodable entry.symbol) :
    Returns (written gate.lines) := by
  have hentries : ∀ line ∈ gate.symbols.map GeneratedSymbolEntry.line, Encodable line := by
    intro line hline
    obtain ⟨entry, hentry, rfl⟩ := List.mem_map.mp hline
    exact encodable_line (hsymbols entry hentry)
  refine returns_written ?_
  unfold GeneratedGate.lines headerLines
  simp only [List.forall_mem_append, List.forall_mem_cons, encodable_str, encodable_nil,
    encodable_append, hbds, hruntime, hendstone, hplatform, harchive, hsha256, true_and]
  exact ⟨⟨nofun, hentries⟩, nofun⟩

/-! ## Accepted manifests -/

section Accepted

variable {host : Host} {data : List (Str × PyJson)}

theorem exists_rva {items : List (Str × PyJson)} (h : isPositiveInt (field items "rva") = true) :
    ∃ rva : Nat, field items "rva" = .int rva ∧ 0 < rva := by
  unfold isPositiveInt at h
  split at h
  · next value hvalue =>
    have hpositive : 0 < value := of_decide_eq_true h
    refine ⟨value.toNat, ?_, by omega⟩
    rw [hvalue, Int.toNat_of_nonneg (Int.le_of_lt hpositive)]
  · cases h

/-- What a fingerprint that is a text decodes to. -/
theorem SymbolVerified.decodes {items : List (Str × PyJson)} (h : SymbolVerified host items)
    {text : Str} (htext : field items "fingerprint_hex" = .str text) :
    ∃ bytes, fromHex (.str text) = .ok bytes ∧ 1 ≤ bytes.length ∧ bytes.length ≤ 24 := by
  obtain ⟨fingerprint, hfingerprint, hmatches⟩ := h.fingerprint
  rw [field, lookup_of_field htext (by simp), Option.getD_some] at hfingerprint
  rw [Except.ok.inj hfingerprint]
  exact fromHex_of_matchesFingerprint hmatches

variable {Path : Type} {files : FileTree Path} {root : Path}

/-- What the platform of an accepted manifest gives the generator. -/
theorem Verified.platform (h : Verified host files root data) :
    ∃ platform archive, Encodable platform ∧ Encodable archive ∧
      field data "platform" = .str platform ∧ field data "archive_sha256" = .str archive := by
  obtain ⟨platform, hmem, hgives⟩ := h.identified.platform
  rw [supportedPlatforms_archives] at hmem
  obtain ⟨archive, hlookup, hentry⟩ := exists_lookup hmem
  have harchive := h.archive
  rw [departs, hgives, expectedOf, hlookup, Option.any_some, Bool.not_eq_false'] at harchive
  have htable : ∀ entry ∈ expectedArchives, Encodable entry.1 ∧ Encodable entry.2 := by
    simp only [expectedArchives, List.forall_mem_cons, encodable_str, true_and, and_true]
    exact fun _ hmem => absurd hmem List.not_mem_nil
  exact ⟨platform, archive, (htable _ hentry).1, (htable _ hentry).2, hgives,
    eq_of_isText harchive⟩

/-- What the executable of an accepted manifest gives the generator. -/
theorem Verified.digest (h : Verified host files root data) :
    ∃ items sha256 digest, field data "executable" = .dict items ∧
      items.lookup (str "sha256") = some sha256 ∧ host.text sha256 = .ok digest ∧
      Encodable digest := by
  obtain ⟨digest, hdigest, hhash⟩ := h.executable
  cases hlookup : (mapping (field data "executable")).lookup (str "sha256") with
  | none =>
      -- the text of an absent digest is empty
      rw [field, hlookup] at hdigest
      rw [← Except.ok.inj hdigest] at hhash
      cases hhash
  | some sha256 =>
      rw [field, hlookup] at hdigest
      cases hitems : field data "executable" with
      | dict items =>
          rw [hitems] at hlookup
          exact ⟨items, sha256, digest, rfl, hlookup, hdigest, encodable_of_matchesHex64 hhash⟩
      | _ =>
          rw [hitems] at hlookup
          cases hlookup

/-- Entries for all symbols, in their order. -/
theorem exists_table {R : PyJson → GeneratedSymbolEntry → Prop} {symbols : List PyJson}
    (h : ∀ symbol ∈ symbols, ∃ id entry, identifier symbol = some id ∧ R symbol entry ∧
      entry.symbol = enumerator id) :
    ∃ table, List.Forall₂ R symbols table ∧
      table.map GeneratedSymbolEntry.symbol = (symbols.filterMap identifier).map enumerator := by
  induction symbols with
  | nil => exact ⟨[], .nil, rfl⟩
  | cons symbol rest ih =>
      obtain ⟨id, entry, hid, hrelated, hname⟩ := h symbol List.mem_cons_self
      obtain ⟨table, htable, hnames⟩ := ih fun other hother => h other
        (List.mem_cons_of_mem _ hother)
      refine ⟨entry :: table, .cons hrelated htable, ?_⟩
      rw [List.map_cons, hnames, hname, List.filterMap_cons_some hid, List.map_cons]

theorem exists_declares_of_mem {symbols : List PyJson} {table : List GeneratedSymbolEntry}
    (h : List.Forall₂ Declares symbols table) {symbol : PyJson} (hsymbol : symbol ∈ symbols) :
    ∃ entry, Declares symbol entry := by
  induction h with
  | nil => exact absurd hsymbol List.not_mem_nil
  | cons hfirst _ ih =>
      rcases List.mem_cons.mp hsymbol with rfl | hrest
      · exact ⟨_, hfirst⟩
      · exact ih hrest

/-- The numbers of a generated gate fit, and its fingerprints were texts. -/
theorem representable_of_generates {data : PyJson} (h : GeneratesGate host data) :
    Representable data := by
  obtain ⟨gate, -, -, -, htable, hsize⟩ := h
  refine ⟨⟨_, hsize, gate.executableSize.toNat_lt⟩, fun symbol hsymbol => ?_,
    fun symbol hsymbol => ?_⟩
  · obtain ⟨entry, hdeclares⟩ := exists_declares_of_mem htable hsymbol
    exact ⟨_, hdeclares.rva, entry.rva.toNat_lt⟩
  · obtain ⟨entry, hdeclares⟩ := exists_declares_of_mem htable hsymbol
    obtain ⟨bytes, hbytes, -⟩ := hdeclares.fingerprint
    unfold fromHex at hbytes
    split at hbytes
    · next text htext => exact ⟨text, htext⟩
    · cases hbytes

theorem interpolated_str (host : Host) (text : Str) :
    interpolated host (.str text) = .ok text := rfl

/-- A 64-bit number is written in full. -/
theorem text_natCast (host : Host) {n : Nat} (h : n < 2 ^ 64) :
    host.text (.int n) = .ok (str (toString n)) := by
  have htwenty : n < 10 ^ 20 := Nat.lt_trans h (by decide)
  have hpow : ∀ k, 20 ≤ k → 10 ^ 20 ≤ 10 ^ k := fun k => Nat.pow_le_pow_right (by decide)
  have hshort : ¬ 10 ^ 4300 ≤ (n : Int).natAbs := by
    rw [Int.natAbs_natCast, Nat.not_le]
    exact Nat.lt_of_lt_of_le htwenty (hpow _ (by decide))
  rw [Host.text, intText, if_neg hshort]
  rfl

/-- The header, from what the fields of the manifest are. -/
theorem generatedHeader_eq {data : PyJson} {symbols : List PyJson} {lines : List Str}
    {bds runtime endstone platform archive digest size : Str} {executable sha256 sizeField : PyJson}
    (hsymbols : subscript data "symbols" = .ok (.list symbols))
    (hlines : symbols.mapM symbolLine = .ok lines)
    (hbds : subscript data "bds_package_version" = .ok (.str bds))
    (hruntime : subscript data "runtime_bds" = .ok (.str runtime))
    (hendstone : subscript data "endstone_version" = .ok (.str endstone))
    (hplatform : subscript data "platform" = .ok (.str platform))
    (harchive : subscript data "archive_sha256" = .ok (.str archive))
    (hexecutable : subscript data "executable" = .ok executable)
    (hsha256 : subscript executable "sha256" = .ok sha256)
    (hdigest : interpolated host sha256 = .ok digest)
    (hsize : subscript executable "size" = .ok sizeField)
    (hsizeText : interpolated host sizeField = .ok size) :
    generatedHeader host data =
      written (headerLines bds runtime endstone platform archive digest size lines) := by
  rw [generatedHeader, hsymbols, ok_bind, iterate, ok_bind, hlines, ok_bind, hbds, ok_bind,
    interpolated_str, ok_bind, hruntime, ok_bind, interpolated_str, ok_bind, hendstone, ok_bind,
    interpolated_str, ok_bind, hplatform, ok_bind, interpolated_str, ok_bind, harchive, ok_bind,
    interpolated_str, ok_bind, hexecutable, ok_bind, hsha256, ok_bind, hdigest, ok_bind, ok_bind,
    hsize, ok_bind, hsizeText, ok_bind]

/-- The entry and the line of a symbol that an accepted manifest gives. -/
theorem Verified.exists_entry_line (hverified : Verified host files root data)
    (h : Representable (.dict data)) {symbol : PyJson}
    (hsymbol : symbol ∈ elements (field data "symbols")) :
    ∃ id entry, identifier symbol = some id ∧
      (Declares symbol entry ∧ symbolLine symbol = .ok entry.line) ∧
      entry.symbol = enumerator id := by
  obtain ⟨id, hrequired, items, rfl, hid, rfl⟩ := entryOf_identified hverified.exact_ hsymbol
  have hchecked := hverified.symbols id hrequired
  obtain ⟨rva, hrva, hpositive⟩ := exists_rva hchecked.rva
  obtain ⟨rva', hrva', hfits⟩ := h.rva _ hsymbol
  obtain ⟨text, htext⟩ := h.fingerprint _ hsymbol
  obtain ⟨bytes, hbytes, hone, hle⟩ := hchecked.decodes htext
  obtain rfl : rva = rva' := Int.ofNat.inj (PyJson.int.inj (hrva.symm.trans hrva'))
  rw [← htext] at hbytes
  have hdeclared : ∃ entry, Declares (.dict (entryOf data id)) entry ∧
      entry.symbol = enumerator id := exists_declares hid hrva hpositive hfits hbytes hone hle
  obtain ⟨entry, hdeclares, hname⟩ := hdeclared
  refine ⟨id, entry, ?_, ⟨hdeclares, symbolLine_of_declares hdeclares fun other hother => ?_⟩,
    hname⟩
  · rw [identifier, hid]
  · rwa [← PyJson.str.inj (hid.symm.trans hother)]

/-- The table of an accepted manifest. -/
theorem Verified.table (hverified : Verified host files root data)
    (h : Representable (.dict data)) :
    ∃ table, List.Forall₂ Declares (elements (field data "symbols")) table ∧
      (elements (field data "symbols")).mapM symbolLine =
        .ok (table.map GeneratedSymbolEntry.line) ∧
      (table.map GeneratedSymbolEntry.symbol).Perm (requiredSymbols.map enumerator) := by
  obtain ⟨table, htable, hnames⟩ :=
    exists_table fun _ hsymbol => hverified.exists_entry_line h hsymbol
  refine ⟨table, htable.imp fun _ _ h => h.1, mapM_eq_ok ?_, ?_⟩
  · rw [List.forall₂_map_right_iff]
    exact htable.imp fun _ _ h => h.2
  · rw [hnames]
    exact hverified.exact_.perm.map enumerator

/-- A representable manifest that the validator accepts opens the gate. -/
theorem generates_of_representable {data : PyJson}
    (hvalid : validationErrors host files root data = .ok []) (h : Representable data) :
    GeneratesGate host data := by
  obtain ⟨manifest, rfl, hverified⟩ := accepted_iff.mp hvalid
  obtain ⟨table, hdeclares, hlines, hnames⟩ := hverified.table h
  obtain ⟨platform, archive, hplatform, harchive, hplatformField, harchiveField⟩ :=
    hverified.platform
  obtain ⟨items, sha256, digest, hitems, hsha256, htext, hdigest⟩ := hverified.digest
  have hbds := eq_of_isText hverified.identified.bdsPackageVersion
  have hruntime := eq_of_isText hverified.identified.runtimeBds
  have hendstone := eq_of_isText hverified.identified.endstoneVersion
  obtain ⟨size, hsize, hfits⟩ := h.size
  have hitemsSize : field items "size" = .int size := by
    change field (mapping (field manifest "executable")) "size" = .int size at hsize
    rwa [hitems] at hsize
  have hvalue : (UInt64.ofNat size).toNat = size := by
    rw [UInt64.toNat_ofNat']
    omega
  have hsizeText : interpolated host (.int size) =
      .ok (str (toString (UInt64.ofNat size).toNat)) := by
    rw [hvalue, interpolated, text_natCast host hfits]
    rfl
  have hgate : generatedHeader host (.dict manifest) = written (GeneratedGate.lines
      ⟨str "1.26.33.1", str "26.33", str "0.11.6", platform, archive, digest, UInt64.ofNat size,
        table⟩) := by
    refine generatedHeader_eq (subscript_of_field hverified.exact_.list (by simp)) hlines
      (subscript_of_field hbds (by simp)) (subscript_of_field hruntime (by simp))
      (subscript_of_field hendstone (by simp)) (subscript_of_field hplatformField (by simp))
      (subscript_of_field harchiveField (by simp))
      (subscript_of_field hitems (by simp)) (subscript_of_lookup hsha256) ?_
      (subscript_of_field hitemsSize (by simp)) hsizeText
    rw [interpolated, htext]
    rfl
  have hsymbolTexts : ∀ entry ∈ table, Encodable entry.symbol := by
    intro entry hentry
    obtain ⟨id, hid, hname⟩ := List.mem_map.mp (hnames.mem_iff.mp (List.mem_map_of_mem hentry))
    exact hname ▸ encodable_enumerator hid
  refine ⟨_, hgate, ?_, hnames, hdeclares, ?_⟩
  · rw [hgate]
    exact returns_written_lines (encodable_str _) (encodable_str _) (encodable_str _) hplatform
      harchive hdigest hsymbolTexts
  · rw [hvalue]
    exact hsize

/-- **When an accepted manifest opens the gate.** -/
theorem gate_generated_iff {data : PyJson}
    (h : validationErrors host files root data = .ok []) :
    GeneratesGate host data ↔ Representable data :=
  ⟨representable_of_generates, generates_of_representable h⟩

end Accepted

theorem gate_generated_iff_forged : GeneratesGate emptyHost (.dict forged) := by
  have hsymbols : elements (field (mapping (.dict forged)) "symbols") =
      requiredSymbols.map fun symbol => .dict (forgedSymbol symbol) := rfl
  refine (gate_generated_iff forged_accepted).mpr ⟨⟨1, rfl, by decide⟩, ?_, ?_⟩
  · rw [hsymbols]
    intro symbol hsymbol
    obtain ⟨id, -, rfl⟩ := List.mem_map.mp hsymbol
    exact ⟨1, rfl, by decide⟩
  · rw [hsymbols]
    intro symbol hsymbol
    obtain ⟨id, -, rfl⟩ := List.mem_map.mp hsymbol
    exact ⟨str "aa", rfl⟩

/-! ## Manifests with other symbols -/

/-- The manifest with other entries for its symbols. -/
def withSymbols (entries : List PyJson) (data : List (Str × PyJson)) : List (Str × PyJson) :=
  data.map fun item => if item.1 = str "symbols" then (item.1, .list entries) else item

theorem withSymbols_cons (entries : List PyJson) (key : Str) (value : PyJson)
    (rest : List (Str × PyJson)) :
    withSymbols entries ((key, value) :: rest) =
      (key, if key = str "symbols" then .list entries else value) :: withSymbols entries rest := by
  rw [withSymbols, List.map_cons, withSymbols]
  split <;> rfl

theorem field_withSymbols {entries : List PyJson} {data : List (Str × PyJson)} {name : String}
    (h : name ≠ "symbols") (default : PyJson) :
    field (withSymbols entries data) name default = field data name default := by
  have hname : str name ≠ str "symbols" := fun hsame => h (str_injective hsame)
  have hlookup : (withSymbols entries data).lookup (str name) = data.lookup (str name) := by
    induction data with
    | nil => rfl
    | cons item rest ih =>
        rw [withSymbols_cons, List.lookup_cons, List.lookup_cons, ih]
        by_cases hkey : item.1 = str "symbols"
        · rw [hkey, beq_false_of_ne hname]
        · rw [if_neg hkey]
  rw [field, field, hlookup]

theorem field_withSymbols_symbols {entries : List PyJson} {data : List (Str × PyJson)}
    (h : str "symbols" ∈ data.map Prod.fst) :
    field (withSymbols entries data) "symbols" = .list entries := by
  have hlookup : (withSymbols entries data).lookup (str "symbols") = some (.list entries) := by
    induction data with
    | nil => exact absurd h List.not_mem_nil
    | cons item rest ih =>
        rw [withSymbols_cons, List.lookup_cons]
        by_cases hkey : item.1 = str "symbols"
        · rw [if_pos hkey, hkey, BEq.rfl]
        · rw [beq_false_of_ne (Ne.symm hkey)]
          exact ih ((List.mem_cons.mp h).resolve_left (Ne.symm hkey))
  rw [field, hlookup, Option.getD_some]

section OtherSymbols

variable {host : Host} {Path : Type} {files : FileTree Path} {root : Path}
  {data : List (Str × PyJson)}

/-- The other sections do not look at the symbols. -/
theorem accepted_withSymbols {entries : List PyJson}
    (h : validationErrors host files root (.dict data) = .ok [])
    (hsymbols : symbolsErrors host (withSymbols entries data) = .ok []) :
    validationErrors host files root (.dict (withSymbols entries data)) = .ok [] := by
  obtain ⟨identity, hidentity, h⟩ := bind_eq_ok.mp h
  obtain ⟨executable, hexecutable, h⟩ := bind_eq_ok.mp h
  obtain ⟨abi, habi, h⟩ := bind_eq_ok.mp h
  obtain ⟨symbols, -, h⟩ := bind_eq_ok.mp h
  obtain ⟨stageProbe, hstageProbe, h⟩ := bind_eq_ok.mp h
  obtain ⟨bridge, hbridge, h⟩ := bind_eq_ok.mp h
  have hempty := Except.ok.inj h
  simp only [List.append_eq_nil_iff] at hempty
  obtain ⟨⟨⟨⟨⟨⟨⟨⟨rfl, rfl⟩, rfl⟩, -⟩, hhooks⟩, hstorage⟩, rfl⟩, rfl⟩, hstatus⟩ := hempty
  refine bind_eq_ok.mpr ⟨[], ?_, bind_eq_ok.mpr ⟨[], ?_, bind_eq_ok.mpr ⟨[], ?_,
    bind_eq_ok.mpr ⟨[], hsymbols, bind_eq_ok.mpr ⟨[], ?_, bind_eq_ok.mpr ⟨[], ?_,
      congrArg Except.ok ?_⟩⟩⟩⟩⟩⟩
  · rw [← hidentity]
    simp (disch := decide) only [identityErrors, field_withSymbols]
  · rw [← hexecutable]
    simp (disch := decide) only [executableErrors, field_withSymbols]
  · rw [← habi]
    simp (disch := decide) only [abiErrors, field_withSymbols]
  · rw [← hstageProbe]
    simp (disch := decide) only [stageProbeErrors, field_withSymbols]
  · rw [← hbridge]
    simp (disch := decide) only [bridgeErrors, field_withSymbols]
  · rw [flagErrors] at hhooks hstorage
    simp (disch := decide) only [flagErrors, field_withSymbols, hhooks, hstorage, hstatus,
      List.append_nil]

end OtherSymbols

/-! ## Fingerprints that are numbers -/

/-- The forged entry of a symbol, with a number for its fingerprint. -/
def numberedSymbol (symbol : Str) : List (Str × PyJson) :=
  [(str "id", .str symbol), (str "rva", .int 1), (str "fingerprint_hex", .int 10),
      (str "verification_notes", .str (str "forged"))] ++
    allTrue [str "resolved", str "unique", str "signature_verified", str "behavior_verified"]

def numbered : List (Str × PyJson) :=
  withSymbols (requiredSymbols.map fun symbol => .dict (numberedSymbol symbol)) forged

theorem field_numbered : field numbered "symbols" =
    .list (requiredSymbols.map fun symbol => .dict (numberedSymbol symbol)) :=
  field_withSymbols_symbols (List.mem_of_getElem? (i := 11) rfl)

theorem numberedSymbol_verified (symbol : Str) :
    SymbolVerified emptyHost (numberedSymbol symbol) where
  flags := by
    simp only [symbolFlags, List.forall_mem_cons, List.not_mem_nil, false_implies, implies_true,
      and_true]
    exact ⟨rfl, rfl, rfl, rfl⟩
  rva := rfl
  fingerprint := ⟨str "10", text_natCast emptyHost (by decide), by decide⟩
  notes := (forgedSymbol_verified symbol).notes

theorem numbered_accepted :
    validationErrors emptyHost emptyTree (str "/srv") (.dict numbered) = .ok [] :=
  accepted_withSymbols forged_accepted (symbolsErrors_eq_nil.mpr
    (symbolsVerified_map field_numbered (fun _ => rfl) numberedSymbol_verified))

/-- The validator takes the number for its digits; the generator cannot decode it. -/
theorem numbered_raises :
    validationErrors emptyHost emptyTree (str "/srv") (.dict numbered) = .ok [] ∧
    generatedHeader emptyHost (.dict numbered) =
      typeError (str "fromhex() argument must be str, not " ++ str "int") ∧
    ¬ GeneratesGate emptyHost (.dict numbered) := by
  have hraises : generatedHeader emptyHost (.dict numbered) =
      typeError (str "fromhex() argument must be str, not " ++ str "int") := by
    have hsymbols : subscript (.dict numbered) "symbols" = .ok _ :=
      subscript_of_field field_numbered (by simp)
    rw [generatedHeader, hsymbols]
    rfl
  refine ⟨numbered_accepted, hraises, fun h => ?_⟩
  obtain ⟨gate, -, ⟨header, hheader⟩, -⟩ := h
  rw [hraises] at hheader
  cases hheader

end DynamicProperties.Python.Native
