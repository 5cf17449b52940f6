import DynamicProperties.Library.Fallible
import DynamicProperties.Python.StageReport
import DynamicProperties.Python.Text

/-!
# What the validators accept, and when they return

`Verified` lists what `_validation_errors` asks of a manifest and `ReportVerified` what
`validate` asks of a report; both accept what they list and nothing else.  Section by
section, a validator returns where `str()` returns for the hashes, where the platform can
be looked up in a set, and where the paths of the evidence can be resolved.
-/

namespace DynamicProperties.Python.Native

open DynamicProperties.Library
open DynamicProperties.Library.Fallible

/-! ## Empty lists of errors -/

@[simp] theorem complain_eq_nil {wrong : Bool} {message : Str} :
    complain wrong message = [] ↔ wrong = false := by
  cases wrong <;> simp [complain]

theorem complainEach_eq_nil {errors : Str → Except NativeError (List Str)} {names : List Str} :
    complainEach errors names = .ok [] ↔ ∀ name ∈ names, errors name = .ok [] := by
  induction names with
  | nil => exact ⟨fun _ _ h => absurd h List.not_mem_nil, fun _ => rfl⟩
  | cons name rest ih =>
      rw [List.forall_mem_cons, ← ih, complainEach, bind_eq_ok]
      constructor
      · rintro ⟨first, hfirst, h⟩
        obtain ⟨others, hothers, h⟩ := bind_eq_ok.mp h
        obtain ⟨rfl, rfl⟩ := List.append_eq_nil_iff.mp (Except.ok.inj h)
        exact ⟨hfirst, hothers⟩
      · rintro ⟨hfirst, hothers⟩
        exact ⟨[], hfirst, bind_eq_ok.mpr ⟨[], hothers, rfl⟩⟩

theorem sameNames_iff {names others : List Str} :
    sameNames names others = true ↔ ∀ name, name ∈ names ↔ name ∈ others := by
  rw [sameNames, Bool.and_eq_true_iff, List.all_eq_true, List.all_eq_true]
  simp only [List.contains_iff_mem]
  exact ⟨fun ⟨h, h'⟩ name => ⟨h name, h' name⟩,
    fun h => ⟨fun name => (h name).mp, fun name => (h name).mpr⟩⟩

theorem returns_complainEach {errors : Str → Except NativeError (List Str)} {names : List Str} :
    Returns (complainEach errors names) ↔ ∀ name ∈ names, Returns (errors name) := by
  induction names with
  | nil => exact ⟨fun _ _ h => absurd h List.not_mem_nil, fun _ => returns_ok []⟩
  | cons name rest ih =>
      rw [List.forall_mem_cons, ← ih, complainEach, returns_bind]
      constructor
      · rintro ⟨first, hfirst, h⟩
        exact ⟨⟨first, hfirst⟩, returns_bind_pure.mp h⟩
      · rintro ⟨⟨first, hfirst⟩, h⟩
        exact ⟨first, hfirst, returns_bind_pure.mpr h⟩

/-! ## Tables and fields -/

theorem str_injective : Function.Injective str := fun _ _ h =>
  String.toList_inj.mp (List.map_injective_iff.mpr codePoint_injective h)

theorem requiredSymbols_nodup : requiredSymbols.Nodup :=
  List.Nodup.map str_injective (by simp)

/-- A field with a value is there. -/
theorem lookup_of_field {items : List (Str × PyJson)} {key : String} {found : PyJson}
    (h : field items key = found) (hfound : found ≠ .none) :
    items.lookup (str key) = some found := by
  unfold field at h
  cases hlookup : items.lookup (str key) with
  | none =>
      rw [hlookup] at h
      exact absurd h.symm hfound
  | some value =>
      rw [hlookup] at h
      exact congrArg some h

/-- A key of a table has a value. -/
theorem exists_lookup {table : List (Str × Str)} {key : Str} (h : key ∈ table.map Prod.fst) :
    ∃ value, table.lookup key = some value ∧ (key, value) ∈ table := by
  cases hlookup : table.lookup key with
  | none =>
      obtain ⟨entry, hentry, rfl⟩ := List.mem_map.mp h
      exact absurd (List.lookup_eq_none_iff.mp hlookup entry hentry) (by simp)
  | some value =>
      obtain ⟨front, back, hsplit, -⟩ := List.lookup_eq_some_iff.mp hlookup
      refine ⟨value, rfl, ?_⟩
      rw [hsplit]
      exact List.mem_append_right _ List.mem_cons_self

theorem eq_of_isText {value : PyJson} {text : Str} (h : isText value text = true) :
    value = .str text := by
  unfold isText at h
  split at h
  · rw [of_decide_eq_true h]
  · cases h

/-! ## Symbols by identifier -/

/-- The elements of a list, and of nothing else. -/
def elements : PyJson → List PyJson
  | .list entries => entries
  | _ => []

/-- The identifier of an entry, where it has one. -/
def identifier : PyJson → Option Str
  | .dict items =>
      match field items "id" with
      | .str id => some id
      | _ => none
  | _ => none

theorem identifier_some {entry : PyJson} {id : Str} (h : identifier entry = some id) :
    ∃ items, entry = .dict items ∧ field items "id" = .str id := by
  unfold identifier at h
  split at h
  · next items =>
    split at h
    · next found hfound => exact ⟨items, rfl, by rw [hfound, Option.some.inj h]⟩
    · cases h
  · cases h

theorem symbolTable_append (entries : List PyJson) (last : PyJson) :
    symbolTable (entries ++ [last]) =
      match identifier last with
      | some id => (symbolTable entries).insert id (mapping last)
      | none => symbolTable entries := by
  rw [symbolTable, List.foldl_append]
  cases last with
  | dict items =>
      simp only [List.foldl_cons, List.foldl_nil, identifier]
      cases field items "id" <;> rfl
  | _ => rfl

theorem mem_symbolTable {entries : List PyJson} {id : Str} :
    id ∈ (symbolTable entries).keys ↔ id ∈ entries.filterMap identifier := by
  induction entries using List.reverseRecOn with
  | nil => simp [symbolTable]
  | append_singleton rest last ih =>
      rw [symbolTable_append, List.filterMap_append]
      cases hid : identifier last with
      | none => simp [hid, ih]
      | some other =>
          show id ∈ ((symbolTable rest).insert other (mapping last)).keys ↔ _
          rw [← AList.mem_keys, AList.mem_insert, AList.mem_keys, ih]
          simp [hid, or_comm]

/-- An entry whose identifier no other one has is the one the table gives. -/
theorem lookup_symbolTable {entries : List PyJson} (hnodup : (entries.filterMap identifier).Nodup)
    {entry : PyJson} (hmem : entry ∈ entries) {id : Str} (hid : identifier entry = some id) :
    (symbolTable entries).lookup id = some (mapping entry) := by
  induction entries using List.reverseRecOn with
  | nil => exact absurd hmem List.not_mem_nil
  | append_singleton rest last ih =>
      rw [List.filterMap_append] at hnodup
      have hrest := (List.nodup_append.mp hnodup).1
      rw [symbolTable_append]
      rcases List.mem_append.mp hmem with hmem | hmem
      · have hin : id ∈ rest.filterMap identifier := List.mem_filterMap.mpr ⟨entry, hmem, hid⟩
        cases hlast : identifier last with
        | none => exact ih hrest hmem
        | some other =>
            have hne : id ≠ other := by
              rintro rfl
              exact (List.nodup_append.mp hnodup).2.2 id hin id (by simp [hlast]) rfl
            show ((symbolTable rest).insert other (mapping last)).lookup id = _
            rw [AList.lookup_insert_ne hne]
            exact ih hrest hmem
      · obtain rfl := List.mem_singleton.mp hmem
        rw [hid]
        exact AList.lookup_insert _

/-- Entries whose identifiers are the required symbols, each once. -/
structure ExactSymbols (entries : List PyJson) : Prop where
  identified : ∀ entry ∈ entries, ∃ id, identifier entry = some id
  nodup : (entries.filterMap identifier).Nodup
  perm : (entries.filterMap identifier).Perm requiredSymbols

theorem exactSymbols_of_lengths {entries : List PyJson}
    (hnames : sameNames (symbolTable entries).keys requiredSymbols = true)
    (hlength : (symbolTable entries).keys.length = entries.length) : ExactSymbols entries := by
  have hkeys : (symbolTable entries).keys.Perm (entries.filterMap identifier).dedup :=
    (List.perm_ext_iff_of_nodup (AList.keys_nodup _) (List.nodup_dedup _)).mpr fun id => by
      rw [List.mem_dedup, mem_symbolTable]
  have hdedup := (entries.filterMap identifier).dedup_sublist.length_le
  have hids := List.length_filterMap_le identifier entries
  have heq := hkeys.length_eq
  have hnodup : (entries.filterMap identifier).Nodup := by
    rw [← (entries.filterMap identifier).dedup_sublist.eq_of_length (by omega)]
    exact List.nodup_dedup _
  refine ⟨?_, hnodup, ?_⟩
  · have hall := List.filterMap_length_eq_length.mp (show
      (entries.filterMap identifier).length = entries.length by omega)
    exact fun entry hentry => Option.isSome_iff_exists.mp (hall entry hentry)
  · exact (List.perm_ext_iff_of_nodup hnodup requiredSymbols_nodup).mpr fun id => by
      rw [← mem_symbolTable]
      exact sameNames_iff.mp hnames id

/-! ## What is asked -/

/-- The text of the value passes. -/
def Spells (host : Host) (passes : Str → Bool) (value : PyJson) : Prop :=
  ∃ text, host.text value = .ok text ∧ passes text = true

/-- An even number of hexadecimal digits, at most 24 bytes of them. -/
def matchesFingerprint (text : Str) : Bool :=
  matchesHexBytes text && text.length % 2 = 0 && text.length / 2 ≤ 24

/-- `symbols.get(symbol)`, as a mapping. -/
def entryOf (data : List (Str × PyJson)) (symbol : Str) : List (Str × PyJson) :=
  ((symbolTable (elements (field data "symbols"))).lookup symbol).getD []

def symbolFlags : List String := ["resolved", "unique", "signature_verified", "behavior_verified"]

structure SymbolVerified (host : Host) (entry : List (Str × PyJson)) : Prop where
  flags : ∀ flag ∈ symbolFlags, isTrue (field entry flag) = true
  rva : isPositiveInt (field entry "rva") = true
  fingerprint : Spells host matchesFingerprint (field entry "fingerprint_hex" (.str []))
  notes : hasText (field entry "verification_notes") = true

/-- The value can be an element of a set. -/
def Hashable : PyJson → Prop
  | .list _ => False
  | .dict _ => False
  | _ => True

/-- The path, if it is one below the root, can be resolved. -/
def Resolvable {Path : Type} (files : FileTree Path) (root : Path) (value : PyJson) : Prop :=
  ∀ text, value = .str text → text ≠ [] → files.isAbsolute (files.path text) = false →
    Returns (files.resolve (files.join root (files.path text)))

/-- The file system answers, except perhaps about paths with a NUL. -/
structure Answers {Path : Type} (files : FileTree Path) (root : Path) : Prop where
  base : Returns (files.resolve root)
  resolve : ∀ text, 0 ∉ text → Returns (files.resolve (files.join root (files.path text)))
  isFile : ∀ path, Returns (files.isFile path)
  read : ∀ path, files.isFile path = .ok true → Returns (files.read path)

/-- The versions a manifest and a report have to give. -/
structure Identified (data : List (Str × PyJson)) : Prop where
  schema : equalsOne (field data "schema") = true
  platform : ∃ platform ∈ supportedPlatforms, field data "platform" = .str platform
  bdsPackageVersion : isText (field data "bds_package_version") (str "1.26.33.1") = true
  runtimeBds : isText (field data "runtime_bds") (str "26.33") = true
  endstoneVersion : isText (field data "endstone_version") (str "0.11.6") = true

/-- The stage probes of the manifest itself: all of them, and each passed. -/
structure ProbesPassed (stage : List (Str × PyJson)) : Prop where
  passed : isTrue (field stage "passed") = true
  exact_ : ∀ name, name ∈ (mapping (field stage "results")).map Prod.fst ↔
    name ∈ requiredStageProbes
  each : ∀ probe ∈ requiredStageProbes,
    isTrue (((mapping (field stage "results")).lookup probe).getD .none) = true

/-- The hash is one, the path names a regular file below the root, and the hash is its
digest. -/
structure Pinned {Path : Type} (host : Host) (files : FileTree Path) (root : Path)
    (path hash : PyJson) : Prop where
  isHash : ∃ digest, host.text hash = .ok digest ∧ matchesHex64 digest = true
  backed : ∃ text base file content, path = .str text ∧ text ≠ [] ∧
    files.isAbsolute (files.path text) = false ∧
    files.resolve (files.join root (files.path text)) = .ok file ∧
    files.resolve root = .ok base ∧ files.isRelativeTo file base = true ∧
    files.isFile file = .ok true ∧ files.read file = .ok content ∧
    host.text hash = .ok (host.sha256 content)

/-- What `_validation_errors` asks of an object. -/
structure Verified {Path : Type} (host : Host) (files : FileTree Path) (root : Path)
    (data : List (Str × PyJson)) : Prop where
  identified : Identified data
  archive : departs expectedArchives (field data "platform") (field data "archive_sha256") = false
  filename : departs expectedExecutables (field data "platform")
    (field (mapping (field data "executable")) "filename") = false
  executable : Spells host matchesHex64
    (field (mapping (field data "executable")) "sha256" (.str []))
  size : isPositiveInt (field (mapping (field data "executable")) "size") = true
  reviewed : isTrue (field (mapping (field data "abi")) "reviewed") = true
  contracts : ∀ name ∈ abiTextFields, hasText (field (mapping (field data "abi")) name) = true
  commit : Spells host matchesCommitHash
    (field (mapping (field data "abi")) "review_commit" (.str []))
  exact_ : ExactSymbols (elements (field data "symbols"))
  symbols : ∀ symbol ∈ requiredSymbols, SymbolVerified host (entryOf data symbol)
  hooks : ∀ name ∈ externalHookFields,
    isTrue (field (mapping (field data "external_hooks")) name) = true
  storage : ∀ name ∈ storageFields, isTrue (field (mapping (field data "storage")) name) = true
  probes : ProbesPassed (mapping (field data "stage_probe"))
  report : Pinned host files root (field (mapping (field data "stage_probe")) "report_path")
    (field (mapping (field data "stage_probe")) "report_sha256" (.str []))
  bridge : isTrue (field (mapping (field data "bridge")) "reviewed") = true
  source : Pinned host files root (field (mapping (field data "bridge")) "source_path")
    (field (mapping (field data "bridge")) "source_sha256" (.str []))
  status : isText (field data "status") (str "verified") = true

/-! ## Single checks -/

theorem supportedPlatforms_archives : supportedPlatforms = expectedArchives.map Prod.fst := rfl

theorem supportedPlatforms_executables :
    supportedPlatforms = expectedExecutables.map Prod.fst := rfl

section Checks

variable {host : Host} {data : List (Str × PyJson)}

theorem returns_isMember {names : List Str} {value : PyJson} :
    Returns (isMember names value) ↔ Hashable value := by
  cases value <;> simp [isMember, Hashable]

theorem isMember_eq_true {names : List Str} {value : PyJson} :
    isMember names value = .ok true ↔ ∃ text ∈ names, value = .str text := by
  constructor
  · intro h
    unfold isMember at h
    split at h
    · exact ⟨_, List.contains_iff_mem.mp (Except.ok.inj h), rfl⟩
    all_goals cases h
  · rintro ⟨text, htext, rfl⟩
    exact congrArg Except.ok (List.contains_iff_mem.mpr htext)

theorem fingerprintErrors_eq_nil {symbol text : Str} :
    fingerprintErrors symbol text = [] ↔ matchesFingerprint text = true := by
  unfold fingerprintErrors
  split
  · next hwrong =>
    refine iff_of_false (List.cons_ne_nil _ _) fun h => ?_
    simp only [matchesFingerprint, matchesHexBytes, Bool.and_eq_true, Bool.not_eq_true',
      decide_eq_true_eq] at h
    simp [matchesHexBytes, h] at hwrong
  · next hright =>
    simp only [Bool.or_eq_true, not_or, Bool.not_eq_true, Bool.not_eq_false',
      decide_eq_false_iff_not, not_not] at hright
    obtain ⟨⟨-, heven⟩, hhex⟩ := hright
    rw [complain_eq_nil, matchesFingerprint, hhex, heven]
    simp

theorem flagErrors_eq_nil {name : String} {fields : List String} :
    flagErrors name fields data = [] ↔
      ∀ flag ∈ fields, isTrue (field (mapping (field data name)) flag) = true := by
  simp only [flagErrors, List.flatMap_eq_nil_iff, complain_eq_nil, Bool.not_eq_false']

end Checks

/-! ## Sections of the manifest -/

section Sections

variable {host : Host} {data : List (Str × PyJson)}

theorem returns_identityErrors :
    Returns (identityErrors data) ↔ Hashable (field data "platform") :=
  returns_bind_pure.trans returns_isMember

theorem identityErrors_eq_nil : identityErrors data = .ok [] ↔ Identified data ∧
    departs expectedArchives (field data "platform") (field data "archive_sha256") = false := by
  constructor
  · intro h
    obtain ⟨supported, hsupported, h⟩ := bind_eq_ok.mp h
    have hempty := Except.ok.inj h
    simp only [List.append_eq_nil_iff, complain_eq_nil, Bool.not_eq_false'] at hempty
    obtain ⟨⟨⟨⟨⟨hschema, hplatform⟩, hpackage⟩, hruntime⟩, hendstone⟩, harchive⟩ := hempty
    rw [hplatform] at hsupported
    exact ⟨⟨hschema, isMember_eq_true.mp hsupported, hpackage, hruntime, hendstone⟩, harchive⟩
  · rintro ⟨h, harchive⟩
    refine bind_eq_ok.mpr ⟨true, isMember_eq_true.mpr h.platform, congrArg Except.ok ?_⟩
    simp only [List.append_eq_nil_iff, complain_eq_nil, Bool.not_eq_false']
    exact ⟨⟨⟨⟨⟨h.schema, trivial⟩, h.bdsPackageVersion⟩, h.runtimeBds⟩, h.endstoneVersion⟩,
      harchive⟩

theorem returns_executableErrors : Returns (executableErrors host data) ↔
    Returns (host.text (field (mapping (field data "executable")) "sha256" (.str []))) :=
  returns_bind_pure

theorem executableErrors_eq_nil : executableErrors host data = .ok [] ↔
    departs expectedExecutables (field data "platform")
      (field (mapping (field data "executable")) "filename") = false ∧
    Spells host matchesHex64 (field (mapping (field data "executable")) "sha256" (.str [])) ∧
    isPositiveInt (field (mapping (field data "executable")) "size") = true := by
  constructor
  · intro h
    obtain ⟨text, htext, h⟩ := bind_eq_ok.mp h
    have hempty := Except.ok.inj h
    simp only [List.append_eq_nil_iff, complain_eq_nil, Bool.not_eq_false'] at hempty
    exact ⟨hempty.1.1, ⟨text, htext, hempty.1.2⟩, hempty.2⟩
  · rintro ⟨hfilename, ⟨text, htext, hhash⟩, hsize⟩
    refine bind_eq_ok.mpr ⟨text, htext, congrArg Except.ok ?_⟩
    simp only [List.append_eq_nil_iff, complain_eq_nil, Bool.not_eq_false']
    exact ⟨⟨hfilename, hhash⟩, hsize⟩

theorem returns_abiErrors : Returns (abiErrors host data) ↔
    Returns (host.text (field (mapping (field data "abi")) "review_commit" (.str []))) :=
  returns_bind_pure

theorem abiErrors_eq_nil : abiErrors host data = .ok [] ↔
    isTrue (field (mapping (field data "abi")) "reviewed") = true ∧
    (∀ name ∈ abiTextFields, hasText (field (mapping (field data "abi")) name) = true) ∧
    Spells host matchesCommitHash
      (field (mapping (field data "abi")) "review_commit" (.str [])) := by
  constructor
  · intro h
    obtain ⟨text, htext, h⟩ := bind_eq_ok.mp h
    have hempty := Except.ok.inj h
    simp only [List.append_eq_nil_iff, complain_eq_nil, Bool.not_eq_false',
      List.flatMap_eq_nil_iff] at hempty
    exact ⟨hempty.1.1, hempty.1.2, text, htext, hempty.2⟩
  · rintro ⟨hreviewed, hcontracts, text, htext, hcommit⟩
    refine bind_eq_ok.mpr ⟨text, htext, congrArg Except.ok ?_⟩
    simp only [List.append_eq_nil_iff, complain_eq_nil, Bool.not_eq_false',
      List.flatMap_eq_nil_iff]
    exact ⟨⟨hreviewed, hcontracts⟩, hcommit⟩

theorem returns_symbolErrors {table : AList fun _ : Str => List (Str × PyJson)} {symbol : Str} :
    Returns (symbolErrors host table symbol) ↔
      Returns (host.text (field ((table.lookup symbol).getD []) "fingerprint_hex" (.str []))) :=
  returns_bind_pure

theorem symbolErrors_eq_nil {table : AList fun _ : Str => List (Str × PyJson)} {symbol : Str} :
    symbolErrors host table symbol = .ok [] ↔
      SymbolVerified host ((table.lookup symbol).getD []) := by
  constructor
  · intro h
    obtain ⟨text, htext, h⟩ := bind_eq_ok.mp h
    have hempty := Except.ok.inj h
    simp only [List.append_eq_nil_iff, complain_eq_nil, Bool.not_eq_false',
      List.flatMap_eq_nil_iff, fingerprintErrors_eq_nil] at hempty
    obtain ⟨⟨⟨hflags, hrva⟩, hfingerprint⟩, hnotes⟩ := hempty
    exact ⟨hflags, hrva, ⟨text, htext, hfingerprint⟩, hnotes⟩
  · rintro ⟨hflags, hrva, ⟨text, htext, hfingerprint⟩, hnotes⟩
    refine bind_eq_ok.mpr ⟨text, htext, congrArg Except.ok ?_⟩
    simp only [List.append_eq_nil_iff, complain_eq_nil, Bool.not_eq_false',
      List.flatMap_eq_nil_iff, fingerprintErrors_eq_nil]
    exact ⟨⟨⟨hflags, hrva⟩, hfingerprint⟩, hnotes⟩

/-- The counts of the entries say that they are exact. -/
theorem exactSymbols_iff {entries : List PyJson} : ExactSymbols entries ↔
    (sameNames (symbolTable entries).keys requiredSymbols &&
      decide (entries.length = requiredSymbols.dedup.length) &&
      decide ((symbolTable entries).keys.length = entries.length)) = true := by
  simp only [Bool.and_eq_true, decide_eq_true_eq]
  constructor
  · intro h
    have hkeys : (symbolTable entries).keys.Perm (entries.filterMap identifier) :=
      (List.perm_ext_iff_of_nodup (AList.keys_nodup _) h.nodup).mpr fun _ => mem_symbolTable
    have hlength : (entries.filterMap identifier).length = entries.length :=
      List.filterMap_length_eq_length.mpr fun entry hentry =>
        Option.isSome_iff_exists.mpr (h.identified entry hentry)
    refine ⟨⟨sameNames_iff.mpr fun name => (hkeys.trans h.perm).mem_iff, ?_⟩, ?_⟩
    · rw [requiredSymbols_nodup.dedup, ← hlength, h.perm.length_eq]
    · rw [hkeys.length_eq, hlength]
  · rintro ⟨⟨hnames, -⟩, hlength⟩
    exact exactSymbols_of_lengths hnames hlength

/-- Entries come from a list. -/
theorem ExactSymbols.list (h : ExactSymbols (elements (field data "symbols"))) :
    field data "symbols" = .list (elements (field data "symbols")) := by
  have hlength := h.perm.length_eq
  cases hvalue : field data "symbols" with
  | list entries => rfl
  | _ =>
      rw [hvalue] at hlength
      cases hlength

/-- An entry of an accepted table, and the entry the table gives for its identifier. -/
theorem entryOf_identified (h : ExactSymbols (elements (field data "symbols"))) {entry : PyJson}
    (hentry : entry ∈ elements (field data "symbols")) :
    ∃ id ∈ requiredSymbols, ∃ items, entry = .dict items ∧ field items "id" = .str id ∧
      entryOf data id = items := by
  obtain ⟨id, hid⟩ := h.identified entry hentry
  obtain ⟨items, rfl, hfield⟩ := identifier_some hid
  refine ⟨id, h.perm.mem_iff.mp (List.mem_filterMap.mpr ⟨_, hentry, hid⟩), items, rfl, hfield, ?_⟩
  rw [entryOf, lookup_symbolTable h.nodup hentry hid]
  rfl

theorem exists_entry (h : ExactSymbols (elements (field data "symbols"))) {symbol : Str}
    (hsymbol : symbol ∈ requiredSymbols) : ∃ entry ∈ elements (field data "symbols"),
      field (mapping entry) "id" = .str symbol := by
  obtain ⟨entry, hentry, hid⟩ := List.mem_filterMap.mp (h.perm.mem_iff.mpr hsymbol)
  obtain ⟨items, rfl, hfield⟩ := identifier_some hid
  exact ⟨_, hentry, hfield⟩

theorem returns_symbolsErrors : Returns (symbolsErrors host data) ↔
    ∀ symbol ∈ requiredSymbols,
      Returns (host.text (field (entryOf data symbol) "fingerprint_hex" (.str []))) := by
  have hunfold : Returns (symbolsErrors host data) ↔
      Returns (complainEach (symbolErrors host (symbolTable (elements (field data "symbols"))))
        requiredSymbols) := returns_bind_pure
  rw [hunfold, returns_complainEach]
  exact forall₂_congr fun _ _ => returns_symbolErrors

theorem symbolsErrors_eq_nil : symbolsErrors host data = .ok [] ↔
    ExactSymbols (elements (field data "symbols")) ∧
      ∀ symbol ∈ requiredSymbols, SymbolVerified host (entryOf data symbol) := by
  have hunfold : symbolsErrors host data = .ok [] ↔
      ∃ each, complainEach (symbolErrors host (symbolTable (elements (field data "symbols"))))
          requiredSymbols = .ok each ∧
        Except.ok (complain (!(sameNames (symbolTable (elements (field data "symbols"))).keys
            requiredSymbols
          && decide ((elements (field data "symbols")).length = requiredSymbols.dedup.length)
          && decide ((symbolTable (elements (field data "symbols"))).keys.length =
            (elements (field data "symbols")).length))) (str "exact required symbol set")
          ++ each) = (.ok [] : Except NativeError (List Str)) := bind_eq_ok
  have heach : (∀ symbol ∈ requiredSymbols, SymbolVerified host (entryOf data symbol)) ↔
      complainEach (symbolErrors host (symbolTable (elements (field data "symbols"))))
        requiredSymbols = .ok [] := by
    rw [complainEach_eq_nil]
    exact forall₂_congr fun _ _ => symbolErrors_eq_nil.symm
  rw [hunfold, exactSymbols_iff, heach]
  constructor
  · rintro ⟨each, hall, h⟩
    obtain ⟨hexact, rfl⟩ := List.append_eq_nil_iff.mp (Except.ok.inj h)
    rw [complain_eq_nil, Bool.not_eq_false'] at hexact
    exact ⟨hexact, hall⟩
  · rintro ⟨hexact, hall⟩
    refine ⟨[], hall, congrArg Except.ok ?_⟩
    rw [List.append_nil, complain_eq_nil, Bool.not_eq_false']
    exact hexact

end Sections

/-! ## Evidence -/

section Evidence

variable {host : Host} {Path : Type} {files : FileTree Path} {root : Path}

theorem evidencePath_some {path : PyJson} {file : Path}
    (h : evidencePath files root path = .ok (some file)) :
    ∃ text base, path = .str text ∧ text ≠ [] ∧ files.isAbsolute (files.path text) = false ∧
      files.resolve (files.join root (files.path text)) = .ok file ∧
      files.resolve root = .ok base ∧ files.isRelativeTo file base = true := by
  unfold evidencePath at h
  split at h
  swap
  · cases h
  next text =>
  split at h
  · cases h
  next hrelative =>
  rw [Bool.or_eq_true, not_or, Bool.not_eq_true, Bool.not_eq_true] at hrelative
  obtain ⟨candidate, hcandidate, h⟩ := bind_eq_ok.mp h
  split at h
  · cases h
  · cases h
  next base hbase =>
  split at h
  · next hbelow =>
    obtain rfl := Option.some.inj (Except.ok.inj h)
    refine ⟨text, base, rfl, ?_, hrelative.2, hcandidate, hbase, hbelow⟩
    rintro rfl
    exact absurd hrelative.1 (by decide)
  · cases h

/-- Evidence without an error is pinned. -/
theorem pinned_of_evidenceErrors {path hash : PyJson} {digest : Str} {missing mismatch : String}
    (hdigest : host.text hash = .ok digest) (hhash : matchesHex64 digest = true)
    (h : evidenceErrors host files root path digest missing mismatch = .ok []) :
    Pinned host files root path hash := by
  obtain ⟨file, hfile, h⟩ := bind_eq_ok.mp h
  cases file with
  | none => cases Except.ok.inj h
  | some file =>
      obtain ⟨isFile, hisFile, h⟩ := bind_eq_ok.mp h
      cases isFile with
      | false => cases Except.ok.inj h
      | true =>
          simp only [Bool.not_true, Bool.false_eq_true, if_false, hhash] at h
          obtain ⟨content, hcontent, h⟩ := bind_eq_ok.mp h
          have hsame : host.sha256 content = digest := by
            simpa using complain_eq_nil.mp (Except.ok.inj h)
          obtain ⟨text, base, hpath, htext, hrelative, hresolve, hbase, hbelow⟩ :=
            evidencePath_some hfile
          refine ⟨⟨digest, hdigest, hhash⟩, text, base, file, content, hpath, htext, hrelative,
            hresolve, hbase, hbelow, hisFile, hcontent, ?_⟩
          rw [hsame]
          exact hdigest

theorem returns_evidencePath (hfiles : Answers files root) {value : PyJson} :
    Returns (evidencePath files root value) ↔ Resolvable files root value := by
  cases value with
  | str text =>
      obtain ⟨base, hbase⟩ := hfiles.base
      have hunfold : evidencePath files root (.str text) =
          if text.isEmpty || files.isAbsolute (files.path text) then pure none
          else do
            let candidate ← files.resolve (files.join root (files.path text))
            return if files.isRelativeTo candidate base then some candidate else none := by
        rw [evidencePath, hbase]
      rw [hunfold]
      by_cases hskip : (text.isEmpty || files.isAbsolute (files.path text)) = true
      · rw [if_pos hskip]
        refine iff_of_true (returns_pure none) fun other hother hne habsolute => ?_
        obtain rfl := PyJson.str.inj hother
        rw [habsolute, Bool.or_false, List.isEmpty_iff] at hskip
        exact absurd hskip hne
      · rw [if_neg hskip, returns_bind_pure]
        rw [Bool.or_eq_true, not_or, List.isEmpty_iff, Bool.not_eq_true] at hskip
        constructor
        · intro h other hother _ _
          obtain rfl := PyJson.str.inj hother
          exact h
        · exact fun h => h text rfl hskip.1 hskip.2
  | _ => exact iff_of_true (returns_pure none) fun _ hother => by cases hother

theorem returns_evidenceErrors (hfiles : Answers files root) {path : PyJson} {hash : Str}
    {missing mismatch : String} :
    Returns (evidenceErrors host files root path hash missing mismatch) ↔
      Resolvable files root path := by
  rw [← returns_evidencePath hfiles, evidenceErrors, returns_bind]
  constructor
  · rintro ⟨found, hfound, -⟩
    exact ⟨found, hfound⟩
  · rintro ⟨found, hfound⟩
    refine ⟨found, hfound, ?_⟩
    cases found with
    | none => exact returns_pure _
    | some file =>
        obtain ⟨isFile, hisFile⟩ := hfiles.isFile file
        refine returns_bind.mpr ⟨isFile, hisFile, ?_⟩
        cases isFile with
        | false => exact returns_pure _
        | true =>
            rw [Bool.not_true, if_neg Bool.false_ne_true]
            split
            · exact returns_pure _
            · exact returns_bind_pure.mpr (hfiles.read file hisFile)

theorem evidenceErrors_of_pinned {path hash : PyJson} {digest : Str} {missing mismatch : String}
    (h : Pinned host files root path hash) (hdigest : host.text hash = .ok digest) :
    evidenceErrors host files root path digest missing mismatch = .ok [] := by
  obtain ⟨⟨other, hother, hmatches⟩, text, base, file, content, rfl, htext, hrelative, hresolve,
    hbase, hbelow, hisFile, hread, hsame⟩ := h
  rw [hdigest] at hother hsame
  obtain rfl := Except.ok.inj hother
  have hskip : ¬ (text.isEmpty || files.isAbsolute (files.path text)) = true := by
    rw [hrelative, Bool.or_false, List.isEmpty_iff]
    exact htext
  have hpath : evidencePath files root (.str text) = .ok (some file) := by
    rw [evidencePath, if_neg hskip, hresolve, ok_bind, hbase]
    exact congrArg Except.ok (if_pos hbelow)
  refine bind_eq_ok.mpr ⟨some file, hpath, bind_eq_ok.mpr ⟨true, hisFile, ?_⟩⟩
  rw [Bool.not_true, if_neg Bool.false_ne_true, hmatches, Bool.not_true, if_neg Bool.false_ne_true]
  refine bind_eq_ok.mpr ⟨content, hread, congrArg Except.ok (complain_eq_nil.mpr ?_)⟩
  rw [← Except.ok.inj hsame]
  exact decide_eq_false (not_not_intro rfl)

variable {data : List (Str × PyJson)}

theorem returns_stageProbeErrors (hfiles : Answers files root) :
    Returns (stageProbeErrors host files root data) ↔
      Returns (host.text (field (mapping (field data "stage_probe")) "report_sha256" (.str []))) ∧
        Resolvable files root (field (mapping (field data "stage_probe")) "report_path") := by
  rw [stageProbeErrors, returns_bind]
  constructor
  · rintro ⟨hash, hhash, h⟩
    exact ⟨⟨hash, hhash⟩, (returns_evidenceErrors hfiles).mp (returns_bind_pure.mp h)⟩
  · rintro ⟨⟨hash, hhash⟩, h⟩
    exact ⟨hash, hhash, returns_bind_pure.mpr ((returns_evidenceErrors hfiles).mpr h)⟩

theorem stageProbeErrors_eq_nil : stageProbeErrors host files root data = .ok [] ↔
    ProbesPassed (mapping (field data "stage_probe")) ∧
      Pinned host files root (field (mapping (field data "stage_probe")) "report_path")
        (field (mapping (field data "stage_probe")) "report_sha256" (.str [])) := by
  constructor
  · intro h
    obtain ⟨digest, hdigest, h⟩ := bind_eq_ok.mp h
    obtain ⟨evidence, hevidence, h⟩ := bind_eq_ok.mp h
    have hempty := Except.ok.inj h
    simp only [List.append_eq_nil_iff, complain_eq_nil, Bool.not_eq_false',
      List.flatMap_eq_nil_iff] at hempty
    obtain ⟨⟨⟨⟨hpassed, hhash⟩, hnames⟩, hprobes⟩, rfl⟩ := hempty
    exact ⟨⟨hpassed, sameNames_iff.mp hnames, hprobes⟩,
      pinned_of_evidenceErrors hdigest hhash hevidence⟩
  · rintro ⟨hprobes, hpinned⟩
    obtain ⟨digest, hdigest, hmatches⟩ := hpinned.isHash
    refine bind_eq_ok.mpr ⟨digest, hdigest, bind_eq_ok.mpr
      ⟨[], evidenceErrors_of_pinned hpinned hdigest, congrArg Except.ok ?_⟩⟩
    simp only [List.append_eq_nil_iff, complain_eq_nil, Bool.not_eq_false',
      List.flatMap_eq_nil_iff]
    exact ⟨⟨⟨⟨hprobes.passed, hmatches⟩, sameNames_iff.mpr hprobes.exact_⟩, hprobes.each⟩, trivial⟩

theorem returns_bridgeErrors (hfiles : Answers files root) :
    Returns (bridgeErrors host files root data) ↔
      Returns (host.text (field (mapping (field data "bridge")) "source_sha256" (.str []))) ∧
        Resolvable files root (field (mapping (field data "bridge")) "source_path") := by
  rw [bridgeErrors, returns_bind]
  constructor
  · rintro ⟨hash, hhash, h⟩
    exact ⟨⟨hash, hhash⟩, (returns_evidenceErrors hfiles).mp (returns_bind_pure.mp h)⟩
  · rintro ⟨⟨hash, hhash⟩, h⟩
    exact ⟨hash, hhash, returns_bind_pure.mpr ((returns_evidenceErrors hfiles).mpr h)⟩

theorem bridgeErrors_eq_nil : bridgeErrors host files root data = .ok [] ↔
    isTrue (field (mapping (field data "bridge")) "reviewed") = true ∧
      Pinned host files root (field (mapping (field data "bridge")) "source_path")
        (field (mapping (field data "bridge")) "source_sha256" (.str [])) := by
  constructor
  · intro h
    obtain ⟨digest, hdigest, h⟩ := bind_eq_ok.mp h
    obtain ⟨evidence, hevidence, h⟩ := bind_eq_ok.mp h
    have hempty := Except.ok.inj h
    simp only [List.append_eq_nil_iff, complain_eq_nil, Bool.not_eq_false'] at hempty
    obtain ⟨⟨hreviewed, hhash⟩, rfl⟩ := hempty
    exact ⟨hreviewed, pinned_of_evidenceErrors hdigest hhash hevidence⟩
  · rintro ⟨hreviewed, hpinned⟩
    obtain ⟨digest, hdigest, hmatches⟩ := hpinned.isHash
    refine bind_eq_ok.mpr ⟨digest, hdigest, bind_eq_ok.mpr
      ⟨[], evidenceErrors_of_pinned hpinned hdigest, congrArg Except.ok ?_⟩⟩
    simp only [List.append_eq_nil_iff, complain_eq_nil, Bool.not_eq_false']
    exact ⟨⟨hreviewed, hmatches⟩, trivial⟩

end Evidence

/-! ## The manifest -/

section Manifest

variable {host : Host} {Path : Type} {files : FileTree Path} {root : Path}
  {data : List (Str × PyJson)}

/-- The fields of a manifest whose text is matched. -/
def hashFields (data : List (Str × PyJson)) : List PyJson :=
  [field (mapping (field data "executable")) "sha256" (.str []),
    field (mapping (field data "abi")) "review_commit" (.str []),
    field (mapping (field data "stage_probe")) "report_sha256" (.str []),
    field (mapping (field data "bridge")) "source_sha256" (.str [])] ++
  requiredSymbols.map fun symbol => field (entryOf data symbol) "fingerprint_hex" (.str [])

/-- The fields of a manifest that name files. -/
def pathFields (data : List (Str × PyJson)) : List PyJson :=
  [field (mapping (field data "stage_probe")) "report_path",
    field (mapping (field data "bridge")) "source_path"]

/-- **When `_validation_errors` returns.** -/
theorem returns_validationErrors (hfiles : Answers files root) :
    Returns (validationErrors host files root (.dict data)) ↔
      Hashable (field data "platform") ∧ (∀ value ∈ hashFields data, Returns (host.text value)) ∧
        ∀ value ∈ pathFields data, Resolvable files root value := by
  have hunfold : Returns (validationErrors host files root (.dict data)) ↔
      Returns (identityErrors data) ∧ Returns (executableErrors host data) ∧
        Returns (abiErrors host data) ∧ Returns (symbolsErrors host data) ∧
        Returns (stageProbeErrors host files root data) ∧
        Returns (bridgeErrors host files root data) := by
    rw [validationErrors]
    simp only [returns_bind]
    constructor
    · rintro ⟨identity, hidentity, executable, hexecutable, abi, habi, symbols, hsymbols, stage,
        hstage, bridge, hbridge, -⟩
      exact ⟨⟨identity, hidentity⟩, ⟨executable, hexecutable⟩, ⟨abi, habi⟩, ⟨symbols, hsymbols⟩,
        ⟨stage, hstage⟩, bridge, hbridge⟩
    · rintro ⟨⟨identity, hidentity⟩, ⟨executable, hexecutable⟩, ⟨abi, habi⟩, ⟨symbols, hsymbols⟩,
        ⟨stage, hstage⟩, bridge, hbridge⟩
      exact ⟨identity, hidentity, executable, hexecutable, abi, habi, symbols, hsymbols, stage,
        hstage, bridge, hbridge, returns_pure _⟩
  rw [hunfold, returns_identityErrors, returns_executableErrors, returns_abiErrors,
    returns_symbolsErrors, returns_stageProbeErrors hfiles, returns_bridgeErrors hfiles]
  simp only [hashFields, pathFields, List.forall_mem_append, List.forall_mem_cons,
    List.forall_mem_map, List.not_mem_nil, false_implies, implies_true, and_true]
  constructor
  · rintro ⟨hplatform, hexecutable, habi, hsymbols, ⟨hstage, hreport⟩, hbridge, hsource⟩
    exact ⟨hplatform, ⟨⟨hexecutable, habi, hstage, hbridge⟩, hsymbols⟩, hreport, hsource⟩
  · rintro ⟨hplatform, ⟨⟨hexecutable, habi, hstage, hbridge⟩, hsymbols⟩, hreport, hsource⟩
    exact ⟨hplatform, hexecutable, habi, hsymbols, ⟨hstage, hreport⟩, hbridge, hsource⟩

/-- **What `_validation_errors` accepts.** -/
theorem validationErrors_eq_nil :
    validationErrors host files root (.dict data) = .ok [] ↔ Verified host files root data := by
  have hunfold : validationErrors host files root (.dict data) = .ok [] ↔
      identityErrors data = .ok [] ∧ executableErrors host data = .ok [] ∧
        abiErrors host data = .ok [] ∧ symbolsErrors host data = .ok [] ∧
        flagErrors "external_hooks" externalHookFields data = [] ∧
        flagErrors "storage" storageFields data = [] ∧
        stageProbeErrors host files root data = .ok [] ∧
        bridgeErrors host files root data = .ok [] ∧
        isText (field data "status") (str "verified") = true := by
    rw [validationErrors]
    simp only [bind_eq_ok]
    constructor
    · rintro ⟨identity, hidentity, executable, hexecutable, abi, habi, symbols, hsymbols, stage,
        hstage, bridge, hbridge, h⟩
      have hempty := Except.ok.inj h
      simp only [List.append_eq_nil_iff, complain_eq_nil, Bool.not_eq_false'] at hempty
      obtain ⟨⟨⟨⟨⟨⟨⟨⟨rfl, rfl⟩, rfl⟩, rfl⟩, hhooks⟩, hstorage⟩, rfl⟩, rfl⟩, hstatus⟩ := hempty
      exact ⟨hidentity, hexecutable, habi, hsymbols, hhooks, hstorage, hstage, hbridge, hstatus⟩
    · rintro ⟨hidentity, hexecutable, habi, hsymbols, hhooks, hstorage, hstage, hbridge, hstatus⟩
      refine ⟨[], hidentity, [], hexecutable, [], habi, [], hsymbols, [], hstage, [], hbridge,
        congrArg Except.ok ?_⟩
      simp only [List.append_eq_nil_iff, complain_eq_nil, Bool.not_eq_false']
      exact ⟨⟨⟨⟨⟨⟨⟨⟨trivial, trivial⟩, trivial⟩, trivial⟩, hhooks⟩, hstorage⟩, trivial⟩, trivial⟩,
        hstatus⟩
  rw [hunfold, identityErrors_eq_nil, executableErrors_eq_nil, abiErrors_eq_nil,
    symbolsErrors_eq_nil, flagErrors_eq_nil, flagErrors_eq_nil, stageProbeErrors_eq_nil,
    bridgeErrors_eq_nil]
  constructor
  · rintro ⟨⟨hidentified, harchive⟩, ⟨hfilename, hexecutable, hsize⟩,
      ⟨hreviewed, hcontracts, hcommit⟩, ⟨hexact, hsymbols⟩, hhooks, hstorage, ⟨hprobes, hreport⟩,
      ⟨hbridge, hsource⟩, hstatus⟩
    exact ⟨hidentified, harchive, hfilename, hexecutable, hsize, hreviewed, hcontracts, hcommit,
      hexact, hsymbols, hhooks, hstorage, hprobes, hreport, hbridge, hsource, hstatus⟩
  · intro h
    exact ⟨⟨h.identified, h.archive⟩, ⟨h.filename, h.executable, h.size⟩,
      ⟨h.reviewed, h.contracts, h.commit⟩, ⟨h.exact_, h.symbols⟩, h.hooks, h.storage,
      ⟨h.probes, h.report⟩, ⟨h.bridge, h.source⟩, h.status⟩

/-- Only objects are accepted. -/
theorem accepted_iff {data : PyJson} : validationErrors host files root data = .ok [] ↔
    ∃ manifest, data = .dict manifest ∧ Verified host files root manifest := by
  cases data with
  | dict manifest =>
      rw [validationErrors_eq_nil]
      constructor
      · exact fun h => ⟨manifest, rfl, h⟩
      · rintro ⟨other, hother, h⟩
        rwa [PyJson.dict.inj hother]
  | _ =>
      refine iff_of_false (fun h => List.cons_ne_nil _ _ (Except.ok.inj h)) ?_
      rintro ⟨manifest, hmanifest, -⟩
      cases hmanifest

end Manifest

/-! ## The report -/

/-- The text is read as an aware time. -/
def ReadsTime (host : Host) (value : PyJson) (parsed : Timestamp) : Prop :=
  ∃ text, value = .str text ∧ hasText value = true ∧
    host.fromIsoFormat
        (text.flatMap fun c => if c = asciiPoint 0x5A then str "+00:00" else [c]) = some parsed ∧
    parsed.aware = true

structure ProbeVerified (host : Host) (result : List (Str × PyJson)) : Prop where
  passed : isTrue (field result "passed") = true
  notes : hasText (field result "notes") = true
  evidence : Spells host reportMatchesHex64 (field result "evidence_sha256" (.str []))

/-- What `validate` asks of an object. -/
structure ReportVerified (host : Host) (data : List (Str × PyJson)) : Prop where
  identified : Identified data
  executable : Spells host reportMatchesHex64 (field data "executable_sha256" (.str []))
  bridge : Spells host reportMatchesHex64 (field data "bridge_sha256" (.str []))
  times : ∃ started completed, ReadsTime host (field data "started_at") started ∧
    ReadsTime host (field data "completed_at") completed ∧ started.instant ≤ completed.instant
  passed : isTrue (field data "passed") = true
  results : ∃ items, field data "results" = .dict items
  exact_ : ∀ name, name ∈ (mapping (field data "results")).map Prod.fst ↔
    name ∈ requiredStageProbes
  probes : ∀ probe ∈ requiredStageProbes, ∃ result,
    (mapping (field data "results")).lookup probe = some (.dict result) ∧ ProbeVerified host result

/-- `results.get(probe)`, as a mapping. -/
def resultOf (data : List (Str × PyJson)) (probe : Str) : List (Str × PyJson) :=
  mapping (((mapping (field data "results")).lookup probe).getD .none)

/-- The fields of a report whose text is matched. -/
def reportHashFields (data : List (Str × PyJson)) : List PyJson :=
  [field data "executable_sha256" (.str []), field data "bridge_sha256" (.str [])] ++
  requiredStageProbes.map fun probe => field (resultOf data probe) "evidence_sha256" (.str [])

section Report

variable {host : Host} {data : List (Str × PyJson)}

theorem timestamp_of_readsTime {value : PyJson} {parsed : Timestamp}
    (h : ReadsTime host value parsed)
    (name : String) : timestamp host value name = (some parsed, []) := by
  obtain ⟨text, rfl, htext, hparsed, haware⟩ := h
  unfold timestamp
  dsimp only
  rw [htext, Bool.not_true, if_neg Bool.false_ne_true, hparsed]
  exact if_pos haware

theorem readsTime_of_timestamp {value : PyJson} {name : String}
    (h : (timestamp host value name).2 = []) : ∃ parsed, ReadsTime host value parsed := by
  unfold timestamp at h
  cases value with
  | str text =>
      dsimp only at h
      split at h
      · cases h
      next htext =>
      rw [Bool.not_eq_true, Bool.not_eq_false'] at htext
      split at h
      · cases h
      next parsed hparsed =>
      split at h
      · next haware => exact ⟨parsed, text, rfl, htext, hparsed, haware⟩
      · cases h
  | _ => cases h

theorem timestamp_eq_iff {value : PyJson} {name : String} {parsed : Timestamp} :
    timestamp host value name = (some parsed, []) ↔ ReadsTime host value parsed := by
  refine ⟨fun h => ?_, fun h => timestamp_of_readsTime h name⟩
  obtain ⟨other, hother⟩ := readsTime_of_timestamp (congrArg Prod.snd h)
  rw [timestamp_of_readsTime hother] at h
  rwa [← Option.some.inj (Prod.mk.inj h).1]

theorem returns_reportHeaderErrors : Returns (reportHeaderErrors host data) ↔
    Hashable (field data "platform") ∧
      Returns (host.text (field data "executable_sha256" (.str []))) ∧
      Returns (host.text (field data "bridge_sha256" (.str []))) := by
  have hmember : Returns (isMember supportedPlatforms (field data "platform")) ↔
      Hashable (field data "platform") := returns_isMember
  rw [reportHeaderErrors, ← hmember]
  simp only [returns_bind]
  constructor
  · rintro ⟨supported, hsupported, executable, hexecutable, bridge, hbridge, -⟩
    exact ⟨⟨supported, hsupported⟩, ⟨executable, hexecutable⟩, bridge, hbridge⟩
  · rintro ⟨⟨supported, hsupported⟩, ⟨executable, hexecutable⟩, bridge, hbridge⟩
    exact ⟨supported, hsupported, executable, hexecutable, bridge, hbridge, returns_pure _⟩

theorem reportHeaderErrors_eq_nil : reportHeaderErrors host data = .ok [] ↔
    Identified data ∧
      Spells host reportMatchesHex64 (field data "executable_sha256" (.str [])) ∧
      Spells host reportMatchesHex64 (field data "bridge_sha256" (.str [])) := by
  constructor
  · intro h
    obtain ⟨supported, hsupported, h⟩ := bind_eq_ok.mp h
    obtain ⟨executable, hexecutable, h⟩ := bind_eq_ok.mp h
    obtain ⟨bridge, hbridge, h⟩ := bind_eq_ok.mp h
    have hempty := Except.ok.inj h
    simp only [List.append_eq_nil_iff, complain_eq_nil, Bool.not_eq_false'] at hempty
    obtain ⟨⟨⟨⟨⟨⟨hschema, hplatform⟩, hpackage⟩, hruntime⟩, hendstone⟩, hhash⟩, hhash'⟩ := hempty
    rw [hplatform] at hsupported
    exact ⟨⟨hschema, isMember_eq_true.mp hsupported, hpackage, hruntime, hendstone⟩,
      ⟨executable, hexecutable, hhash⟩, bridge, hbridge, hhash'⟩
  · rintro ⟨h, ⟨executable, hexecutable, hhash⟩, bridge, hbridge, hhash'⟩
    refine bind_eq_ok.mpr ⟨true, isMember_eq_true.mpr h.platform, bind_eq_ok.mpr ⟨executable,
      hexecutable, bind_eq_ok.mpr ⟨bridge, hbridge, congrArg Except.ok ?_⟩⟩⟩
    simp only [List.append_eq_nil_iff, complain_eq_nil, Bool.not_eq_false']
    exact ⟨⟨⟨⟨⟨⟨h.schema, trivial⟩, h.bdsPackageVersion⟩, h.runtimeBds⟩, h.endstoneVersion⟩, hhash⟩,
      hhash'⟩

theorem reportTimeErrors_eq_nil : reportTimeErrors host data = [] ↔
    (∃ started completed, ReadsTime host (field data "started_at") started ∧
      ReadsTime host (field data "completed_at") completed ∧
      started.instant ≤ completed.instant) ∧ isTrue (field data "passed") = true := by
  have hunfold : reportTimeErrors host data = [] ↔
      (timestamp host (field data "started_at") "started_at").2 = [] ∧
        (timestamp host (field data "completed_at") "completed_at").2 = [] ∧
        precedes (timestamp host (field data "completed_at") "completed_at").1
          (timestamp host (field data "started_at") "started_at").1 = false ∧
        isTrue (field data "passed") = true := by
    simp only [reportTimeErrors, List.append_eq_nil_iff, complain_eq_nil, Bool.not_eq_false',
      and_assoc]
  rw [hunfold]
  constructor
  · rintro ⟨hstarted, hcompleted, horder, hpassed⟩
    obtain ⟨started, hstarted⟩ := readsTime_of_timestamp hstarted
    obtain ⟨completed, hcompleted⟩ := readsTime_of_timestamp hcompleted
    rw [timestamp_of_readsTime hstarted, timestamp_of_readsTime hcompleted] at horder
    have hnot : ¬ completed.instant < started.instant := of_decide_eq_false horder
    exact ⟨⟨started, completed, hstarted, hcompleted, by omega⟩, hpassed⟩
  · rintro ⟨⟨started, completed, hstarted, hcompleted, horder⟩, hpassed⟩
    rw [timestamp_of_readsTime hstarted, timestamp_of_readsTime hcompleted]
    have hnot : ¬ completed.instant < started.instant := by omega
    exact ⟨rfl, rfl, decide_eq_false hnot, hpassed⟩

theorem filter_not_contains_eq_nil {names others : List Str} :
    names.filter (fun name => !others.contains name) = [] ↔ ∀ name ∈ names, name ∈ others := by
  rw [List.filter_eq_nil_iff]
  simp only [Bool.not_eq_true', Bool.not_eq_false, List.contains_iff_mem]

theorem probeSetErrors_eq_nil {results : PyJson} : probeSetErrors results = [] ↔
    (∃ items, results = .dict items) ∧
      ∀ name, name ∈ (mapping results).map Prod.fst ↔ name ∈ requiredStageProbes := by
  have hnames : complain (!(requiredStageProbes.filter fun probe =>
          !((mapping results).map Prod.fst).contains probe).isEmpty)
        (str "missing probes: " ++ joined (sorted (requiredStageProbes.filter fun probe =>
          !((mapping results).map Prod.fst).contains probe))) = [] ∧
      complain (!(((mapping results).map Prod.fst).filter fun name =>
          !requiredStageProbes.contains name).isEmpty)
        (str "unexpected probes: " ++ joined (sorted (((mapping results).map Prod.fst).filter
          fun name => !requiredStageProbes.contains name))) = [] ↔
      ∀ name, name ∈ (mapping results).map Prod.fst ↔ name ∈ requiredStageProbes := by
    rw [complain_eq_nil, complain_eq_nil, Bool.not_eq_false', Bool.not_eq_false', List.isEmpty_iff,
      List.isEmpty_iff, filter_not_contains_eq_nil, filter_not_contains_eq_nil]
    exact ⟨fun ⟨h, h'⟩ name => ⟨h' name, h name⟩,
      fun h => ⟨fun name => (h name).mpr, fun name => (h name).mp⟩⟩
  rw [← hnames]
  cases results with
  | dict items =>
      show [] ++ complain _ _ ++ complain _ _ = [] ↔ _
      rw [List.nil_append, List.append_eq_nil_iff]
      exact (and_iff_right ⟨items, rfl⟩).symm
  | _ =>
      refine iff_of_false ?_ fun h => by cases h.1.choose_spec
      show ([_] ++ complain _ _) ++ complain _ _ ≠ []
      exact List.append_ne_nil_of_left_ne_nil (List.cons_ne_nil _ _) _

theorem returns_probeErrors {results : List (Str × PyJson)} {name : Str} :
    Returns (probeErrors host results name) ↔
      Returns (host.text
        (field (mapping ((results.lookup name).getD .none)) "evidence_sha256" (.str []))) := by
  unfold probeErrors
  split
  · next result hlookup =>
    rw [hlookup]
    exact returns_bind_pure
  · next hother =>
    refine iff_of_true (returns_pure _) ?_
    have hmapping : mapping ((results.lookup name).getD .none) = [] := by
      cases hlookup : results.lookup name with
      | none => rfl
      | some value =>
          cases value with
          | dict result => exact absurd hlookup (hother result)
          | _ => rfl
    rw [hmapping]
    exact returns_ok _

theorem probeErrors_eq_nil {results : List (Str × PyJson)} {name : Str} :
    probeErrors host results name = .ok [] ↔
      ∃ result, results.lookup name = some (.dict result) ∧ ProbeVerified host result := by
  unfold probeErrors
  split
  · next result hlookup =>
    constructor
    · intro h
      obtain ⟨text, htext, h⟩ := bind_eq_ok.mp h
      have hempty := Except.ok.inj h
      simp only [List.append_eq_nil_iff, complain_eq_nil, Bool.not_eq_false'] at hempty
      exact ⟨result, hlookup, hempty.1.1, hempty.1.2, text, htext, hempty.2⟩
    · rintro ⟨other, hother, hpassed, hnotes, text, htext, hevidence⟩
      rw [hlookup] at hother
      obtain rfl := PyJson.dict.inj (Option.some.inj hother)
      refine bind_eq_ok.mpr ⟨text, htext, congrArg Except.ok ?_⟩
      simp only [List.append_eq_nil_iff, complain_eq_nil, Bool.not_eq_false']
      exact ⟨⟨hpassed, hnotes⟩, hevidence⟩
  · next hother =>
    refine iff_of_false (fun h => List.cons_ne_nil _ _ (Except.ok.inj h)) ?_
    rintro ⟨result, hlookup, -⟩
    exact hother result hlookup

/-- **When `validate` returns.** -/
theorem returns_validate : Returns (validate host (.dict data)) ↔
    Hashable (field data "platform") ∧
      ∀ value ∈ reportHashFields data, Returns (host.text value) := by
  have hunfold : Returns (validate host (.dict data)) ↔ Returns (reportHeaderErrors host data) ∧
      Returns (complainEach (probeErrors host (mapping (field data "results")))
        requiredStageProbes) := by
    rw [validate, returns_bind]
    constructor
    · rintro ⟨header, hheader, h⟩
      exact ⟨⟨header, hheader⟩, returns_bind_pure.mp h⟩
    · rintro ⟨⟨header, hheader⟩, h⟩
      exact ⟨header, hheader, returns_bind_pure.mpr h⟩
  rw [hunfold, returns_reportHeaderErrors, returns_complainEach]
  simp only [reportHashFields, List.forall_mem_append, List.forall_mem_cons,
    List.forall_mem_map, List.not_mem_nil, false_implies, implies_true, and_true,
    returns_probeErrors, resultOf, and_assoc]

/-- **What `validate` accepts.** -/
theorem validate_eq_nil : validate host (.dict data) = .ok [] ↔ ReportVerified host data := by
  have hunfold : validate host (.dict data) = .ok [] ↔ reportHeaderErrors host data = .ok [] ∧
      reportTimeErrors host data = [] ∧ probeSetErrors (field data "results") = [] ∧
      complainEach (probeErrors host (mapping (field data "results"))) requiredStageProbes =
        .ok [] := by
    rw [validate]
    simp only [bind_eq_ok]
    constructor
    · rintro ⟨header, hheader, probes, hprobes, h⟩
      have hempty := Except.ok.inj h
      simp only [List.append_eq_nil_iff] at hempty
      obtain ⟨⟨⟨rfl, htimes⟩, hset⟩, rfl⟩ := hempty
      exact ⟨hheader, htimes, hset, hprobes⟩
    · rintro ⟨hheader, htimes, hset, hprobes⟩
      refine ⟨[], hheader, [], hprobes, congrArg Except.ok ?_⟩
      rw [htimes, hset]
      rfl
  rw [hunfold, reportHeaderErrors_eq_nil, reportTimeErrors_eq_nil, probeSetErrors_eq_nil,
    complainEach_eq_nil]
  simp only [probeErrors_eq_nil]
  constructor
  · rintro ⟨⟨hidentified, hexecutable, hbridge⟩, ⟨htimes, hpassed⟩, ⟨hresults, hexact⟩, hprobes⟩
    exact ⟨hidentified, hexecutable, hbridge, htimes, hpassed, hresults, hexact, hprobes⟩
  · intro h
    exact ⟨⟨h.identified, h.executable, h.bridge⟩, ⟨h.times, h.passed⟩, ⟨h.results, h.exact_⟩,
      h.probes⟩

end Report

end DynamicProperties.Python.Native
