import DynamicProperties.Python.ManifestEvidence

/-!
# Malformed manifests and reports

Data in which a field is missing, or has another JSON type than its check expects, should
end in a list of errors.  It does, except where looking up the platform, taking the text
of a hash or resolving a path raises, and except where Python takes the wrong type for the
right one: `True` equals 1, and `str` of an integer may be a hash
(`validators_fail_closed_iff`).
-/

namespace DynamicProperties.Python.Native

open DynamicProperties.Library
open DynamicProperties.Library.Fallible

/-! ## JSON types -/

inductive JsonType where
  | null
  | boolean
  | number
  | string
  | array
  | object
  deriving DecidableEq

def jsonType : PyJson → JsonType
  | .none => .null
  | .bool _ => .boolean
  | .int _ => .number
  | .float _ => .number
  | .str _ => .string
  | .list _ => .array
  | .dict _ => .object

/-- The field is there and has the type. -/
def HasField (items : List (Str × PyJson)) (name : Str) (type : JsonType) : Prop :=
  ∃ value, items.lookup name = some value ∧ jsonType value = type

/-- An object with these fields. -/
def Typed (fields : List (String × JsonType)) (value : PyJson) : Prop :=
  ∃ items, value = .dict items ∧ ∀ entry ∈ fields, HasField items (str entry.1) entry.2

def manifestFields : List (String × JsonType) :=
  [("schema", .number), ("platform", .string), ("bds_package_version", .string),
    ("runtime_bds", .string), ("endstone_version", .string), ("archive_sha256", .string),
    ("executable", .object), ("abi", .object), ("symbols", .array), ("external_hooks", .object),
    ("storage", .object), ("stage_probe", .object), ("bridge", .object), ("status", .string)]

def executableFields : List (String × JsonType) :=
  [("filename", .string), ("sha256", .string), ("size", .number)]

def abiFields : List (String × JsonType) :=
  [("reviewed", .boolean), ("review_commit", .string)] ++
    abiTextFields.map fun name => (name, .string)

def symbolFields : List (String × JsonType) :=
  [("id", .string), ("rva", .number), ("fingerprint_hex", .string),
    ("verification_notes", .string)] ++ symbolFlags.map fun name => (name, .boolean)

def stageProbeFields : List (String × JsonType) :=
  [("passed", .boolean), ("report_sha256", .string), ("results", .object),
    ("report_path", .string)]

def bridgeFields : List (String × JsonType) :=
  [("reviewed", .boolean), ("source_sha256", .string), ("source_path", .string)]

/-- Every field that `_validation_errors` checks is there, with the type its check expects. -/
structure ManifestTyped (data : PyJson) : Prop where
  root : Typed manifestFields data
  executable : Typed executableFields (field (mapping data) "executable")
  abi : Typed abiFields (field (mapping data) "abi")
  symbols : ∀ entry ∈ elements (field (mapping data) "symbols"), Typed symbolFields entry
  complete : ∀ symbol ∈ requiredSymbols, ∃ entry ∈ elements (field (mapping data) "symbols"),
    field (mapping entry) "id" = .str symbol
  hooks : Typed (externalHookFields.map fun name => (name, .boolean))
    (field (mapping data) "external_hooks")
  storage : Typed (storageFields.map fun name => (name, .boolean)) (field (mapping data) "storage")
  stageProbe : Typed stageProbeFields (field (mapping data) "stage_probe")
  results : ∀ probe ∈ requiredStageProbes,
    HasField (mapping (field (mapping (field (mapping data) "stage_probe")) "results")) probe
      .boolean
  bridge : Typed bridgeFields (field (mapping data) "bridge")

def reportFields : List (String × JsonType) :=
  [("schema", .number), ("platform", .string), ("bds_package_version", .string),
    ("runtime_bds", .string), ("endstone_version", .string), ("executable_sha256", .string),
    ("bridge_sha256", .string), ("started_at", .string), ("completed_at", .string),
    ("passed", .boolean), ("results", .object)]

def probeFields : List (String × JsonType) :=
  [("passed", .boolean), ("notes", .string), ("evidence_sha256", .string)]

/-- Every field that `validate` checks is there, with the type its check expects. -/
structure ReportTyped (data : PyJson) : Prop where
  root : Typed reportFields data
  probes : ∀ probe ∈ requiredStageProbes,
    Typed probeFields (((mapping (field (mapping data) "results")).lookup probe).getD .none)

/-! ## Failing closed -/

/-- The validator returns errors. -/
def FailsClosed (outcome : Except NativeError (List Str)) : Prop :=
  ∃ errors, outcome = .ok errors ∧ errors ≠ []

/-- The schema is `True`, or a hash is given as an integer. -/
def Coerced (schema : PyJson) (hashes : List PyJson) : Prop :=
  schema = .bool true ∨ ∃ hash ∈ hashes, ∃ value, hash = .int value

/-- Nothing raises, and if Python takes a wrong type for the right one, some other check
fails. -/
structure ManifestHandled {Path : Type} (host : Host) (files : FileTree Path) (root : Path)
    (data : List (Str × PyJson)) : Prop where
  hashable : Hashable (field data "platform")
  texts : ∀ hash ∈ hashFields data, Returns (host.text hash)
  paths : ∀ path ∈ pathFields data, ∀ text, path = .str text → 0 ∈ text →
    files.isAbsolute (files.path text) = false →
      Returns (files.resolve (files.join root (files.path text)))
  strict : Coerced (field data "schema") (hashFields data) → ¬ Verified host files root data

structure ReportHandled (host : Host) (data : List (Str × PyJson)) : Prop where
  hashable : Hashable (field data "platform")
  texts : ∀ hash ∈ reportHashFields data, Returns (host.text hash)
  strict : Coerced (field data "schema") (reportHashFields data) → ¬ ReportVerified host data

/-- What `str` writes for a float, a list or a dictionary is no row of hexadecimal digits: it
has a point, a sign or an `n`, or it has brackets. -/
structure Host.Prints (host : Host) : Prop where
  float : ∀ value text, host.repr (.float value) = .ok text → text.all isHex = false
  list : ∀ entries text, host.repr (.list entries) = .ok text → text.all isHex = false
  dict : ∀ items text, host.repr (.dict items) = .ok text → text.all isHex = false

theorem failsClosed_iff_returns {outcome : Except NativeError (List Str)} :
    FailsClosed outcome ↔ Returns outcome ∧ outcome ≠ .ok [] := by
  constructor
  · rintro ⟨errors, rfl, hne⟩
    exact ⟨returns_ok errors, fun h => hne (Except.ok.inj h)⟩
  · rintro ⟨⟨errors, rfl⟩, hne⟩
    exact ⟨errors, rfl, fun h => hne (congrArg Except.ok h)⟩

/-! ## Checks and types -/

section Checks

variable {host : Host} {items : List (Str × PyJson)} {name : String}

theorem hasField_of_field {value : PyJson} (h : field items name = value)
    (hvalue : value ≠ .none) : HasField items (str name) (jsonType value) :=
  ⟨value, lookup_of_field h hvalue, rfl⟩

theorem hasField_of_isTrue {name : Str} (h : isTrue ((items.lookup name).getD .none) = true) :
    HasField items name .boolean := by
  cases hlookup : items.lookup name with
  | none =>
      rw [hlookup] at h
      cases h
  | some value =>
      rw [hlookup] at h
      cases value with
      | bool value => exact ⟨_, hlookup, rfl⟩
      | _ => cases h

theorem hasField_of_isText {text : Str} (h : isText (field items name) text = true) :
    HasField items (str name) .string :=
  hasField_of_field (eq_of_isText h) (by simp)

theorem hasField_of_hasText (h : hasText (field items name) = true) :
    HasField items (str name) .string := by
  cases hvalue : field items name with
  | str text => exact hasField_of_field hvalue (by simp)
  | _ => rw [hvalue] at h; cases h

theorem hasField_of_isPositiveInt (h : isPositiveInt (field items name) = true) :
    HasField items (str name) .number := by
  cases hvalue : field items name with
  | int value => exact hasField_of_field hvalue (by simp)
  | _ => rw [hvalue] at h; cases h

theorem hasField_of_equalsOne (h : equalsOne (field items name) = true)
    (hbool : field items name ≠ .bool true) : HasField items (str name) .number := by
  cases hvalue : field items name with
  | int value => exact hasField_of_field hvalue (by simp)
  | float value => exact hasField_of_field hvalue (by simp)
  | bool value =>
      rw [hvalue] at h hbool
      exact absurd (congrArg PyJson.bool h) hbool
  | _ => rw [hvalue] at h; cases h

/-- Only strings and integers have hexadecimal digits for a text. -/
theorem str_or_int_of_hex (hprints : host.Prints) {value : PyJson} {text : Str}
    (htext : host.text value = .ok text) (hhex : text.all isHex = true) :
    (∃ other, value = .str other) ∨ ∃ n, value = .int n := by
  have hnot : text.all isHex ≠ false := by rw [hhex]; decide
  cases value with
  | str other => exact .inl ⟨other, rfl⟩
  | int n => exact .inr ⟨n, rfl⟩
  | none =>
      obtain rfl := Except.ok.inj htext
      exact absurd rfl hnot
  | bool value =>
      obtain rfl := Except.ok.inj htext
      cases value <;> exact absurd rfl hnot
  | float value => exact absurd (hprints.float value text htext) hnot
  | list entries => exact absurd (hprints.list entries text htext) hnot
  | dict others => exact absurd (hprints.dict others text htext) hnot

/-- A pattern for one or more hexadecimal digits. -/
def HexPattern (passes : Str → Bool) : Prop :=
  ∀ text, passes text = true → text ≠ [] ∧ text.all isHex = true

theorem hasField_of_spells (hprints : host.Prints) {passes : Str → Bool}
    (hpasses : HexPattern passes)
    (h : Spells host passes (field items name (.str [])))
    (hint : ∀ n, field items name (.str []) ≠ .int n) : HasField items (str name) .string := by
  obtain ⟨text, htext, hmatches⟩ := h
  obtain ⟨hne, hhex⟩ := hpasses text hmatches
  cases hlookup : items.lookup (str name) with
  | none =>
      rw [field, hlookup] at htext
      exact absurd (Except.ok.inj htext).symm hne
  | some value =>
      rw [field, hlookup, Option.getD_some] at htext
      rcases str_or_int_of_hex hprints htext hhex with ⟨other, rfl⟩ | ⟨n, rfl⟩
      · exact ⟨_, hlookup, rfl⟩
      · exact absurd (by rw [field, hlookup, Option.getD_some]) (hint n)

theorem typed_of_fields {fields : List (String × JsonType)} {value : PyJson} (hne : fields ≠ [])
    (h : ∀ entry ∈ fields, HasField (mapping value) (str entry.1) entry.2) :
    Typed fields value := by
  cases value with
  | dict items => exact ⟨items, rfl, h⟩
  | _ =>
      obtain ⟨first, rest, rfl⟩ := List.exists_cons_of_ne_nil hne
      obtain ⟨value, hlookup, -⟩ := h first List.mem_cons_self
      cases hlookup

theorem hasField_of_typed {fields : List (String × JsonType)}
    (h : Typed fields (field items name)) :
    HasField items (str name) .object := by
  obtain ⟨others, hothers, -⟩ := h
  exact hasField_of_field hothers (by simp)

theorem hasField_of_departs {table : List (Str × Str)} {platform : PyJson}
    (hplatform : ∃ text ∈ table.map Prod.fst, platform = .str text)
    (h : departs table platform (field items name) = false) :
    HasField items (str name) .string := by
  obtain ⟨text, hmem, rfl⟩ := hplatform
  obtain ⟨expected, hexpected, -⟩ := exists_lookup hmem
  rw [departs, expectedOf, hexpected, Option.any_some, Bool.not_eq_false'] at h
  exact hasField_of_isText h

/-- Only an object has fields. -/
theorem hasField_object {inner : Str} {type : JsonType}
    (h : HasField (mapping (field items name)) inner type) : HasField items (str name) .object := by
  obtain ⟨value, hlookup, -⟩ := h
  cases hvalue : field items name with
  | dict others => exact hasField_of_field hvalue (by simp)
  | _ =>
      rw [hvalue] at hlookup
      cases hlookup

theorem hexPattern_reportMatchesHex64 : HexPattern reportMatchesHex64 := by
  intro text h
  obtain ⟨hlength, hhex⟩ := Bool.and_eq_true_iff.mp h
  refine ⟨?_, hhex⟩
  rintro rfl
  exact absurd (of_decide_eq_true hlength) (by decide)

theorem hexPattern_matchesHex64 : HexPattern matchesHex64 :=
  fun text h => hexPattern_reportMatchesHex64 text (reportMatchesHex64_of_matchesHex64 h)

theorem hexPattern_matchesCommitHash : HexPattern matchesCommitHash := by
  intro text h
  obtain ⟨hlength, hdigits⟩ := Bool.and_eq_true_iff.mp h
  refine ⟨?_, List.all_eq_true.mpr fun c hc => ?_⟩
  · rintro rfl
    exact absurd hlength (by decide)
  · rw [isHex, List.all_eq_true.mp hdigits c hc, Bool.true_or]

theorem hexPattern_matchesFingerprint : HexPattern matchesFingerprint := by
  intro text h
  simp only [matchesFingerprint, matchesHexBytes, Bool.and_eq_true, Bool.not_eq_true',
    List.isEmpty_eq_false_iff] at h
  exact ⟨h.1.1.1, h.1.1.2⟩

end Checks

/-! ## Accepted data have their types -/

section Accepted

variable {host : Host} {Path : Type} {files : FileTree Path} {root : Path}
  {data : List (Str × PyJson)}

theorem SymbolVerified.typed (hprints : host.Prints) {entry : List (Str × PyJson)} {id : Str}
    (h : SymbolVerified host entry) (hid : field entry "id" = .str id)
    (hint : ∀ n, field entry "fingerprint_hex" (.str []) ≠ .int n) :
    Typed symbolFields (.dict entry) := by
  refine ⟨entry, rfl, ?_⟩
  simp only [symbolFields, List.forall_mem_append, List.forall_mem_cons, List.forall_mem_map,
    List.not_mem_nil, false_implies, implies_true, and_true]
  exact ⟨⟨hasField_of_field hid (by simp), hasField_of_isPositiveInt h.rva,
    hasField_of_spells hprints hexPattern_matchesFingerprint h.fingerprint hint,
    hasField_of_hasText h.notes⟩, fun flag hflag => hasField_of_isTrue (h.flags flag hflag)⟩

theorem Verified.symbolsTyped (hprints : host.Prints) (h : Verified host files root data)
    (hint : ∀ hash ∈ hashFields data, ∀ n, hash ≠ .int n) {entry : PyJson}
    (hentry : entry ∈ elements (field data "symbols")) : Typed symbolFields entry := by
  obtain ⟨id, hrequired, items, rfl, hid, rfl⟩ := entryOf_identified h.exact_ hentry
  refine (h.symbols id hrequired).typed hprints hid (hint _ ?_)
  exact List.mem_append_right _ (List.mem_map_of_mem hrequired)

theorem Pinned.path_str {path hash : PyJson} (h : Pinned host files root path hash) :
    ∃ text, path = .str text := by
  obtain ⟨text, -, -, -, hpath, -⟩ := h.backed
  exact ⟨text, hpath⟩

theorem Verified.executableTyped (hprints : host.Prints) (h : Verified host files root data)
    (hint : ∀ hash ∈ hashFields data, ∀ n, hash ≠ .int n) :
    Typed executableFields (field data "executable") := by
  refine typed_of_fields (List.cons_ne_nil _ _) ?_
  simp only [executableFields, List.forall_mem_cons, List.not_mem_nil, false_implies, implies_true,
    and_true]
  have hplatform := h.identified.platform
  rw [supportedPlatforms_executables] at hplatform
  exact ⟨hasField_of_departs hplatform h.filename,
    hasField_of_spells hprints hexPattern_matchesHex64 h.executable (hint _ List.mem_cons_self),
    hasField_of_isPositiveInt h.size⟩

theorem Verified.abiTyped (hprints : host.Prints) (h : Verified host files root data)
    (hint : ∀ hash ∈ hashFields data, ∀ n, hash ≠ .int n) :
    Typed abiFields (field data "abi") := by
  refine typed_of_fields (List.cons_ne_nil _ _) ?_
  simp only [abiFields, List.forall_mem_append, List.forall_mem_cons, List.forall_mem_map,
    List.not_mem_nil, false_implies, implies_true, and_true]
  exact ⟨⟨hasField_of_isTrue h.reviewed,
    hasField_of_spells hprints hexPattern_matchesCommitHash h.commit
      (hint _ (List.mem_cons_of_mem _ List.mem_cons_self))⟩,
    fun name hname => hasField_of_hasText (h.contracts name hname)⟩

theorem Verified.stageProbeTyped (hprints : host.Prints) (h : Verified host files root data)
    (hint : ∀ hash ∈ hashFields data, ∀ n, hash ≠ .int n) :
    Typed stageProbeFields (field data "stage_probe") := by
  refine typed_of_fields (List.cons_ne_nil _ _) ?_
  simp only [stageProbeFields, List.forall_mem_cons, List.not_mem_nil, false_implies, implies_true,
    and_true]
  obtain ⟨text, hpath⟩ := h.report.path_str
  have hfirst := h.probes.each (str "world_get_set_remove_clear") List.mem_cons_self
  exact ⟨hasField_of_isTrue h.probes.passed,
    hasField_of_spells hprints hexPattern_matchesHex64 h.report.isHash (hint _
      (List.mem_cons_of_mem _ (List.mem_cons_of_mem _ List.mem_cons_self))),
    hasField_object (hasField_of_isTrue hfirst), hasField_of_field hpath (by simp)⟩

theorem Verified.bridgeTyped (hprints : host.Prints) (h : Verified host files root data)
    (hint : ∀ hash ∈ hashFields data, ∀ n, hash ≠ .int n) :
    Typed bridgeFields (field data "bridge") := by
  refine typed_of_fields (List.cons_ne_nil _ _) ?_
  simp only [bridgeFields, List.forall_mem_cons, List.not_mem_nil, false_implies, implies_true,
    and_true]
  obtain ⟨text, hpath⟩ := h.source.path_str
  exact ⟨hasField_of_isTrue h.bridge,
    hasField_of_spells hprints hexPattern_matchesHex64 h.source.isHash (hint _
      (List.mem_cons_of_mem _ (List.mem_cons_of_mem _ (List.mem_cons_of_mem _
        List.mem_cons_self)))),
    hasField_of_field hpath (by simp)⟩

theorem flagsTyped {name : String} {flags : List String} (hne : flags ≠ [])
    (h : ∀ flag ∈ flags, isTrue (field (mapping (field data name)) flag) = true) :
    Typed (flags.map fun flag => (flag, .boolean)) (field data name) := by
  refine typed_of_fields (fun hnil => hne (List.map_eq_nil_iff.mp hnil)) ?_
  rw [List.forall_mem_map]
  exact fun flag hflag => hasField_of_isTrue (h flag hflag)

/-- An accepted manifest without an integer for a hash or `True` for its schema is typed. -/
theorem manifestTyped_of_verified (hprints : host.Prints) (h : Verified host files root data)
    (hstrict : ¬ Coerced (field data "schema") (hashFields data)) : ManifestTyped (.dict data) := by
  have hint : ∀ hash ∈ hashFields data, ∀ n, hash ≠ .int n := fun hash hhash n hn =>
    hstrict (.inr ⟨hash, hhash, n, hn⟩)
  have hhooks := flagsTyped (List.cons_ne_nil _ _) h.hooks
  have hstorage := flagsTyped (List.cons_ne_nil _ _) h.storage
  have hroot : ∀ entry ∈ manifestFields, HasField data (str entry.1) entry.2 := by
    simp only [manifestFields, List.forall_mem_cons, List.not_mem_nil, false_implies, implies_true,
      and_true]
    obtain ⟨platform, -, hgives⟩ := h.identified.platform
    have hplatform := h.identified.platform
    rw [supportedPlatforms_archives] at hplatform
    exact ⟨hasField_of_equalsOne h.identified.schema fun hschema => hstrict (.inl hschema),
      hasField_of_field hgives (by simp), hasField_of_isText h.identified.bdsPackageVersion,
      hasField_of_isText h.identified.runtimeBds, hasField_of_isText h.identified.endstoneVersion,
      hasField_of_departs hplatform h.archive, hasField_of_typed (h.executableTyped hprints hint),
      hasField_of_typed (h.abiTyped hprints hint), hasField_of_field h.exact_.list (by simp),
      hasField_of_typed hhooks, hasField_of_typed hstorage,
      hasField_of_typed (h.stageProbeTyped hprints hint),
      hasField_of_typed (h.bridgeTyped hprints hint), hasField_of_isText h.status⟩
  exact
    { root := ⟨data, rfl, hroot⟩
      executable := h.executableTyped hprints hint
      abi := h.abiTyped hprints hint
      symbols := fun _ hentry => h.symbolsTyped hprints hint hentry
      complete := fun _ hsymbol => exists_entry h.exact_ hsymbol
      hooks := hhooks
      storage := hstorage
      stageProbe := h.stageProbeTyped hprints hint
      results := fun probe hprobe => hasField_of_isTrue (h.probes.each probe hprobe)
      bridge := h.bridgeTyped hprints hint }

theorem ReportVerified.probesTyped (hprints : host.Prints) (h : ReportVerified host data)
    (hint : ∀ hash ∈ reportHashFields data, ∀ n, hash ≠ .int n) {probe : Str}
    (hprobe : probe ∈ requiredStageProbes) :
    Typed probeFields (((mapping (field data "results")).lookup probe).getD .none) := by
  obtain ⟨result, hlookup, hresult⟩ := h.probes probe hprobe
  have hof : resultOf data probe = result := by
    rw [resultOf, hlookup]
    rfl
  have hevidence := hint _ (List.mem_append_right _ (List.mem_map_of_mem hprobe))
  rw [hof] at hevidence
  rw [hlookup, Option.getD_some]
  refine ⟨result, rfl, ?_⟩
  simp only [probeFields, List.forall_mem_cons, List.not_mem_nil, false_implies, implies_true,
    and_true]
  exact ⟨hasField_of_isTrue hresult.passed, hasField_of_hasText hresult.notes,
    hasField_of_spells hprints hexPattern_reportMatchesHex64 hresult.evidence hevidence⟩

theorem reportTyped_of_verified (hprints : host.Prints) (h : ReportVerified host data)
    (hstrict : ¬ Coerced (field data "schema") (reportHashFields data)) :
    ReportTyped (.dict data) := by
  have hint : ∀ hash ∈ reportHashFields data, ∀ n, hash ≠ .int n := fun hash hhash n hn =>
    hstrict (.inr ⟨hash, hhash, n, hn⟩)
  obtain ⟨platform, -, hgives⟩ := h.identified.platform
  obtain ⟨started, completed, ⟨_, hstarted, -⟩, ⟨_, hcompleted, -⟩, -⟩ := h.times
  obtain ⟨results, hresults⟩ := h.results
  refine ⟨⟨data, rfl, ?_⟩, fun probe hprobe => h.probesTyped hprints hint hprobe⟩
  simp only [reportFields, List.forall_mem_cons, List.not_mem_nil, false_implies, implies_true,
    and_true]
  exact ⟨hasField_of_equalsOne h.identified.schema fun hschema => hstrict (.inl hschema),
    hasField_of_field hgives (by simp), hasField_of_isText h.identified.bdsPackageVersion,
    hasField_of_isText h.identified.runtimeBds, hasField_of_isText h.identified.endstoneVersion,
    hasField_of_spells hprints hexPattern_reportMatchesHex64 h.executable
      (hint _ List.mem_cons_self),
    hasField_of_spells hprints hexPattern_reportMatchesHex64 h.bridge
      (hint _ (List.mem_cons_of_mem _ List.mem_cons_self)),
    hasField_of_field hstarted (by simp), hasField_of_field hcompleted (by simp),
    hasField_of_isTrue h.passed, hasField_of_field hresults (by simp)⟩

end Accepted

/-! ## When malformed data fail closed -/

section FailClosed

variable {host : Host} {Path : Type} {files : FileTree Path} {root : Path}
  {data : List (Str × PyJson)}

/-- Only paths with a NUL need to be resolved with care. -/
theorem resolvable_iff (hfiles : Answers files root) {value : PyJson} :
    Resolvable files root value ↔ ∀ text, value = .str text → 0 ∈ text →
      files.isAbsolute (files.path text) = false →
        Returns (files.resolve (files.join root (files.path text))) := by
  constructor
  · intro h text hvalue hnul habsolute
    exact h text hvalue (List.ne_nil_of_mem hnul) habsolute
  · intro h text hvalue hne habsolute
    by_cases hnul : 0 ∈ text
    · exact h text hvalue hnul habsolute
    · exact hfiles.resolve text hnul

theorem failsClosed_validationErrors (hfiles : Answers files root) :
    FailsClosed (validationErrors host files root (.dict data)) ↔
      Hashable (field data "platform") ∧ (∀ hash ∈ hashFields data, Returns (host.text hash)) ∧
        (∀ path ∈ pathFields data, ∀ text, path = .str text → 0 ∈ text →
          files.isAbsolute (files.path text) = false →
            Returns (files.resolve (files.join root (files.path text)))) ∧
        ¬ Verified host files root data := by
  rw [failsClosed_iff_returns, returns_validationErrors hfiles, ne_eq, validationErrors_eq_nil]
  simp only [resolvable_iff hfiles, and_assoc]

theorem failsClosed_validate : FailsClosed (validate host (.dict data)) ↔
    Hashable (field data "platform") ∧
      (∀ hash ∈ reportHashFields data, Returns (host.text hash)) ∧ ¬ ReportVerified host data := by
  rw [failsClosed_iff_returns, returns_validate, ne_eq, validate_eq_nil, and_assoc]

theorem manifest_failsClosed_iff (hprints : host.Prints) (hfiles : Answers files root)
    (htyped : ¬ ManifestTyped (.dict data)) :
    FailsClosed (validationErrors host files root (.dict data)) ↔
      ManifestHandled host files root data := by
  rw [failsClosed_validationErrors hfiles]
  constructor
  · rintro ⟨hhashable, htexts, hpaths, hverified⟩
    exact ⟨hhashable, htexts, hpaths, fun _ => hverified⟩
  · intro h
    refine ⟨h.hashable, h.texts, h.paths, fun hverified => ?_⟩
    by_cases hcoerced : Coerced (field data "schema") (hashFields data)
    · exact h.strict hcoerced hverified
    · exact htyped (manifestTyped_of_verified hprints hverified hcoerced)

theorem report_failsClosed_iff (hprints : host.Prints) (htyped : ¬ ReportTyped (.dict data)) :
    FailsClosed (validate host (.dict data)) ↔ ReportHandled host data := by
  rw [failsClosed_validate]
  constructor
  · rintro ⟨hhashable, htexts, hverified⟩
    exact ⟨hhashable, htexts, fun _ => hverified⟩
  · intro h
    refine ⟨h.hashable, h.texts, fun hverified => ?_⟩
    by_cases hcoerced : Coerced (field data "schema") (reportHashFields data)
    · exact h.strict hcoerced hverified
    · exact htyped (reportTyped_of_verified hprints hverified hcoerced)

/-- Without fields, every hash is the empty text. -/
theorem hashFields_nil {hash : PyJson} (h : hash ∈ hashFields []) : hash = .str [] := by
  rcases List.mem_append.mp h with h | h
  · simp only [List.mem_cons, List.not_mem_nil, or_false] at h
    rcases h with rfl | rfl | rfl | rfl <;> rfl
  · obtain ⟨symbol, -, rfl⟩ := List.mem_map.mp h
    rfl

theorem reportHashFields_nil {hash : PyJson} (h : hash ∈ reportHashFields []) : hash = .str [] := by
  rcases List.mem_append.mp h with h | h
  · simp only [List.mem_cons, List.not_mem_nil, or_false] at h
    rcases h with rfl | rfl <;> rfl
  · obtain ⟨probe, -, rfl⟩ := List.mem_map.mp h
    rfl

theorem not_coerced {schema : PyJson} {hashes : List PyJson} (hschema : schema = .none)
    (hhashes : ∀ hash ∈ hashes, hash = .str []) : ¬ Coerced schema hashes := by
  rintro (h | ⟨hash, hmem, value, hvalue⟩)
  · rw [hschema] at h
    cases h
  · rw [hhashes hash hmem] at hvalue
    cases hvalue

theorem manifestHandled_nil : ManifestHandled host files root [] where
  hashable := trivial
  texts hash h := by
    rw [hashFields_nil h]
    exact returns_ok []
  paths path h text htext := by
    simp only [pathFields, List.mem_cons, List.not_mem_nil, or_false] at h
    rcases h with rfl | rfl <;> cases htext
  strict h := absurd h (not_coerced rfl fun _ => hashFields_nil)

theorem reportHandled_nil : ReportHandled host [] where
  hashable := trivial
  texts hash h := by
    rw [reportHashFields_nil h]
    exact returns_ok []
  strict h := absurd h (not_coerced rfl fun _ => reportHashFields_nil)

/-- **When malformed data fail closed.** -/
theorem validators_fail_closed_iff (hprints : host.Prints) (hfiles : Answers files root)
    (data : PyJson) :
    (¬ ManifestTyped data → (FailsClosed (validationErrors host files root data) ↔
      ManifestHandled host files root (mapping data))) ∧
    (¬ ReportTyped data →
      (FailsClosed (validate host data) ↔ ReportHandled host (mapping data))) := by
  cases data with
  | dict items =>
      exact ⟨manifest_failsClosed_iff hprints hfiles, report_failsClosed_iff hprints⟩
  | _ =>
      exact ⟨fun _ => iff_of_true ⟨_, rfl, List.cons_ne_nil _ _⟩ manifestHandled_nil,
        fun _ => iff_of_true ⟨_, rfl, List.cons_ne_nil _ _⟩ reportHandled_nil⟩

end FailClosed

section Runs

theorem hasField_root {items : List (Str × PyJson)} {fields : List (String × JsonType)}
    {name : String} {type : JsonType} (h : Typed fields (.dict items))
    (hmem : (name, type) ∈ fields) : HasField items (str name) type := by
  obtain ⟨others, hothers, hfields⟩ := h
  obtain rfl := PyJson.dict.inj hothers
  exact hfields _ hmem

/-- Data without a schema. -/
theorem not_typed_of_schema {items : List (Str × PyJson)}
    (h : items.lookup (str "schema") = none) :
    ¬ ManifestTyped (.dict items) ∧ ¬ ReportTyped (.dict items) := by
  have hnot : ¬ HasField items (str "schema") .number := by
    rintro ⟨value, hlookup, -⟩
    rw [h] at hlookup
    cases hlookup
  exact ⟨fun htyped => hnot (hasField_root htyped.root List.mem_cons_self),
    fun htyped => hnot (hasField_root htyped.root List.mem_cons_self)⟩

theorem prints_emptyHost : emptyHost.Prints where
  float _ _ h := by
    obtain rfl := Except.ok.inj h
    decide
  list _ _ h := by
    obtain rfl := Except.ok.inj h
    decide
  dict _ _ h := by
    obtain rfl := Except.ok.inj h
    decide

theorem answers_emptyTree : Answers emptyTree (str "/srv") where
  base := returns_ok _
  resolve _ _ := returns_ok _
  isFile _ := returns_ok _
  read path h := by
    have hfile : (emptyEvidence.map Prod.fst).contains path = true := Except.ok.inj h
    have hmem := List.contains_iff_mem.mp hfile
    simp only [emptyEvidence, List.map_cons, List.map_nil, List.mem_cons, List.not_mem_nil,
      or_false] at hmem
    rcases hmem with rfl | rfl <;> exact returns_ok _

theorem validators_fail_closed_iff_emptyObject :
    (¬ ManifestTyped (.dict []) ∧
      FailsClosed (validationErrors emptyHost emptyTree (str "/srv") (.dict []))) ∧
    ¬ ReportTyped (.dict []) ∧ FailsClosed (validate emptyHost (.dict [])) := by
  obtain ⟨hmanifest, hreport⟩ := @not_typed_of_schema [] rfl
  obtain ⟨h, h'⟩ := validators_fail_closed_iff prints_emptyHost answers_emptyTree (.dict [])
  exact ⟨⟨hmanifest, (h hmanifest).mpr manifestHandled_nil⟩, hreport,
    (h' hreport).mpr reportHandled_nil⟩

/-- A platform that no set can be asked for. -/
theorem platform_list_raises :
    ¬ ManifestTyped (.dict [(str "platform", .list [])]) ∧
    ¬ ReportTyped (.dict [(str "platform", .list [])]) ∧
    emptyHost.Prints ∧ Answers emptyTree (str "/srv") ∧
    validationErrors emptyHost emptyTree (str "/srv") (.dict [(str "platform", .list [])]) =
      .error (.python (.typeError (str "unhashable type: 'list'"))) ∧
    validate emptyHost (.dict [(str "platform", .list [])]) =
      .error (.python (.typeError (str "unhashable type: 'list'"))) ∧
    ¬ FailsClosed
      (validationErrors emptyHost emptyTree (str "/srv") (.dict [(str "platform", .list [])])) ∧
    ¬ FailsClosed (validate emptyHost (.dict [(str "platform", .list [])])) := by
  obtain ⟨hmanifest, hreport⟩ := @not_typed_of_schema [(str "platform", .list [])] rfl
  refine ⟨hmanifest, hreport, prints_emptyHost, answers_emptyTree, rfl, rfl, ?_, ?_⟩
  · rintro ⟨errors, h, -⟩
    cases h
  · rintro ⟨errors, h, -⟩
    cases h

end Runs

end DynamicProperties.Python.Native
