import DynamicProperties.Python.VerifiedManifests

/-!
# What an accepted manifest is backed by

The gate pins the stage report and the bridge by their digests and takes the results of
the probes from the manifest itself.  What the report says it never reads.  But its
checks are not weaker than those of the report validator: a report that restates an
accepted manifest validates (`accepted_manifest_pinned`).
-/

namespace DynamicProperties.Python.Native

open DynamicProperties.Library
open DynamicProperties.Library.Fallible

/-- A hash the manifest may have, the report may have too. -/
theorem reportMatchesHex64_of_matchesHex64 {text : Str} (h : matchesHex64 text = true) :
    reportMatchesHex64 text = true := by
  obtain ⟨hlength, hdigits⟩ := Bool.and_eq_true_iff.mp h
  refine Bool.and_eq_true_iff.mpr ⟨hlength, List.all_eq_true.mpr fun c hc => ?_⟩
  rw [isHex, List.all_eq_true.mp hdigits c hc]
  rfl

/-! ## Reports that restate a manifest -/

/-- The report says what the manifest says, marks the same probes as passed, and gives
notes and an evidence hash for each, and times that make sense. -/
structure Restates (host : Host) (manifest report : List (Str × PyJson)) : Prop where
  header : ∀ name ∈ ["schema", "platform", "bds_package_version", "runtime_bds",
    "endstone_version"], field report name = field manifest name
  executable : field report "executable_sha256" (.str []) =
    field (mapping (field manifest "executable")) "sha256" (.str [])
  bridge : field report "bridge_sha256" (.str []) =
    field (mapping (field manifest "bridge")) "source_sha256" (.str [])
  times : ∃ started completed,
    timestamp host (field report "started_at") "started_at" = (some started, []) ∧
    timestamp host (field report "completed_at") "completed_at" = (some completed, []) ∧
    started.instant ≤ completed.instant
  passed : field report "passed" = field (mapping (field manifest "stage_probe")) "passed"
  results : ∃ results, field report "results" = .dict results ∧
    results.map Prod.fst =
      (mapping (field (mapping (field manifest "stage_probe")) "results")).map Prod.fst ∧
    ∀ probe ∈ results.map Prod.fst, ∃ result, results.lookup probe = some (.dict result) ∧
      field result "passed" =
        ((mapping (field (mapping (field manifest "stage_probe")) "results")).lookup probe).getD
          .none ∧
      hasText (field result "notes") = true ∧
      ∃ digest, host.text (field result "evidence_sha256" (.str [])) = .ok digest ∧
        reportMatchesHex64 digest = true

section Restates

variable {host : Host} {manifest report : List (Str × PyJson)}

theorem Restates.identified (h : Restates host manifest report)
    (hidentified : Identified manifest) :
    Identified report where
  schema := by
    rw [h.header "schema" (by decide)]
    exact hidentified.schema
  platform := by
    rw [h.header "platform" (by decide)]
    exact hidentified.platform
  bdsPackageVersion := by
    rw [h.header "bds_package_version" (by decide)]
    exact hidentified.bdsPackageVersion
  runtimeBds := by
    rw [h.header "runtime_bds" (by decide)]
    exact hidentified.runtimeBds
  endstoneVersion := by
    rw [h.header "endstone_version" (by decide)]
    exact hidentified.endstoneVersion

theorem spells_of_matchesHex64 {value : PyJson} (h : Spells host matchesHex64 value) :
    Spells host reportMatchesHex64 value := by
  obtain ⟨text, htext, hmatches⟩ := h
  exact ⟨text, htext, reportMatchesHex64_of_matchesHex64 hmatches⟩

variable {Path : Type} {files : FileTree Path} {root : Path}

/-- A report that restates an accepted manifest is accepted. -/
theorem Restates.verified (h : Restates host manifest report)
    (hmanifest : Verified host files root manifest) : ReportVerified host report := by
  obtain ⟨started, completed, hstarted, hcompleted, horder⟩ := h.times
  obtain ⟨results, hresults, hnames, hentries⟩ := h.results
  have hexact : ∀ name, name ∈ results.map Prod.fst ↔ name ∈ requiredStageProbes := by
    rw [hnames]
    exact hmanifest.probes.exact_
  refine ⟨h.identified hmanifest.identified, ?_, ?_, ⟨started, completed,
    timestamp_eq_iff.mp hstarted, timestamp_eq_iff.mp hcompleted, horder⟩, ?_, ⟨results, hresults⟩,
    ?_, ?_⟩
  · rw [h.executable]
    exact spells_of_matchesHex64 hmanifest.executable
  · rw [h.bridge]
    exact spells_of_matchesHex64 hmanifest.source.isHash
  · rw [h.passed]
    exact hmanifest.probes.passed
  · rw [hresults]
    exact hexact
  · intro probe hprobe
    obtain ⟨result, hlookup, hpassed, hnotes, hevidence⟩ :=
      hentries probe ((hexact probe).mpr hprobe)
    rw [hresults]
    refine ⟨result, hlookup, ?_, hnotes, hevidence⟩
    rw [hpassed]
    exact hmanifest.probes.each probe hprobe

end Restates

section Accepted

variable {host : Host} {Path : Type} {files : FileTree Path} {root : Path} {data : PyJson}

/-- **What an accepted manifest is backed by.** -/
theorem accepted_manifest_pinned (h : validationErrors host files root data = .ok []) :
    ∃ manifest, data = .dict manifest ∧ Identified manifest ∧
      ProbesPassed (mapping (field manifest "stage_probe")) ∧
      Pinned host files root (field (mapping (field manifest "stage_probe")) "report_path")
        (field (mapping (field manifest "stage_probe")) "report_sha256" (.str [])) ∧
      Pinned host files root (field (mapping (field manifest "bridge")) "source_path")
        (field (mapping (field manifest "bridge")) "source_sha256" (.str [])) ∧
      ∀ report, Restates host manifest report → validate host (.dict report) = .ok [] := by
  obtain ⟨manifest, hmanifest, hverified⟩ := accepted_iff.mp h
  refine ⟨manifest, hmanifest, hverified.identified, hverified.probes, hverified.report,
    hverified.source, fun report hreport => ?_⟩
  exact validate_eq_nil.mpr (hreport.verified hverified)

end Accepted

/-! ## A manifest over an empty report -/

/-- A directory with an empty bridge and a report without content. -/
def emptyEvidence : List (Str × Cpp.ByteString) :=
  [(str "/srv/bridge.cpp", []), (str "/srv/report.json", Cpp.text "\x7b\x7d")]

/-- Its files, on a system without links. -/
def emptyTree : FileTree Str where
  path := id
  isAbsolute path := path.head? = some 0x2F
  join root path := root ++ str "/" ++ path
  resolve path := .ok path
  isRelativeTo path base := (base ++ str "/").isPrefixOf path
  isFile path := .ok ((emptyEvidence.map Prod.fst).contains path)
  read path :=
    match emptyEvidence.lookup path with
    | some content => .ok content
    | none => .error (.osError (str "No such file or directory"))

def digestOfNothing : Str := str "e3b0c44298fc1c149afbf4c8996fb92427ae41e4649b934ca495991b7852b855"

def digestOfEmptyObject : Str :=
  str "44136fa355b3678a1146ad16f7e8649e94fb4fc21fe77e8310c060f61caaff8a"

/-- The interpreter, as far as these files go. -/
def emptyHost : Host where
  repr _ := .ok (str "object")
  sha256 content := if content = [] then digestOfNothing else digestOfEmptyObject
  fromIsoFormat _ := none

def allTrue (names : List Str) : List (Str × PyJson) := names.map fun name => (name, .bool true)

theorem map_fst_allTrue (names : List Str) : (allTrue names).map Prod.fst = names := by
  rw [allTrue, List.map_map]
  exact List.map_id names

theorem isTrue_allTrue {names : List Str} {name : Str} (h : name ∈ names) :
    isTrue (((allTrue names).lookup name).getD .none) = true := by
  induction names with
  | nil => exact absurd h List.not_mem_nil
  | cons first rest ih =>
      by_cases hfirst : name = first
      · rw [hfirst, allTrue, List.map_cons, List.lookup_cons_self]
        rfl
      · have hrest := (List.mem_cons.mp h).resolve_left hfirst
        rw [allTrue, List.map_cons, List.lookup_cons, beq_false_of_ne hfirst]
        exact ih hrest

/-- What the forged manifest says of a symbol. -/
def forgedSymbol (symbol : Str) : List (Str × PyJson) :=
  [(str "id", .str symbol), (str "rva", .int 1), (str "fingerprint_hex", .str (str "aa")),
      (str "verification_notes", .str (str "forged"))] ++
    allTrue [str "resolved", str "unique", str "signature_verified", str "behavior_verified"]

def forgedStage : List (Str × PyJson) :=
  [(str "passed", .bool true), (str "report_path", .str (str "report.json")),
    (str "report_sha256", .str digestOfEmptyObject),
    (str "results", .dict (allTrue requiredStageProbes))]

/-- A manifest that claims everything. -/
def forged : List (Str × PyJson) :=
  [(str "schema", .int 1), (str "status", .str (str "verified")),
    (str "platform", .str (str "linux-x64")),
    (str "bds_package_version", .str (str "1.26.33.1")), (str "runtime_bds", .str (str "26.33")),
    (str "endstone_version", .str (str "0.11.6")),
    (str "archive_sha256",
      .str (str "68c52ababde987741029de091c09cd736fe894bc1fe99cf20f9ed5c659f0c180")),
    (str "executable", .dict
      [(str "filename", .str (str "bedrock_server")), (str "sha256", .str digestOfNothing),
        (str "size", .int 1)]),
    (str "abi", .dict
      ([(str "reviewed", .bool true),
        (str "review_commit", .str (str "0123456789abcdef0123456789abcdef01234567"))] ++
        abiTextFields.map fun name => (str name, .str (str "reviewed")))),
    (str "stage_probe", .dict forgedStage),
    (str "bridge", .dict
      [(str "reviewed", .bool true), (str "source_path", .str (str "bridge.cpp")),
        (str "source_sha256", .str digestOfNothing)]),
    (str "symbols", .list (requiredSymbols.map fun symbol => .dict (forgedSymbol symbol))),
    (str "external_hooks", .dict (allTrue (externalHookFields.map str))),
    (str "storage", .dict (allTrue (storageFields.map str)))]

/-- Entries for the required symbols, each identified by its own. -/
theorem symbolsVerified_map {host : Host} {data : List (Str × PyJson)}
    {entry : Str → List (Str × PyJson)}
    (hentries : field data "symbols" = .list (requiredSymbols.map fun name => .dict (entry name)))
    (hid : ∀ name, field (entry name) "id" = .str name)
    (h : ∀ name, SymbolVerified host (entry name)) :
    ExactSymbols (elements (field data "symbols")) ∧
      ∀ symbol ∈ requiredSymbols, SymbolVerified host (entryOf data symbol) := by
  have hidentifier : ∀ name, identifier (.dict (entry name)) = some name := by
    intro name
    rw [identifier, hid]
  have hids : (elements (field data "symbols")).filterMap identifier = requiredSymbols := by
    rw [hentries, elements, List.filterMap_map]
    exact (List.filterMap_congr fun name _ => hidentifier name).trans List.filterMap_some
  have hnodup : ((elements (field data "symbols")).filterMap identifier).Nodup := by
    rw [hids]
    exact requiredSymbols_nodup
  have hmem : ∀ name ∈ requiredSymbols, .dict (entry name) ∈ elements (field data "symbols") := by
    rw [hentries]
    exact fun name hname => List.mem_map_of_mem hname
  refine ⟨⟨fun other hother => ?_, hnodup, hids ▸ List.Perm.refl _⟩, fun symbol hsymbol => ?_⟩
  · rw [hentries] at hother
    obtain ⟨name, -, rfl⟩ := List.mem_map.mp hother
    exact ⟨name, hidentifier name⟩
  · rw [entryOf, lookup_symbolTable hnodup (hmem symbol hsymbol) (hidentifier symbol)]
    exact h symbol

theorem forgedSymbol_verified (symbol : Str) : SymbolVerified emptyHost (forgedSymbol symbol) where
  flags := by
    simp only [symbolFlags, List.forall_mem_cons, List.not_mem_nil, false_implies, implies_true,
      and_true]
    exact ⟨rfl, rfl, rfl, rfl⟩
  rva := rfl
  fingerprint := ⟨str "aa", rfl, rfl⟩
  notes := rfl

theorem forged_probesPassed : ProbesPassed (mapping (field forged "stage_probe")) := by
  have hresults : mapping (field (mapping (field forged "stage_probe")) "results") =
      allTrue requiredStageProbes := rfl
  refine ⟨rfl, ?_, ?_⟩
  · rw [hresults, map_fst_allTrue]
    exact fun _ => Iff.rfl
  · rw [hresults]
    exact fun _ => isTrue_allTrue

theorem forged_verified : Verified emptyHost emptyTree (str "/srv") forged := by
  have hnothing : matchesHex64 digestOfNothing = true := by decide +kernel
  have hidentified : Identified forged :=
    ⟨rfl, ⟨str "linux-x64", List.mem_cons_self, rfl⟩, by decide +kernel, by decide +kernel,
      by decide +kernel⟩
  have hreport : Pinned emptyHost emptyTree (str "/srv") (.str (str "report.json"))
      (.str digestOfEmptyObject) :=
    ⟨⟨digestOfEmptyObject, rfl, by decide +kernel⟩, str "report.json", str "/srv",
      str "/srv/report.json", Cpp.text "\x7b\x7d", rfl, by decide, by decide, rfl, rfl, by decide,
      rfl, rfl, rfl⟩
  have hsource : Pinned emptyHost emptyTree (str "/srv") (.str (str "bridge.cpp"))
      (.str digestOfNothing) :=
    ⟨⟨digestOfNothing, rfl, hnothing⟩, str "bridge.cpp", str "/srv",
      str "/srv/bridge.cpp", [], rfl, by decide, by decide, rfl, rfl, by decide, rfl, rfl, rfl⟩
  have hentries : field forged "symbols" =
      .list (requiredSymbols.map fun symbol => .dict (forgedSymbol symbol)) := rfl
  obtain ⟨hexact, hsymbols⟩ := symbolsVerified_map hentries (fun _ => rfl) forgedSymbol_verified
  exact
    { identified := hidentified
      archive := by decide +kernel
      filename := by decide +kernel
      executable := ⟨digestOfNothing, rfl, hnothing⟩
      size := rfl
      reviewed := rfl
      contracts := by decide +kernel
      commit := ⟨_, rfl, by decide +kernel⟩
      exact_ := hexact
      symbols := hsymbols
      hooks := by decide +kernel
      storage := by decide +kernel
      probes := forged_probesPassed
      report := hreport
      bridge := rfl
      source := hsource
      status := by decide +kernel }

theorem forged_accepted :
    validationErrors emptyHost emptyTree (str "/srv") (.dict forged) = .ok [] :=
  validationErrors_eq_nil.mpr forged_verified

/-- Its report is pinned. -/
theorem accepted_manifest_pinned_forged :
    Pinned emptyHost emptyTree (str "/srv") (.str (str "report.json"))
      (.str digestOfEmptyObject) := by
  obtain ⟨manifest, hmanifest, -, -, hreport, -⟩ := accepted_manifest_pinned forged_accepted
  obtain rfl := PyJson.dict.inj hmanifest
  exact hreport

theorem reads_emptyObject (interp : Interpreter) : interp.Reads (str "\x7b\x7d") (.dict []) := by
  have hspace : Json.Space [] := fun _ h => absurd h List.not_mem_nil
  exact ⟨.object [], ⟨[], _, [], rfl, hspace, .emptyObject hspace, hspace⟩, rfl⟩

/-- An empty object is no report. -/
theorem validate_emptyObject : validate emptyHost (.dict []) ≠ .ok [] := by
  intro h
  obtain ⟨header, hheader, h⟩ := bind_eq_ok.mp h
  obtain ⟨probes, -, h⟩ := bind_eq_ok.mp h
  obtain ⟨⟨⟨rfl, -⟩, -⟩, -⟩ := by
    simpa only [List.append_eq_nil_iff] using Except.ok.inj h
  have hnot : reportHeaderErrors emptyHost [] ≠ .ok [] := by decide
  exact hnot hheader

/-- The report that is pinned says nothing, and so does not validate and names no
platform. -/
theorem forged_unbacked :
    validationErrors emptyHost emptyTree (str "/srv") (.dict forged) = .ok [] ∧
    ∃ file content,
      evidencePath emptyTree (str "/srv")
        (field (mapping (field forged "stage_probe")) "report_path") = .ok (some file) ∧
      emptyTree.read file = .ok content ∧ encodeUtf8 (str "\x7b\x7d") = .ok content ∧
      (∀ interp : Interpreter, interp.Reads (str "\x7b\x7d") (.dict [])) ∧
      validate emptyHost (.dict []) ≠ .ok [] ∧ field [] "platform" ≠ field forged "platform" :=
  ⟨forged_accepted, str "/srv/report.json", Cpp.text "\x7b\x7d", rfl, rfl, rfl, reads_emptyObject,
    validate_emptyObject, nofun⟩

end DynamicProperties.Python.Native
