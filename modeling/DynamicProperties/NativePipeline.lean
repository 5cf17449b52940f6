import DynamicProperties.Cpp.Activation
import DynamicProperties.Python.ManifestActivation

/-!
# From the manifest to the registered service

The gate is opened in two languages.  The Python tools validate a manifest and write the header
of a gate from it; the plugin is compiled with that header, and looks at the server it is loaded
into.  `manifest_registers_iff` puts the two together: what a server with the plugin has to be
for a service to be registered, in terms of the manifest alone.
-/

namespace DynamicProperties.Python.Native

open DynamicProperties.Library
open DynamicProperties.Library.Fallible

/-- The octets of a text without lone surrogates. -/
def utf8 (text : Str) : Cpp.ByteString := text.flatMap encodeCodePoint

/-- The constants that the header of a gate gives the C++ code. -/
def GeneratedGate.header (gate : GeneratedGate) : Cpp.GeneratedHeader where
  bdsPackageVersion := utf8 gate.bdsPackageVersion
  runtimeBds := utf8 gate.runtimeBds
  endstoneVersion := utf8 gate.endstoneVersion
  executableSha256 := utf8 gate.executableSha256
  executableSize := gate.executableSize
  nativeManifestActivated := true
  exactBuildMatch := true
  exactBinaryHashMatch := true
  symbolsValidated := true
  storageContractsValidated := true
  externalHooksValidated := true
  stageProbePassed := true

/-- The texts of the gate are those of the manifest, and the header is that of the gate. -/
structure OpensGate (host : Host) (manifest : List (Str × PyJson)) (gate : GeneratedGate) :
    Prop where
  header : generatedHeader host (.dict manifest) = written gate.lines
  returns : Returns (generatedHeader host (.dict manifest))
  runtimeBds : gate.runtimeBds = str "26.33"
  sha256 : host.text (field (mapping (field manifest "executable")) "sha256" (.str [])) =
    .ok gate.executableSha256
  size : field (mapping (field manifest "executable")) "size" = .int gate.executableSize.toNat

section Gate

variable {host : Host} {Path : Type} {files : FileTree Path} {root : Path}
  {manifest : List (Str × PyJson)}

/-- **A verified manifest opens a gate**, if its numbers and fingerprints can be written. -/
theorem Verified.exists_gate (hverified : Verified host files root manifest)
    (h : Representable (.dict manifest)) : ∃ gate, OpensGate host manifest gate := by
  obtain ⟨table, -, hlines, hnames⟩ := hverified.table h
  obtain ⟨platform, archive, hplatform, harchive, hplatformField, harchiveField⟩ :=
    hverified.platform
  obtain ⟨items, sha256, digest, hitems, hsha256, htext, hdigest⟩ := hverified.digest
  obtain ⟨size, hsize, hfits⟩ := h.size
  replace hsize : field (mapping (field manifest "executable")) "size" = .int size := hsize
  have hitemsSize : field items "size" = .int size := by
    rwa [hitems] at hsize
  have hvalue : (UInt64.ofNat size).toNat = size := by
    rw [UInt64.toNat_ofNat']
    omega
  have hsizeText : interpolated host (.int size) =
      .ok (str (toString (UInt64.ofNat size).toNat)) := by
    rw [hvalue, interpolated, text_natCast host hfits]
    rfl
  have hdigestText : interpolated host sha256 = .ok digest := by
    rw [interpolated, htext]
    rfl
  have hgate : generatedHeader host (.dict manifest) = written (GeneratedGate.lines
      ⟨str "1.26.33.1", str "26.33", str "0.11.6", platform, archive, digest, UInt64.ofNat size,
        table⟩) :=
    generatedHeader_eq (subscript_of_field hverified.exact_.list (by simp)) hlines
      (subscript_of_field (eq_of_isText hverified.identified.bdsPackageVersion) (by simp))
      (subscript_of_field (eq_of_isText hverified.identified.runtimeBds) (by simp))
      (subscript_of_field (eq_of_isText hverified.identified.endstoneVersion) (by simp))
      (subscript_of_field hplatformField (by simp)) (subscript_of_field harchiveField (by simp))
      (subscript_of_field hitems (by simp)) (subscript_of_lookup hsha256) hdigestText
      (subscript_of_field hitemsSize (by simp)) hsizeText
  have hsymbolTexts : ∀ entry ∈ table, Encodable entry.symbol := by
    intro entry hentry
    obtain ⟨id, hid, hname⟩ := List.mem_map.mp (hnames.mem_iff.mp (List.mem_map_of_mem hentry))
    exact hname ▸ encodable_enumerator hid
  refine ⟨_, hgate, ?_, rfl, ?_, hsize.trans (congrArg (fun n : Nat => PyJson.int n) hvalue.symm)⟩
  · rw [hgate]
    exact returns_written_lines (encodable_str _) (encodable_str _) (encodable_str _) hplatform
      harchive hdigest hsymbolTexts
  · rw [hitems, mapping, field, hsha256]
    exact htext

end Gate

end DynamicProperties.Python.Native

namespace DynamicProperties.Cpp

/-- The names that a server may give the BDS of the manifest. -/
theorem canonicalBdsBuild_iff {build : ByteString} :
    canonicalBdsBuild build = text "26.33" ↔
      build ∈ [text "26.33", text "26.33.1", text "1.26.33", text "1.26.33.1"] := by
  have hname : ∀ name : ByteString,
      (if name = text "26.33.1" then text "26.33" else name) = text "26.33" ↔
        name = text "26.33" ∨ name = text "26.33.1" := by
    intro name
    split
    · next hname => exact iff_of_true rfl (.inr hname)
    · next hname => exact (or_iff_left hname).symm
  unfold canonicalBdsBuild
  simp only [hname, List.mem_cons, List.not_mem_nil, or_false]
  by_cases hone : (text "1.").isPrefixOf build = true
  · obtain ⟨rest, rfl⟩ := List.isPrefixOf_iff_prefix.mp hone
    rw [if_pos hone, show (text "1." ++ rest).drop 2 = rest from rfl,
      show text "1.26.33" = text "1." ++ text "26.33" by decide,
      show text "1.26.33.1" = text "1." ++ text "26.33.1" by decide]
    simp only [List.append_cancel_left_eq]
    constructor
    · exact fun h => .inr (.inr h)
    · rintro (h | h | h)
      · rw [h] at hone
        exact absurd hone (by decide)
      · rw [h] at hone
        exact absurd hone (by decide)
      · exact h
  · rw [if_neg hone]
    constructor
    · rintro (h | h)
      · exact .inl h
      · exact .inr (.inl h)
    · rintro (h | h | rfl | rfl)
      · exact .inl h
      · exact .inr h
      · exact absurd (by decide) hone
      · exact absurd (by decide) hone

end DynamicProperties.Cpp

namespace DynamicProperties

open Python Python.Native Library.Fallible

/-- The process runs the executable whose digest and size the manifest names. -/
def RunsExecutable {α : Type} (host : Host) (manifest : List (Str × PyJson))
    (platform : Cpp.Platform) (process : Cpp.Process α) : Prop :=
  ∃ digest size,
    host.text (field (mapping (field manifest "executable")) "sha256" (.str [])) = .ok digest ∧
    field (mapping (field manifest "executable")) "size" = .int (UInt64.toNat size) ∧
    Cpp.IsExecutable platform process (utf8 digest) size

/-- The server and its process are those of the manifest. -/
structure ServesManifest {α : Type} (host : Host) (manifest : List (Str × PyJson))
    (platform : Cpp.Platform) (environment : Cpp.Environment α) : Prop where
  bds : environment.server.minecraftVersion ∈
    [Cpp.text "26.33", Cpp.text "26.33.1", Cpp.text "1.26.33", Cpp.text "1.26.33.1"]
  endstone : environment.server.version ∈ Cpp.versions
  executable : RunsExecutable host manifest platform environment.process

section Pipeline

variable {host : Host} {manifest : List (Str × PyJson)} {gate : GeneratedGate} {α : Type}
  {platform : Cpp.Platform} {environment : Cpp.Environment α}

theorem opened_header (gate : GeneratedGate) : gate.header.Opened where
  manifest := rfl
  symbols := rfl
  storage := rfl
  hooks := rfl
  probes := rfl

/-- What the header of the gate asks of a server is what the manifest says. -/
theorem attested_iff (h : OpensGate host manifest gate) :
    Cpp.Attested platform gate.header environment ↔
      ServesManifest host manifest platform environment := by
  have hruntime : gate.header.runtimeBds = Cpp.text "26.33" := by
    have hencoded := encodeUtf8_str "26.33"
    rw [encodeUtf8, if_neg (by decide)] at hencoded
    rw [GeneratedGate.header, h.runtimeBds]
    exact Except.ok.inj hencoded
  constructor
  · intro hattested
    exact ⟨Cpp.canonicalBdsBuild_iff.mp (hattested.bds.trans hruntime), hattested.endstone,
      gate.executableSha256, gate.executableSize, h.sha256, h.size, hattested.executable⟩
  · intro hserves
    obtain ⟨digest, size, hdigest, hsize, hexecutable⟩ := hserves.executable
    obtain rfl : gate.executableSha256 = digest := Except.ok.inj (h.sha256.symm.trans hdigest)
    obtain rfl : gate.executableSize = size :=
      UInt64.toNat_inj.mp (Int.ofNat.inj (PyJson.int.inj (h.size.symm.trans hsize)))
    exact ⟨(Cpp.canonicalBdsBuild_iff.mpr hserves.bds).trans hruntime.symm, hserves.endstone,
      hexecutable⟩

end Pipeline

/-- **From the manifest to the service.**  An accepted manifest, if it can be written, opens a
gate; and a plugin compiled with that gate has a service registered, after any sequence of
enabling and disabling, exactly when it was enabled on the server of the manifest and not
disabled since. -/
theorem manifest_registers_iff {host : Host} {Path : Type} {files : FileTree Path} {root : Path}
    {data : PyJson} (hvalid : validationErrors host files root data = .ok [])
    (h : Representable data) {α : Type} :
    ∃ manifest gate, data = .dict manifest ∧ Verified host files root manifest ∧
      OpensGate host manifest gate ∧ Cpp.nativeServiceCanRegister gate.header = true ∧
      ∀ (build : Cpp.Build) (events : List (Cpp.PluginEvent α)), build.header = gate.header →
        (∀ first later, .enable first later ∈ events → first.Plain) →
        ∀ adapter, adapter ∈ (build.run events).registered ↔
          build.nativeBoundary = true ∧ ∃ environment, Cpp.Standing events environment ∧
            ServesManifest host manifest build.platform environment ∧
            build.Provides environment.server adapter := by
  obtain ⟨manifest, rfl, hverified⟩ := accepted_iff.mp hvalid
  obtain ⟨gate, hgate⟩ := hverified.exists_gate h
  refine ⟨manifest, gate, rfl, hverified, hgate, rfl, ?_⟩
  intro build events hheader hplain adapter
  have hstanding : ∀ environment, Cpp.Standing events environment → environment.Plain := by
    rintro environment ⟨earlier, later, rest, rfl, -⟩
    exact hplain environment later (List.mem_append_right _ List.mem_cons_self)
  rw [Cpp.run_registered]
  constructor
  · rintro ⟨environment, hstands, hregisters⟩
    obtain ⟨hboundary, -, hattested, hprovides⟩ :=
      (Cpp.registers_iff (hstanding environment hstands)).mp hregisters
    rw [hheader] at hattested
    exact ⟨hboundary, environment, hstands, (attested_iff hgate).mp hattested, hprovides⟩
  · rintro ⟨hboundary, environment, hstands, hserves, hprovides⟩
    refine ⟨environment, hstands, (Cpp.registers_iff (hstanding environment hstands)).mpr
      ⟨hboundary, ?_, ?_, hprovides⟩⟩
    · rw [hheader]
      exact opened_header gate
    · rw [hheader]
      exact (attested_iff hgate).mpr hserves

theorem forged_representable : Representable (.dict forged) := by
  have hsymbols : elements (field (mapping (.dict forged)) "symbols") =
      requiredSymbols.map fun symbol => .dict (forgedSymbol symbol) := rfl
  refine ⟨⟨1, rfl, by decide⟩, ?_, ?_⟩
  all_goals
    rw [hsymbols]
    intro symbol hsymbol
    obtain ⟨id, -, rfl⟩ := List.mem_map.mp hsymbol
  · exact ⟨1, rfl, by decide⟩
  · exact ⟨str "aa", rfl⟩

/-- A server whose executable is a file without content, said to have one byte. -/
def hollowServer : Cpp.Environment UInt8 where
  locale := Cpp.minimalLocale
  server := ⟨Cpp.text "26.33", Cpp.text "0.11.6"⟩
  process :=
    { executable := some (Cpp.text "/bds")
      fileSize := fun _ => .ok 1
      open_ := fun _ => some ⟨[], .eof⟩ }

theorem hollowServer_plain : hollowServer.Plain where
  ascii := fun c hc => of_decide_eq_true
    (List.all_eq_true.mp (by decide : (Cpp.text "0.11.6").all (· < 0x80)) c hc)
  hashable := by
    rintro path file hfile
    rw [← Option.some.inj hfile]
    decide

theorem hollowServer_executable :
    Cpp.IsExecutable .linux hollowServer.process (utf8 digestOfNothing) 1 := by
  have hfile := Cpp.sha256File_standard (show ([] : List UInt8).length < 2 ^ 61 by decide)
  have hvalue : Cpp.sha256File (some ⟨[], .eof⟩) = (utf8 digestOfNothing, none) := by
    decide +kernel
  exact ⟨Cpp.text "/bds", [], by decide, by decide, rfl, rfl, by decide, rfl,
    (Prod.mk.inj (hfile.symm.trans hvalue)).1⟩

theorem manifest_registers_iff_forged : ∃ gate, OpensGate emptyHost forged gate ∧
    .verified Cpp.completeAdapter ∈ (Cpp.Build.run
      { Cpp.abcBuild with header := gate.header } [.enable hollowServer hollowServer]).registered := by
  obtain ⟨manifest, gate, hmanifest, -, hgate, -, hregisters⟩ :=
    manifest_registers_iff forged_accepted forged_representable (α := UInt8)
  obtain rfl := PyJson.dict.inj hmanifest
  refine ⟨gate, hgate, (hregisters _ _ rfl (fun first later hmem => ?_) _).mpr
    ⟨rfl, hollowServer, ⟨[], hollowServer, [], rfl, List.not_mem_nil⟩,
      ⟨List.mem_cons_self, ?_, digestOfNothing, 1, rfl, rfl, hollowServer_executable⟩,
      _, Cpp.completeAdapter, rfl, rfl, rfl, by decide⟩⟩
  · exact (Cpp.PluginEvent.enable.inj (List.mem_singleton.mp hmem)).1 ▸ hollowServer_plain
  · exact (Cpp.expectedEndstoneVersion_of_ascii hollowServer_plain.ascii).mp
      (by decide : Cpp.expectedEndstoneVersion Cpp.minimalLocale (Cpp.text "0.11.6") = true)

end DynamicProperties
