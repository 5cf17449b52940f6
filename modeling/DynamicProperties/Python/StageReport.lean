import DynamicProperties.Python.NativeManifest

/-!
# The validator of stage reports

`validate` of `tools/validate_stage_probe_report.py`, a tool of its own.  It has its
own pattern for hashes, which takes capital letters too, and its own set of platforms.
-/

namespace DynamicProperties.Python.Native

open DynamicProperties.Library

/-- `HEX64`. -/
def reportMatchesHex64 (text : Str) : Bool := text.length = 64 && text.all isHex

/-- `SUPPORTED_PLATFORMS`. -/
def supportedPlatforms : List Str := [str "linux-x64", str "windows-x64"]

/-- `sorted(names)`. -/
def sorted (names : List Str) : List Str := names.mergeSort fun a b => (compare a b).isLE

/-- `", ".join(names)`. -/
def joined (names : List Str) : Str := (names.intersperse (str ", ")).flatten

section Report

variable (host : Host)

/-- `_timestamp`, with the error it appends. -/
def timestamp (value : PyJson) (name : String) : Option Timestamp × List Str :=
  let malformed := [str name ++ str " must be an ISO-8601 timestamp"]
  match value with
  | .str text =>
      if !hasText value then (none, malformed)
      else
        match host.fromIsoFormat
            (text.flatMap fun c => if c = asciiPoint 0x5A then str "+00:00" else [c]) with
        | none => (none, malformed)
        | some parsed =>
            if parsed.aware then (some parsed, [])
            else (none, [str name ++ str " must include a timezone"])
  | _ => (none, malformed)

/-- `completed < started`, if both are there. -/
def precedes : Option Timestamp → Option Timestamp → Bool
  | some completed, some started => completed.instant < started.instant
  | _, _ => false

def reportHeaderErrors (data : List (Str × PyJson)) : Except NativeError (List Str) := do
  let supported ← isMember supportedPlatforms (field data "platform")
  let executable ← host.text (field data "executable_sha256" (.str []))
  let bridge ← host.text (field data "bridge_sha256" (.str []))
  return complain (!equalsOne (field data "schema")) (str "schema must be 1")
    ++ complain (!supported) (str "platform must be linux-x64 or windows-x64")
    ++ complain (!isText (field data "bds_package_version") (str "1.26.33.1"))
      (str "wrong BDS package version")
    ++ complain (!isText (field data "runtime_bds") (str "26.33")) (str "wrong BDS runtime")
    ++ complain (!isText (field data "endstone_version") (str "0.11.6"))
      (str "wrong Endstone version")
    ++ complain (!reportMatchesHex64 executable)
      (str "executable_sha256 must be a 64-digit hexadecimal SHA-256")
    ++ complain (!reportMatchesHex64 bridge)
      (str "bridge_sha256 must be a 64-digit hexadecimal SHA-256")

def reportTimeErrors (data : List (Str × PyJson)) : List Str :=
  let (started, startedErrors) := timestamp host (field data "started_at") "started_at"
  let (completed, completedErrors) := timestamp host (field data "completed_at") "completed_at"
  startedErrors ++ completedErrors
    ++ complain (precedes completed started) (str "completed_at precedes started_at")
    ++ complain (!isTrue (field data "passed")) (str "report is not marked passed")

/-- The checks of the set of probes. -/
def probeSetErrors (results : PyJson) : List Str :=
  let names := (mapping results).map Prod.fst
  let missing := requiredStageProbes.filter fun probe => !names.contains probe
  let unexpected := names.filter fun name => !requiredStageProbes.contains name
  (match results with
    | .dict _ => []
    | _ => [str "results must be an object"])
    ++ complain (!missing.isEmpty) (str "missing probes: " ++ joined (sorted missing))
    ++ complain (!unexpected.isEmpty) (str "unexpected probes: " ++ joined (sorted unexpected))

/-- The round of the loop for one probe. -/
def probeErrors (results : List (Str × PyJson)) (name : Str) : Except NativeError (List Str) :=
  match results.lookup name with
  | some (.dict result) => do
      let evidence ← host.text (field result "evidence_sha256" (.str []))
      return complain (!isTrue (field result "passed"))
          (str "probe " ++ name ++ str " did not pass")
        ++ complain (!hasText (field result "notes")) (str "probe " ++ name ++ str " has no notes")
        ++ complain (!reportMatchesHex64 evidence)
          (str "probe " ++ name ++ str " has an invalid evidence hash")
  | _ => return [str "probe " ++ name ++ str " must be an object"]

/-- `validate`. -/
def validate : PyJson → Except NativeError (List Str)
  | .dict data => do
      let header ← reportHeaderErrors host data
      let probes ← complainEach (probeErrors host (mapping (field data "results")))
        requiredStageProbes
      return header ++ reportTimeErrors host data ++ probeSetErrors (field data "results") ++ probes
  | _ => return [str "report root must be an object"]

end Report

end DynamicProperties.Python.Native
