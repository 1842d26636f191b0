/-
  WHERE A SANDBOX FINDS ITS FILES.

  A spec names its inputs, mounts and expected outputs by relative paths, and its validator refuses a
  list in which one path stands twice (`exactBindingsAndUniqueness`).  The backend then puts the inputs
  below `/workspace/inputs` and the other two directly below `/workspace`.  The validator compares the
  paths as the spec has them, whole, and not as the backend places them:

    * the input `a` and the mount `inputs/a` are different for the validator and one place for the Job;
    * the output `m/x` is none of the paths of a spec with the mount `m`, and lies beneath it.

  So the paths of an accepted spec may meet in the container, and they do exactly when the segments of one
  begin those of the other (`separate_iff`).
-/
import Mathlib
import Aegis.Lib.Paths
import Aegis.Sandbox.Backends

namespace Aegis

namespace Sandbox

open Paths (Within segments)

/-! ## Paths of a spec -/

/-- What `unicodedata` and `str.lower` know of texts. -/
structure Texts where
  normalized : String → Bool
  category : Char → String
  lower : String → String

/-- `_BIDI`. -/
def bidi : List Char :=
  ['\u061c', '\u200e', '\u200f', '\u202a', '\u202b', '\u202c', '\u202d', '\u202e', '\u2066', '\u2067',
    '\u2068', '\u2069']

/-- `_DEVICE_NAMES`. -/
def deviceNames : List String :=
  ["con", "prn", "aux", "nul", "com1", "com2", "com3", "com4", "com5", "com6", "com7", "com8", "com9",
    "lpt1", "lpt2", "lpt3", "lpt4", "lpt5", "lpt6", "lpt7", "lpt8", "lpt9"]

def refuse {α : Type} (message : String) : Except Error α := .error ⟨.valueError, message⟩

/-- `raise ValueError(message)` unless the condition holds. -/
def demand (c : Prop) [Decidable c] (message : String) : Except Error Unit :=
  if c then .ok () else refuse message

/-- `_safe_text`. -/
def safeText (texts : Texts) (value label : String) (maximum : Nat) : Except Error Unit := do
  demand (value ≠ "" ∧ value.length ≤ maximum) (label ++ " is outside its length bound")
  demand (texts.normalized value = true) (label ++ " must already be NFC-normalized")
  demand (value.toList.all (fun c => decide (c ∉ bidi ∧ texts.category c ∉ ["Cc", "Cf", "Cs"])) = true)
    (label ++ " contains control or bidirectional characters")

/-- `part.rstrip(" .")`. -/
def rstrip (part : List Char) : List Char := (part.reverse.dropWhile fun c => c ∈ [' ', '.']).reverse

/-- `part.rstrip(" .").split(".", maxsplit=1)[0].lower()`. -/
def stem (texts : Texts) (part : List Char) : String :=
  texts.lower (String.ofList ((rstrip part).takeWhile (· ≠ '.')))

/-- `value.split("/")`. -/
def parts (path : String) : List (List Char) := segments '/' path.toList

/-- `validate_relative_path`. -/
def validateRelativePath (texts : Texts) (value : String) : Except Error Unit := do
  safeText texts value "path" 512
  demand (value.toList.head? ∉ [some '/', some '\\'] ∧ '\\' ∉ value.toList ∧
      ¬ ['/', '/'] <:+: value.toList ∧ value.toList.getLast? ≠ some '/')
    "path must be a normalized relative POSIX path"
  demand (∀ part ∈ parts value, part ∉ [[], ['.'], ['.', '.']]) "path traversal is prohibited"
  demand (∀ part ∈ parts value, stem texts part ∉ deviceNames) "device paths are prohibited"
  demand (∀ part ∈ parts value, part = rstrip part) "ambiguous path suffix is prohibited"

/-- The paths of a spec, as its validator lists them. -/
def SandboxSpec.paths (s : SandboxSpec) : List String :=
  s.inputs.map (·.logicalPath) ++ s.mounts.map (·.targetPath) ++
    s.expectedOutputs.map (·.logicalPath)

def SandboxSpec.envNames (s : SandboxSpec) : List String :=
  s.environment.map (·.name) ++ s.secrets.map (·.envName)

/-- `exact_bindings_and_uniqueness`.  A spec has its scope from its approval, and its digest from its
    content. -/
def SandboxSpec.exactBindingsAndUniqueness (s : SandboxSpec) : Except Error Unit := do
  demand s.paths.Nodup "duplicate or conflicting sandbox paths are prohibited"
  demand s.envNames.Nodup "duplicate environment bindings are prohibited"
  demand (∀ i ∈ s.inputs, i.tenantId = s.tenantId) "sandbox input tenant mismatch"
  demand s.requiredAdmissionPolicies.Nodup "duplicate admission policy requirements are prohibited"
  demand ((s.inputs.map (·.sizeBytes)).sum ≤ 128 * 1024 * 1024)
    "sandbox inputs exceed the total byte bound"

/-- The validators of a spec that read its paths: those of the paths, of the number of them, and that of
    the whole. -/
def SandboxSpec.validate (texts : Texts) (s : SandboxSpec) : Except Error Unit := do
  s.inputs.forM fun i => validateRelativePath texts i.logicalPath
  s.mounts.forM fun m => validateRelativePath texts m.targetPath
  s.expectedOutputs.forM fun o => validateRelativePath texts o.logicalPath
  demand (s.inputs.length ≤ 256) "inputs: too many items"
  demand (s.mounts.length ≤ 32) "mounts: too many items"
  demand (1 ≤ s.expectedOutputs.length ∧ s.expectedOutputs.length ≤ 64)
    "expected_outputs: wrong number of items"
  s.exactBindingsAndUniqueness

/-! ## Volumes of a Job -/

namespace KubernetesJobs

/-- A volume of the pod: the CSI driver and what it is told, or none for a volume in memory. -/
structure Volume where
  name : String
  driver : Option String
  readOnly : Bool
  attributes : List (String × String)

structure VolumeMount where
  name : String
  mountPath : String
  readOnly : Bool
  subPath : Option String

/-- The CSI drivers of `KubernetesSandboxConfig`. -/
structure Drivers where
  input : String
  output : String

def inputPath (i : ContentInput) : String := "/workspace/inputs/" ++ i.logicalPath

def targetPath (m : MountReference) : String := "/workspace/" ++ m.targetPath

/-- Where the container has to write an expected output. -/
def outputPath (o : OutputExpectation) : String := "/workspace/" ++ o.logicalPath

def inputVolumes (sha : Sha256) (drivers : Drivers) (request : SandboxExecutionRequest) : List Volume :=
  request.spec.inputs.mapIdx fun index item =>
    { name := "input-" ++ index.repr, driver := some drivers.input, readOnly := true,
      attributes := [("objectRef", item.objectRef.val), ("contentHash", item.contentHash.val),
        ("tenantBinding", stableId sha "tenant" [request.tenantId.val] 32)] }

def inputMounts (spec : SandboxSpec) : List VolumeMount :=
  spec.inputs.mapIdx fun index item =>
    { name := "input-" ++ index.repr, mountPath := inputPath item, readOnly := true,
      subPath := (parts item.logicalPath).getLast?.map String.ofList }

def referenceVolumes (sha : Sha256) (drivers : Drivers) (request : SandboxExecutionRequest) :
    List Volume :=
  request.spec.mounts.mapIdx fun index item =>
    { name := "mount-" ++ index.repr, driver := some drivers.input, readOnly := true,
      attributes := [("sourceRef", item.sourceRef.val),
        ("tenantBinding", (sha.hexdigest (joinParts ["tenant", request.tenantId.val])).val)] }

def referenceMounts (spec : SandboxSpec) : List VolumeMount :=
  spec.mounts.mapIdx fun index item =>
    { name := "mount-" ++ index.repr, mountPath := targetPath item, readOnly := true, subPath := none }

/-- `volumeMounts` of the container. -/
def volumeMounts (spec : SandboxSpec) : List VolumeMount :=
  [⟨"workspace", "/workspace", false, none⟩, ⟨"tmp", "/tmp", false, none⟩] ++ inputMounts spec ++
    referenceMounts spec

/-- `volumes` of the pod. -/
def volumes (sha : Sha256) (drivers : Drivers) (request : SandboxExecutionRequest) : List Volume :=
  [⟨"workspace", some drivers.output, false, [("executionRef", request.executionId.val),
      ("requestDigest", (request.requestDigest sha).val),
      ("tenantBinding", stableId sha "tenant" [request.tenantId.val] 32)]⟩,
    ⟨"tmp", none, false, []⟩] ++ inputVolumes sha drivers request ++ referenceVolumes sha drivers request

/-- The files of a Job, as its manifest has them. -/
structure JobFiles where
  volumes : List Volume
  volumeMounts : List VolumeMount

/-- `job_manifest`, as far as it is about files. -/
def jobManifest (sha : Sha256) (b : Backend) (drivers : Drivers) (request : SandboxExecutionRequest) :
    Run JobFiles := do
  requireReady b request
  pure { volumes := volumes sha drivers request, volumeMounts := volumeMounts request.spec }

/-! ## Paths in the container -/

/-- One path is at the other, or beneath it. -/
def LiesWithin (root path : String) : Prop := Within '/' root.toList path.toList

instance (root path : String) : Decidable (LiesWithin root path) :=
  inferInstanceAs (Decidable (Within ..))

/-- What the container finds at its paths is what the spec asked for. -/
structure Separate (spec : SandboxSpec) : Prop where
  distinct : (spec.inputs.map inputPath ++ spec.mounts.map targetPath ++
    spec.expectedOutputs.map outputPath).Nodup
  mountedOnce : ((volumeMounts spec).map (·.mountPath)).Nodup
  writable : ∀ o ∈ spec.expectedOutputs, ∀ v ∈ volumeMounts spec, v.readOnly = true →
    ¬ LiesWithin v.mountPath (outputPath o)

/-- The paths of the spec do not meet once its inputs are moved below `inputs`. -/
structure Apart (spec : SandboxSpec) : Prop where
  mount : ∀ i ∈ spec.inputs, ∀ m ∈ spec.mounts,
    parts m.targetPath ≠ "inputs".toList :: parts i.logicalPath
  input : ∀ i ∈ spec.inputs, ∀ o ∈ spec.expectedOutputs,
    ¬ "inputs".toList :: parts i.logicalPath <+: parts o.logicalPath
  beneath : ∀ m ∈ spec.mounts, ∀ o ∈ spec.expectedOutputs,
    ¬ parts m.targetPath <+: parts o.logicalPath

/-! ## Places in the container -/

variable {spec : SandboxSpec}

@[simp] theorem parts_inj {p q : String} : parts p = parts q ↔ p = q :=
  Paths.segments_inj.trans String.toList_inj

theorem liesWithin_iff {root path : String} : LiesWithin root path ↔ parts root <+: parts path :=
  Paths.within_iff

/-- The segments of `/workspace`. -/
def workspace : List (List Char) := [[], "workspace".toList]

theorem base_parts : parts "/workspace" = workspace := by decide +kernel

theorem inputs_parts : parts "/workspace/inputs" = workspace ++ ["inputs".toList] := by decide +kernel

/-- A path below a place. -/
theorem parts_below {place below : String} (hslash : below.toList = place.toList ++ ['/']) (path : String) :
    parts (below ++ path) = parts place ++ parts path := by
  rw [parts, String.toList_append, hslash, List.append_assoc, List.singleton_append, Paths.segments_join]
  rfl

theorem below_parts (path : String) : parts ("/workspace/" ++ path) = workspace ++ parts path :=
  (parts_below (by decide +kernel) path).trans (congrArg (· ++ parts path) base_parts)

theorem inputPath_parts (i : ContentInput) :
    parts (inputPath i) = workspace ++ "inputs".toList :: parts i.logicalPath :=
  (parts_below (by decide +kernel) i.logicalPath).trans ((congrArg (· ++ parts i.logicalPath) inputs_parts).trans
    (List.append_assoc ..))

theorem targetPath_parts (m : MountReference) : parts (targetPath m) = workspace ++ parts m.targetPath :=
  below_parts m.targetPath

theorem outputPath_parts (o : OutputExpectation) : parts (outputPath o) = workspace ++ parts o.logicalPath :=
  below_parts o.logicalPath

example : parts "/workspace/inputs/data" = workspace ++ ["inputs".toList, "data".toList] := by decide +kernel

/-- Where two paths of a spec are placed, and when these places meet. -/
theorem inputPath_inj {i j : ContentInput} : inputPath i = inputPath j ↔ i.logicalPath = j.logicalPath := by
  rw [← parts_inj, inputPath_parts, inputPath_parts, List.append_cancel_left_eq, List.cons_inj_right, parts_inj]

theorem targetPath_inj {m n : MountReference} : targetPath m = targetPath n ↔ m.targetPath = n.targetPath := by
  rw [← parts_inj, targetPath_parts, targetPath_parts, List.append_cancel_left_eq, parts_inj]

theorem outputPath_inj {o o' : OutputExpectation} :
    outputPath o = outputPath o' ↔ o.logicalPath = o'.logicalPath := by
  rw [← parts_inj, outputPath_parts, outputPath_parts, List.append_cancel_left_eq, parts_inj]

theorem target_eq_input {m : MountReference} {i : ContentInput} :
    inputPath i = targetPath m ↔ parts m.targetPath = "inputs".toList :: parts i.logicalPath := by
  rw [← parts_inj, inputPath_parts, targetPath_parts, List.append_cancel_left_eq]
  exact eq_comm

theorem output_within_input {i : ContentInput} {o : OutputExpectation} :
    LiesWithin (inputPath i) (outputPath o) ↔ "inputs".toList :: parts i.logicalPath <+: parts o.logicalPath := by
  rw [liesWithin_iff, inputPath_parts, outputPath_parts, List.prefix_append_right_inj]

theorem output_within_target {m : MountReference} {o : OutputExpectation} :
    LiesWithin (targetPath m) (outputPath o) ↔ parts m.targetPath <+: parts o.logicalPath := by
  rw [liesWithin_iff, targetPath_parts, outputPath_parts, List.prefix_append_right_inj]

/-! ## Volume mounts -/

theorem mapIdx_map {α β γ : Type} (f : Nat → α → β) (g : β → γ) (h : α → γ) (hg : ∀ n a, g (f n a) = h a)
    (l : List α) : (l.mapIdx f).map g = l.map h := by
  refine List.ext_getElem (by simp) fun n h₁ h₂ => ?_
  simp [hg]

theorem inputMounts_paths (spec : SandboxSpec) :
    (inputMounts spec).map VolumeMount.mountPath = spec.inputs.map inputPath :=
  mapIdx_map _ _ _ (by intros; rfl) _

theorem referenceMounts_paths (spec : SandboxSpec) :
    (referenceMounts spec).map VolumeMount.mountPath = spec.mounts.map targetPath :=
  mapIdx_map _ _ _ (by intros; rfl) _

theorem volumeMounts_paths (spec : SandboxSpec) : (volumeMounts spec).map VolumeMount.mountPath =
    "/workspace" :: "/tmp" :: (spec.inputs.map inputPath ++ spec.mounts.map targetPath) := by
  rw [volumeMounts, List.map_append, List.map_append, inputMounts_paths, referenceMounts_paths]
  rfl

/-- What is mounted read-only is an input or a mount. -/
theorem readOnly_path {v : VolumeMount} (hv : v ∈ volumeMounts spec) (hreadOnly : v.readOnly = true) :
    v.mountPath ∈ spec.inputs.map inputPath ∨ v.mountPath ∈ spec.mounts.map targetPath := by
  rw [volumeMounts, List.mem_append, List.mem_append] at hv
  rcases hv with (hv | hv) | hv
  · rcases List.mem_pair.mp hv with rfl | rfl <;> cases hreadOnly
  · left
    rw [← inputMounts_paths]
    exact List.mem_map_of_mem hv
  · right
    rw [← referenceMounts_paths]
    exact List.mem_map_of_mem hv

/-- Every input and every mount is mounted read-only. -/
theorem input_readOnly {i : ContentInput} (hi : i ∈ spec.inputs) :
    ∃ v ∈ volumeMounts spec, v.readOnly = true ∧ v.mountPath = inputPath i := by
  obtain ⟨n, hn, rfl⟩ := List.mem_iff_getElem.mp hi
  refine ⟨_, List.mem_append_left _ (List.mem_append_right _ (List.mem_mapIdx.mpr ⟨n, hn, rfl⟩)), rfl, rfl⟩

theorem target_readOnly {m : MountReference} (hm : m ∈ spec.mounts) :
    ∃ v ∈ volumeMounts spec, v.readOnly = true ∧ v.mountPath = targetPath m := by
  obtain ⟨n, hn, rfl⟩ := List.mem_iff_getElem.mp hm
  exact ⟨_, List.mem_append_right _ (List.mem_mapIdx.mpr ⟨n, hn, rfl⟩), rfl, rfl⟩

/-- `/workspace` and `/tmp` are no places of inputs or mounts. -/
theorem base_ne {path : List (List Char)} (hpath : path ≠ []) {q : String}
    (hq : parts q = workspace ++ path) : "/workspace" ≠ q ∧ "/tmp" ≠ q := by
  refine ⟨?_, ?_⟩
  · rintro rfl
    rw [base_parts] at hq
    exact hpath (List.append_right_eq_self.mp hq.symm)
  · rintro rfl
    have htmp : parts "/tmp" = [[], "tmp".toList] := by decide +kernel
    rw [htmp] at hq
    have hsecond := (List.cons.inj (List.cons.inj hq).2).1
    exact absurd hsecond (by decide +kernel)

/-! ## When places do not meet -/

theorem demand_ok {c : Prop} [Decidable c] {message : String} (h : demand c message = .ok ()) : c := by
  by_contra hc
  rw [demand, if_neg hc] at h
  cases h

/-- A spec that its validators accept repeats no path. -/
theorem validate_nodup {texts : Texts} (h : spec.validate texts = .ok ()) : spec.paths.Nodup := by
  unfold SandboxSpec.validate at h
  obtain ⟨-, -, h⟩ := except_bind_ok.mp h
  obtain ⟨-, -, h⟩ := except_bind_ok.mp h
  obtain ⟨-, -, h⟩ := except_bind_ok.mp h
  obtain ⟨-, -, h⟩ := except_bind_ok.mp h
  obtain ⟨-, -, h⟩ := except_bind_ok.mp h
  obtain ⟨-, -, h⟩ := except_bind_ok.mp h
  unfold SandboxSpec.exactBindingsAndUniqueness at h
  obtain ⟨u, hpaths, h⟩ := except_bind_ok.mp h
  exact demand_ok hpaths

/-- Each list of places is free of repetitions when the paths of the spec are. -/
theorem nodup_places {α : Type} {path place : α → String} {l : List α}
    (hplace : ∀ a b, place a = place b → path a = path b) (h : (l.map path).Nodup) : (l.map place).Nodup := by
  rw [List.nodup_map_iff_inj_on (List.Nodup.of_map path h)]
  intro a ha b hb heq
  exact List.inj_on_of_nodup_map h ha hb (hplace a b heq)

/-- **The places of an accepted spec are separate exactly when its paths are apart.** -/
theorem separate_iff {texts : Texts} (h : spec.validate texts = .ok ()) : Separate spec ↔ Apart spec := by
  have hpaths := validate_nodup h
  rw [SandboxSpec.paths, List.nodup_append, List.nodup_append] at hpaths
  obtain ⟨⟨hinputs, hmounts, -⟩, houtputs, hothers⟩ := hpaths
  constructor
  · rintro ⟨hdistinct, -, hwritable⟩
    refine ⟨fun i hi m hm hmeet => ?_, fun i hi o ho hmeet => ?_, fun m hm o ho hmeet => ?_⟩
    · rw [List.nodup_append, List.nodup_append] at hdistinct
      exact hdistinct.1.2.2 _ (List.mem_map_of_mem hi) _ (List.mem_map_of_mem hm) (target_eq_input.mpr hmeet)
    · obtain ⟨v, hv, hreadOnly, hpath⟩ := input_readOnly hi
      refine hwritable o ho v hv hreadOnly ?_
      rw [hpath]
      exact output_within_input.mpr hmeet
    · obtain ⟨v, hv, hreadOnly, hpath⟩ := target_readOnly hm
      refine hwritable o ho v hv hreadOnly ?_
      rw [hpath]
      exact output_within_target.mpr hmeet
  · rintro ⟨hmount, hinput, hbeneath⟩
    -- inputs and mounts meet neither among themselves nor with each other
    have hmounted : (spec.inputs.map inputPath ++ spec.mounts.map targetPath).Nodup := by
      refine List.nodup_append.mpr ⟨nodup_places (fun _ _ => inputPath_inj.mp) hinputs,
        nodup_places (fun _ _ => targetPath_inj.mp) hmounts, ?_⟩
      intro p hp q hq heq
      obtain ⟨i, hi, rfl⟩ := List.mem_map.mp hp
      obtain ⟨m, hm, rfl⟩ := List.mem_map.mp hq
      exact hmount i hi m hm (target_eq_input.mp heq)
    have hwritable : ∀ o ∈ spec.expectedOutputs, ∀ p, p ∈ spec.inputs.map inputPath ∨
        p ∈ spec.mounts.map targetPath → ¬LiesWithin p (outputPath o) := by
      rintro o ho p (hp | hp) hwithin
      · obtain ⟨i, hi, rfl⟩ := List.mem_map.mp hp
        exact hinput i hi o ho (output_within_input.mp hwithin)
      · obtain ⟨m, hm, rfl⟩ := List.mem_map.mp hp
        exact hbeneath m hm o ho (output_within_target.mp hwithin)
    refine ⟨?_, ?_, fun o ho v hv hreadOnly => hwritable o ho _ (readOnly_path hv hreadOnly)⟩
    · refine List.nodup_append.mpr ⟨hmounted, nodup_places (fun _ _ => outputPath_inj.mp) houtputs, ?_⟩
      intro p hp q hq heq
      obtain ⟨o, ho, rfl⟩ := List.mem_map.mp hq
      exact hwritable o ho p (List.mem_append.mp hp) (.inl (congrArg String.toList heq.symm))
    · rw [volumeMounts_paths, List.nodup_cons, List.nodup_cons]
      have hbase : ∀ p ∈ spec.inputs.map inputPath ++ spec.mounts.map targetPath,
          "/workspace" ≠ p ∧ "/tmp" ≠ p := by
        intro p hp
        rcases List.mem_append.mp hp with hp | hp
        · obtain ⟨i, -, rfl⟩ := List.mem_map.mp hp
          exact base_ne (List.cons_ne_nil _ _) (inputPath_parts i)
        · obtain ⟨m, -, rfl⟩ := List.mem_map.mp hp
          exact base_ne (Paths.segments_ne_nil _) (targetPath_parts m)
      refine ⟨fun hmem => ?_, fun hmem => (hbase _ hmem).2 rfl, hmounted⟩
      rcases List.mem_cons.mp hmem with heq | hmem
      · exact absurd heq (by decide +kernel)
      · exact (hbase _ hmem).1 rfl

/-- The files of a Job are those of its spec. -/
theorem jobManifest_files {sha : Sha256} {b : Backend} {drivers : Drivers}
    {request : SandboxExecutionRequest} {c c' : Cluster} {files : JobFiles}
    (h : jobManifest sha b drivers request c = (.ok files, c')) :
    files.volumeMounts = volumeMounts request.spec := by
  have hfiles : Exec.Sat (jobManifest sha b drivers request) c
      (fun files _ => files.volumeMounts = volumeMounts request.spec) fun _ _ => True :=
    Exec.Sat.skip fun _ _ => rfl
  exact hfiles.ok h

/-- **Where the paths of a sandbox meet.**  For every spec that validation accepts: a Job mounts what
    `volumeMounts` says, and its places are separate exactly when the paths of the spec are apart. -/
theorem sandbox_paths {texts : Texts} {spec : SandboxSpec} (h : spec.validate texts = .ok ()) :
    (∀ (sha : Sha256) (b : Backend) (drivers : Drivers) (request : SandboxExecutionRequest)
      (c c' : Cluster) (files : JobFiles), request.spec = spec →
      jobManifest sha b drivers request c = (.ok files, c') → files.volumeMounts = volumeMounts spec) ∧
    (Separate spec ↔ Apart spec) := by
  refine ⟨?_, separate_iff h⟩
  intro sha b drivers request c c' files hspec hrun
  rw [jobManifest_files hrun, hspec]

/-! ## A case -/

/-- The texts of the cases: plain letters. -/
def sampleTexts : Texts := ⟨fun _ => true, fun _ => "Ll", fun s => s⟩

def sampleApproval : SandboxApprovalBinding where
  tenantId := ⟨"tenant-acme", by decide⟩
  runId := ⟨"run-1", by decide⟩
  taskId := ⟨"task-1", by decide⟩
  remediationPlanId := ⟨"plan-1", by decide⟩
  remediationActionId := ⟨"action-1", by decide⟩
  remediationPlanDigest := zeroHash
  remediationActionDigest := zeroHash
  approvalId := ⟨"approval-1", by decide⟩
  approvalDigest := zeroHash
  approvalPolicyDigest := zeroHash
  approvalExpiresAt := ⟨100, 0⟩

/-- A spec with one input, one mount and one expected output. -/
def filesSpec (input mount output : String) : SandboxSpec where
  specVersion := ⟨"1", computed⟩
  purpose := .analysis
  risk := .low
  approval := sampleApproval
  image := "registry.example.invalid/aegis/runner@sha256:" ++ zeroHash.val
  argv := ["python", "run.py"]
  inputs := [⟨⟨"tenant-acme", computed⟩, input, zeroHash, 10, "application/json",
    ⟨"input-object", computed⟩⟩]
  mounts := [⟨⟨"dataset", computed⟩, mount⟩]
  environment := []
  secrets := []
  network := ⟨.none, [], "kubernetes-network-policy"⟩
  resources := ⟨500, 256, 64, 256, 60, 1048576, 4, 1048576⟩
  security := ⟨10001, 10001, 10001, ⟨"aegis-runner", computed⟩⟩
  requiredRuntimeClass := ⟨"gvisor", computed⟩
  requiredAdmissionPolicies := [⟨"restricted", computed⟩]
  expectedOutputs := [⟨output, ["application/json"], true⟩]
  retry := ⟨3, 60, 0⟩
  argv_ok := by decide

theorem filesSpec_valid : (filesSpec "a" "data" "result").validate sampleTexts = .ok () := by decide +kernel

theorem sandbox_paths_sample :
    Separate (filesSpec "a" "data" "result") ↔ Apart (filesSpec "a" "data" "result") :=
  (sandbox_paths filesSpec_valid).2

/-- An input and a mount at one place, and an output beneath a mount. -/
theorem accepted_paths_meet :
    ((filesSpec "a" "inputs/a" "result").validate sampleTexts = .ok () ∧
      ¬((volumeMounts (filesSpec "a" "inputs/a" "result")).map VolumeMount.mountPath).Nodup) ∧
    (filesSpec "a" "data" "data/result").validate sampleTexts = .ok () ∧
      ∃ o ∈ (filesSpec "a" "data" "data/result").expectedOutputs,
        ∃ v ∈ volumeMounts (filesSpec "a" "data" "data/result"), v.readOnly = true ∧
          LiesWithin v.mountPath (outputPath o) := by
  refine ⟨⟨?_, ?_⟩, ?_, ?_⟩
  · decide +kernel
  · decide +kernel
  · decide +kernel
  · decide +kernel

end KubernetesJobs

end Sandbox

end Aegis
