/-
  MERGING THE OUTPUTS OF THE BRANCHES, in whatever order they come.

  Findings and node errors are merged by a key, the last record under a key staying.  A node error is its
  key, so nothing is lost.  A finding is known by its identifier alone, which a model may have chosen:
  two findings with one identifier are merged to the one that came last.  Artifacts are checked: a
  second artifact under an identifier must have the digest of the first, and the digest determines it.
-/
import Mathlib
import Aegis.Lib.Merge
import Aegis.Orchestration.Records

namespace Aegis

namespace Orchestration

open Merge (Grouping OrderFree Consistent mergeBy)

variable {sha : Sha256}

/-! ## The three merges -/

/-- `merge_findings`. -/
def mergeFindings (left right : List SpecialistFinding) : List SpecialistFinding :=
  mergeBy (fun f => f.findingId.val) (fun f => toLex (f.specialist.value, f.findingId.val)) left right

/-- `merge_node_errors`. -/
def mergeNodeErrors (left right : List NodeError) : List NodeError :=
  mergeBy (fun e => (e.node.val, e.code.val)) (fun e => toLex (e.node.val, e.code.val)) left right

def GovernanceArtifact.id (a : GovernanceArtifact sha) : String := a.artifactId.val

/-- `merged` and `digests` of `merge_artifacts`: the digest of an identifier is that of what is merged
    under it. -/
def collectArtifacts (merged : List (GovernanceArtifact sha)) :
    List (GovernanceArtifact sha) → Except Error (List (GovernanceArtifact sha))
  | [] => .ok merged
  | a :: artifacts =>
    match merged.find? fun existing => existing.id = a.id with
    | some existing =>
      if existing.canonicalDigest ≠ a.canonicalDigest then
        .error ⟨.valueError, "artifact id was reused with a different digest"⟩
      else collectArtifacts (Merge.put GovernanceArtifact.id a merged) artifacts
    | none => collectArtifacts (Merge.put GovernanceArtifact.id a merged) artifacts

/-- `merge_artifacts`. -/
def mergeArtifacts (left right : List (GovernanceArtifact sha)) :
    Except Error (List (GovernanceArtifact sha)) := do
  let merged ← collectArtifacts [] (left ++ right)
  .ok (Merge.sortBy (fun a : GovernanceArtifact sha => toLex (a.content.ordinal, a.id)) merged)

/-- The state that a grouping of artifacts comes to, unless a merge raises. -/
def artifactState : Grouping (GovernanceArtifact sha) → Except Error (List (GovernanceArtifact sha))
  | .leaf artifacts => mergeArtifacts [] artifacts
  | .node left right => do
    let l ← artifactState left
    let r ← artifactState right
    mergeArtifacts l r

/-! ## Findings and errors -/

/-- **Findings are merged free of the order exactly when no two different ones share an identifier.** -/
theorem findings_orderFree_iff (findings : List SpecialistFinding) :
    OrderFree mergeFindings findings ↔ Consistent (fun f : SpecialistFinding => f.findingId.val) findings :=
  Merge.orderFree_iff (fun _ _ h => congrArg Prod.snd (toLex_inj.mp h)) findings

theorem nodeError_ext {a b : NodeError} (h : (a.node.val, a.code.val) = (b.node.val, b.code.val)) :
    a = b := by
  obtain ⟨hnode, hcode⟩ := Prod.mk.inj h
  cases a
  cases b
  cases Subtype.ext hnode
  cases Subtype.ext hcode
  rfl

/-- A node error is its own key. -/
theorem nodeErrors_orderFree (errors : List NodeError) : OrderFree mergeNodeErrors errors :=
  (Merge.orderFree_iff (fun _ _ h => toLex_inj.mp h) errors).mpr fun _ _ _ _ h => nodeError_ext h

/-! ## Artifacts -/

theorem sortKeys_provenance (p : Identifier × Digest) : sortKeys (provenanceDump p) = provenanceDump p := by
  have hkeys : ["artifact_digest", "artifact_id"].Pairwise (· ≤ ·) := by decide
  unfold provenanceDump
  rw [sortKeys_obj (by exact hkeys), sortKeysFields, sortKeysFields, sortKeysFields, sortKeys, sortKeys]

theorem sortKeysItems_provenance (ps : List (Identifier × Digest)) :
    sortKeysItems (ps.map provenanceDump) = ps.map provenanceDump := by
  induction ps with
  | nil => rfl
  | cons p ps ih => rw [List.map_cons, sortKeysItems, sortKeys_provenance, ih]

theorem provenanceDump_inj {p q : Identifier × Digest} (h : provenanceDump p = provenanceDump q) : p = q := by
  unfold provenanceDump at h
  simp only [Json.obj.injEq, List.cons.injEq, Prod.mk.injEq, Json.str.injEq, true_and, and_true] at h
  exact Prod.ext (Subtype.ext h.2) (Subtype.ext h.1)

/-- The task of an artifact, dumped. -/
theorem sortKeys_task (t : Option Identifier) :
    sortKeys (t.elim .null fun t => .str t.val) = t.elim .null fun t => .str t.val := by
  cases t with
  | none => rw [Option.elim_none, sortKeys]
  | some t => rw [Option.elim_some, sortKeys]

theorem task_inj {t t' : Option Identifier}
    (h : (t.elim .null fun t => .str t.val : Json) = t'.elim .null fun t => .str t.val) : t = t' := by
  cases t with
  | none =>
    cases t' with
    | none => rfl
    | some t' => cases h
  | some t =>
    cases t' with
    | none => cases h
    | some t' => exact congrArg some (Subtype.ext (Json.str.inj h))

/-- The document of an artifact is in order already. -/
theorem sortKeys_document (c : ArtifactContent) : sortKeys c.document = c.document := by
  have hkeys : ["incident_id", "ordinal", "payload", "producer_role", "provenance", "run_id",
      "schema_version", "task_id", "tenant_id"].Pairwise (· ≤ ·) := by decide
  unfold ArtifactContent.document
  rw [sortKeys_obj (by exact hkeys)]
  simp only [sortKeysFields, sortKeys, sortKeysItems_provenance, sortKeys_task, c.payload_ok]

theorem document_inj {c d : ArtifactContent} (h : c.document = d.document) : c = d := by
  unfold ArtifactContent.document at h
  simp only [Json.obj.injEq, List.cons.injEq, Prod.mk.injEq, Json.str.injEq, Json.int.injEq, Json.arr.injEq,
    true_and, and_true, Nat.cast_inj] at h
  obtain ⟨hincident, hordinal, hpayload, hrole, hprovenance, hrun, htask, htenant⟩ := h
  cases c
  cases d
  cases Subtype.ext hincident
  cases hordinal
  cases hpayload
  cases AgentRole.value_inj hrole
  cases List.map_injective_iff.mpr (fun _ _ => provenanceDump_inj) hprovenance
  cases Subtype.ext hrun
  cases task_inj htask
  cases Subtype.ext htenant
  rfl

/-- **The identifier and the digest of an artifact determine it.** -/
theorem artifact_of_digest {a b : GovernanceArtifact sha} {texts : Set String}
    (hfree : sha.CollisionFree texts) (ha : canonicalJson a.content.document ∈ texts)
    (hb : canonicalJson b.content.document ∈ texts) (hid : a.id = b.id)
    (h : a.canonicalDigest = b.canonicalDigest) : a = b := by
  have hdigest := h
  rw [a.digest_ok, b.digest_ok] at hdigest
  have hsame : sortKeys a.content.document = sortKeys b.content.document :=
    canonicalJson_inj.mp (hfree.hexdigest ha hb hdigest)
  rw [sortKeys_document, sortKeys_document] at hsame
  have hcontent := document_inj hsame
  cases a
  cases b
  cases Subtype.ext hid
  cases hcontent
  cases h
  rfl

/-- What a merge raises. -/
def reusedId : Error := ⟨.valueError, "artifact id was reused with a different digest"⟩

/-- Artifacts of one identifier have one digest. -/
def Agree (artifacts : List (GovernanceArtifact sha)) : Prop :=
  ∀ a ∈ artifacts, ∀ b ∈ artifacts, a.id = b.id → a.canonicalDigest = b.canonicalDigest

/-- Replacing what has the identifier and the digest changes no agreement. -/
theorem agree_put {merged artifacts : List (GovernanceArtifact sha)} {a : GovernanceArtifact sha}
    (hnodup : (merged.map GovernanceArtifact.id).Nodup)
    (hsame : ∀ b ∈ merged, b.id = a.id → b.canonicalDigest = a.canonicalDigest) :
    Agree (Merge.put GovernanceArtifact.id a merged ++ artifacts) ↔ Agree (merged ++ a :: artifacts) := by
  have hmem : ∀ x, x ∈ Merge.put GovernanceArtifact.id a merged ++ artifacts → x ∈ merged ++ a :: artifacts := by
    intro x hx
    rw [List.mem_append, Merge.mem_put hnodup] at hx
    rw [List.mem_append, List.mem_cons]
    rcases hx with (rfl | ⟨hx, -⟩) | hx
    · exact .inr (.inl rfl)
    · exact .inl hx
    · exact .inr (.inr hx)
  constructor
  · -- what was replaced is represented by its replacement
    intro hagree
    have hrep : ∀ x ∈ merged ++ a :: artifacts, ∃ y ∈ Merge.put GovernanceArtifact.id a merged ++ artifacts,
        y.id = x.id ∧ y.canonicalDigest = x.canonicalDigest := by
      intro x hx
      rw [List.mem_append, List.mem_cons] at hx
      have hin : a ∈ Merge.put GovernanceArtifact.id a merged ++ artifacts :=
        List.mem_append_left _ ((Merge.mem_put hnodup).mpr (.inl rfl))
      rcases hx with hx | rfl | hx
      · by_cases hid : x.id = a.id
        · exact ⟨a, hin, hid.symm, (hsame x hx hid).symm⟩
        · exact ⟨x, List.mem_append_left _ ((Merge.mem_put hnodup).mpr (.inr ⟨hx, hid⟩)), rfl, rfl⟩
      · exact ⟨x, hin, rfl, rfl⟩
      · exact ⟨x, List.mem_append_right _ hx, rfl, rfl⟩
    intro x hx y hy hid
    obtain ⟨x', hx', hxid, hxd⟩ := hrep x hx
    obtain ⟨y', hy', hyid, hyd⟩ := hrep y hy
    rw [← hxd, ← hyd]
    exact hagree x' hx' y' hy' (by rw [hxid, hyid, hid])
  · intro hagree x hx y hy
    exact hagree x (hmem x hx) y (hmem y hy)

/-- **The loop of `merge_artifacts`** raises unless the artifacts agree, and fills the dict else. -/
theorem collectArtifacts_eq (artifacts : List (GovernanceArtifact sha)) :
    ∀ merged : List (GovernanceArtifact sha), (merged.map GovernanceArtifact.id).Nodup →
      (Agree (merged ++ artifacts) → collectArtifacts merged artifacts =
        .ok (artifacts.foldl (fun merged a => Merge.put GovernanceArtifact.id a merged) merged)) ∧
      (Agree merged → ¬Agree (merged ++ artifacts) → collectArtifacts merged artifacts = .error reusedId) := by
  induction artifacts with
  | nil =>
    intro merged _
    refine ⟨fun _ => rfl, fun hagree hno => absurd ?_ hno⟩
    rwa [List.append_nil]
  | cons a artifacts ih =>
    intro merged hnodup
    obtain ⟨hok, herror⟩ := ih (Merge.put GovernanceArtifact.id a merged) (Merge.put_keys hnodup)
    have hput : Agree merged → (∀ b ∈ merged, b.id = a.id → b.canonicalDigest = a.canonicalDigest) →
        Agree (Merge.put GovernanceArtifact.id a merged) := by
      intro hagree hsame
      have h : Agree (merged ++ [a]) → Agree (Merge.put GovernanceArtifact.id a merged ++ []) :=
        (agree_put hnodup hsame).mpr
      rw [List.append_nil] at h
      refine h fun x hx y hy hid => ?_
      rw [List.mem_append, List.mem_singleton] at hx hy
      rcases hx with hx | rfl
      · rcases hy with hy | rfl
        · exact hagree x hx y hy hid
        · exact hsame x hx hid
      · rcases hy with hy | rfl
        · exact (hsame y hy hid.symm).symm
        · rfl
    unfold collectArtifacts
    cases hfind : merged.find? fun existing => decide (existing.id = a.id) with
    | none =>
      have hsame : ∀ b ∈ merged, b.id = a.id → b.canonicalDigest = a.canonicalDigest := fun b hb hid =>
        absurd (decide_eq_true hid) (List.find?_eq_none.mp hfind b hb)
      rw [← agree_put hnodup hsame]
      exact ⟨hok, fun hagree => herror (hput hagree hsame)⟩
    | some existing =>
      have hmem := List.mem_of_find?_eq_some hfind
      have hid : existing.id = a.id := of_decide_eq_true
        (List.find?_some (p := fun existing : GovernanceArtifact sha => decide (existing.id = a.id)) hfind)
      dsimp only
      by_cases hdigest : existing.canonicalDigest = a.canonicalDigest
      · rw [if_neg (not_not.mpr hdigest)]
        -- the dict holds one artifact under the identifier
        have hsame : ∀ b ∈ merged, b.id = a.id → b.canonicalDigest = a.canonicalDigest := by
          intro b hb hbid
          rw [List.inj_on_of_nodup_map hnodup hb hmem (hbid.trans hid.symm)]
          exact hdigest
        rw [← agree_put hnodup hsame]
        exact ⟨hok, fun hagree => herror (hput hagree hsame)⟩
      · rw [if_pos hdigest]
        refine ⟨fun hagree => absurd ?_ hdigest, fun _ _ => rfl⟩
        exact hagree existing (List.mem_append_left _ hmem) a
          (List.mem_append_right _ List.mem_cons_self) hid

/-- The identifier and the ordinal of an artifact, by which the merged ones are sorted. -/
def artifactRank (a : GovernanceArtifact sha) : Nat ×ₗ String := toLex (a.content.ordinal, a.id)

theorem mergeArtifacts_eq (left right : List (GovernanceArtifact sha)) :
    (Agree (left ++ right) → mergeArtifacts left right =
      .ok (mergeBy GovernanceArtifact.id artifactRank left right)) ∧
    (¬Agree (left ++ right) → mergeArtifacts left right = .error reusedId) := by
  obtain ⟨hok, herror⟩ := collectArtifacts_eq (left ++ right) [] List.nodup_nil
  rw [List.nil_append] at hok herror
  unfold mergeArtifacts
  constructor
  · intro hagree
    rw [hok hagree]
    rfl
  · intro hno
    rw [herror (fun _ h => absurd h List.not_mem_nil) hno]
    rfl

/-- Whatever the order and the grouping, the same artifacts come to the same state, or raise. -/
def ArtifactsOrderFree (artifacts : List (GovernanceArtifact sha)) : Prop :=
  ∀ g g' : Grouping (GovernanceArtifact sha), (∀ a, a ∈ g.records ↔ a ∈ artifacts) →
    (∀ a, a ∈ g'.records ↔ a ∈ artifacts) → artifactState g = artifactState g'

/-- The texts whose digests the artifacts carry. -/
def contentTexts (artifacts : List (GovernanceArtifact sha)) : Set String :=
  {text | ∃ a ∈ artifacts, text = canonicalJson a.content.document}

/-- Artifacts that agree are consistent, where no two contents have one digest. -/
theorem consistent_of_agree {xs artifacts : List (GovernanceArtifact sha)}
    (hfree : sha.CollisionFree (contentTexts artifacts)) (hsub : ∀ a ∈ xs, a ∈ artifacts)
    (hagree : Agree xs) : Consistent GovernanceArtifact.id xs := fun a ha b hb hid =>
  artifact_of_digest hfree ⟨a, hsub a ha, rfl⟩ ⟨b, hsub b hb, rfl⟩ hid (hagree a ha b hb hid)

/-- A grouping of artifacts raises exactly when they disagree. -/
theorem artifactState_eq {artifacts : List (GovernanceArtifact sha)}
    (hfree : sha.CollisionFree (contentTexts artifacts)) (g : Grouping (GovernanceArtifact sha))
    (hsub : ∀ a ∈ g.records, a ∈ artifacts) :
    (Agree g.records → artifactState g = .ok (g.state (mergeBy GovernanceArtifact.id artifactRank))) ∧
      (¬Agree g.records → artifactState g = .error reusedId) := by
  induction g with
  | leaf records =>
    have h := mergeArtifacts_eq [] records
    rw [List.nil_append] at h
    exact h
  | node left right ihl ihr =>
    obtain ⟨hlok, hlerror⟩ := ihl fun a ha => hsub a (List.mem_append_left _ ha)
    obtain ⟨hrok, hrerror⟩ := ihr fun a ha => hsub a (List.mem_append_right _ ha)
    have hparts : Agree (left.records ++ right.records) → Agree left.records ∧ Agree right.records :=
      fun h => ⟨fun a ha b hb => h a (List.mem_append_left _ ha) b (List.mem_append_left _ hb),
        fun a ha b hb => h a (List.mem_append_right _ ha) b (List.mem_append_right _ hb)⟩
    show (Agree (left.records ++ right.records) → (artifactState left >>= fun l =>
        artifactState right >>= fun r => mergeArtifacts l r) = _) ∧
      (¬Agree (left.records ++ right.records) → (artifactState left >>= fun l =>
        artifactState right >>= fun r => mergeArtifacts l r) = _)
    by_cases hl : Agree left.records
    · by_cases hr : Agree right.records
      · -- both sides are merged, and their states have their records
        have hcl := consistent_of_agree hfree (fun a ha => hsub a (List.mem_append_left _ ha)) hl
        have hcr := consistent_of_agree hfree (fun a ha => hsub a (List.mem_append_right _ ha)) hr
        have hiff : Agree (left.state (mergeBy GovernanceArtifact.id artifactRank) ++
            right.state (mergeBy GovernanceArtifact.id artifactRank)) ↔ Agree (left.records ++ right.records) := by
          unfold Agree
          simp only [List.mem_append, Merge.mem_state hcl, Merge.mem_state hcr]
        obtain ⟨hok, herror⟩ := mergeArtifacts_eq (left.state (mergeBy GovernanceArtifact.id artifactRank))
          (right.state (mergeBy GovernanceArtifact.id artifactRank))
        rw [hiff] at hok herror
        rw [hlok hl, hrok hr]
        exact ⟨hok, herror⟩
      · rw [hlok hl, hrerror hr]
        exact ⟨fun h => absurd (hparts h).2 hr, fun _ => rfl⟩
    · rw [hlerror hl]
      exact ⟨fun h => absurd (hparts h).1 hl, fun _ => rfl⟩

/-- **Artifacts are merged free of the order**, the raising included. -/
theorem artifacts_orderFree {artifacts : List (GovernanceArtifact sha)}
    (hfree : sha.CollisionFree (contentTexts artifacts)) : ArtifactsOrderFree artifacts := by
  intro g g' hg hg'
  obtain ⟨hok, herror⟩ := artifactState_eq hfree g fun a ha => (hg a).mp ha
  obtain ⟨hok', herror'⟩ := artifactState_eq hfree g' fun a ha => (hg' a).mp ha
  have hiff : Agree g.records ↔ Agree g'.records := by
    unfold Agree
    simp only [hg, hg']
  by_cases hagree : Agree g.records
  · rw [hok hagree, hok' (hiff.mp hagree)]
    have hconsistent := consistent_of_agree hfree (fun a ha => (hg a).mp ha) hagree
    have hfree' : OrderFree (mergeBy GovernanceArtifact.id artifactRank) g.records :=
      (Merge.orderFree_iff (fun a b h => congrArg Prod.snd (toLex_inj.mp h)) g.records).mpr hconsistent
    exact congrArg _ (hfree' g g' (fun _ => Iff.rfl) fun a => (hg' a).trans (hg a).symm)
  · rw [herror hagree, herror' fun h => hagree (hiff.mpr h)]

/-! ## The law -/

/-- **The state is free of the scheduler's order exactly when no two different findings share an
    identifier.** -/
theorem merges_orderFree_iff (sha : Sha256) (findings : List SpecialistFinding) (errors : List NodeError)
    (artifacts : List (GovernanceArtifact sha)) (hfree : sha.CollisionFree (contentTexts artifacts)) :
    (OrderFree mergeFindings findings ∧ OrderFree mergeNodeErrors errors ∧ ArtifactsOrderFree artifacts) ↔
      Consistent (fun f : SpecialistFinding => f.findingId.val) findings :=
  ⟨fun h => (findings_orderFree_iff findings).mp h.1, fun h =>
    ⟨(findings_orderFree_iff findings).mpr h, nodeErrors_orderFree errors, artifacts_orderFree hfree⟩⟩

/-! ## Two specialists, one identifier -/

def sampleCitation : Remediation.Citation where
  evidenceId := ⟨"evidence", computed⟩
  locator := "locator"
  contentHash := zeroHash
  extended := none
  locator_ok := by decide
  page_ok := Remediation.no_page

/-- A finding of this specialist, as a model may return it. -/
def sampleFinding (specialist : Specialist) : SpecialistFinding where
  findingId := ⟨"finding", by decide⟩
  specialist
  statement := "statement"
  causeCode := some ⟨"cause", by decide⟩
  confidence := 1
  citations := [sampleCitation]
  abstained := false
  reason := none
  statement_ok := by decide
  confidence_ok := by norm_num
  citations_ok := ⟨by decide, List.pairwise_singleton _ _⟩
  abstained_ok := nofun
  claims_ok := fun _ => ⟨nofun, nofun⟩
  reason_ok := nofun

/-- An artifact whose digest is that of its content. -/
def sampleArtifact : GovernanceArtifact .constant where
  artifactId := ⟨"artifact", computed⟩
  content :=
    { tenantId := ⟨"t", computed⟩, incidentId := ⟨"i", computed⟩, runId := ⟨"r", computed⟩
      taskId := none, ordinal := 30, producerRole := .critic, payload := .obj [], provenance := []
      ordinal_ok := by decide, payload_ok := rfl, provenance_ok := by decide }
  canonicalDigest := _
  digest_ok := rfl

/-- The law of two colliding findings, a node error and an artifact. -/
theorem merges_orderFree_sample :
    ¬(OrderFree mergeFindings [sampleFinding .telemetry, sampleFinding .change] ∧
      OrderFree mergeNodeErrors [⟨⟨"change", by decide⟩, ⟨"code", by decide⟩⟩] ∧
      ArtifactsOrderFree [sampleArtifact]) := by
  rw [merges_orderFree_iff]
  · intro hconsistent
    have heq := hconsistent (sampleFinding .telemetry) List.mem_cons_self (sampleFinding .change)
      (List.mem_cons_of_mem _ List.mem_cons_self) rfl
    exact absurd (congrArg SpecialistFinding.specialist heq) (by decide)
  · intro n _ x hx y hy _
    obtain ⟨a, ha, rfl⟩ := hx
    obtain ⟨b, hb, rfl⟩ := hy
    rw [List.mem_singleton.mp ha, List.mem_singleton.mp hb]

/-- **The later branch wins**: which finding is in the state depends on which branch came last. -/
theorem later_finding_wins :
    (mergeFindings (mergeFindings [] [sampleFinding .telemetry]) [sampleFinding .change]).map (·.specialist) =
        [.change] ∧
      (mergeFindings (mergeFindings [] [sampleFinding .change]) [sampleFinding .telemetry]).map (·.specialist) =
        [.telemetry] := by
  decide +kernel

end Orchestration

end Aegis
