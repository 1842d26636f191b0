/-
  LEGAL HOLDS.

  A hold is NAMED, but the projection counts: an application adds one up to 16, a release takes one down
  to 0.  And a command is known by the name and the direction ONLY, so of the calls for one name only the
  first application and the first release ever count.  Hence a hold is lost when it is applied again
  after its release, when another name is released that was never applied, and when more than 16 are
  outstanding.

  What holds is `holds_kept`: if no hold is applied after its release, none is released that was not
  applied, and no new one is applied at 16, then the count is EXACTLY the number of names applied and not
  released, and a hold protects its memory until it is released.
-/
import Mathlib
import Aegis.Memory.Effects

namespace Aegis

namespace Memory

open Exec (Path Sat)

variable {sha : Sha256} {ports : Ports}

/-! ## The law -/

/-- The digest that a fact about a hold names. -/
def holdDigest (f : MemoryFact) : Option String :=
  match f.payload.lookup "hold_ref_digest" with
  | some (.str d) => some d
  | _ => none

/-- The holds that the facts apply, or release, in order. -/
def holds (applied : Bool) (facts : List MemoryFact) : List String :=
  (facts.filter fun f => f.factType = holdType applied).filterMap holdDigest

/-- The ledger of a memory has the application, or the release, of a hold. -/
def HoldRecorded (sha : Sha256) (s : State) (key : String × String) (holdRef : String)
    (applied : Bool) : Prop :=
  (sha.hexdigest holdRef).val ∈ holds applied (s.facts key)

/-- A memory that counts a hold and whose erasure is denied. -/
def Protected (sha : Sha256) (ports : Ports) (s : State) (key : String × String) : Prop :=
  (∃ p, s.projections key = some p ∧ 1 ≤ p.legalHoldCount) ∧
    ∀ actorRef reasonCode, ∃ e,
      (step sha ports s (.tombstoneAndErase key.1 key.2 actorRef reasonCode)).1 = .error e ∧
        e.kind = .policyDenied

/-- From the return of an application of a hold until a call of its release, the memory is
    protected. -/
def HoldsKept (sha : Sha256) (ports : Ports) (ops : List Op) : Prop :=
  ∀ pre e post tenantId memoryId holdRef actorRef, history sha ports ops = pre ++ e :: post →
    e.op = .setLegalHold tenantId memoryId holdRef true actorRef → (∃ ps, e.result = .ok ps) →
      (∀ e' ∈ post, ∀ actor, e'.op ≠ .setLegalHold tenantId memoryId holdRef false actor) →
        Protected sha ports (run sha ports ops) (tenantId, memoryId)

/-- What is asked of a call: a hold is not applied after its release, nor a new one at 16; a hold is
    released after it was applied. -/
structure Orderly (sha : Sha256) (e : HistoryEntry) : Prop where
  applied : ∀ tenantId memoryId holdRef actorRef,
    e.op = .setLegalHold tenantId memoryId holdRef true actorRef →
      ¬HoldRecorded sha e.before (tenantId, memoryId) holdRef false ∧
      (HoldRecorded sha e.before (tenantId, memoryId) holdRef true ∨
        ∀ p, e.before.projections (tenantId, memoryId) = some p → p.legalHoldCount < 16)
  released : ∀ tenantId memoryId holdRef actorRef,
    e.op = .setLegalHold tenantId memoryId holdRef false actorRef →
      HoldRecorded sha e.before (tenantId, memoryId) holdRef true

/-- The references of the holds a run is asked to set. -/
def holdRefs (ops : List Op) : Set String :=
  {holdRef | ∃ tenantId memoryId applied actorRef,
    Op.setLegalHold tenantId memoryId holdRef applied actorRef ∈ ops}

/-- The texts whose digests are compared as fingerprints: of the facts recorded and of the holds
    asked. -/
def fingerprintTexts (sha : Sha256) (ports : Ports) (ops : List Op) : Set String :=
  {x | ∃ key, ∃ f ∈ (run sha ports ops).facts key,
    x = fingerprintText f.factType key.2 f.payload} ∪
  {x | ∃ tenantId memoryId holdRef applied actorRef,
    Op.setLegalHold tenantId memoryId holdRef applied actorRef ∈ ops ∧
      x = fingerprintText (holdType applied) memoryId (holdPayload sha holdRef)}

/-! ## Facts about holds -/

theorem holdType_injective : Function.Injective holdType := by decide

theorem holdPayload_lookup (sha : Sha256) (holdRef : String) :
    (holdPayload sha holdRef).sorted.lookup "hold_ref_digest"
      = some (.str (sha.hexdigest holdRef).val) := by
  rw [Fields.lookup_sorted]
  rfl

theorem holdDigest_of_payload {f : MemoryFact} {holdRef : String}
    (h : f.payload = (holdPayload sha holdRef).sorted) :
    holdDigest f = some (sha.hexdigest holdRef).val := by
  rw [holdDigest, h, holdPayload_lookup]

theorem holds_concat_other {applied : Bool} {facts : List MemoryFact} {f : MemoryFact}
    (h : f.factType ≠ holdType applied) : holds applied (facts ++ [f]) = holds applied facts := by
  rw [holds, List.filter_append, List.filter_singleton, decide_eq_false h]
  simp [holds]

theorem holds_concat_hold {applied : Bool} {facts : List MemoryFact} {f : MemoryFact}
    {holdRef : String} (htype : f.factType = holdType applied)
    (hpayload : f.payload = (holdPayload sha holdRef).sorted) :
    holds applied (facts ++ [f]) = holds applied facts ++ [(sha.hexdigest holdRef).val] := by
  rw [holds, List.filter_append, List.filter_singleton, decide_eq_true htype, List.filterMap_append]
  simp [holds, holdDigest_of_payload hpayload]

/-- What a fact does to the count. -/
def countAfter (factType : MemoryFactType) (n : Nat) : Nat :=
  match factType with
  | .legalHoldApplied => min 16 (n + 1)
  | .legalHoldReleased => n - 1
  | _ => n

theorem advance_count {p q : Progress} {factType : MemoryFactType} {payload : Fields}
    (h : p.advance factType payload = .ok q) :
    q.legalHoldCount = countAfter factType p.legalHoldCount := by
  unfold Progress.advance at h
  split at h
  case h_3 =>
    obtain ⟨count, -, h⟩ := except_bind_ok.mp h
    rw [← Except.ok.inj h]
    rfl
  case h_4 =>
    split at h
    · rw [← Except.ok.inj h]; rfl
    · cases h
  case h_11 =>
    split at h
    · rw [← Except.ok.inj h]; rfl
    · cases h
  case h_12 =>
    split at h
    · rw [← Except.ok.inj h]; rfl
    · cases h
  case h_13 =>
    -- neither an application nor a release
    rw [← Except.ok.inj h]
    unfold countAfter
    split <;> simp_all
  all_goals
    rw [← Except.ok.inj h]
    rfl

theorem reduceMemory_count {current : Option MemoryProjection} {fact : MemoryFact}
    {record : MemoryRecord} {p : MemoryProjection}
    (h : reduceMemory sha current fact record = .ok p) :
    p.legalHoldCount = countAfter fact.factType (current.elim 0 (·.legalHoldCount)) := by
  unfold reduceMemory at h
  split at h
  · cases h
  · split at h
    · cases h
    · obtain ⟨progress, hprogress, h⟩ := except_bind_ok.mp h
      rw [← Except.ok.inj h]
      show progress.legalHoldCount = _
      rw [advance_count hprogress]
      cases current with
      | none => rfl
      | some c => rfl

theorem countAfter_other {factType : MemoryFactType} {n : Nat}
    (h : ∀ applied, factType ≠ holdType applied) : countAfter factType n = n := by
  unfold countAfter
  split
  · exact absurd rfl (h true)
  · exact absurd rfl (h false)
  · rfl

/-! ## The ledger behind the count -/

/-- What the ledger is after the calls `ops`: every known command is that of a recorded fact, and every
    fact about a hold is that of a call. -/
structure HoldLedger (sha : Sha256) (ops : List Op) (s : State) : Prop where
  keyed : RecordsKeyed s
  ingested : ∀ key record, s.records key = some record →
    ∃ evidence actorRef acceptance spec, Op.ingest record evidence actorRef acceptance spec ∈ ops
  stored : ∀ key, s.projections key ≠ none → s.records key ≠ none
  started : ∀ key, s.projections key = none → s.facts key = []
  commands : ∀ tenantId command d, s.commands (tenantId, command) = some d →
    ∃ memoryId, ∃ f ∈ s.facts (tenantId, memoryId), f.commandId.val = command ∧
      d = sha.hexdigest (fingerprintText f.factType memoryId f.payload)
  known : ∀ key, ∀ f ∈ s.facts key, s.commands (key.1, f.commandId.val) ≠ none
  made : ∀ key, ∀ f ∈ s.facts key, ∀ applied, f.factType = holdType applied →
    ∃ holdRef actorRef, Op.setLegalHold key.1 key.2 holdRef applied actorRef ∈ ops ∧
      f.payload = (holdPayload sha holdRef).sorted ∧
      f.commandId.val = holdCommand sha key holdRef applied

theorem holdLedger_start (sha : Sha256) : HoldLedger sha [] State.start where
  keyed := by intro key r h; cases h
  ingested := by intro key r h; cases h
  stored := by intro key h; exact absurd rfl h
  started := by intro key _; rfl
  commands := by intro tenantId command d h; cases h
  known := by intro key f h; cases h
  made := by intro key f h; cases h

/-- Sorting the keys twice is sorting them once. -/
theorem sorted_sorted (d : Fields) : d.sorted.sorted = d.sorted := by
  have htotal : Std.Total (fun a b : Sigma (fun _ : String => Json) => a.1 ≤ b.1) :=
    ⟨fun a b => le_total a.1 b.1⟩
  have htrans : IsTrans (Sigma (fun _ : String => Json)) (fun a b => a.1 ≤ b.1) :=
    ⟨fun _ _ _ => le_trans⟩
  refine AList.ext ?_
  exact (List.pairwise_insertionSort _ _).insertionSort_eq

theorem fingerprintText_sorted (factType : MemoryFactType) (memoryId : String) (payload : Fields) :
    fingerprintText factType memoryId payload.sorted = fingerprintText factType memoryId payload := by
  rw [fingerprintText, fingerprintText, sorted_sorted]

theorem HoldLedger.mono {ops ops' : List Op} {s : State} (h : HoldLedger sha ops s)
    (hsub : ops ⊆ ops') : HoldLedger sha ops' s where
  keyed := h.keyed
  ingested := by
    intro key record hrecord
    obtain ⟨evidence, actorRef, acceptance, spec, hop⟩ := h.ingested key record hrecord
    exact ⟨evidence, actorRef, acceptance, spec, hsub hop⟩
  stored := h.stored
  started := h.started
  commands := h.commands
  known := h.known
  made := by
    intro key f hf applied htype
    obtain ⟨holdRef, actorRef, hop, hrest⟩ := h.made key f hf applied htype
    exact ⟨holdRef, actorRef, hsub hop, hrest⟩

/-- Recording a fact of the call `op` keeps the ledger. -/
theorem HoldLedger.record {ops : List Op} {t : State} {op : Op} (h : HoldLedger sha ops t)
    (hop : op ∈ ops) {key : String × String} {factType : MemoryFactType} {commandId : String}
    {payload : Fields} {fact : MemoryFact} {p : MemoryProjection}
    (hrecords : Records sha op key factType commandId payload)
    (hrecorded : Recorded sha t key factType commandId payload fact p) :
    HoldLedger sha ops (t.record key (key.1, commandId)
      (sha.hexdigest (fingerprintText factType key.2 payload)) fact p) := by
  have hfacts : ∀ k f, f ∈ (t.record key (key.1, commandId)
      (sha.hexdigest (fingerprintText factType key.2 payload)) fact p).facts k →
        f ∈ t.facts k ∨ (k = key ∧ f = fact) := by
    intro k f hf
    have hf' : f ∈ Function.update t.facts key (t.facts key ++ [fact]) k := hf
    by_cases hk : k = key
    · rw [hk, Function.update_self] at hf'
      rcases List.mem_append.mp hf' with hold | hnew
      · exact .inl (hk ▸ hold)
      · exact .inr ⟨hk, List.mem_singleton.mp hnew⟩
    · rw [Function.update_of_ne hk] at hf'
      exact .inl hf'
  have hkept : ∀ k f, f ∈ t.facts k → f ∈ (t.record key (key.1, commandId)
      (sha.hexdigest (fingerprintText factType key.2 payload)) fact p).facts k := by
    intro k f hf
    show f ∈ Function.update t.facts key (t.facts key ++ [fact]) k
    by_cases hk : k = key
    · rw [hk, Function.update_self]
      exact List.mem_append_left _ (hk ▸ hf)
    · rw [Function.update_of_ne hk]
      exact hf
  have hnew : fact ∈ (t.record key (key.1, commandId)
      (sha.hexdigest (fingerprintText factType key.2 payload)) fact p).facts key := by
    show fact ∈ Function.update t.facts key (t.facts key ++ [fact]) key
    rw [Function.update_self]
    exact List.mem_append_right _ List.mem_cons_self
  refine { keyed := h.keyed, ingested := h.ingested, stored := ?_, started := ?_, commands := ?_, known := ?_, made := ?_ }
  · intro k hk
    by_cases hkey : k = key
    · obtain ⟨record, hrecord, -⟩ := hrecorded.reduced
      rw [hkey]
      show t.records key ≠ none
      rw [hrecord]
      exact Option.some_ne_none _
    · refine h.stored k ?_
      have hk' : Function.update t.projections key (some p) k ≠ none := hk
      rwa [Function.update_of_ne hkey] at hk'
  · intro k hk
    have hk' : Function.update t.projections key (some p) k = none := hk
    by_cases hkey : k = key
    · rw [hkey, Function.update_self] at hk'
      cases hk'
    · rw [Function.update_of_ne hkey] at hk'
      show Function.update t.facts key (t.facts key ++ [fact]) k = []
      rw [Function.update_of_ne hkey]
      exact h.started k hk'
  · intro tenantId command d hd
    have hd' : Function.update t.commands (key.1, commandId) _ (tenantId, command) = some d := hd
    by_cases hkey : (tenantId, command) = (key.1, commandId)
    · rw [hkey, Function.update_self] at hd'
      obtain ⟨rfl, rfl⟩ := Prod.mk.inj hkey
      refine ⟨key.2, fact, hnew, hrecorded.command, ?_⟩
      rw [hrecorded.factType, hrecorded.payload, fingerprintText_sorted]
      exact (Option.some.inj hd').symm
    · rw [Function.update_of_ne hkey] at hd'
      obtain ⟨memoryId, f, hf, hrest⟩ := h.commands tenantId command d hd'
      exact ⟨memoryId, f, hkept _ f hf, hrest⟩
  · intro k f hf
    show Function.update t.commands (key.1, commandId) _ (k.1, f.commandId.val) ≠ none
    rcases hfacts k f hf with hold | ⟨rfl, rfl⟩
    · by_cases hkey : (k.1, f.commandId.val) = (key.1, commandId)
      · rw [hkey, Function.update_self]
        exact Option.some_ne_none _
      · rw [Function.update_of_ne hkey]
        exact h.known k f hold
    · rw [hrecorded.command, Function.update_self]
      exact Option.some_ne_none _
  · intro k f hf applied htype
    rcases hfacts k f hf with hold | ⟨rfl, rfl⟩
    · exact h.made k f hold applied htype
    · rcases hrecords with hother | ⟨holdRef, applied', actorRef, rfl, hhold, hcommand, rfl⟩
      · exact absurd (hrecorded.factType.symm.trans htype) (hother applied)
      · have happlied : applied' = applied :=
          holdType_injective (hhold.symm.trans (hrecorded.factType.symm.trans htype))
        subst happlied
        exact ⟨holdRef, actorRef, hop, hrecorded.payload, hrecorded.command.trans hcommand⟩

theorem HoldLedger.event {ops : List Op} {t : State} {op : Op} {i : Event} (h : HoldLedger sha ops t)
    (hop : op ∈ ops) (hi : May sha op t i) : HoldLedger sha ops (i.apply t) := by
  cases hi with
  | tick => exact ⟨h.keyed, h.ingested, h.stored, h.started, h.commands, h.known, h.made⟩
  | items => exact ⟨h.keyed, h.ingested, h.stored, h.started, h.commands, h.known, h.made⟩
  | erase => exact ⟨h.keyed, h.ingested, h.stored, h.started, h.commands, h.known, h.made⟩
  | record key factType commandId payload fact p hrecords hrecorded =>
    exact h.record hop hrecords hrecorded
  | putRecord record evidence actorRef acceptance spec hingest hnew =>
    refine ⟨?_, ?_, ?_, h.started, h.commands, h.known, h.made⟩
    · intro key r hr
      have hr' : Function.update t.records record.key (some record) key = some r := hr
      by_cases hkey : key = record.key
      · rw [hkey, Function.update_self] at hr'
        rw [hkey, Option.some.inj hr']
      · rw [Function.update_of_ne hkey] at hr'
        exact h.keyed key r hr'
    · intro key r hr
      have hr' : Function.update t.records record.key (some record) key = some r := hr
      by_cases hkey : key = record.key
      · rw [hkey, Function.update_self] at hr'
        rw [← Option.some.inj hr']
        exact ⟨evidence, actorRef, acceptance, spec, hingest ▸ hop⟩
      · rw [Function.update_of_ne hkey] at hr'
        exact h.ingested key r hr'
    · intro key hkey
      show Function.update t.records record.key (some record) key ≠ none
      by_cases hk : key = record.key
      · rw [hk, Function.update_self]
        exact Option.some_ne_none _
      · rw [Function.update_of_ne hk]
        exact h.stored key hkey

theorem HoldLedger.step {ops : List Op} {s : State} (h : HoldLedger sha ops s) (op : Op) :
    HoldLedger sha (ops ++ [op]) (step sha ports s op).2 := by
  refine (step_path sha ports h.keyed op).invariant (fun t i ht hi => ht.event ?_ hi)
    (h.mono (List.subset_append_left _ _))
  exact List.mem_append_right _ List.mem_cons_self

theorem holdLedger_run (sha : Sha256) (ports : Ports) (ops : List Op) :
    HoldLedger sha ops (run sha ports ops) := by
  induction ops using List.reverseRecOn with
  | nil => exact holdLedger_start sha
  | append_singleton ops op ih =>
    rw [run, Machine.final_concat]
    exact ih.step op

/-! ## The count -/

/-- The count of a memory is the number of holds applied and not released. -/
structure Counted (s : State) (key : String × String) : Prop where
  nodup : ∀ applied, (holds applied (s.facts key)).Nodup
  released : holds false (s.facts key) ⊆ holds true (s.facts key)
  count : ∀ p, s.projections key = some p →
    p.legalHoldCount + (holds false (s.facts key)).length = (holds true (s.facts key)).length

/-- A hold that is applied and not released is counted. -/
theorem Counted.outstanding {s : State} {key : String × String} (h : Counted s key) {d : String}
    (happlied : d ∈ holds true (s.facts key)) (hreleased : d ∉ holds false (s.facts key))
    {p : MemoryProjection} (hp : s.projections key = some p) : 1 ≤ p.legalHoldCount := by
  have hsub : (holds false (s.facts key)).toFinset ⊂ (holds true (s.facts key)).toFinset := by
    refine Finset.ssubset_iff_of_subset ?_ |>.mpr ⟨d, ?_, ?_⟩
    · intro x hx
      exact List.mem_toFinset.mpr (h.released (List.mem_toFinset.mp hx))
    · exact List.mem_toFinset.mpr happlied
    · exact fun hd => hreleased (List.mem_toFinset.mp hd)
  have hcard := Finset.card_lt_card hsub
  rw [List.toFinset_card_of_nodup (h.nodup false), List.toFinset_card_of_nodup (h.nodup true)]
    at hcard
  have hcount := h.count p hp
  omega

/-- The same for a memory that may have no projection yet. -/
theorem Counted.current {ops : List Op} {t : State} {key : String × String} (h : Counted t key)
    (hledger : HoldLedger sha ops t) :
    (t.projections key).elim 0 (·.legalHoldCount) + (holds false (t.facts key)).length
      = (holds true (t.facts key)).length := by
  cases hcurrent : t.projections key with
  | some c => exact h.count c hcurrent
  | none =>
    rw [hledger.started key hcurrent]
    rfl

section Recording

variable {ops : List Op} {t : State} {key : String × String} {factType : MemoryFactType}
  {commandId holdRef : String} {payload : Fields} {fact : MemoryFact} {p : MemoryProjection}

/-- The count after a fact, given the holds it leaves. -/
theorem Counted.of_recorded (d : Digest)
    (hrecorded : Recorded sha t key factType commandId payload fact p)
    (hnodup : ∀ applied, (holds applied (t.facts key ++ [fact])).Nodup)
    (hreleased : holds false (t.facts key ++ [fact]) ⊆ holds true (t.facts key ++ [fact]))
    (hcount : countAfter factType ((t.projections key).elim 0 (·.legalHoldCount))
      + (holds false (t.facts key ++ [fact])).length
      = (holds true (t.facts key ++ [fact])).length) :
    Counted (t.record key (key.1, commandId) d fact p) key := by
  have hfacts : (t.record key (key.1, commandId) d fact p).facts key = t.facts key ++ [fact] :=
    Function.update_self _ _ _
  have hprojection : (t.record key (key.1, commandId) d fact p).projections key = some p :=
    Function.update_self _ _ _
  refine ⟨by rw [hfacts]; exact hnodup, by rw [hfacts]; exact hreleased, ?_⟩
  intro q hq
  obtain rfl := Option.some.inj (hprojection.symm.trans hq)
  obtain ⟨record, -, hreduced⟩ := hrecorded.reduced
  rw [hfacts, reduceMemory_count hreduced, hrecorded.factType]
  exact hcount

/-- A fact that is not about a hold leaves the count. -/
theorem Counted.other (h : Counted t key) (hledger : HoldLedger sha ops t) (d : Digest)
    (htype : ∀ applied, factType ≠ holdType applied)
    (hrecorded : Recorded sha t key factType commandId payload fact p) :
    Counted (t.record key (key.1, commandId) d fact p) key := by
  have hholds : ∀ applied, holds applied (t.facts key ++ [fact]) = holds applied (t.facts key) := by
    intro applied
    refine holds_concat_other ?_
    rw [hrecorded.factType]
    exact htype applied
  refine Counted.of_recorded d hrecorded (fun applied => by rw [hholds]; exact h.nodup applied) ?_ ?_
  · rw [hholds, hholds]
    exact h.released
  · rw [hholds, hholds, countAfter_other htype]
    exact h.current hledger

/-- A fact of another memory leaves the count. -/
theorem Counted.frame {key' : String × String} (h : Counted t key') (hkey : key' ≠ key) (d : Digest) :
    Counted (t.record key (key.1, commandId) d fact p) key' := by
  have hfacts : (t.record key (key.1, commandId) d fact p).facts key' = t.facts key' :=
    Function.update_of_ne hkey _ _
  have hprojection : (t.record key (key.1, commandId) d fact p).projections key'
      = t.projections key' := Function.update_of_ne hkey _ _
  refine ⟨by rw [hfacts]; exact h.nodup, by rw [hfacts]; exact h.released, ?_⟩
  rw [hfacts, hprojection]
  exact h.count

/-- A hold whose command is new is not in the ledger yet. -/
theorem HoldLedger.fresh (hledger : HoldLedger sha ops t) {texts : Set String}
    (hfree : sha.CollisionFree texts) (hrefs : holdRefs ops ⊆ texts) (hmem : holdRef ∈ texts)
    {applied : Bool} (hnew : t.commands (key.1, holdCommand sha key holdRef applied) = none) :
    ¬HoldRecorded sha t key holdRef applied := by
  intro hrecorded
  obtain ⟨f, hf, hdigest⟩ := List.mem_filterMap.mp hrecorded
  obtain ⟨hf, htype⟩ := List.mem_filter.mp hf
  obtain ⟨holdRef', actorRef, hop, hpayload, hcommand⟩ :=
    hledger.made key f hf applied (of_decide_eq_true htype)
  rw [holdDigest_of_payload hpayload] at hdigest
  have hsame : holdRef' = holdRef :=
    hfree.hexdigest (hrefs ⟨_, _, _, _, hop⟩) hmem (Subtype.ext (Option.some.inj hdigest))
  rw [hsame] at hcommand
  exact hledger.known key f hf (hcommand ▸ hnew)

/-- A new application is counted, when there is room. -/
theorem Counted.applied (h : Counted t key) (hledger : HoldLedger sha ops t) (d : Digest)
    (hrecorded : Recorded sha t key (holdType true) commandId (holdPayload sha holdRef) fact p)
    (hnew : ¬HoldRecorded sha t key holdRef true)
    (hroom : (t.projections key).elim 0 (·.legalHoldCount) < 16) :
    Counted (t.record key (key.1, commandId) d fact p) key := by
  have htrue : holds true (t.facts key ++ [fact])
      = holds true (t.facts key) ++ [(sha.hexdigest holdRef).val] :=
    holds_concat_hold hrecorded.factType hrecorded.payload
  have hfalse : holds false (t.facts key ++ [fact]) = holds false (t.facts key) := by
    refine holds_concat_other ?_
    rw [hrecorded.factType]
    decide
  refine Counted.of_recorded d hrecorded (fun applied => ?_) ?_ ?_
  · cases applied with
    | false => rw [hfalse]; exact h.nodup false
    | true =>
      rw [htrue]
      exact (h.nodup true).append (List.nodup_singleton _) (List.disjoint_singleton.mpr hnew)
  · rw [hfalse, htrue]
    exact fun x hx => List.mem_append_left _ (h.released hx)
  · rw [hfalse, htrue, List.length_append, ← h.current hledger]
    show min 16 _ + _ = _ + 1
    omega

/-- A new release of an applied hold is counted. -/
theorem Counted.releasedHold (h : Counted t key) (hledger : HoldLedger sha ops t) (d : Digest)
    (hrecorded : Recorded sha t key (holdType false) commandId (holdPayload sha holdRef) fact p)
    (hnew : ¬HoldRecorded sha t key holdRef false) (happlied : HoldRecorded sha t key holdRef true) :
    Counted (t.record key (key.1, commandId) d fact p) key := by
  have hfalse : holds false (t.facts key ++ [fact])
      = holds false (t.facts key) ++ [(sha.hexdigest holdRef).val] :=
    holds_concat_hold hrecorded.factType hrecorded.payload
  have htrue : holds true (t.facts key ++ [fact]) = holds true (t.facts key) := by
    refine holds_concat_other ?_
    rw [hrecorded.factType]
    decide
  have hlater : (holds false (t.facts key) ++ [(sha.hexdigest holdRef).val]).Nodup :=
    (h.nodup false).append (List.nodup_singleton _) (List.disjoint_singleton.mpr hnew)
  have hsub : holds false (t.facts key) ++ [(sha.hexdigest holdRef).val]
      ⊆ holds true (t.facts key) := by
    intro x hx
    rcases List.mem_append.mp hx with hx | hx
    · exact h.released hx
    · rw [List.mem_singleton.mp hx]
      exact happlied
  refine Counted.of_recorded d hrecorded (fun applied => ?_) ?_ ?_
  · cases applied with
    | false => rw [hfalse]; exact hlater
    | true => rw [htrue]; exact h.nodup true
  · rw [hfalse, htrue]
    exact hsub
  · have hle := (hlater.subperm hsub).length_le
    have hcurrent := h.current hledger
    rw [hfalse, htrue, List.length_append]
    rw [List.length_append] at hle
    show (_ - 1) + (_ + 1) = _
    simp only [List.length_singleton] at hle
    omega

end Recording

/-! ## Calls -/

/-- How a call about a hold ends. -/
inductive HoldOutcome (sha : Sha256) (s : State) (key : String × String) (holdRef : String)
    (applied : Bool) : Except Error (List MemoryProjection) → State → Prop
  | refused (e : Error) (t : State) (hsame : t = s ∨ t = s.ticked) :
    HoldOutcome sha s key holdRef applied (.error e) t
  | returned (p : MemoryProjection) (t : State)
    (happended : Appended sha s.ticked key (holdType applied) (holdCommand sha key holdRef applied)
      (holdPayload sha holdRef) p t) :
    HoldOutcome sha s key holdRef applied (.ok [p]) t

theorem setLegalHold_outcome (sha : Sha256) (ports : Ports) {s : State} (hkeyed : RecordsKeyed s)
    (tenantId memoryId holdRef : String) (applied : Bool) (actorRef : String) :
    HoldOutcome sha s (tenantId, memoryId) holdRef applied
      (step sha ports s (.setLegalHold tenantId memoryId holdRef applied actorRef)).1
      (step sha ports s (.setLegalHold tenantId memoryId holdRef applied actorRef)).2 := by
  have hmethod : Sat (setLegalHold sha ports tenantId memoryId holdRef applied actorRef) s
      (fun p t => HoldOutcome sha s (tenantId, memoryId) holdRef applied (.ok [p]) t)
      (fun e t => HoldOutcome sha s (tenantId, memoryId) holdRef applied (.error e) t) := by
    show Sat (requireMemory tenantId memoryId _ _ >>= _) s _ _
    rw [Exec.sat_bind]
    show Sat (Exec.read >>= _) s _ _
    rw [Exec.sat_bind, Exec.sat_read]
    cases hrecord : s.records (tenantId, memoryId) with
    | none => exact (Exec.sat_raise _).mpr (.refused _ _ (.inl rfl))
    | some record =>
      cases hprojection : s.projections (tenantId, memoryId) with
      | none => exact (Exec.sat_raise _).mpr (.refused _ _ (.inl rfl))
      | some projection =>
        refine (Exec.sat_pure _).mpr ?_
        obtain ⟨rfl, rfl⟩ := Prod.mk.inj (hkeyed _ _ hrecord)
        exact appendFact_sat.mono (fun p t h => .returned p t h)
          (fun e t h => .refused e t (.inr h))
  exact Sat.outcome (Sat.call hmethod (fun _ _ h => h) (fun _ _ h => (Exec.sat_pure _).mpr h))

theorem Counted.ticked {s : State} {key : String × String} (h : Counted s key) :
    Counted s.ticked key := ⟨h.nodup, h.released, h.count⟩

/-- A call about a hold keeps the count of every memory, when it is orderly. -/
theorem HoldOutcome.counted {ops : List Op} {s t : State} {key : String × String} {holdRef : String}
    {applied : Bool} {r : Except Error (List MemoryProjection)}
    (houtcome : HoldOutcome sha s key holdRef applied r t) (hledger : HoldLedger sha ops s.ticked)
    (h : ∀ key', Counted s key') {texts : Set String} (hfree : sha.CollisionFree texts)
    (hrefs : holdRefs ops ⊆ texts) (hmem : holdRef ∈ texts)
    (hroom : applied = true → HoldRecorded sha s key holdRef true ∨
      ∀ p, s.projections key = some p → p.legalHoldCount < 16)
    (happlied : applied = false → HoldRecorded sha s key holdRef true) :
    ∀ key', Counted t key' := by
  intro key'
  cases houtcome with
  | refused e t hsame =>
    rcases hsame with rfl | rfl
    · exact h key'
    · exact (h key').ticked
  | returned p t happended =>
    cases happended with
    | replayed => exact (h key').ticked
    | recorded fact hrecorded =>
      by_cases hkey : key' = key
      · subst hkey
        have hnew : ¬HoldRecorded sha s key' holdRef applied :=
          hledger.fresh hfree hrefs hmem hrecorded.fresh
        cases applied with
        | false =>
          exact (h key').ticked.releasedHold hledger _ hrecorded hnew (happlied rfl)
        | true =>
          refine (h key').ticked.applied hledger _ hrecorded hnew ?_
          have hlt := (hroom rfl).resolve_left hnew
          show (s.projections key').elim 0 _ < 16
          cases hprojection : s.projections key' with
          | none => exact Nat.succ_pos _
          | some q => exact hlt q hprojection
      · exact (h key').ticked.frame hkey _

/-- One orderly call keeps the count of every memory. -/
theorem counted_step {ops : List Op} {s : State} {op : Op} (hledger : HoldLedger sha ops s)
    (h : ∀ key, Counted s key) {texts : Set String} (hfree : sha.CollisionFree texts)
    (hrefs : holdRefs (ops ++ [op]) ⊆ texts)
    (horderly : Orderly sha (Machine.entry (step sha ports) s op)) :
    ∀ key, Counted (step sha ports s op).2 key := by
  by_cases hhold : ∃ tenantId memoryId holdRef applied actorRef,
      op = .setLegalHold tenantId memoryId holdRef applied actorRef
  · obtain ⟨tenantId, memoryId, holdRef, applied, actorRef, rfl⟩ := hhold
    refine (setLegalHold_outcome sha ports hledger.keyed tenantId memoryId holdRef applied
      actorRef).counted ⟨hledger.keyed, hledger.ingested, hledger.stored, hledger.started,
        hledger.commands, hledger.known, hledger.made⟩ h hfree ?_ ?_ ?_ ?_
    · rintro ref ⟨tenant, memory, b, actor, hop⟩
      exact hrefs ⟨tenant, memory, b, actor, List.mem_append_left _ hop⟩
    · exact hrefs ⟨tenantId, memoryId, applied, actorRef,
        List.mem_append_right _ List.mem_cons_self⟩
    · rintro rfl
      exact (horderly.applied tenantId memoryId holdRef actorRef rfl).2
    · rintro rfl
      exact horderly.released tenantId memoryId holdRef actorRef rfl
  · -- no fact about a hold is recorded
    have hinv : HoldLedger sha (ops ++ [op]) (step sha ports s op).2 ∧
        ∀ key, Counted (step sha ports s op).2 key := by
      refine (step_path sha ports hledger.keyed op).invariant
        (I := fun t => HoldLedger sha (ops ++ [op]) t ∧ ∀ key, Counted t key) ?_
        ⟨hledger.mono (List.subset_append_left _ _), h⟩
      rintro t i ⟨ht, hcounted⟩ hi
      refine ⟨ht.event (List.mem_append_right _ List.mem_cons_self) hi, ?_⟩
      cases hi
      case record key factType commandId payload fact p hrecords hrecorded =>
        intro key'
        rcases hrecords with hother | ⟨holdRef, applied, actorRef, hop, -⟩
        · by_cases hkey : key' = key
          · subst hkey
            exact (hcounted key').other ht _ hother hrecorded
          · exact (hcounted key').frame hkey _
        · exact absurd ⟨_, _, _, _, _, hop⟩ hhold
      all_goals exact fun key => ⟨(hcounted key).nodup, (hcounted key).released, (hcounted key).count⟩
    exact hinv.2

theorem counted_run (sha : Sha256) (ports : Ports) (ops : List Op)
    (hfree : sha.CollisionFree (holdRefs ops))
    (horderly : ∀ e ∈ history sha ports ops, Orderly sha e) :
    ∀ key, Counted (run sha ports ops) key := by
  have hprefix : ∀ xs ys, ops = xs ++ ys → ∀ key, Counted (run sha ports xs) key := by
    intro xs
    induction xs using List.reverseRecOn with
    | nil => exact fun _ _ key => ⟨fun _ => List.nodup_nil, by simp [holds, run, Machine.final, State.start], by
        intro p hp; cases hp⟩
    | append_singleton xs op ih =>
      intro ys hops
      rw [run, Machine.final_concat]
      refine counted_step (holdLedger_run sha ports xs) (ih (op :: ys) (by rw [hops]; simp)) hfree ?_ ?_
      · rintro ref ⟨tenant, memory, b, actor, hop⟩
        refine ⟨tenant, memory, b, actor, ?_⟩
        rw [hops]
        exact List.mem_append_left _ hop
      · refine horderly _ ?_
        rw [hops, history, Machine.trace_append, Machine.trace_concat]
        exact List.mem_append_left _ (List.mem_append_right _ List.mem_cons_self)
  exact hprefix ops [] (List.append_nil ops).symm

/-! ## Protection -/

/-- Equal payloads of holds name the same digest. -/
theorem holdPayload_same {holdRef holdRef' : String}
    (h : ((holdPayload sha holdRef').sorted.toJson).Same (holdPayload sha holdRef).sorted.toJson) :
    sha.hexdigest holdRef' = sha.hexdigest holdRef := by
  have hentries : ∀ ref, (holdPayload sha ref).sorted.toJson
      = .obj [("hold_ref_digest", .str (sha.hexdigest ref).val)] := fun _ => rfl
  rw [hentries, hentries] at h
  have hfield := h.field (k := "hold_ref_digest") (by simp) (v := .str (sha.hexdigest holdRef').val)
    (w := .str (sha.hexdigest holdRef).val) (by simp) (by simp)
  exact Subtype.ext (Json.same_str.mp hfield)

/-- The text of a fingerprint determines the type, the memory and the payload. -/
theorem fingerprintText_inj {a b : MemoryFactType} {m n : String} {d e : Fields}
    (h : fingerprintText a m d = fingerprintText b n e) :
    a = b ∧ m = n ∧ d.sorted.toJson.Same e.sorted.toJson := by
  have hsame := canonicalJson_inj.mp h
  have hnodup : (["fact_type", "memory_id", "payload"] : List String).Nodup := by decide
  have htype := hsame.field (k := "fact_type") hnodup (v := .str a.value) (w := .str b.value)
    (by simp) (by simp)
  have hmemory := hsame.field (k := "memory_id") hnodup (v := .str m) (w := .str n)
    (by simp) (by simp)
  have hpayload := hsame.field (k := "payload") hnodup (v := d.sorted.toJson) (w := e.sorted.toJson)
    (by simp) (by simp)
  exact ⟨MemoryFactType.value_injective (Json.same_str.mp htype), Json.same_str.mp hmemory, hpayload⟩

/-- A known command of a hold, with its fingerprint, is that of its fact. -/
theorem HoldLedger.recorded_of_known {ops : List Op} {s : State} (hledger : HoldLedger sha ops s)
    {texts : Set String} (hfree : sha.CollisionFree texts) {key : String × String} {holdRef : String}
    {applied : Bool}
    (hfacts : ∀ key', ∀ f ∈ s.facts key', fingerprintText f.factType key'.2 f.payload ∈ texts)
    (hmem : fingerprintText (holdType applied) key.2 (holdPayload sha holdRef) ∈ texts)
    (hknown : s.commands (key.1, holdCommand sha key holdRef applied) = some
      (sha.hexdigest (fingerprintText (holdType applied) key.2 (holdPayload sha holdRef)))) :
    HoldRecorded sha s key holdRef applied := by
  obtain ⟨memoryId, f, hf, -, hdigest⟩ := hledger.commands _ _ _ hknown
  have htext := hfree.hexdigest hmem (hfacts _ f hf) hdigest
  obtain ⟨htype, rfl, hsame⟩ := fingerprintText_inj htext
  obtain ⟨holdRef', actorRef, -, hpayload, -⟩ := hledger.made _ f hf applied htype.symm
  rw [hpayload, sorted_sorted] at hsame
  refine List.mem_filterMap.mpr ⟨f, List.mem_filter.mpr ⟨hf, decide_eq_true htype.symm⟩, ?_⟩
  rw [holdDigest_of_payload hpayload, ← holdPayload_same hsame]

/-- An application that returned is in the ledger. -/
theorem HoldOutcome.recorded {ops : List Op} {s t : State} (hledger : HoldLedger sha ops s.ticked)
    {texts : Set String} (hfree : sha.CollisionFree texts) {key : String × String} {holdRef : String}
    {applied : Bool} {ps : List MemoryProjection}
    (hfacts : ∀ key', ∀ f ∈ s.facts key', fingerprintText f.factType key'.2 f.payload ∈ texts)
    (hmem : fingerprintText (holdType applied) key.2 (holdPayload sha holdRef) ∈ texts)
    (houtcome : HoldOutcome sha s key holdRef applied (.ok ps) t) :
    HoldRecorded sha t key holdRef applied := by
  cases houtcome with
  | returned p t happended =>
    cases happended with
    | replayed hknown => exact hledger.recorded_of_known hfree hfacts hmem hknown
    | recorded fact hrecorded =>
      show _ ∈ holds applied (Function.update s.ticked.facts key (s.ticked.facts key ++ [fact]) key)
      rw [Function.update_self, holds_concat_hold hrecorded.factType hrecorded.payload]
      exact List.mem_append_right _ List.mem_cons_self

/-- What a call adds to the facts of a memory about holds: its own. -/
theorem holds_step (sha : Sha256) (ports : Ports) {ops : List Op} {s : State} (hledger : HoldLedger sha ops s) (op : Op)
    (key : String × String) (applied : Bool) :
    ∃ new, holds applied ((step sha ports s op).2.facts key) = holds applied (s.facts key) ++ new ∧
      ∀ d ∈ new, ∃ holdRef actorRef, op = .setLegalHold key.1 key.2 holdRef applied actorRef ∧
        d = (sha.hexdigest holdRef).val := by
  refine (step_path sha ports hledger.keyed op).invariant
    (I := fun t => ∃ new, holds applied (t.facts key) = holds applied (s.facts key) ++ new ∧
      ∀ d ∈ new, ∃ holdRef actorRef, op = .setLegalHold key.1 key.2 holdRef applied actorRef ∧
        d = (sha.hexdigest holdRef).val) ?_ ⟨[], by simp, by simp⟩
  intro t i ht hi
  cases hi
  case record key' factType commandId payload fact p hrecords hrecorded =>
    obtain ⟨new, hnew, hall⟩ := ht
    by_cases hkey : key = key'
    · subst hkey
      have hfacts : (Event.apply (.record key (key.1, commandId)
          (sha.hexdigest (fingerprintText factType key.2 payload)) fact p) t).facts key
            = t.facts key ++ [fact] := Function.update_self _ _ _
      rw [hfacts]
      by_cases htype : fact.factType = holdType applied
      · rcases hrecords with hother | ⟨holdRef, applied', actorRef, hop, hhold, -, rfl⟩
        · exact absurd (hrecorded.factType.symm.trans htype) (hother applied)
        · obtain rfl : applied' = applied :=
            holdType_injective (hhold.symm.trans (hrecorded.factType.symm.trans htype))
          refine ⟨new ++ [(sha.hexdigest holdRef).val], ?_, ?_⟩
          · rw [holds_concat_hold htype hrecorded.payload, hnew, List.append_assoc]
          · intro d hd
            rcases List.mem_append.mp hd with hd | hd
            · exact hall d hd
            · exact ⟨holdRef, actorRef, hop, List.mem_singleton.mp hd⟩
      · exact ⟨new, by rw [holds_concat_other htype, hnew], hall⟩
    · have hfacts : (Event.apply (.record key' (key'.1, commandId)
          (sha.hexdigest (fingerprintText factType key'.2 payload)) fact p) t).facts key
            = t.facts key := Function.update_of_ne hkey _ _
      rw [hfacts]
      exact ⟨new, hnew, hall⟩
  all_goals exact ht

/-- The facts of a memory only grow. -/
theorem facts_step (sha : Sha256) (ports : Ports) {ops : List Op} {s : State} (hledger : HoldLedger sha ops s) (op : Op)
    (key : String × String) : s.facts key ⊆ (step sha ports s op).2.facts key := by
  refine (step_path sha ports hledger.keyed op).invariant (I := fun t => s.facts key ⊆ t.facts key)
    ?_ (List.Subset.refl _)
  intro t i ht hi
  cases hi
  case record key' factType commandId payload fact p hrecords hrecorded =>
    show s.facts key ⊆ Function.update t.facts key' (t.facts key' ++ [fact]) key
    by_cases hkey : key = key'
    · subst hkey
      rw [Function.update_self]
      exact fun f hf => List.mem_append_left _ (ht hf)
    · rw [Function.update_of_ne hkey]
      exact ht
  all_goals exact ht

theorem facts_run (sha : Sha256) (ports : Ports) (xs ys : List Op) (key : String × String) :
    (run sha ports xs).facts key ⊆ (run sha ports (xs ++ ys)).facts key := by
  induction ys using List.reverseRecOn with
  | nil => rw [List.append_nil]; exact List.Subset.refl _
  | append_singleton ys op ih =>
    rw [← List.append_assoc, run, run, Machine.final_concat]
    exact fun f hf => facts_step sha ports (holdLedger_run sha ports (xs ++ ys)) op key (ih hf)

/-- A counted memory is not erased. -/
theorem protected_of_count {ops : List Op} {s : State} (hledger : HoldLedger sha ops s)
    {key : String × String} {p : MemoryProjection} (hp : s.projections key = some p)
    (hcount : 1 ≤ p.legalHoldCount) : Protected sha ports s key := by
  refine ⟨⟨p, hp, hcount⟩, fun actorRef reasonCode => ?_⟩
  obtain ⟨record, hrecord⟩ := Option.ne_none_iff_exists'.mp
    (hledger.stored key (by rw [hp]; exact Option.some_ne_none p))
  have hmethod : Sat (tombstoneAndErase sha ports key.1 key.2 actorRef reasonCode) s
      (fun _ _ => False) (fun e _ => e.kind = .policyDenied) := by
    show Sat (requireMemory key.1 key.2 _ _ >>= _) s _ _
    rw [Exec.sat_bind]
    show Sat (Exec.read >>= _) s _ _
    rw [Exec.sat_bind, Exec.sat_read]
    dsimp only
    rw [hrecord, hp]
    refine (Exec.sat_pure _).mpr (Sat.check (fun _ => rfl) ?_)
    rintro ⟨hzero, -⟩
    have hcount' : p.legalHoldCount = 0 := hzero
    omega
  have houtcome := Sat.outcome (P := fun r _ => ∃ e, r = .error e ∧ e.kind = .policyDenied)
    (Sat.call (f := fun p => pure [p]) hmethod (fun e _ h => ⟨e, rfl, h⟩) (fun _ _ h => h.elim))
  exact houtcome

/-- A hold that is applied and not released after one call stays so until its release is called. -/
theorem outstanding_step {ops : List Op} {s : State} (hledger : HoldLedger sha ops s) {op : Op}
    {key : String × String} {holdRef : String} {texts : Set String}
    (hfree : sha.CollisionFree texts) (hmem : holdRef ∈ texts) (hrefs : holdRefs [op] ⊆ texts)
    (hother : ∀ actorRef, op ≠ .setLegalHold key.1 key.2 holdRef false actorRef)
    (h : HoldRecorded sha s key holdRef true ∧ ¬HoldRecorded sha s key holdRef false) :
    HoldRecorded sha (step sha ports s op).2 key holdRef true ∧
      ¬HoldRecorded sha (step sha ports s op).2 key holdRef false := by
  constructor
  · obtain ⟨new, hnew, -⟩ := holds_step sha ports hledger op key true
    unfold HoldRecorded
    rw [hnew]
    exact List.mem_append_left _ h.1
  · obtain ⟨new, hnew, hall⟩ := holds_step sha ports hledger op key false
    unfold HoldRecorded
    rw [hnew]
    intro hd
    rcases List.mem_append.mp hd with hd | hd
    · exact h.2 hd
    · obtain ⟨holdRef', actorRef, hop, hdigest⟩ := hall _ hd
      have hmem' : holdRef' ∈ texts := hrefs ⟨key.1, key.2, false, actorRef, by simp [hop]⟩
      have hsame : holdRef = holdRef' := hfree.hexdigest hmem hmem' (Subtype.ext hdigest)
      rw [← hsame] at hop
      exact hother actorRef hop

/-- **Legal holds are never lost**, in a run whose calls are orderly. -/
theorem holds_kept (sha : Sha256) (ports : Ports) (ops : List Op)
    (hrefs : sha.CollisionFree (holdRefs ops))
    (htexts : sha.CollisionFree (fingerprintTexts sha ports ops))
    (horderly : ∀ e ∈ history sha ports ops, Orderly sha e) : HoldsKept sha ports ops := by
  intro pre e post tenantId memoryId holdRef actorRef hhistory hop hresult hlater
  obtain ⟨ps, hps⟩ := hresult
  obtain ⟨xs, ys, hops, -, he, hpost⟩ := Machine.trace_split hhistory
  rw [hop] at hops he
  have hthis : Orderly sha e := horderly e (by
    rw [hhistory]
    exact List.mem_append_right _ List.mem_cons_self)
  have hmem : holdRef ∈ holdRefs ops := by
    refine ⟨tenantId, memoryId, true, actorRef, ?_⟩
    rw [hops]
    exact List.mem_append_right _ List.mem_cons_self
  have hledger : HoldLedger sha xs (run sha ports xs) := holdLedger_run sha ports xs
  have hbefore : e.before = run sha ports xs := by rw [he]; rfl
  -- the application is in the ledger when it returns
  have happlied : HoldRecorded sha e.after (tenantId, memoryId) holdRef true := by
    have houtcome := setLegalHold_outcome sha ports hledger.keyed tenantId memoryId holdRef true
      actorRef
    have hreturned : (step sha ports (run sha ports xs)
        (.setLegalHold tenantId memoryId holdRef true actorRef)).1 = .ok ps := by
      rw [← hps, he]
      rfl
    rw [hreturned] at houtcome
    have hafter := HoldOutcome.recorded ⟨hledger.keyed, hledger.ingested, hledger.stored,
      hledger.started, hledger.commands, hledger.known, hledger.made⟩ htexts ?_ ?_ houtcome
    · rw [he]
      exact hafter
    · intro key' f hf
      refine .inl ⟨key', f, ?_, rfl⟩
      rw [hops]
      exact facts_run sha ports xs _ key' hf
    · refine .inr ⟨tenantId, memoryId, holdRef, true, actorRef, ?_, rfl⟩
      rw [hops]
      exact List.mem_append_right _ List.mem_cons_self
  -- its release is not, neither before nor after
  have hreleased : ¬HoldRecorded sha e.after (tenantId, memoryId) holdRef false := by
    obtain ⟨new, hnew, hall⟩ := holds_step sha ports hledger
      (.setLegalHold tenantId memoryId holdRef true actorRef) (tenantId, memoryId) false
    have hnone := (hthis.applied tenantId memoryId holdRef actorRef hop).1
    rw [hbefore] at hnone
    rw [he]
    show _ ∉ holds false ((step sha ports (run sha ports xs)
      (.setLegalHold tenantId memoryId holdRef true actorRef)).2.facts (tenantId, memoryId))
    rw [hnew]
    intro hd
    rcases List.mem_append.mp hd with hd | hd
    · exact hnone hd
    · obtain ⟨holdRef', actorRef', hop', -⟩ := hall _ hd
      cases hop'
  have houtstanding : ∀ zs ws, ys = zs ++ ws →
      HoldRecorded sha (run sha ports (xs ++ .setLegalHold tenantId memoryId holdRef true actorRef
        :: zs)) (tenantId, memoryId) holdRef true ∧
      ¬HoldRecorded sha (run sha ports (xs ++ .setLegalHold tenantId memoryId holdRef true actorRef
        :: zs)) (tenantId, memoryId) holdRef false := by
    intro zs
    induction zs using List.reverseRecOn with
    | nil =>
      intro ws _
      rw [run, Machine.final_append]
      rw [he] at happlied hreleased
      exact ⟨happlied, hreleased⟩
    | append_singleton zs op ih =>
      intro ws hys
      rw [← List.cons_append, ← List.append_assoc, run, Machine.final_concat]
      have hop' : op ∈ ys := by
        rw [hys]
        exact List.mem_append_left _ (List.mem_append_right _ List.mem_cons_self)
      refine outstanding_step (holdLedger_run sha ports _) hrefs hmem ?_ ?_
        (ih (op :: ws) (by rw [hys, List.append_assoc]; rfl))
      · rintro ref ⟨tenant, memory, b, actor, hmem'⟩
        refine ⟨tenant, memory, b, actor, ?_⟩
        rw [hops, List.mem_singleton.mp hmem']
        exact List.mem_append_right _ (List.mem_cons_of_mem _ hop')
      · intro actor hcalled
        obtain ⟨e', he', heop⟩ := Machine.trace_ops (step sha ports) e.after hop'
        rw [← hpost] at he'
        exact hlater e' he' actor (heop.trans hcalled)
  obtain ⟨hfinal, hfinal'⟩ := houtstanding ys [] (List.append_nil ys).symm
  rw [← hops] at hfinal hfinal'
  have hrun : HoldLedger sha ops (run sha ports ops) := holdLedger_run sha ports ops
  -- a memory with facts has a projection
  cases hprojection : (run sha ports ops).projections (tenantId, memoryId) with
  | none =>
    unfold HoldRecorded at hfinal
    rw [hrun.started _ hprojection] at hfinal
    exact absurd hfinal List.not_mem_nil
  | some p =>
    exact protected_of_count hrun hprojection ((counted_run sha ports ops hrefs horderly
      (tenantId, memoryId)).outstanding hfinal hfinal' hprojection)

/-! ## A worked case -/

theorem holdPayload_ok {holdRef : String}
    (hbytes : ports.reprBytes (holdPayload sha holdRef).sorted ≤ 16384) :
    PayloadOk ports (holdPayload sha holdRef) := by
  refine ⟨(by decide : 1 ≤ 32), hbytes, ?_⟩
  intro k hk hmem
  have hkeys : (holdPayload sha holdRef).sorted.keys = ["hold_ref_digest"] := rfl
  rw [AList.mem_keys, hkeys, List.mem_singleton] at hmem
  rw [hmem] at hk
  exact absurd hk (by decide)

section Calls

variable {s : State} {record : MemoryRecord} {p : MemoryProjection} {holdRef actorRef : String}
  {applied : Bool}

/-- For a known memory the call is its append. -/
theorem setLegalHold_sat (hrecord : s.records record.key = some record)
    (hprojection : s.projections record.key = some p) {Q : MemoryProjection → State → Prop}
    {R : Error → State → Prop}
    (h : Sat (appendFact sha ports record p.version (holdType applied) (holdSuffix holdRef applied)
      actorRef (holdPayload sha holdRef)) s Q R) :
    Sat (setLegalHold sha ports record.tenantId.val record.memoryId.val holdRef applied actorRef) s
      Q R := by
  have hrecord' : s.records (record.tenantId.val, record.memoryId.val) = some record := hrecord
  have hprojection' : s.projections (record.tenantId.val, record.memoryId.val) = some p := hprojection
  show Sat (requireMemory _ _ _ _ >>= _) s _ _
  rw [Exec.sat_bind]
  show Sat (Exec.read >>= _) s _ _
  rw [Exec.sat_bind, Exec.sat_read]
  dsimp only
  rw [hrecord', hprojection']
  exact (Exec.sat_pure _).mpr h

/-- A call about a hold whose command is new. -/
theorem step_hold_fresh (hbytes : ports.reprBytes (holdPayload sha holdRef).sorted ≤ 16384)
    (hrecord : s.records record.key = some record) (hprojection : s.projections record.key = some p)
    (hfresh : s.commands (record.tenantId.val, holdCommand sha record.key holdRef applied) = none)
    (hactor : isIdentifier actorRef = true) :
    ∃ fact q, Recorded sha s.ticked record.key (holdType applied)
        (holdCommand sha record.key holdRef applied) (holdPayload sha holdRef) fact q ∧
      step sha ports s (.setLegalHold record.tenantId.val record.memoryId.val holdRef applied actorRef)
        = (.ok [q], s.ticked.record record.key
          (record.tenantId.val, holdCommand sha record.key holdRef applied) (sha.hexdigest
            (fingerprintText (holdType applied) record.memoryId.val (holdPayload sha holdRef))) fact q) := by
  have hprogress : ∃ progress, ((s.projections record.key).elim Progress.start
      (·.toProgress)).advance (holdType applied) (holdPayload sha holdRef).sorted = .ok progress := by
    cases applied with
    | true => exact ⟨_, rfl⟩
    | false => exact ⟨_, rfl⟩
  obtain ⟨progress, hprogress⟩ := hprogress
  have hfresh' : s.commands (record.tenantId.val,
      (commandIdOf sha record (holdSuffix holdRef applied)).val) = none := hfresh
  have happend := appendFact_recorded hrecord hfresh' hactor (holdPayload_ok hbytes) (fun h => by rw [hprojection] at h; cases h) hprogress
  rw [hprojection] at happend
  have hmethod : Sat (setLegalHold sha ports record.tenantId.val record.memoryId.val holdRef applied
      actorRef) s (fun q s' => ∃ fact, Recorded sha s.ticked record.key (holdType applied)
        (holdCommand sha record.key holdRef applied) (holdPayload sha holdRef) fact q ∧
          s' = s.ticked.record record.key
            (record.tenantId.val, holdCommand sha record.key holdRef applied) (sha.hexdigest
            (fingerprintText (holdType applied) record.memoryId.val (holdPayload sha holdRef))) fact q)
      (fun _ _ => False) :=
    setLegalHold_sat hrecord hprojection happend
  have houtcome := Sat.outcome (P := fun r s' => ∃ fact q, Recorded sha s.ticked record.key
      (holdType applied) (holdCommand sha record.key holdRef applied) (holdPayload sha holdRef) fact q ∧
        (r, s') = ((.ok [q] : Except Error (List MemoryProjection)), s.ticked.record record.key
          (record.tenantId.val, holdCommand sha record.key holdRef applied) (sha.hexdigest
            (fingerprintText (holdType applied) record.memoryId.val (holdPayload sha holdRef))) fact q))
    (Sat.call (f := fun q => pure [q]) hmethod (fun _ _ h => h.elim) (by
      rintro q s' ⟨fact, hrecorded, rfl⟩
      exact (Exec.sat_pure _).mpr ⟨fact, q, hrecorded, rfl⟩))
  exact houtcome

/-- A call about a hold whose command is known. -/
theorem step_hold_known (hrecord : s.records record.key = some record)
    (hprojection : s.projections record.key = some p)
    (hknown : s.commands (record.tenantId.val, holdCommand sha record.key holdRef applied)
      = some (sha.hexdigest
        (fingerprintText (holdType applied) record.memoryId.val (holdPayload sha holdRef)))) :
    step sha ports s (.setLegalHold record.tenantId.val record.memoryId.val holdRef applied actorRef)
      = (.ok [p], s.ticked) := by
  have happend : Sat (append sha ports record.tenantId record.memoryId p.version (holdType applied)
      (commandIdOf sha record (holdSuffix holdRef applied)) actorRef (ports.clock s.tick)
      (holdPayload sha holdRef)) s.ticked (fun q s' => q = p ∧ s' = s.ticked) (fun _ _ => False) := by
    show Sat (Exec.read >>= _) s.ticked _ _
    rw [Exec.sat_bind, Exec.sat_read]
    dsimp only
    rw [show s.ticked.records (record.tenantId.val, record.memoryId.val) = some record from hrecord]
    dsimp only
    rw [show s.ticked.commands (record.tenantId.val,
      (commandIdOf sha record (holdSuffix holdRef applied)).val) = _ from hknown]
    refine Sat.check (fun h => absurd rfl h) (fun _ => ?_)
    rw [show s.ticked.projections (record.tenantId.val, record.memoryId.val) = some p from hprojection]
    exact (Exec.sat_pure p).mpr ⟨rfl, rfl⟩
  have hmethod : Sat (setLegalHold sha ports record.tenantId.val record.memoryId.val holdRef applied
      actorRef) s (fun q s' => q = p ∧ s' = s.ticked) (fun _ _ => False) :=
    setLegalHold_sat hrecord hprojection happend
  have houtcome := Sat.outcome (P := fun r s' =>
      (r, s') = ((.ok [p] : Except Error (List MemoryProjection)), s.ticked))
    (Sat.call (f := fun q => pure [q]) hmethod (fun _ _ h => h.elim) (by
      rintro q s' ⟨rfl, rfl⟩
      exact (Exec.sat_pure _).mpr rfl))
  exact houtcome

end Calls

/-- The payload of a candidate. -/
def candidatePayload (record : MemoryRecord) : Fields :=
  Fields.of [("record_digest", .str record.canonicalDigest.val), ("tier", .str record.tier.value),
    ("trust", .str record.trust.value)]

/-- The state with a new record. -/
def State.store (s : State) (record : MemoryRecord) : State :=
  { s with records := Function.update s.records record.key (some record) }

/-- The ingestion of a record that is not accepted records the candidate and stops. -/
theorem step_ingest_candidate {s : State} {record : MemoryRecord} {evidence : NormalizedEvidence}
    {actorRef : String} {acceptance : MemoryAcceptance} {spec : EmbeddingSpec}
    (hbound : Bound record evidence spec ∧ acceptance.tenantId = record.tenantId
      ∧ acceptance.memoryId = record.memoryId) (husable : Usable evidence)
    (hdisposition : acceptance.disposition ≠ .reject)
    (hstatus : ¬(record.status = .accepted ∨ record.status = .active))
    (hnew : s.records record.key = none) (hnone : s.projections record.key = none)
    (hfresh : s.commands (record.tenantId.val, (commandIdOf sha record "candidate").val) = none)
    (hactor : isIdentifier actorRef = true) (hpayload : PayloadOk ports (candidatePayload record)) :
    ∃ fact p, Recorded sha (s.store record).ticked record.key .candidateProposed
        (commandIdOf sha record "candidate").val (candidatePayload record) fact p ∧
      (step sha ports s (.ingest record evidence actorRef acceptance spec)).2
        = (s.store record).ticked.record record.key
          (record.tenantId.val, (commandIdOf sha record "candidate").val)
          (sha.hexdigest (fingerprintText .candidateProposed record.memoryId.val
            (candidatePayload record))) fact p := by
  have hrecord : (s.store record).records record.key = some record := Function.update_self _ _ _
  have hprojection : (s.store record).projections record.key = none := hnone
  have hprogress : (((s.store record).projections record.key).elim Progress.start
      (·.toProgress)).advance .candidateProposed (candidatePayload record).sorted
        = .ok Progress.start := by
    rw [hprojection]
    rfl
  have happend := appendFact_recorded hrecord hfresh hactor hpayload (fun _ => rfl) hprogress
  rw [hprojection] at happend
  have hmethod : Sat (ingest sha ports record evidence actorRef acceptance spec) s (fun _ _ => False)
      (fun _ s' => ∃ fact p, Recorded sha (s.store record).ticked record.key .candidateProposed
        (commandIdOf sha record "candidate").val (candidatePayload record) fact p ∧
        s' = (s.store record).ticked.record record.key
          (record.tenantId.val, (commandIdOf sha record "candidate").val)
          (sha.hexdigest (fingerprintText .candidateProposed record.memoryId.val
            (candidatePayload record))) fact p) := by
    refine Sat.check (fun h => absurd hbound h) (fun _ => Sat.check (fun h => absurd husable h)
      (fun _ => ?_))
    have hstored : Sat (putRecord record) s (fun _ s' => s' = s.store record) (fun _ _ => False) := by
      show Sat (Exec.read >>= _) s _ _
      rw [Exec.sat_bind, Exec.sat_read, hnew]
      rfl
    refine Sat.call hstored (fun _ _ h => h.elim) ?_
    rintro - _ rfl
    refine Sat.call happend (fun _ _ h => h.elim) ?_
    rintro p _ ⟨fact, hrecorded, rfl⟩
    rw [if_neg hdisposition]
    exact Sat.check (fun _ => ⟨fact, p, hrecorded, rfl⟩) (fun h => absurd h hstatus)
  exact Sat.outcome (P := fun _ s' => ∃ fact p, Recorded sha (s.store record).ticked record.key
      .candidateProposed (commandIdOf sha record "candidate").val (candidatePayload record) fact p ∧
        s' = (s.store record).ticked.record record.key
          (record.tenantId.val, (commandIdOf sha record "candidate").val)
          (sha.hexdigest (fingerprintText .candidateProposed record.memoryId.val
            (candidatePayload record))) fact p)
    (Sat.call (f := fun p => pure [p]) hmethod (fun _ _ h => h) (fun _ _ h => h.elim))

/-- An ingestion that records a candidate, and a hold whose commands are new. -/
structure Candidate (sha : Sha256) (ports : Ports) (record : MemoryRecord)
    (evidence : NormalizedEvidence) (actorRef : String) (acceptance : MemoryAcceptance)
    (spec : EmbeddingSpec) (holdRef : String) : Prop where
  bound : Bound record evidence spec ∧ acceptance.tenantId = record.tenantId
    ∧ acceptance.memoryId = record.memoryId
  usable : Usable evidence
  disposition : acceptance.disposition ≠ .reject
  status : ¬(record.status = .accepted ∨ record.status = .active)
  actor : isIdentifier actorRef = true
  payload : PayloadOk ports (candidatePayload record)
  bytes : ports.reprBytes (holdPayload sha holdRef).sorted ≤ 16384
  commands : [(commandIdOf sha record "candidate").val, holdCommand sha record.key holdRef true,
    holdCommand sha record.key holdRef false].Nodup

section Case

variable {record : MemoryRecord} {evidence : NormalizedEvidence} {actorRef : String}
  {acceptance : MemoryAcceptance} {spec : EmbeddingSpec} {holdRef : String}

/-- A candidate after some calls about one hold: which of its two commands are known, and the count. -/
structure CaseState (sha : Sha256) (record : MemoryRecord) (holdRef : String) (s : State)
    (p : MemoryProjection) (known : Bool → Bool) (count : Nat) : Prop where
  stored : s.records record.key = some record
  projection : s.projections record.key = some p
  commands : ∀ applied, s.commands (record.tenantId.val, holdCommand sha record.key holdRef applied)
    = if known applied = true then some (sha.hexdigest (fingerprintText (holdType applied)
        record.memoryId.val (holdPayload sha holdRef))) else none
  count : p.legalHoldCount = count
  facts : ∀ f ∈ s.facts record.key,
    (f.factType = .candidateProposed ∧ f.payload = (candidatePayload record).sorted) ∨
      ∃ applied, known applied = true ∧ f.factType = holdType applied ∧
        f.payload = (holdPayload sha holdRef).sorted

theorem Candidate.ingested (h : Candidate sha ports record evidence actorRef acceptance spec holdRef) :
    ∃ p, CaseState sha record holdRef (run sha ports [.ingest record evidence actorRef acceptance spec])
      p (fun _ => false) 0 := by
  obtain ⟨fact, p, hrecorded, hrun⟩ := step_ingest_candidate (s := State.start) h.bound h.usable
    h.disposition h.status rfl rfl rfl h.actor h.payload
  have hstate : run sha ports [.ingest record evidence actorRef acceptance spec]
      = (State.start.store record).ticked.record record.key
        (record.tenantId.val, (commandIdOf sha record "candidate").val)
        (sha.hexdigest (fingerprintText .candidateProposed record.memoryId.val
          (candidatePayload record))) fact p := hrun
  rw [hstate]
  refine ⟨p, Function.update_self _ _ _, Function.update_self _ _ _, ?_, ?_, ?_⟩
  · intro applied
    refine Function.update_of_ne ?_ _ _
    intro heq
    have hnotin := (List.nodup_cons.mp h.commands).1
    rw [← (Prod.mk.inj heq).2] at hnotin
    cases applied with
    | true => exact hnotin List.mem_cons_self
    | false => exact hnotin (List.mem_cons_of_mem _ List.mem_cons_self)
  · obtain ⟨_, -, hreduced⟩ := hrecorded.reduced
    have hcount := reduceMemory_count hreduced
    rw [hrecorded.factType] at hcount
    exact hcount
  · intro f hf
    have hf' : f ∈ Function.update (State.start.store record).ticked.facts record.key ([] ++ [fact])
      record.key := hf
    rw [Function.update_self, List.nil_append] at hf'
    rw [List.mem_singleton.mp hf']
    exact .inl ⟨hrecorded.factType, hrecorded.payload⟩

/-- A new command about the hold is counted. -/
theorem CaseState.hold (h : Candidate sha ports record evidence actorRef acceptance spec holdRef)
    {s : State} {p : MemoryProjection} {known : Bool → Bool} {count : Nat}
    (hs : CaseState sha record holdRef s p known count) {b : Bool} (hnew : known b = false) :
    ∃ q s', step sha ports s
        (.setLegalHold record.tenantId.val record.memoryId.val holdRef b actorRef) = (.ok [q], s') ∧
      CaseState sha record holdRef s' q (Function.update known b true)
        (countAfter (holdType b) count) := by
  have hfresh := hs.commands b
  rw [hnew, if_neg (by decide)] at hfresh
  obtain ⟨fact, q, hrecorded, hstep⟩ := step_hold_fresh h.bytes hs.stored hs.projection hfresh h.actor
  refine ⟨q, _, hstep, hs.stored, Function.update_self _ _ _, ?_, ?_, ?_⟩
  · intro applied'
    by_cases hsame : applied' = b
    · subst hsame
      rw [Function.update_self, if_pos rfl]
      exact Function.update_self _ _ _
    · rw [Function.update_of_ne hsame, ← hs.commands applied']
      refine Function.update_of_ne ?_ _ _
      intro heq
      have hdistinct := List.pairwise_pair.mp (List.nodup_cons.mp h.commands).2
      have hcommand := (Prod.mk.inj heq).2
      cases applied' with
      | true =>
        cases b with
        | true => exact hsame rfl
        | false => exact hdistinct hcommand
      | false =>
        cases b with
        | true => exact hdistinct hcommand.symm
        | false => exact hsame rfl
  · obtain ⟨_, -, hreduced⟩ := hrecorded.reduced
    have hprojection : s.ticked.projections record.key = some p := hs.projection
    have hcount := reduceMemory_count hreduced
    rw [hprojection, hrecorded.factType] at hcount
    rw [← hs.count]
    exact hcount
  · intro f hf
    have hf' : f ∈ Function.update s.facts record.key (s.facts record.key ++ [fact]) record.key := hf
    rw [Function.update_self] at hf'
    rcases List.mem_append.mp hf' with hold | hnew
    · rcases hs.facts f hold with hcandidate | ⟨c, hc, hrest⟩
      · exact .inl hcandidate
      · refine .inr ⟨c, ?_, hrest⟩
        by_cases hsame : c = b
        · rw [hsame, Function.update_self]
        · rw [Function.update_of_ne hsame]
          exact hc
    · rw [List.mem_singleton.mp hnew]
      exact .inr ⟨b, Function.update_self _ _ _, hrecorded.factType, hrecorded.payload⟩

/-- The call about the hold of a record. -/
def holdOp (record : MemoryRecord) (holdRef actorRef : String) (applied : Bool) : Op :=
  .setLegalHold record.tenantId.val record.memoryId.val holdRef applied actorRef

/-- The texts of the fingerprints of the case: of the candidate and of the hold. -/
theorem Candidate.texts (h : Candidate sha ports record evidence actorRef acceptance spec holdRef) :
    ∀ x ∈ fingerprintTexts sha ports ([.ingest record evidence actorRef acceptance spec]
        ++ [holdOp record holdRef actorRef true]),
      x = fingerprintText .candidateProposed record.memoryId.val (candidatePayload record) ∨
        x = fingerprintText .legalHoldApplied record.memoryId.val (holdPayload sha holdRef) := by
  obtain ⟨p₁, h₁⟩ := h.ingested
  obtain ⟨p₂, s₂, hstep₂, h₂⟩ := h₁.hold h (b := true) rfl
  rintro x (⟨key, f, hf, rfl⟩ | ⟨tenantId, memoryId, ref, applied, actor, hop, rfl⟩)
  · have hledger := holdLedger_run sha ports ([.ingest record evidence actorRef acceptance spec]
      ++ [holdOp record holdRef actorRef true])
    have hstored : ∃ r, (run sha ports ([.ingest record evidence actorRef acceptance spec]
        ++ [holdOp record holdRef actorRef true])).records key = some r := by
      refine Option.ne_none_iff_exists'.mp (hledger.stored key (fun hnone => ?_))
      rw [hledger.started key hnone] at hf
      exact absurd hf List.not_mem_nil
    obtain ⟨r, hr⟩ := hstored
    obtain ⟨_, _, _, _, hingest⟩ := hledger.ingested key r hr
    have hrecord : r = record := by
      simp only [holdOp, List.cons_append, List.nil_append, List.mem_cons, List.not_mem_nil,
        Op.ingest.injEq, reduceCtorEq, or_false] at hingest
      exact hingest.1
    obtain rfl : record.key = key := by rw [← hrecord]; exact hledger.keyed key r hr
    rw [run, Machine.final_concat, ← run,
      show step sha ports _ (holdOp record holdRef actorRef true) = _ from hstep₂] at hf
    rcases h₂.facts f hf with ⟨htype, hpayload⟩ | ⟨applied, hknown, htype, hpayload⟩
    · rw [htype, hpayload, fingerprintText_sorted]
      exact .inl rfl
    · cases applied with
      | true =>
        rw [htype, hpayload, fingerprintText_sorted]
        exact .inr rfl
      | false => exact absurd hknown (by decide)
  · simp only [holdOp, List.cons_append, List.nil_append, List.mem_cons, List.not_mem_nil,
      Op.setLegalHold.injEq, reduceCtorEq, or_false, false_or] at hop
    obtain ⟨-, rfl, rfl, rfl, -⟩ := hop
    exact .inr rfl

/-- A first application is orderly. -/
theorem Candidate.orderly (h : Candidate sha ports record evidence actorRef acceptance spec holdRef) :
    ∀ e ∈ history sha ports ([.ingest record evidence actorRef acceptance spec]
      ++ [holdOp record holdRef actorRef true]), Orderly sha e := by
  obtain ⟨p₁, h₁⟩ := h.ingested
  intro e he
  rw [history, Machine.trace_concat] at he
  rcases List.mem_append.mp he with he | he
  · rw [List.mem_singleton.mp he]
    constructor
    · rintro tenantId memoryId ref actor hop
      cases hop
    · rintro tenantId memoryId ref actor hop
      cases hop
  · rw [List.mem_singleton.mp he]
    refine ⟨?_, fun _ _ _ _ hop => by cases hop⟩
    rintro tenantId memoryId ref actor hop
    obtain ⟨rfl, rfl, rfl, -, -⟩ := Op.setLegalHold.inj hop
    constructor
    · intro hrecorded
      obtain ⟨f, hf, -⟩ := List.mem_filterMap.mp hrecorded
      obtain ⟨hf, htype⟩ := List.mem_filter.mp hf
      rcases h₁.facts f hf with ⟨hcandidate, -⟩ | ⟨applied, hknown, -⟩
      · rw [hcandidate] at htype
        exact absurd htype (by decide)
      · exact absurd hknown (by decide)
    · refine .inr (fun p hp => ?_)
      obtain rfl := Option.some.inj (h₁.projection.symm.trans hp)
      rw [h₁.count]
      decide

/-- A hold that is applied again after its release does not count. -/
theorem Candidate.reapplied
    (h : Candidate sha ports record evidence actorRef acceptance spec holdRef) :
    ¬HoldsKept sha ports ([.ingest record evidence actorRef acceptance spec,
      holdOp record holdRef actorRef true, holdOp record holdRef actorRef false]
        ++ [holdOp record holdRef actorRef true]) := by
  obtain ⟨p₁, h₁⟩ := h.ingested
  obtain ⟨p₂, s₂, hstep₂, h₂⟩ := h₁.hold h (b := true) rfl
  obtain ⟨p₃, s₃, hstep₃, h₃⟩ := h₂.hold h (b := false) rfl
  have hlast : run sha ports [.ingest record evidence actorRef acceptance spec,
      holdOp record holdRef actorRef true, holdOp record holdRef actorRef false] = s₃ := by
    show (step sha ports (step sha ports (run sha ports [.ingest record evidence actorRef acceptance
      spec]) (holdOp record holdRef actorRef true)).2 (holdOp record holdRef actorRef false)).2 = s₃
    rw [show step sha ports _ (holdOp record holdRef actorRef true) = _ from hstep₂]
    rw [show step sha ports s₂ (holdOp record holdRef actorRef false) = _ from hstep₃]
  -- the command of the application is known, so the call only reads
  have hknown := h₃.commands true
  rw [if_pos (by rfl)] at hknown
  have hstep₄ : step sha ports s₃ (holdOp record holdRef actorRef true) = (.ok [p₃], s₃.ticked) :=
    step_hold_known h₃.stored h₃.projection hknown
  intro hkept
  have hprotected := hkept _ _ [] _ _ holdRef actorRef (Machine.trace_concat State.start _ _) rfl
    ⟨[p₃], by
      show (step sha ports (run sha ports [.ingest record evidence actorRef acceptance spec,
        holdOp record holdRef actorRef true, holdOp record holdRef actorRef false]) _).1 = _
      rw [hlast, hstep₄]⟩ (fun _ h => absurd h List.not_mem_nil)
  obtain ⟨⟨p, hp, hcount⟩, -⟩ := hprotected
  rw [run, Machine.final_concat, ← run, hlast, hstep₄] at hp
  obtain rfl := Option.some.inj (h₃.projection.symm.trans hp)
  rw [h₃.count] at hcount
  exact absurd hcount (by decide)

end Case

def sampleRecord : MemoryRecord where
  memoryId := ⟨"m", computed⟩
  tenantId := ⟨"t", computed⟩
  tier := .episodic
  status := .candidate
  runId := ⟨"r", computed⟩
  evidenceId := ⟨"e", computed⟩
  citation := ⟨⟨"e", computed⟩, ⟨"s", computed⟩, "l", zeroHash, zeroHash⟩
  trust := .operatorApproved
  chunkerVersion := ⟨chunkerVersion, computed⟩
  embedderModel := ⟨"model", computed⟩
  embedderVersion := ⟨"1", computed⟩
  embeddingDimensions := 2
  contentDigest := zeroHash
  retention := ⟨[], by decide⟩
  blob := ⟨⟨"t", computed⟩, ⟨"b", computed⟩, zeroHash⟩
  supersedes := []
  canonicalDigest := zeroHash
  citation_ok := rfl
  blob_ok := ⟨rfl, rfl⟩

def sampleEvidence : NormalizedEvidence :=
  ⟨⟨"e", computed⟩, ⟨"t", computed⟩, "text", zeroHash, .accepted⟩

def sampleAcceptance : MemoryAcceptance :=
  ⟨⟨"d", computed⟩, ⟨"t", computed⟩, ⟨"m", computed⟩, .accept, ⟨"w", computed⟩, .human,
    ⟨"p", computed⟩, 1, zeroHash, ⟨"c", computed⟩, ⟨0, 0⟩⟩

def sampleSpec : EmbeddingSpec :=
  ⟨⟨"fake", computed⟩, ⟨"model", computed⟩, ⟨"1", computed⟩, 2, ⟨['1', '.', '0'], computed⟩, 1, 1, 1⟩

/-- The record is not accepted, so ingestion records the candidate and stops. -/
def sampleIngest : Op := .ingest sampleRecord sampleEvidence "a" sampleAcceptance sampleSpec

/-- Ports that are not asked for chunks, embeddings or erasures; `reprBytes` is right for payloads of
    plain texts. -/
def samplePorts : Ports where
  clock := fun _ => ⟨0, 0⟩
  split := fun _ _ _ _ => .error ⟨.valueError, "memory content is empty"⟩
  embed := fun _ _ => .error ⟨.policyDenied, "embedding budget exhausted"⟩
  eraseBlob := fun _ _ => .ok ()
  reprBytes := fun d => d.size + 2 * d.entries.length - 1

def sampleHold (applied : Bool) : Op := holdOp sampleRecord "h" "a" applied

/-- A hash that tells apart the content, the hold, the commands and the fingerprints of the case. -/
def sampleSha : Sha256 := .table
  ["text", "h", joinParts ["t", "m", "candidate"], joinParts ["t", "m", holdSuffix "h" true],
   joinParts ["t", "m", holdSuffix "h" false],
   fingerprintText .candidateProposed "m" (candidatePayload sampleRecord),
   fingerprintText .legalHoldApplied "m"
     (Fields.of [("hold_ref_digest", .str (String.ofList (List.replicate 64 '1')))])]

theorem sample_candidate :
    Candidate sampleSha samplePorts sampleRecord sampleEvidence "a" sampleAcceptance sampleSpec "h" where
  bound := by decide
  usable := by decide
  disposition := by decide
  status := by decide
  actor := by decide
  payload := ⟨by decide, by decide +kernel, by decide +kernel⟩
  bytes := by decide +kernel
  commands := by decide +kernel

/-- The worked case: a hold on a candidate is applied and protects it. -/
theorem holds_kept_sample :
    (∃ ps, (step sampleSha samplePorts (run sampleSha samplePorts [sampleIngest])
      (sampleHold true)).1 = .ok ps) ∧
    HoldsKept sampleSha samplePorts ([sampleIngest] ++ [sampleHold true]) := by
  constructor
  · obtain ⟨p₁, h₁⟩ := sample_candidate.ingested
    obtain ⟨p₂, s₂, hstep₂, -⟩ := h₁.hold sample_candidate (b := true) rfl
    exact ⟨[p₂], congrArg Prod.fst hstep₂⟩
  · refine holds_kept sampleSha samplePorts _ (.of_subsingleton ?_) ?_ sample_candidate.orderly
    · rintro x ⟨_, _, _, _, hx⟩ y ⟨_, _, _, _, hy⟩
      simp only [sampleIngest, sampleHold, holdOp, List.cons_append, List.nil_append, List.mem_cons,
        List.not_mem_nil, Op.setLegalHold.injEq, reduceCtorEq, or_false, false_or] at hx hy
      rw [hx.2.2.1, hy.2.2.1]
    · refine Sha256.table_collisionFree (by decide) "" ?_
      intro x hx
      rcases sample_candidate.texts x hx with rfl | rfl
      · exact .inl (by simp [sampleRecord])
      · refine .inl ?_
        have hdigest : (sampleSha.hexdigest "h").val = String.ofList (List.replicate 64 '1') := by
          decide +kernel
        rw [holdPayload, hdigest]
        simp [sampleRecord]

/-- **What the code allows.**  The hold is applied, released and applied again: the last call returns
    and the memory counts no hold. -/
theorem hold_lost_on_reapplication :
    ¬HoldsKept sampleSha samplePorts ([sampleIngest, sampleHold true, sampleHold false]
      ++ [sampleHold true]) :=
  sample_candidate.reapplied

end Memory

end Aegis
