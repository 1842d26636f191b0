/-
  THE FACT LEDGER OF REMEDIATION.

  A plan's facts are numbered from 1, each chained to the one before, and the projection of the plan is
  at the last of them (`LedgerOk`): the same version, the same digest.  Every event of every call keeps
  that, so it holds in every state of a run.

  An accepted fact moves the status along `allowed`.  Some statuses form a DEAD END: from `failed` a plan
  can only be rolled back or escalated, and nothing leads from there to another execution.
-/
import Mathlib
import Aegis.Remediation.Effects

namespace Aegis

namespace Remediation

open Exec (Path)

variable {sha : Sha256} {ports : Ports}

/-! ## One fact -/

/-- The fields of a fact that `append` builds. -/
theorem buildFact_ok {tenantId planId : String} {sequence : Nat} {previous : Digest}
    {factType : RemediationFactType} {commandId actor : String} {time : Datetime} {payload : Fields}
    {fact : RemediationFact}
    (h : buildFact sha tenantId planId sequence previous factType commandId actor time payload
      = .ok fact) :
    fact.sequence = sequence + 1 ∧ fact.previousDigest = previous ∧ fact.factType = factType ∧
      fact.payload = payload.sorted ∧ fact.commandId.val = commandId ∧
      fact.tenantId.val = tenantId ∧ fact.planId.val = planId ∧ fact.actorRef.val = actor := by
  unfold buildFact at h
  obtain ⟨tenant, htenant, h⟩ := except_bind_ok.mp h
  obtain ⟨plan, hplan, h⟩ := except_bind_ok.mp h
  obtain ⟨command, hcommand, h⟩ := except_bind_ok.mp h
  obtain ⟨actor', hactor, h⟩ := except_bind_ok.mp h
  split at h
  · rw [← Except.ok.inj h]
    exact ⟨rfl, rfl, rfl, rfl, Identifier.parse_ok hcommand, Identifier.parse_ok htenant,
      Identifier.parse_ok hplan, Identifier.parse_ok hactor⟩
  · cases h

/-- A fact can be built when its parts are identifiers and its payload is small. -/
theorem buildFact_total {tenantId planId commandId actor : String} (sequence : Nat)
    (previous : Digest) (factType : RemediationFactType) (time : Datetime) {payload : Fields}
    (htenant : isIdentifier tenantId = true) (hplan : isIdentifier planId = true)
    (hcommand : isIdentifier commandId = true) (hactor : isIdentifier actor = true)
    (hpayload : payload.entries.length ≤ 32) :
    ∃ fact, buildFact sha tenantId planId sequence previous factType commandId actor time payload
      = .ok fact := by
  have hsorted : payload.sorted.entries.length ≤ 32 := by
    rw [Fields.length_sorted]
    exact hpayload
  unfold buildFact
  rw [Identifier.parse_of htenant, Identifier.parse_of hplan, Identifier.parse_of hcommand,
    Identifier.parse_of hactor]
  exact ⟨_, dif_pos hsorted⟩

/-- The projection after a fact, and what the reducer has checked. -/
structure Reduced (current : Option RemediationProjection) (fact : RemediationFact)
    (p : RemediationProjection) : Prop where
  digest : p.lastFactDigest = fact.canonicalDigest
  status : p.status = fact.factType.status
  first : current = none → fact.factType = .proposalRecorded ∧ p.version = 1
  next : ∀ c, current = some c → fact.sequence = c.version + 1 ∧ p.version = fact.sequence ∧
    c.status ∉ terminal ∧ fact.factType.status ∈ allowed c.status

theorem startProjection_ok {fact : RemediationFact} {p : RemediationProjection}
    (h : startProjection fact = .ok p) :
    p.lastFactDigest = fact.canonicalDigest ∧ p.status = .proposed ∧ p.version = 1 := by
  unfold startProjection at h
  obtain ⟨run, -, h⟩ := except_bind_ok.mp h
  obtain ⟨plan, -, h⟩ := except_bind_ok.mp h
  obtain ⟨fence, -, h⟩ := except_bind_ok.mp h
  obtain ⟨runId, -, h⟩ := except_bind_ok.mp h
  obtain ⟨planDigest, -, h⟩ := except_bind_ok.mp h
  obtain ⟨fenceToken, -, h⟩ := except_bind_ok.mp h
  rw [← Except.ok.inj h]
  exact ⟨rfl, rfl, rfl⟩

theorem validateTransition_ok {previous current : RemediationStatus} :
    validateTransition previous current = .ok () ↔
      previous ∉ terminal ∧ current ∈ allowed previous := by
  unfold validateTransition
  by_cases hterminal : previous ∈ terminal
  · simp [hterminal]
  · by_cases hallowed : current ∈ allowed previous
    · simp [hterminal, hallowed]
    · simp [hterminal, hallowed]

theorem reduceRemediation_ok {current : Option RemediationProjection} {fact : RemediationFact}
    {p : RemediationProjection} (h : reduceRemediation current fact = .ok p) :
    Reduced current fact p := by
  cases current with
  | none =>
    simp only [reduceRemediation] at h
    split at h
    · cases h
    · rename_i hproposal
      rw [not_not] at hproposal
      obtain ⟨hdigest, hstatus, hversion⟩ := startProjection_ok h
      refine ⟨hdigest, ?_, fun _ => ⟨hproposal, hversion⟩, fun c hc => absurd hc (by simp)⟩
      rw [hstatus, hproposal]
      rfl
  | some c =>
    simp only [reduceRemediation] at h
    split at h
    · cases h
    · rename_i hsequence
      rw [not_not] at hsequence
      split at h
      · cases h
      · obtain ⟨u, hvalid, h⟩ := except_bind_ok.mp h
        obtain ⟨approval, -, h⟩ := except_bind_ok.mp h
        obtain ⟨hterminal, hallowed⟩ := validateTransition_ok.mp hvalid
        rw [← Except.ok.inj h]
        refine ⟨rfl, rfl, fun hnone => absurd hnone (by simp), fun c' hc' => ?_⟩
        obtain rfl := Option.some.inj hc'
        exact ⟨hsequence, rfl, hterminal, hallowed⟩

/-- A fact that follows the projection and moves the status along `allowed` is accepted. -/
theorem reduceRemediation_total {c : RemediationProjection} {fact : RemediationFact}
    (hsequence : fact.sequence = c.version + 1) (hprevious : fact.previousDigest = c.lastFactDigest)
    (hterminal : c.status ∉ terminal) (hallowed : fact.factType.status ∈ allowed c.status)
    (hkind : fact.factType ≠ .approvalRequested) :
    ∃ p, reduceRemediation (some c) fact = .ok p := by
  have hbound : boundApproval c fact = .ok (c.approvalId, c.approvalDigest) := by
    unfold boundApproval
    rw [if_neg hkind]
  simp only [reduceRemediation]
  rw [if_neg (not_not.mpr hsequence), if_neg (not_not.mpr hprevious),
    validateTransition_ok.mpr ⟨hterminal, hallowed⟩, hbound]
  exact ⟨_, rfl⟩

/-! ## The invariant -/

/-- The projection of a plan is at its last fact. -/
structure LedgerOk (s : State) : Prop where
  missing : ∀ key, s.projections key = none → s.facts key = []
  current : ∀ key p, s.projections key = some p →
    p.version = (s.facts key).length ∧ p.lastFactDigest = s.headDigest key

theorem ledgerOk_start (policies : List ActionPolicy) (limits : String → Int) :
    LedgerOk (State.start policies limits) where
  missing _ _ := rfl
  current _ _ h := absurd h (by simp [State.start])

theorem LedgerOk.of_same {s t : State} (h : LedgerOk s) (hsame : SameLedger s t) : LedgerOk t where
  missing key hnone := by
    rw [hsame.projections] at hnone
    rw [hsame.facts]
    exact h.missing key hnone
  current key p hp := by
    rw [hsame.projections] at hp
    have hhead : t.headDigest key = s.headDigest key := by rw [State.headDigest, hsame.facts]; rfl
    rw [hsame.facts, hhead]
    exact h.current key p hp

theorem headDigest_record (t : State) (key command : String × String) (entry : String × Digest)
    (fact : RemediationFact) (p : RemediationProjection) :
    (t.record key command entry fact p).headDigest key = fact.canonicalDigest := by
  show (((Function.update t.facts key (t.facts key ++ [fact])) key).getLast?.map
    (·.canonicalDigest)).getD zeroHash = _
  rw [Function.update_self, List.getLast?_concat]
  rfl

/-- A recorded fact keeps the invariant. -/
theorem LedgerOk.record {t : State} (h : LedgerOk t) {key : String × String}
    {factType : RemediationFactType} {commandId : String} {payload : Fields} {fact : RemediationFact}
    {p : RemediationProjection} (hrecorded : Recorded sha t key factType commandId payload fact p)
    (command : String × String) (entry : String × Digest) :
    LedgerOk (t.record key command entry fact p) := by
  obtain ⟨actor, time, hbuilt⟩ := hrecorded.built
  obtain ⟨hsequence, -⟩ := buildFact_ok hbuilt
  have hreduced := reduceRemediation_ok hrecorded.reduced
  have hversion : p.version = (t.facts key).length + 1 := by
    cases hcurrent : t.projections key with
    | none =>
      rw [(hreduced.first hcurrent).2, h.missing key hcurrent]
      rfl
    | some c => rw [(hreduced.next c hcurrent).2.1, hsequence]
  constructor
  · intro key' hnone
    have hnone' : Function.update t.projections key (some p) key' = none := hnone
    show Function.update t.facts key (t.facts key ++ [fact]) key' = []
    by_cases hkey : key' = key
    · rw [hkey, Function.update_self] at hnone'
      cases hnone'
    · rw [Function.update_of_ne hkey] at hnone' ⊢
      exact h.missing key' hnone'
  · intro key' q hq
    have hq' : Function.update t.projections key (some p) key' = some q := hq
    by_cases hkey : key' = key
    · rw [hkey, Function.update_self] at hq'
      obtain rfl := Option.some.inj hq'
      rw [hkey, headDigest_record]
      refine ⟨?_, hreduced.digest⟩
      show p.version = (Function.update t.facts key (t.facts key ++ [fact]) key).length
      rw [Function.update_self, List.length_append, hversion]
      rfl
    · have hfacts : (t.record key command entry fact p).facts key' = t.facts key' :=
        Function.update_of_ne hkey _ _
      rw [Function.update_of_ne hkey] at hq'
      rw [State.headDigest, hfacts]
      exact h.current key' q hq'

/-- Every event keeps the invariant. -/
theorem LedgerOk.event {s t : State} {op : Op} {i : Event} (h : LedgerOk t)
    (hi : May sha ports s op t i) : LedgerOk (i.apply t) := by
  cases hi
  case record key factType commandId payload fact p hrecords hrecorded =>
    exact h.record hrecorded _ _
  all_goals exact h.of_same ⟨rfl, rfl, rfl⟩

/-- **The ledger invariant**, in every state of a run. -/
theorem ledgerOk_run (policies : List ActionPolicy) (limits : String → Int) (ops : List Op) :
    LedgerOk (run sha ports (State.start policies limits) ops) := by
  refine Machine.run_invariant_all (fun s op hs => ?_) _ (ledgerOk_start policies limits) ops
  exact (step_path sha ports s op).invariant (fun _ _ ht hi => ht.event hi) hs

/-! ## The facts of a plan only grow -/

/-- The call adds the fact to the ledger of a plan. -/
def Adds (e : HistoryEntry) (key : String × String) (fact : RemediationFact) : Prop :=
  ∃ new, e.after.facts key = e.before.facts key ++ new ∧ fact ∈ new

/-- The facts a call adds are ones it records. -/
theorem step_facts (sha : Sha256) (ports : Ports) (s : State) (op : Op) (key : String × String) :
    ∃ new, (step sha ports s op).2.facts key = s.facts key ++ new ∧
      ∀ fact ∈ new, ∃ t factType commandId payload,
        Records sha ports s t op key factType commandId payload ∧ fact.factType = factType ∧
          fact.payload = payload.sorted := by
  refine (step_path sha ports s op).invariant (I := fun t => ∃ new, t.facts key = s.facts key ++ new ∧
    ∀ fact ∈ new, ∃ t factType commandId payload,
      Records sha ports s t op key factType commandId payload ∧ fact.factType = factType ∧
        fact.payload = payload.sorted) ?_ ⟨[], by simp, by simp⟩
  intro t i ht hi
  cases hi
  case record key' factType commandId payload fact p hrecords hrecorded =>
    obtain ⟨new, hnew, hall⟩ := ht
    obtain ⟨actor, time, hbuilt⟩ := hrecorded.built
    obtain ⟨-, -, htype, hpayload, -⟩ := buildFact_ok hbuilt
    by_cases hkey : key = key'
    · subst hkey
      refine ⟨new ++ [fact], ?_, ?_⟩
      · show Function.update t.facts key (t.facts key ++ [fact]) key = _
        rw [Function.update_self, hnew, List.append_assoc]
      · intro f hf
        rcases List.mem_append.mp hf with hf | hf
        · exact hall f hf
        · rw [List.mem_singleton.mp hf]
          exact ⟨t, factType, commandId, payload, hrecords, htype, hpayload⟩
    · refine ⟨new, ?_, hall⟩
      show Function.update t.facts key' (t.facts key' ++ [fact]) key = _
      rw [Function.update_of_ne hkey, hnew]
  all_goals exact ht

/-! ## The dead end -/

/-- From these statuses a plan is only rolled back or escalated. -/
def deadEnd : List RemediationStatus := [.failed, .rollingBack, .rolledBack, .escalated]

def DeadEnd (s : State) (key : String × String) : Prop :=
  ∃ p, s.projections key = some p ∧ p.status ∈ deadEnd

theorem deadEnd_closed {a b : RemediationStatus} (ha : a ∈ deadEnd) (hb : b ∈ allowed a) :
    b ∈ deadEnd := by
  revert ha hb
  cases a <;> cases b <;> decide

/-- A plan does not leave the dead end. -/
theorem DeadEnd.step {s : State} {key : String × String} (h : DeadEnd s key) (op : Op) :
    DeadEnd (step sha ports s op).2 key := by
  refine (step_path sha ports s op).invariant (I := fun t => DeadEnd t key) ?_ h
  intro t i ht hi
  cases hi
  case record key' factType commandId payload fact p hrecords hrecorded =>
    obtain ⟨c, hc, hstatus⟩ := ht
    by_cases hkey : key = key'
    · subst hkey
      have hreduced := reduceRemediation_ok hrecorded.reduced
      obtain ⟨-, -, -, hallowed⟩ := hreduced.next c hc
      refine ⟨p, Function.update_self _ _ _, ?_⟩
      rw [hreduced.status]
      exact deadEnd_closed hstatus hallowed
    · exact ⟨c, (Function.update_of_ne hkey _ _).trans hc, hstatus⟩
  all_goals exact ht

end Remediation

end Aegis
