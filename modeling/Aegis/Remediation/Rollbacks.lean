/-
  ROLLBACK AFTER AN INTERRUPTION.

  A call of `rollback` records its request, claims the operation, compensates, completes the claim and
  records the result.  Once the request is recorded the plan is `rollingBack`, and the scope check of
  `rollback` DOES NOT ADMIT that status.  So an interruption is harmless before the request is recorded
  and after the success is; in between nothing moves the plan again (`rolling_back_forever`).

  What an interrupted call leaves behind is one of four things: UNTOUCHED, UNDERWAY (the request is
  recorded and nothing more), UNDONE (the success is recorded) or GIVEN UP (the failure is recorded).
-/
import Mathlib
import Aegis.Remediation.Recovery

namespace Aegis

namespace Remediation

open Steps (Along)
open Atomic (PortCall Program)

variable {sha : Sha256} {ports : Ports}

/-! ## What an interrupted call leaves behind -/

/-- The statuses the scope check of `rollback` admits. -/
def rollbackStatuses : List RemediationStatus :=
  [.failed, .succeeded, .verificationFailed, .rolledBack]

/-- The payload of the request of a rollback. -/
def Job.rollbackPayload (j : Job) : Fields := Fields.of [("action_id", .str j.request.actionId)]

variable (sha) in
/-- Nothing of the rollback is recorded. -/
structure Job.Unbegun (j : Job) (base : List RemediationFact) (t : Trail) (p : RemediationProjection) :
    Prop where
  projection : t.projections j.plan.key = some p
  binds : j.warrant.Binds sha p
  fence : p.fenceToken = j.fence
  status : p.status ∈ [RemediationStatus.failed, .succeeded, .verificationFailed]
  version : j.request.expectedVersion = p.version
  facts : t.facts j.plan.key = base
  intent : t.commands (j.plan.tenantId.val, j.command ":intent") = none
  result : t.commands (j.plan.tenantId.val, j.command ":result") = none
  unclaimed : t.claims j.operation = none

variable (sha) in
/-- The request is recorded, and no result. -/
structure Job.Underway (j : Job) (base : List RemediationFact) (t : Trail) (p : RemediationProjection) :
    Prop extends j.At sha t p .rollingBack where
  facts : j.Grown base t [(.rollbackRequested, j.command ":intent")]
  intent : t.commands (j.plan.tenantId.val, j.command ":intent") =
    some (j.entry sha .rollbackRequested j.rollbackPayload)
  result : t.commands (j.plan.tenantId.val, j.command ":result") = none

variable (sha) in
/-- The success is recorded, and the claim has its receipt. -/
structure Job.Undone (j : Job) (base : List RemediationFact) (t : Trail) (p : RemediationProjection)
    (receipt : ActionReceipt) : Prop extends j.At sha t p .rolledBack where
  facts : j.Grown base t [(.rollbackRequested, j.command ":intent"),
    (.rollbackSucceeded, j.command ":result")]
  intent : t.commands (j.plan.tenantId.val, j.command ":intent") =
    some (j.entry sha .rollbackRequested j.rollbackPayload)
  result : t.commands (j.plan.tenantId.val, j.command ":result") =
    some (j.entry sha .rollbackSucceeded (resultPayload sha receipt))
  claim : ∃ c, t.claims j.operation = some c ∧ c.receipt = some receipt ∧
    c.binding = j.warrant.binding sha j.action j.fence
  compensated : receipt.outcome = .compensated

variable (sha) in
/-- The failure is recorded. -/
structure Job.GivenUp (j : Job) (base : List RemediationFact) (t : Trail) (p : RemediationProjection) :
    Prop extends j.At sha t p .escalated where
  facts : j.Grown base t [(.rollbackRequested, j.command ":intent"),
    (.rollbackFailed, j.command ":result")]

variable (sha) in
/-- What every step leaves alone. -/
structure Job.Standing (j : Job) (s : State) : Prop where
  ledger : LedgerOk s
  stored : j.warrant.Stored sha s
  quota : j.warrant.Quota sha s

variable (sha) in
/-- **The crash invariant** of a rollback. -/
def Job.Undoing (j : Job) (base : List RemediationFact) (s : State) : Prop :=
  j.Standing sha s ∧ ∃ p, j.Unbegun sha base s.trail p ∨ j.Underway sha base s.trail p ∨
    (∃ receipt, j.Undone sha base s.trail p receipt) ∨ j.GivenUp sha base s.trail p

/-- What is assumed of a call: a compensation that answers gives a receipt for this very intent; and,
    where `answers` is set, it does answer. -/
def Fair (ports : Ports) (answers : Bool) (label : PortCall) (s : State) : Prop :=
  match label with
  | .adapter (.compensate intent) =>
    (∀ receipt, ports.compensate s.tick intent = .ok receipt →
      receipt.tenantId = intent.tenantId ∧ receipt.operationId = intent.operationId ∧
      receipt.fenceToken = intent.fenceToken ∧ receipt.attempt = intent.attempt) ∧
    (answers = true → ∃ receipt, ports.compensate s.tick intent = .ok receipt)
  | _ => True

section Kept

variable {j : Job} {base : List RemediationFact} {s s' : State} {t : Trail} {p : RemediationProjection}

theorem Job.Standing.aside (h : j.Standing sha s) (ha : j.warrant.Aside sha s s') :
    j.Standing sha s' := ⟨h.ledger.of_same ha.ledger, h.stored.aside ha, ha.quota h.quota⟩

theorem Job.Undoing.aside (h : j.Undoing sha base s) (ha : j.warrant.Aside sha s s') :
    j.Undoing sha base s' := by
  obtain ⟨hstanding, p, hstage⟩ := h
  rw [← ha.trail] at hstage
  exact ⟨hstanding.aside ha, p, hstage⟩

theorem Job.Standing.record (h : j.Standing sha s) {factType : RemediationFactType}
    {commandId : String} {payload : Fields} {fact : RemediationFact} {p' : RemediationProjection}
    (hrecorded : Recorded sha s j.plan.key factType commandId payload fact p')
    (command : String × String) (entry : String × Digest) :
    j.Standing sha (s.record j.plan.key command entry fact p') :=
  ⟨h.ledger.record hrecorded _ _,
    ⟨h.stored.plan, h.stored.approval, h.stored.policy, h.stored.undenied, h.stored.quorum⟩,
    ⟨h.quota.allowed, h.quota.remaining⟩⟩

theorem Job.Standing.setClaim (h : j.Standing sha s) (key : String × String) (c : EffectClaim) :
    j.Standing sha (s.setClaim key c) :=
  ⟨h.ledger.of_same ⟨rfl, rfl, rfl⟩,
    ⟨h.stored.plan, h.stored.approval, h.stored.policy, h.stored.undenied, h.stored.quorum⟩,
    ⟨h.quota.allowed, h.quota.remaining⟩⟩

theorem Job.Standing.asked (h : j.Standing sha s) (call : AdapterCall) :
    j.Standing sha (s.asked call) :=
  ⟨h.ledger.of_same ⟨rfl, rfl, rfl⟩,
    ⟨h.stored.plan, h.stored.approval, h.stored.policy, h.stored.undenied, h.stored.quorum⟩,
    ⟨h.quota.allowed, h.quota.remaining⟩⟩

theorem Job.Underway.setClaim (h : j.Underway sha base s.trail p) (key : String × String)
    (c : EffectClaim) : j.Underway sha base (s.setClaim key c).trail p :=
  ⟨⟨h.projection, h.binds, h.fence, h.status⟩, h.facts, h.intent, h.result⟩

theorem Job.Underway.asked (h : j.Underway sha base s.trail p) (call : AdapterCall) :
    j.Underway sha base (s.asked call).trail p :=
  ⟨⟨h.projection, h.binds, h.fence, h.status⟩, h.facts, h.intent, h.result⟩

end Kept

/-! ## One call -/

section Calls

variable {j : Job} {base : List RemediationFact} {attempt : Nat} {answers : Bool} {s : State}
  {p : RemediationProjection} {α : Type} {R : Except Error α → State → Prop} {actor : Identifier}

/-- The judgment of the calls of a rollback. -/
abbrev Job.Undoes (sha : Sha256) (ports : Ports) (j : Job) (base : List RemediationFact) (answers : Bool)
    {α : Type} (R : Except Error α → State → Prop) (x : Program α) (s : State) : Prop :=
  Along (Fair ports answers) (j.Undoing sha base) R x s

theorem undoing_aside (s s' : State) (ha : j.warrant.Aside sha s s') (h : j.Undoing sha base s) :
    j.Undoing sha base s' := h.aside ha

/-- The request is recorded. -/
theorem undoes_request (hfits : j.Fits sha ports) (hroom : base.length + 2 ≤ maxFacts)
    (hstanding : j.Standing sha s) (h : j.Unbegun sha base s.trail p)
    {f : RemediationProjection → Program α}
    (hf : ∀ s' p', j.Standing sha s' → j.Underway sha base s'.trail p' →
      s'.claims j.operation = none → j.Undoes sha ports base answers R (f p') s') :
    j.Undoes sha ports base answers R (Atomic.appendNow sha ports j.plan j.request.expectedVersion
      .rollbackRequested (j.command ":intent") actor j.rollbackPayload >>= f) s := by
  have hmove : p.status ∉ terminal ∧ RemediationStatus.rollingBack ∈ allowed p.status := by
    have hstatus := h.status
    simp only [List.mem_cons, List.not_mem_nil, or_false] at hstatus
    rcases hstatus with heq | heq | heq <;> rw [heq] <;> decide
  have hadmits : Admits s j.plan p j.request.expectedVersion .rollbackRequested (j.command ":intent")
      j.rollbackPayload :=
    { ledger := hstanding.ledger, projection := h.projection, command := h.intent,
      identifier := hfits.intent
      room := by rw [show s.facts j.plan.key = base from h.facts]; omega
      version := h.version, kind := by decide, move := hmove
      payload := by simp [Job.rollbackPayload, Fields.of] }
  refine along_appendNow undoing_aside hadmits ⟨hstanding, p, .inl h⟩ ?_
  rintro fact p' hrecorded hsuccessor s' rfl
  have hstanding' := (hstanding.aside (.tick s 1)).record hrecorded
    (j.plan.tenantId.val, j.command ":intent") (j.entry sha .rollbackRequested j.rollbackPayload)
  have hgrown : j.Grown base (s.advance 1).trail [] := ⟨[], by rw [List.append_nil]; exact h.facts, rfl⟩
  have hat : j.At sha (s.advance 1).trail p p.status := ⟨h.projection, h.binds, h.fence, rfl⟩
  have hunderway : j.Underway sha base ((s.advance 1).record j.plan.key
      (j.plan.tenantId.val, j.command ":intent") (j.entry sha .rollbackRequested j.rollbackPayload) fact
      p').trail p' :=
    { hat.record hsuccessor _ _ with
      facts := hgrown.record hrecorded _ _
      intent := record_commands_self _ _ _ _ _
      result := (record_commands_ne _ _ _ (intent_ne_result j).symm).trans h.result }
  exact ⟨⟨hstanding', p', .inr (.inl hunderway)⟩, hf _ p' hstanding' hunderway h.unclaimed⟩

/-- What a call that is not interrupted leaves behind: if the compensation answers, the plan is rolled
    back or escalated. -/
def Job.Over (sha : Sha256) (j : Job) (base : List RemediationFact) (answers : Bool)
    (_ : Except Error ActionReceipt) (s : State) : Prop :=
  j.Undoing sha base s ∧ (answers = true →
    ∃ p, (∃ receipt, j.Undone sha base s.trail p receipt) ∨ j.GivenUp sha base s.trail p)

/-- The claim of a rollback underway, held by this attempt. -/
structure Job.Claimed (j : Job) (sha : Sha256) (attempt : Nat) (s : State) (c : EffectClaim) : Prop
    extends j.Holds attempt s c where
  unreceived : c.receipt = none
  binding : c.binding = j.warrant.binding sha j.action j.fence

/-- The claim is granted. -/
theorem undoes_claim (hstanding : j.Standing sha s) (h : j.Underway sha base s.trail p)
    (hunclaimed : s.claims j.operation = none) {intent : ActionIntent}
    (hintends : j.warrant.Intends sha j.action j.fence (j.at attempt) false intent)
    {f : EffectClaimRecord → Program α}
    (hf : ∀ s' c record, j.Standing sha s' → j.Underway sha base s'.trail p →
      j.Claimed sha attempt s' c → record.receipt = none → record.claimToken = c.claimToken →
      j.Undoes sha ports base answers R (f record) s') :
    j.Undoes sha ports base answers R (Atomic.claimIntent sha ports intent actor >>= f) s := by
  have hundoing : j.Undoing sha base s := ⟨hstanding, p, .inr (.inl h)⟩
  have hkey : intent.key = j.operation := hintends.key
  have hnone : (s.advance 1).claims intent.key = none := by rw [hkey]; exact hunclaimed
  refine fun _ => ⟨hundoing.aside (.tick s 1), ?_⟩
  refine Along.atom fun _ => (claim_fresh (lt_claimUntil _ intent.action) hnone).mono ?_
    (fun _ _ h => h.elim)
  rintro record s' ⟨rfl, rfl⟩
  rw [hkey]
  have hstanding' := (hstanding.aside (.tick s 1)).setClaim j.operation
    (newClaim sha intent actor.val ((ports.clock s.tick).addSeconds
      intent.action.retry.attemptTimeoutSeconds))
  have hunderway' : j.Underway sha base ((s.advance 1).setClaim j.operation
      (newClaim sha intent actor.val ((ports.clock s.tick).addSeconds
        intent.action.retry.attemptTimeoutSeconds))).trail p :=
    Job.Underway.setClaim (s := s.advance 1) h _ _
  exact ⟨⟨hstanding', p, .inr (.inl hunderway')⟩, hf _ _ _ hstanding' hunderway'
    ⟨⟨Function.update_self _ _ _, hintends.attempt, hintends.fenceToken⟩, rfl, hintends.binding⟩ rfl rfl⟩

/-- The result is recorded: the success, or the failure. -/
theorem undoes_result (hfits : j.Fits sha ports) (hroom : base.length + 2 ≤ maxFacts)
    (hstanding : j.Standing sha s) (h : j.Underway sha base s.trail p) {receipt : ActionReceipt}
    (hclaim : ∃ c, s.claims j.operation = some c ∧ c.receipt = some receipt ∧
      c.binding = j.warrant.binding sha j.action j.fence)
    {scope : EffectScope} (hscope : scope.plan = j.plan) :
    j.Undoes sha ports base answers (j.Over sha base answers)
      (Atomic.recordRollback sha ports scope (j.at attempt) actor receipt p.version) s := by
  have hlength := h.facts.length
  unfold Atomic.recordRollback
  rw [hscope]
  -- the fact is either of the two
  have hadmits : ∀ factType, factType = .rollbackSucceeded ∨ factType = .rollbackFailed →
      Admits s j.plan p p.version factType (j.command ":result") (resultPayload sha receipt) := by
    intro factType hkind
    refine
      { ledger := hstanding.ledger, projection := h.projection, command := h.result,
        identifier := hfits.result
        room := by
          show (s.trail.facts j.plan.key).length < maxFacts
          rw [List.length_singleton] at hlength
          omega
        version := rfl
        kind := by rcases hkind with rfl | rfl <;> decide
        move := by rw [h.status]; rcases hkind with rfl | rfl <;> decide
        payload := by simp [resultPayload, Fields.of] }
  have hrecords : ∀ (factType : RemediationFactType) fact p',
      Recorded sha (s.advance 1) j.plan.key factType (j.command ":result") (resultPayload sha receipt)
        fact p' → Successor p p' factType →
      let s' := (s.advance 1).record j.plan.key (j.plan.tenantId.val, j.command ":result")
        (j.entry sha factType (resultPayload sha receipt)) fact p'
      j.Standing sha s' ∧ j.At sha s'.trail p' factType.status ∧ j.Grown base s'.trail
        [(.rollbackRequested, j.command ":intent"), (factType, j.command ":result")] := by
    intro factType fact p' hrecorded hsuccessor
    have hgrown : j.Grown base (s.advance 1).trail [(.rollbackRequested, j.command ":intent")] := h.facts
    exact ⟨(hstanding.aside (.tick s 1)).record hrecorded _ _,
      (h.toAt : j.At sha (s.advance 1).trail p _).record hsuccessor _ _, hgrown.record hrecorded _ _⟩
  have hundoing : j.Undoing sha base s := ⟨hstanding, p, .inr (.inl h)⟩
  by_cases hcompensated : receipt.outcome = .compensated
  · rw [if_pos hcompensated]
    refine along_appendNow undoing_aside (hadmits _ (.inl rfl)) hundoing ?_
    rintro fact p' hrecorded hsuccessor s' rfl
    obtain ⟨hstanding', hat, hgrown⟩ := hrecords _ fact p' hrecorded hsuccessor
    have hundone : j.Undone sha base ((s.advance 1).record j.plan.key
        (j.plan.tenantId.val, j.command ":result")
        (j.entry sha .rollbackSucceeded (resultPayload sha receipt)) fact p').trail p' receipt :=
      { hat with
        facts := hgrown
        intent := (record_commands_ne _ _ _ (intent_ne_result j)).trans h.intent
        result := record_commands_self _ _ _ _ _
        claim := hclaim
        compensated := hcompensated }
    have hdone : j.Undoing sha base _ := ⟨hstanding', p', .inr (.inr (.inl ⟨receipt, hundone⟩))⟩
    refine ⟨hdone, ?_⟩
    exact Along.check (fun h => absurd hcompensated h) fun _ =>
      ⟨hdone, fun _ => ⟨p', .inl ⟨receipt, hundone⟩⟩⟩
  · rw [if_neg hcompensated]
    refine along_appendNow undoing_aside (hadmits _ (.inr rfl)) hundoing ?_
    rintro fact p' hrecorded hsuccessor s' rfl
    obtain ⟨hstanding', hat, hgrown⟩ := hrecords _ fact p' hrecorded hsuccessor
    have hgiven : j.GivenUp sha base ((s.advance 1).record j.plan.key
        (j.plan.tenantId.val, j.command ":result")
        (j.entry sha .rollbackFailed (resultPayload sha receipt)) fact p').trail p' :=
      { hat with facts := hgrown }
    have hdone : j.Undoing sha base _ := ⟨hstanding', p', .inr (.inr (.inr hgiven))⟩
    refine ⟨hdone, ?_⟩
    exact Along.check (fun _ => ⟨hdone, fun _ => ⟨p', .inr hgiven⟩⟩) fun h => absurd h hcompensated

/-- The compensation, and the completion of the claim. -/
theorem undoes_compensation (hstanding : j.Standing sha s) (h : j.Underway sha base s.trail p)
    {c : EffectClaim} (hclaimed : j.Claimed sha attempt s c) {intent : ActionIntent}
    (hintends : j.warrant.Intends sha j.action j.fence (j.at attempt) false intent)
    {record : EffectClaimRecord} (hnone : record.receipt = none)
    (htoken : record.claimToken = c.claimToken) {f : ActionReceipt → Program ActionReceipt}
    (hf : ∀ s' receipt, j.Standing sha s' → j.Underway sha base s'.trail p →
      (∃ c, s'.claims j.operation = some c ∧ c.receipt = some receipt ∧
        c.binding = j.warrant.binding sha j.action j.fence) →
      j.Undoes sha ports base answers (j.Over sha base answers) (f receipt) s') :
    j.Undoes sha ports base answers (j.Over sha base answers)
      (Atomic.compensationReceipt sha ports intent record >>= f) s := by
  have hstanding₁ := hstanding.asked (.compensate intent)
  have hunderway₁ := h.asked (.compensate intent)
  have hundoing₁ : j.Undoing sha base (s.asked (.compensate intent)) :=
    ⟨hstanding₁, p, .inr (.inl hunderway₁)⟩
  refine Along.bind (Q := fun r s' => (∃ receipt, r = .ok receipt ∧ j.Standing sha s' ∧
    j.Underway sha base s'.trail p ∧ ∃ c, s'.claims j.operation = some c ∧ c.receipt = some receipt ∧
      c.binding = j.warrant.binding sha j.action j.fence) ∨
    ((∃ e, r = .error e) ∧ ∀ r', j.Over sha base answers r' s')) ?_ ?_ ?_
  · unfold Atomic.compensationReceipt
    rw [hnone]
    refine Along.atom fun hfair => ?_
    obtain ⟨hbound, hanswers⟩ := hfair
    refine sat_callAdapter (fun receipt hreceipt => ?_) (fun e he => ?_)
    · refine ⟨hundoing₁, ?_⟩
      obtain ⟨htenant, hoperation, hfence, hattempt⟩ := hbound receipt hreceipt
      have hkey : (receipt.tenantId.val, receipt.operationId.val) = j.operation := by
        rw [htenant, hoperation]
        exact hintends.key
      have hc : ((s.asked (.compensate intent)).advance 1).claims
          (receipt.tenantId.val, receipt.operationId.val) = some c := by
        rw [hkey]
        exact hclaimed.claim
      refine fun _ => ⟨hundoing₁.aside (.tick _ 1), ?_⟩
      refine Along.atom fun _ => (complete_recorded hc htoken.symm
        (hclaimed.fence.trans (hfence.trans hintends.fenceToken).symm)
        (hclaimed.attempt.trans (hattempt.trans hintends.attempt).symm) hclaimed.unreceived).mono ?_
        (fun _ _ h => h.elim)
      rintro u s' rfl
      rw [hkey]
      have hstanding₂ := (hstanding₁.aside (.tick _ 1)).setClaim j.operation
        { c with receipt := some receipt }
      have hunderway₂ : j.Underway sha base (((s.asked (.compensate intent)).advance 1).setClaim
          j.operation { c with receipt := some receipt }).trail p :=
        Job.Underway.setClaim (s := (s.asked (.compensate intent)).advance 1) hunderway₁ _ _
      exact ⟨⟨hstanding₂, p, .inr (.inl hunderway₂)⟩, .inl ⟨receipt, rfl, hstanding₂, hunderway₂, _,
        Function.update_self _ _ _, rfl, hclaimed.binding⟩⟩
    · refine ⟨hundoing₁, .inr ⟨⟨e, rfl⟩, fun _ => ⟨hundoing₁, fun htrue => ?_⟩⟩⟩
      obtain ⟨receipt, hreceipt⟩ := hanswers htrue
      rw [hreceipt] at he
      cases he
  · rintro e s' (⟨receipt, hreceipt, -⟩ | ⟨-, hover⟩)
    · cases hreceipt
    · exact hover _
  · rintro a s' (⟨receipt, hreceipt, hstanding', hunderway', hclaim⟩ | ⟨⟨e, he⟩, -⟩)
    · rw [Except.ok.inj hreceipt]
      exact hf s' receipt hstanding' hunderway' hclaim
    · cases he

/-- Two actions of a plan with one id are one action. -/
theorem action_unique {actions : List ActionDefinition} (hunique : (actions.map (·.actionId)).Nodup)
    {a b : ActionDefinition} (ha : a ∈ actions) (hb : b ∈ actions)
    (hid : a.actionId.val = b.actionId.val) : a = b := by
  have hfind := find_action hunique ha
  rw [hid, find_action hunique hb] at hfind
  exact (Option.some.inj hfind).symm

/-- **A call on an untouched plan.**  After each of its steps it has left one of the four things behind;
    if the compensation answers, the plan ends rolled back or escalated. -/
theorem undoes_rollback (hfits : j.Fits sha ports) (hroom : base.length + 2 ≤ maxFacts)
    (hcompensable : j.action.compensation.enabled = true) (hmin : 1 ≤ attempt) (hmax : attempt ≤ 16)
    (hstanding : j.Standing sha s) (h : j.Unbegun sha base s.trail p) :
    j.Undoes sha ports base answers (j.Over sha base answers)
      (Atomic.rollback sha ports j.warrant.identity (j.at attempt)) s := by
  have hs : j.Undoing sha base s := ⟨hstanding, p, .inl h⟩
  have hstatus : p.status ∈ rollbackStatuses := 
    List.mem_append_left [RemediationStatus.rolledBack] h.status
  unfold Atomic.rollback
  show j.Undoes sha ports base answers _ (Atomic.validatedScope sha ports j.warrant.identity
    j.request.planId j.request.actionId _ >>= _) s
  rw [hfits.planId, hfits.actionId]
  refine along_validatedScope undoing_aside hfits.current hstanding.stored hstanding.quota h.projection
    h.binds hstatus hfits.action hs fun s₁ haside => ?_
  have h₁ := h
  rw [← haside.trail] at h₁
  have hstanding₁ := hstanding.aside haside
  have hid : (j.at attempt).actionId = j.action.actionId.val := hfits.actionId
  have hrange : (1 : Int) ≤ attempt ∧ (attempt : Int) ≤ 16 := by omega
  unfold Atomic.rollbackScoped
  refine Along.check (fun h => absurd (fun a ha haid => ?_) h) fun _ => ?_
  · rw [action_unique j.warrant.plan.ids_unique ha hfits.action (haid.trans hid)]
    exact hcompensable
  refine along_effectIntent undoing_aside hfits.action hid hfits.operation hrange
    (undoing_aside _ _ haside hs) fun intent hintends => ?_
  rw [h.fence] at hintends
  refine undoes_request hfits hroom (hstanding₁.aside (.tick s₁ 1)) h₁
    fun s₂ p₂ hstanding₂ hunderway₂ hunclaimed₂ => ?_
  refine undoes_claim hstanding₂ hunderway₂ hunclaimed₂ hintends
    fun s₃ c record hstanding₃ hunderway₃ hclaimed₃ hnone htoken => ?_
  refine undoes_compensation hstanding₃ hunderway₃ hclaimed₃ hintends hnone htoken
    fun s₄ receipt hstanding₄ hunderway₄ hclaim₄ => ?_
  exact undoes_result hfits hroom hstanding₄ hunderway₄ hclaim₄ rfl

/-- **A call on a plan that is rolled back** by the same operation is answered from the records. -/
theorem undoes_again (hfits : j.Fits sha ports) (hcompensable : j.action.compensation.enabled = true)
    (hmin : 1 ≤ attempt) (hmax : attempt ≤ 16) (hstanding : j.Standing sha s) {receipt : ActionReceipt}
    (h : j.Undone sha base s.trail p receipt) :
    j.Undoes sha ports base answers
      (fun r s' => r = .ok receipt ∧ j.Undone sha base s'.trail p receipt)
      (Atomic.rollback sha ports j.warrant.identity (j.at attempt)) s := by
  have hundoing : ∀ {s'}, j.Standing sha s' → j.Undone sha base s'.trail p receipt →
      j.Undoing sha base s' := fun hs hu => ⟨hs, p, .inr (.inr (.inl ⟨receipt, hu⟩))⟩
  have hs : j.Undoing sha base s := hundoing hstanding h
  have hstatus : p.status ∈ rollbackStatuses := by rw [h.status]; decide
  unfold Atomic.rollback
  show j.Undoes sha ports base answers _ (Atomic.validatedScope sha ports j.warrant.identity
    j.request.planId j.request.actionId _ >>= _) s
  rw [hfits.planId, hfits.actionId]
  refine along_validatedScope undoing_aside hfits.current hstanding.stored hstanding.quota h.projection
    h.binds hstatus hfits.action hs fun s₁ haside => ?_
  have h₁ := h
  rw [← haside.trail] at h₁
  have hstanding₁ := hstanding.aside haside
  have hid : (j.at attempt).actionId = j.action.actionId.val := hfits.actionId
  have hrange : (1 : Int) ≤ attempt ∧ (attempt : Int) ≤ 16 := by omega
  unfold Atomic.rollbackScoped
  refine Along.check (fun h => absurd (fun a ha haid => ?_) h) fun _ => ?_
  · rw [action_unique j.warrant.plan.ids_unique ha hfits.action (haid.trans hid)]
    exact hcompensable
  refine along_effectIntent undoing_aside hfits.action hid hfits.operation hrange
    (hundoing hstanding₁ h₁) fun intent hintends => ?_
  rw [h.fence] at hintends
  have hstanding₂ := hstanding₁.aside (.tick s₁ 1)
  refine along_appendNow_known (s := s₁.advance 1) undoing_aside h₁.intent h₁.projection
    (hundoing hstanding₂ h₁) ?_
  have hstanding₃ := hstanding₂.aside (.tick _ 1)
  -- the claim has its receipt
  obtain ⟨c, hc, hreceipt, hbinding⟩ := h₁.claim
  have hstanding₄ := hstanding₃.aside (.tick _ 1)
  have hc' : ((((s₁.advance 1).advance 1)).advance 1).claims intent.key = some c := by
    rw [show intent.key = j.operation from hintends.key]
    exact hc
  refine fun _ => ⟨hundoing hstanding₄ h₁, ?_⟩
  refine Along.atom fun _ => (claim_settled (lt_claimUntil _ intent.action) hc'
    (hbinding.trans hintends.binding.symm) hreceipt).mono ?_ (fun _ _ h => h.elim)
  rintro record s' ⟨rfl, rfl⟩
  refine ⟨hundoing hstanding₄ h₁, ?_⟩
  unfold Atomic.compensationReceipt
  rw [show (c.toRecord true).receipt = some receipt from hreceipt]
  show j.Undoes sha ports base answers _ (Atomic.recordRollback sha ports _ _ _ receipt _) _
  unfold Atomic.recordRollback
  rw [if_pos h.compensated]
  refine along_appendNow_known (s := ((s₁.advance 1).advance 1).advance 1) undoing_aside h₁.result
    h₁.projection (hundoing hstanding₄ h₁) ?_
  exact Along.check (fun hne => absurd h.compensated hne) fun _ => ⟨rfl, h₁⟩

end Calls

/-! ## Nothing moves a plan that is rolling back -/

/-- The plan is rolling back. -/
def RollingBack (s : State) (key : String × String) : Prop :=
  ∃ p, s.projections key = some p ∧ p.status = .rollingBack

/-- The scope of an effect, at the key of its plan. -/
theorem InScope.at {s : State} {op : Op} {identity : IdentityContext} {request : EffectRequest}
    {statuses : List RemediationStatus} {scope : EffectScope}
    (hkeyed : ∀ key plan, s.plans key = some plan → plan.key = key)
    (heffect : op.effect = some (identity, request, statuses))
    (h : InScope sha ports s op request scope) :
    scope.plan.key = (identity.tenantId.val, request.planId) ∧
      s.projections scope.plan.key = some scope.projection ∧ scope.projection.status ∈ statuses := by
  obtain ⟨identity', statuses', heffect', hscope⟩ := h
  rw [heffect] at heffect'
  simp only [Option.some.injEq, Prod.mk.injEq] at heffect'
  obtain ⟨rfl, -, rfl⟩ := heffect'
  have hkey := hkeyed _ _ hscope.plan
  exact ⟨hkey, by rw [hkey]; exact hscope.projection, hscope.status⟩

/-- The calls that record what would end a rollback are not admitted while it is underway. -/
theorem records_rollingBack {s t : State} {op : Op} {key : String × String}
    {factType : RemediationFactType} {commandId : String} {payload : Fields}
    (hkeyed : ∀ key plan, s.plans key = some plan → plan.key = key) (h : RollingBack s key)
    (hrecords : Records sha ports s t op key factType commandId payload) :
    factType.status ∉ allowed .rollingBack := by
  obtain ⟨p, hp, hstatus⟩ := h
  -- the scope of an effect that is admitted is not rolling back
  have hscoped : ∀ {identity request statuses scope}, op.effect = some (identity, request, statuses) →
      InScope sha ports s op request scope → scope.plan.key = key →
      RemediationStatus.rollingBack ∈ statuses := by
    intro identity request statuses scope heffect hscope hkey
    obtain ⟨-, hprojection, hin⟩ := hscope.at hkeyed heffect
    rw [hkey, hp] at hprojection
    rw [← hstatus, Option.some.inj hprojection]
    exact hin
  cases hrecords with
  | escalation identity request scope hscope =>
    exact absurd (hscoped rfl hscope rfl) (by decide)
  | rollbackResult identity request scope receipt hscope =>
    exact absurd (hscoped rfl hscope rfl) (by decide)
  | decision identity request approval plan decision hdecided =>
    unfold decisionFact
    split
    · decide
    · split <;> decide
  | executionResult identity request scope receipt factType hscope hfact =>
    exact absurd (hscoped rfl hscope rfl) (by decide)
  | verificationResult identity request effectReceipt freshEvidence scope record hscope =>
    split <;> decide
  | _ => decide

theorem RollingBack.step {s : State} {key : String × String}
    (hkeyed : ∀ key plan, s.plans key = some plan → plan.key = key) (h : RollingBack s key) (op : Op) :
    RollingBack (step sha ports s op).2 key := by
  refine (step_path sha ports s op).invariant (I := fun t => RollingBack t key) ?_ h
  intro t i ht hi
  cases hi
  case record key' factType commandId payload fact p hrecords hrecorded =>
    by_cases hkey : key = key'
    · subst hkey
      obtain ⟨c, hc, hstatus⟩ := ht
      obtain ⟨-, -, -, hallowed⟩ := (reduceRemediation_ok hrecorded.reduced).next c hc
      obtain ⟨actor, time, hbuilt⟩ := hrecorded.built
      obtain ⟨-, -, htype, -⟩ := buildFact_ok hbuilt
      rw [hstatus, htype] at hallowed
      exact absurd hallowed (records_rollingBack hkeyed h hrecords)
    · obtain ⟨c, hc, hstatus⟩ := ht
      exact ⟨c, (Function.update_of_ne hkey _ _).trans hc, hstatus⟩
  all_goals exact ht

/-- Plans stay under their own keys. -/
theorem keyed_step {s : State} (hkeyed : ∀ key plan, s.plans key = some plan → plan.key = key) (op : Op) :
    ∀ key plan, (step sha ports s op).2.plans key = some plan → plan.key = key := by
  refine (step_path sha ports s op).invariant
    (I := fun t => ∀ key plan, t.plans key = some plan → plan.key = key) ?_ hkeyed
  intro t i ht hi
  cases hi
  case plan identity plan commandId hop htenant hsame =>
    intro key plan' hplan'
    have hstored : Function.update t.plans plan.key (some plan) key = some plan' := hplan'
    by_cases hkey : key = plan.key
    · rw [hkey, Function.update_self] at hstored
      rw [hkey, Option.some.inj hstored]
    · rw [Function.update_of_ne hkey] at hstored
      exact ht key plan' hstored
  all_goals exact ht

/-- **A plan that is rolling back, with no call underway, is rolling back forever**, whatever calls are
    made. -/
theorem rolling_back_forever {s : State} {key : String × String}
    (hkeyed : ∀ key plan, s.plans key = some plan → plan.key = key) (h : RollingBack s key)
    (ops : List Op) : RollingBack (run sha ports s ops) key := by
  have hinv := Machine.run_invariant_all
    (I := fun t => (∀ key plan, t.plans key = some plan → plan.key = key) ∧ RollingBack t key)
    (fun t op ht => ⟨@keyed_step sha ports t ht.1 op, ht.2.step ht.1 op⟩) s ⟨hkeyed, h⟩ ops
  exact hinv.2

/-! ## The retry -/

/-- A plan that may be rolled back, with a valid scope, room in its ledger, and nothing known of the
    operation. -/
structure Job.Revertible (sha : Sha256) (j : Job) (s : State) : Prop where
  laws : LedgerLaws sha s
  stored : j.warrant.Stored sha s
  quota : j.warrant.Quota sha s
  projection : ∃ p, s.projections j.plan.key = some p ∧ j.warrant.Binds sha p ∧
    p.fenceToken = j.fence ∧ p.status ∈ [RemediationStatus.failed, .succeeded, .verificationFailed] ∧
    j.request.expectedVersion = p.version
  room : (s.facts j.plan.key).length + 2 ≤ maxFacts
  intent : s.commands (j.plan.tenantId.val, j.command ":intent") = none
  result : s.commands (j.plan.tenantId.val, j.command ":result") = none
  unclaimed : s.claims j.operation = none

/-- The state after the first `n` steps of a call of `rollback`. -/
def Job.interrupted (sha : Sha256) (ports : Ports) (j : Job) (attempt n : Nat) (s : State) : State :=
  (Atomic.rollback sha ports j.warrant.identity (j.at attempt)).crashed n s

/-- The retry is admitted by the scope check and ends the rollback, and the plan is not one that no call
    moves on. -/
structure Job.Retried (sha : Sha256) (ports : Ports) (j : Job) (attempt : Nat) (s : State) : Prop where
  admitted : ∃ scope, (validatedScope sha ports j.warrant.identity j.request.planId j.request.actionId
    rollbackStatuses s).1 = .ok scope
  ends : ∃ p, (rollback sha ports j.warrant.identity (j.at attempt) s).2.projections j.plan.key = some p ∧
    (p.status = .rolledBack ∨ p.status = .escalated)
  moves : RollingBack s j.plan.key → ∃ ops, ¬RollingBack (run sha ports s ops) j.plan.key

section Retry

variable {j : Job} {base : List RemediationFact} {s : State} {p : RemediationProjection}

/-- A plan in another status is not admitted. -/
theorem not_admitted (hcurrent : j.warrant.Current sha ports) (hplanId : j.request.planId = j.plan.planId.val)
    (hp : s.projections j.plan.key = some p) (hstatus : p.status ∉ rollbackStatuses) {attempt : Nat} :
    ¬j.Retried sha ports attempt s := by
  rintro ⟨⟨scope, hadmitted⟩, -, -⟩
  have heffect : (Op.rollback j.warrant.identity j.request).effect =
    some (j.warrant.identity, j.request, rollbackStatuses) := rfl
  have htraced := @validatedScope_traced sha ports s _ _ _ _ heffect
  obtain ⟨-, identity, statuses, heffect, hscope⟩ := htraced.ok (Prod.ext hadmitted rfl)
  simp only [Op.effect, Option.some.injEq, Prod.mk.injEq] at heffect
  obtain ⟨rfl, -, rfl⟩ := heffect
  have hprojection := hscope.projection
  rw [← hcurrent.tenant, hplanId] at hprojection
  have hsame : some p = some scope.projection := hp.symm.trans hprojection
  rw [Option.some.inj hsame] at hstatus
  exact hstatus hscope.status

theorem Job.Undone.retried (hfits : j.Fits sha ports)
    (hcompensable : j.action.compensation.enabled = true) {attempt : Nat} (hmin : 1 ≤ attempt)
    (hmax : attempt ≤ 16) (hstanding : j.Standing sha s) {receipt : ActionReceipt}
    (h : j.Undone sha base s.trail p receipt)
    (hfair : ∀ m ∈ (Atomic.rollback sha ports j.warrant.identity (j.at attempt)).marks s,
      Fair ports true m.label m.before) : j.Retried sha ports attempt s where
  admitted := by
    rw [hfits.planId, hfits.actionId]
    exact ⟨_, validatedScope_ok hfits.current hstanding.stored hstanding.quota h.projection h.binds
      (by rw [h.status]; decide) hfits.action⟩
  ends := by
    have hdone := Along.exec (undoes_again hfits hcompensable hmin hmax hstanding h) hfair
    rw [Atomic.exec_rollback] at hdone
    exact ⟨p, hdone.2.projection, .inl hdone.2.status⟩
  moves := by
    rintro ⟨p', hp', hstatus⟩
    have hsame : some p' = some p := hp'.symm.trans h.projection
    rw [Option.some.inj hsame, h.status] at hstatus
    cases hstatus

theorem Job.Unbegun.retried (hfits : j.Fits sha ports) (hroom : base.length + 2 ≤ maxFacts)
    (hcompensable : j.action.compensation.enabled = true) {attempt : Nat} (hmin : 1 ≤ attempt)
    (hmax : attempt ≤ 16) (hstanding : j.Standing sha s) (h : j.Unbegun sha base s.trail p)
    (hfair : ∀ m ∈ (Atomic.rollback sha ports j.warrant.identity (j.at attempt)).marks s,
      Fair ports true m.label m.before) : j.Retried sha ports attempt s where
  admitted := by
    rw [hfits.planId, hfits.actionId]
    exact ⟨_, validatedScope_ok hfits.current hstanding.stored hstanding.quota h.projection h.binds
      (List.mem_append_left [RemediationStatus.rolledBack] h.status) hfits.action⟩
  ends := by
    have hdone := Along.exec (undoes_rollback hfits hroom hcompensable hmin hmax hstanding h) hfair
    rw [Atomic.exec_rollback] at hdone
    obtain ⟨p', ⟨receipt, hundone⟩ | hgiven⟩ := hdone.2 rfl
    · exact ⟨p', hundone.projection, .inl hundone.status⟩
    · exact ⟨p', hgiven.projection, .inr hgiven.status⟩
  moves := by
    rintro ⟨p', hp', hstatus⟩
    have hsame : some p' = some p := hp'.symm.trans h.projection
    have hnot := h.status
    rw [← Option.some.inj hsame, hstatus] at hnot
    exact absurd hnot (by decide)

/-- **A rollback recovers from an interruption exactly if** the request was not recorded yet, or the
    success was recorded already. -/
theorem rollback_retried_iff (sha : Sha256) (ports : Ports) (j : Job) (hfits : j.Fits sha ports)
    (hcompensable : j.action.compensation.enabled = true) (s : State) (hrevertible : j.Revertible sha s)
    (first second n : Nat) (hattempts : 1 ≤ first ∧ first < second ∧ second ≤ 16)
    (hfirst : ∀ m ∈ (Atomic.rollback sha ports j.warrant.identity (j.at first)).marksUntil n s,
      Fair ports false m.label m.before)
    (hsecond : ∀ m ∈ (Atomic.rollback sha ports j.warrant.identity (j.at second)).marks
      (j.interrupted sha ports first n s), Fair ports true m.label m.before) :
    j.Retried sha ports second (j.interrupted sha ports first n s) ↔
      j.recorded .rollbackRequested ":intent" (j.interrupted sha ports first n s) = 0 ∨
      j.recorded .rollbackSucceeded ":result" (j.interrupted sha ports first n s) = 1 := by
  obtain ⟨p, hp, hbinds, hfence, hstatus, hversion⟩ := hrevertible.projection
  have hstanding : j.Standing sha s := ⟨hrevertible.laws.ledger, hrevertible.stored, hrevertible.quota⟩
  have hunbegun : j.Unbegun sha (s.facts j.plan.key) s.trail p :=
    { projection := hp, binds := hbinds, fence := hfence, status := hstatus, version := hversion,
      facts := rfl, intent := hrevertible.intent, result := hrevertible.result,
      unclaimed := hrevertible.unclaimed }
  have hintent := hrevertible.laws.unknown hrevertible.intent
  have hresult := hrevertible.laws.unknown hrevertible.result
  have hundoing : j.Undoing sha (s.facts j.plan.key) (j.interrupted sha ports first n s) :=
    Along.crashed (undoes_rollback hfits hrevertible.room hcompensable hattempts.1 (by omega) hstanding
      hunbegun) ⟨hstanding, p, .inl hunbegun⟩ n hfirst
  obtain ⟨hstanding', p', hstage⟩ := hundoing
  rcases hstage with h | h | ⟨receipt, h⟩ | h
  · have hnone : j.recorded .rollbackRequested ":intent" (j.interrupted sha ports first n s) = 0 := by
      have hgrown : j.Grown (s.facts j.plan.key) (j.interrupted sha ports first n s).trail [] :=
        ⟨[], by rw [List.append_nil]; exact h.facts, rfl⟩
      rw [hgrown.recorded hintent]
      rfl
    exact ⟨fun _ => .inl hnone, fun _ => h.retried hfits hrevertible.room hcompensable (by omega)
      hattempts.2.2 hstanding' hsecond⟩
  · have hone : j.recorded .rollbackRequested ":intent" (j.interrupted sha ports first n s) = 1 := by
      rw [h.facts.recorded hintent]
      simp
    have hzero : j.recorded .rollbackSucceeded ":result" (j.interrupted sha ports first n s) = 0 := by
      rw [h.facts.recorded hresult]
      simp
    refine ⟨fun hretried => ?_, fun hcondition => ?_⟩
    · exact absurd hretried (not_admitted hfits.current hfits.planId h.projection
        (by rw [h.status]; decide))
    · omega
  · have hone : j.recorded .rollbackSucceeded ":result" (j.interrupted sha ports first n s) = 1 := by
      rw [h.facts.recorded hresult]
      simp
    exact ⟨fun _ => .inr hone, fun _ => h.retried hfits hcompensable (by omega) hattempts.2.2 hstanding'
      hsecond⟩
  · have hone : j.recorded .rollbackRequested ":intent" (j.interrupted sha ports first n s) = 1 := by
      rw [h.facts.recorded hintent]
      simp
    have hzero : j.recorded .rollbackSucceeded ":result" (j.interrupted sha ports first n s) = 0 := by
      rw [h.facts.recorded hresult]
      simp
    refine ⟨fun hretried => ?_, fun hcondition => ?_⟩
    · exact absurd hretried (not_admitted hfits.current hfits.planId h.projection
        (by rw [h.status]; decide))
    · omega

end Retry

/-! ## A worked case

The one action of the plan is executed, and then rolled back under the operation `o3`. -/

instance decidableAnswer {ε α : Type} {r : Except ε α} {P : α → Prop} [DecidablePred P] :
    Decidable (∀ a, r = .ok a → P a) :=
  match r with
  | .ok a => decidable_of_iff (P a) ⟨fun h _ ha => Except.ok.inj ha ▸ h, fun h => h a rfl⟩
  | .error _ => isTrue fun _ ha => by cases ha

instance decidableAnswers {ε α : Type} {r : Except ε α} : Decidable (∃ a, r = .ok a) :=
  match r with
  | .ok a => isTrue ⟨a, rfl⟩
  | .error _ => isFalse fun ⟨_, ha⟩ => by cases ha

instance decidableFair (ports : Ports) (answers : Bool) (s : State) : (label : PortCall) →
    Decidable (Fair ports answers label s)
  | .adapter (.compensate _) => by unfold Fair; infer_instance
  | .adapter (.observe _) | .adapter (.execute _) | .claim _ _ _ _ | .adapter (.dryRun _)
  | .authorize _ | .clock | .read | .putPlan _ | .putApproval _ | .addDecision _ | .append _ _ _ _ _
  | .replacePolicy _ | .reserve _ _ | .complete _ _ => isTrue trivial

/-- The plan is approved, and its action executed. -/
def undoState : State :=
  run .constant (soloPorts 30) (State.start [longPolicy] fun _ => 2)
    (sampleApproval soloPlan "y" ++ [.preflight (sampleIdentity "x") (sampleRequest "a" "o1" 4),
      .execute (sampleIdentity "x") (sampleRequest "a" "o2" 6)])

/-- The rollback of the action. -/
def undoJob : Job where
  warrant := soloWarrant
  action := soloAction
  request := sampleRequest "a" "o3" 9
  fence := fenceOf .constant soloPlan

theorem undo_fits : undoJob.Fits .constant (soloPorts 30) :=
  ⟨solo_current, List.mem_cons_self, rfl, rfl, by decide, by decide⟩

/-- What the stores hold of the warrant, looked up once. -/
theorem undo_records :
    undoState.plans soloPlan.key = some soloPlan ∧
    undoState.approvals ("t", soloApproval.approvalId.val) = some soloApproval ∧
    undoState.policies "t" = some longPolicy ∧
    (∀ item ∈ soloWarrant.decisions undoState, item.disposition ≠ .deny) ∧
    soloApproval.requirement.quorum ≤ (approvers (exactDecision .constant (soloWarrant.scope
      ((soloState.projections ("t", "p")).get solo_projection)))
      (soloWarrant.decisions undoState)).length := by
  decide +kernel

/-- What the stores hold of the operation, looked up once. -/
theorem undo_operation :
    (∃ p, undoState.projections ("t", "p") = some p ∧
      (p.approvalId = some soloApproval.approvalId.val ∧
        p.approvalDigest = some (soloApproval.digest .constant).val) ∧
      p.fenceToken = fenceOf .constant soloPlan ∧
      p.status ∈ [RemediationStatus.failed, .succeeded, .verificationFailed] ∧ 9 = (p.version : Int)) ∧
    (undoState.facts ("t", "p")).length + 2 ≤ maxFacts ∧
    undoState.commands ("t", "o3:intent") = none ∧ undoState.commands ("t", "o3:result") = none ∧
    (undoState.claims ("t", "o3")).isNone = true ∧
    (∀ action ∈ soloPlan.actions, ∀ decision,
      undoState.reservations (soloWarrant.reservation .constant action) = some decision →
        decision.allowed = true) ∧
    (soloPlan.actions.countP (soloWarrant.unreserved .constant undoState) : Int) ≤
      undoState.remaining "t" := by
  decide +kernel

theorem undo_revertible : undoJob.Revertible .constant undoState := by
  obtain ⟨⟨p, hp, hbinds, hrest⟩, hroom, hintent, hresult, hclaims, hallowed, hremaining⟩ :=
    undo_operation
  obtain ⟨hplan, happroval, hpolicy, hundenied, hquorum⟩ := undo_records
  exact
    { laws := ledgerLaws_services _ _ _
      stored := ⟨hplan, happroval, hpolicy, hundenied, fun _ => hquorum⟩
      quota := ⟨hallowed, hremaining⟩, projection := ⟨p, hp, ⟨hbinds.1, hbinds.2⟩, hrest⟩
      room := hroom, intent := hintent, result := hresult
      unclaimed := Option.isNone_iff_eq_none.mp hclaims }

/-- The worked case: the first call is interrupted right after the success is recorded, and the retry
    returns. -/
theorem rollback_retried_sample :
    undoJob.Retried .constant (soloPorts 30) 2
      (undoJob.interrupted .constant (soloPorts 30) 1 22 undoState) :=
  (rollback_retried_iff .constant (soloPorts 30) undoJob undo_fits rfl undoState undo_revertible 1 2 22
    (by decide) (by decide +kernel) (by decide +kernel)).mpr (.inr (by decide +kernel))

/-- **What the code allows.**  The first call stops right after its request is recorded.  The retry is not
    admitted, and no calls move the plan on. -/
theorem rollback_stranded :
    ¬undoJob.Retried .constant (soloPorts 30) 2
      (undoJob.interrupted .constant (soloPorts 30) 1 15 undoState) ∧
    ∀ ops, RollingBack (run .constant (soloPorts 30)
      (undoJob.interrupted .constant (soloPorts 30) 1 15 undoState) ops) ("t", "p") := by
  have hstatus : ∃ p, (undoJob.interrupted .constant (soloPorts 30) 1 15 undoState).projections
      ("t", "p") = some p ∧ p.status = .rollingBack := by decide +kernel
  obtain ⟨p, hp, hrolling⟩ := hstatus
  refine ⟨not_admitted solo_current rfl hp (by rw [hrolling]; decide), fun ops => ?_⟩
  have hplans : (undoJob.interrupted .constant (soloPorts 30) 1 15 undoState).plans =
      undoState.plans := rfl
  refine rolling_back_forever (fun key plan hplan => ?_) ⟨p, hp, hrolling⟩ ops
  rw [hplans] at hplan
  exact (plans_proposed _ _ _ key plan hplan).1

end Remediation

end Aegis
