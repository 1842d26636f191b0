/-
  EXECUTION AFTER CRASHES.

  A call of `execute` makes five kinds of writes: the request in the ledger, the claim, the start in the
  ledger, the effect at the provider, the receipt in the claim, the result in the ledger.  It may stop
  after any of them, and be called again with a later attempt, any number of times.

  What a stopped call leaves behind is one of four things, whatever the number of calls before it:
    * UNTOUCHED -- not even the request is recorded;
    * OPEN      -- the request is recorded, there is no receipt; the effect may or may not be there;
    * SETTLED   -- the claim has its receipt, the effect is there, the result is not recorded;
    * CLOSED    -- the result is recorded as well.
  `Recovering` is the disjunction, and it is the crash invariant of every call (`along_execute`).  A call
  that goes through ends in CLOSED; the ledger has then one request, some starts, and one result.
-/
import Mathlib
import Aegis.Remediation.Progress
import Aegis.Remediation.Quorum

namespace Aegis

namespace Remediation

open Steps (Along)
open Atomic (PortCall Program)

variable {sha : Sha256} {ports : Ports}

/-! ## Claims that are granted -/

section Claims

variable {s : State} {intent : ActionIntent} {workerRef : String} {now claimUntil : Datetime}

theorem claim_fresh (hlater : now < claimUntil) (hnone : s.claims intent.key = none) :
    Exec.Sat (claimEffect sha intent workerRef now claimUntil) s
      (fun record s' => record = (newClaim sha intent workerRef claimUntil).toRecord false ∧
        s' = s.setClaim intent.key (newClaim sha intent workerRef claimUntil)) (fun _ _ => False) := by
  unfold claimEffect
  refine Exec.Sat.check (fun h => h hlater) fun _ => ?_
  rw [Exec.sat_bind, Exec.sat_read]
  dsimp only
  have hnone' : s.claims (intent.tenantId.val, intent.operationId.val) = none := hnone
  rw [hnone']
  exact ⟨rfl, rfl⟩

theorem claim_renewed (hlater : now < claimUntil) {c : EffectClaim}
    (hc : s.claims intent.key = some c) (hbinding : c.binding = intent.binding sha)
    (hopen : c.receipt = none) (hexpired : c.claimUntil ≤ now) (hattempt : c.attempt < intent.attempt) :
    Exec.Sat (claimEffect sha intent workerRef now claimUntil) s
      (fun record s' => record = (c.renew sha intent workerRef claimUntil).toRecord true ∧
        s' = s.setClaim intent.key (c.renew sha intent workerRef claimUntil)) (fun _ _ => False) := by
  unfold claimEffect
  refine Exec.Sat.check (fun h => h hlater) fun _ => ?_
  rw [Exec.sat_bind, Exec.sat_read]
  dsimp only
  have hc' : s.claims (intent.tenantId.val, intent.operationId.val) = some c := hc
  rw [hc']
  refine Exec.Sat.check (fun h => h hbinding) fun _ => ?_
  refine Exec.Sat.check (fun h => h fun hactive => ?_) fun _ => ?_
  · exact absurd hactive.2.1 (Int.not_lt.mpr hexpired)
  · rw [if_pos ⟨Option.isNone_iff_eq_none.mpr hopen, hexpired⟩]
    exact Exec.Sat.check (fun h => h hattempt) fun _ => ⟨rfl, rfl⟩

theorem claim_settled (hlater : now < claimUntil) {c : EffectClaim}
    (hc : s.claims intent.key = some c) (hbinding : c.binding = intent.binding sha)
    {receipt : ActionReceipt} (hsettled : c.receipt = some receipt) :
    Exec.Sat (claimEffect sha intent workerRef now claimUntil) s
      (fun record s' => record = c.toRecord true ∧ s' = s) (fun _ _ => False) := by
  unfold claimEffect
  refine Exec.Sat.check (fun h => h hlater) fun _ => ?_
  rw [Exec.sat_bind, Exec.sat_read]
  dsimp only
  have hc' : s.claims (intent.tenantId.val, intent.operationId.val) = some c := hc
  have hsome : ¬c.receipt.isNone = true := by
    rw [hsettled]
    exact Bool.false_ne_true
  rw [hc']
  refine Exec.Sat.check (fun h => h hbinding) fun _ => ?_
  refine Exec.Sat.check (fun h => h fun hactive => hsome hactive.1) fun _ => ?_
  rw [if_neg fun hexpired => hsome hexpired.1]
  exact ⟨rfl, rfl⟩

theorem complete_recorded {receipt : ActionReceipt} {claimToken : Identifier} {c : EffectClaim}
    (hc : s.claims (receipt.tenantId.val, receipt.operationId.val) = some c)
    (htoken : c.claimToken = claimToken) (hfence : c.fenceToken = receipt.fenceToken)
    (hattempt : c.attempt = receipt.attempt) (hopen : c.receipt = none) :
    Exec.Sat (completeEffect sha receipt claimToken) s
      (fun _ s' => s' = s.setClaim (receipt.tenantId.val, receipt.operationId.val)
        { c with receipt := some receipt }) (fun _ _ => False) := by
  unfold completeEffect
  rw [Exec.sat_bind, Exec.sat_read]
  dsimp only
  rw [hc]
  refine Exec.Sat.check (fun h => h ⟨htoken, hfence, hattempt⟩) fun _ => ?_
  rw [hopen]
  rfl

end Claims

/-! ## The job -/

/-- An execution to be carried out: the action of a plan, under one operation, called with one request
    whose attempt grows. -/
structure Job where
  warrant : Warrant
  action : ActionDefinition
  request : EffectRequest
  fence : Identifier

def Job.at (j : Job) (attempt : Nat) : EffectRequest := { j.request with attempt }

def Job.plan (j : Job) : RemediationPlan := j.warrant.plan

/-- The key of the claim of the operation. -/
def Job.operation (j : Job) : String × String := (j.plan.tenantId.val, j.request.operationId)

/-- `f"{operation_id}:intent"` and `f"{operation_id}:result"`. -/
def Job.command (j : Job) (suffix : String) : String := j.request.operationId ++ suffix

/-- `f"{operation_id}:started:{attempt}"`. -/
def Job.startCommand (j : Job) (attempt : Nat) : String :=
  j.request.operationId ++ ":started:" ++ (attempt : Int).repr

/-- The payload of the request. -/
def Job.intentPayload (j : Job) : Fields :=
  Fields.of [("action_id", .str j.request.actionId),
    ("idempotency_key", .str j.action.idempotencyKey.val), ("fence_token", .str j.fence.val)]

/-- The payload of the result. -/
def resultPayload (sha : Sha256) (receipt : ActionReceipt) : Fields :=
  Fields.of [("effect_receipt_digest", .str (receipt.digest sha).val),
    ("detail_code", .str receipt.detailCode.val)]

/-- What the command index keeps of a fact of the plan. -/
def Job.entry (sha : Sha256) (j : Job) (factType : RemediationFactType) (payload : Fields) :
    String × Digest := (j.plan.planId.val, commandFingerprint sha factType payload)

/-- The call asks the provider for the effect of the operation. -/
def AdapterCall.applies (operation : String × String) : AdapterCall → Bool
  | .execute intent => intent.key = operation
  | _ => false

/-- How often the effect of an operation was applied. -/
def effectCount (operation : String × String) (calls : List AdapterCall) : Nat :=
  calls.countP (AdapterCall.applies operation)

/-- What is assumed of a call: the provider observes the effect exactly when it is there, and the
    preconditions as long as it is not; what it executes succeeds, with a receipt for this very intent;
    and an open claim has run out when it is claimed again. -/
def Honest (ports : Ports) (label : PortCall) (s : State) : Prop :=
  match label with
  | .adapter (.observe intent) => ∃ observed, ports.observe s.tick intent = .ok observed ∧
      (observed.state = .applied ↔ 0 < effectCount intent.key s.calls) ∧
      (effectCount intent.key s.calls = 0 → (observed.state = .before ∨ observed.state = .notApplied) ∧
        ∀ condition ∈ intent.action.preconditions, conditionMatches condition observed.facts = true)
  | .adapter (.execute intent) => ∃ receipt, ports.execute s.tick intent = .ok receipt ∧
      receipt.outcome = .succeeded ∧ receipt.tenantId = intent.tenantId ∧
      receipt.operationId = intent.operationId ∧ receipt.fenceToken = intent.fenceToken ∧
      receipt.attempt = intent.attempt
  | .claim intent _ now _ =>
    ∀ c, s.claims intent.key = some c → c.receipt = none → c.claimUntil ≤ now
  | _ => True

/-- The request fits the warrant. -/
structure Job.Fits (sha : Sha256) (ports : Ports) (j : Job) : Prop where
  current : j.warrant.Current sha ports
  action : j.action ∈ j.plan.actions
  planId : j.request.planId = j.plan.planId.val
  actionId : j.request.actionId = j.action.actionId.val
  operation : isIdentifier j.request.operationId = true
  short : j.request.operationId.toList.length ≤ 117

/-! ## The commands of the operation -/

section Commands

variable {j : Job}

/-- A short operation id leaves room for a suffix. -/
theorem isIdentifier_suffix {operationId suffix : String} (h : isIdentifier operationId = true)
    (hshort : operationId.toList.length ≤ 117) (hlength : suffix.toList.length ≤ 11)
    (hsuffix : suffix.toList.all identifierChar = true) : isIdentifier (operationId ++ suffix) = true := by
  simp only [isIdentifier, isReference, String.toList_append, List.length_append, List.all_append,
    Bool.and_eq_true, decide_eq_true_eq] at h ⊢
  exact ⟨⟨by omega, by omega⟩, h.2, hsuffix⟩

theorem Job.Fits.intent (h : j.Fits sha ports) : isIdentifier (j.command ":intent") = true :=
  isIdentifier_suffix h.operation h.short (by decide) (by decide)

theorem Job.Fits.result (h : j.Fits sha ports) : isIdentifier (j.command ":result") = true :=
  isIdentifier_suffix h.operation h.short (by decide) (by decide)

theorem Job.Fits.started (h : j.Fits sha ports) {attempt : Nat} (hattempt : attempt ≤ 16) :
    isIdentifier (j.startCommand attempt) = true := by
  unfold Job.startCommand
  rw [String.append_assoc]
  have hsuffix : (":started:" ++ (attempt : Int).repr).toList.length ≤ 11 ∧
      (":started:" ++ (attempt : Int).repr).toList.all identifierChar = true := by
    interval_cases attempt <;> decide
  exact isIdentifier_suffix h.operation h.short hsuffix.1 hsuffix.2

theorem startCommand_injective (j : Job) {a b : Nat} (h : j.startCommand a = j.startCommand b) :
    a = b := by
  have hlist := congrArg String.toList h
  unfold Job.startCommand at hlist
  simp only [String.toList_append] at hlist
  exact Int.ofNat.inj (Int.repr_injective (String.toList_inj.mp (List.append_cancel_left hlist)))

/-- The second character of a suffix tells the commands apart. -/
theorem startCommand_ne (j : Job) (attempt : Nat) {suffix : String}
    (h : suffix.toList[1]? ≠ some 's') : j.startCommand attempt ≠ j.command suffix := by
  intro heq
  have hlist := congrArg String.toList heq
  unfold Job.startCommand Job.command at hlist
  rw [String.append_assoc] at hlist
  simp only [String.toList_append] at hlist
  have hsuffix := List.append_cancel_left hlist
  rw [← hsuffix] at h
  exact h rfl

theorem intent_ne_result (j : Job) : j.command ":intent" ≠ j.command ":result" :=
  fun h => result_ne_intent j.request.operationId h.symm

end Commands

/-! ## What a stopped call leaves behind -/

/-- What a fact says of the operation. -/
def RemediationFact.mark (fact : RemediationFact) : RemediationFactType × String :=
  (fact.factType, fact.commandId.val)

/-- What the calls of a job leave in the stores: the ledger, the claims, the calls of the adapter. -/
structure Trail where
  facts : String × String → List RemediationFact
  commands : String × String → Option (String × Digest)
  projections : String × String → Option RemediationProjection
  claims : String × String → Option EffectClaim
  calls : List AdapterCall

def State.trail (s : State) : Trail := ⟨s.facts, s.commands, s.projections, s.claims, s.calls⟩

theorem Warrant.Aside.trail {w : Warrant} {s s' : State} (h : w.Aside sha s s') :
    s'.trail = s.trail := by
  unfold State.trail
  rw [h.ledger.facts, h.ledger.commands, h.ledger.projections, h.claims, h.calls]

/-- The request and the starts. -/
def Job.begunMarks (j : Job) (starts : List Nat) : List (RemediationFactType × String) :=
  (.executionRequested, j.command ":intent") ::
    starts.map fun attempt => (.executionStarted, j.startCommand attempt)

/-- The ledger of the plan holds the facts it held before, and facts with these marks. -/
def Job.Grown (j : Job) (base : List RemediationFact) (t : Trail)
    (marks : List (RemediationFactType × String)) : Prop :=
  ∃ new, t.facts j.plan.key = base ++ new ∧ new.map RemediationFact.mark = marks

/-- The receipt says that the effect is there. -/
def ActionReceipt.Good (receipt : ActionReceipt) : Prop :=
  receipt.outcome = .succeeded ∨ receipt.outcome = .duplicate

variable (sha) in
/-- The projection of the plan, at a status. -/
structure Job.At (j : Job) (t : Trail) (p : RemediationProjection) (status : RemediationStatus) :
    Prop where
  projection : t.projections j.plan.key = some p
  binds : j.warrant.Binds sha p
  fence : p.fenceToken = j.fence
  status : p.status = status

variable (sha) in
/-- The request is recorded, and there is no receipt. -/
structure Job.Open (j : Job) (base : List RemediationFact) (starts : List Nat) (attempt : Nat)
    (t : Trail) (p : RemediationProjection) : Prop extends j.At sha t p .executing where
  facts : j.Grown base t (j.begunMarks starts)
  intent : t.commands (j.plan.tenantId.val, j.command ":intent") =
    some (j.entry sha .executionRequested j.intentPayload)
  result : t.commands (j.plan.tenantId.val, j.command ":result") = none
  claim : ∀ c, t.claims j.operation = some c → c.receipt = none ∧ c.attempt ≤ attempt ∧
    c.binding = j.warrant.binding sha j.action j.fence
  applied : effectCount j.operation t.calls ≤ 1

variable (sha) in
/-- The claim has its receipt. -/
structure Job.Received (j : Job) (t : Trail) (receipt : ActionReceipt) : Prop where
  intent : t.commands (j.plan.tenantId.val, j.command ":intent") =
    some (j.entry sha .executionRequested j.intentPayload)
  claim : ∃ c, t.claims j.operation = some c ∧ c.receipt = some receipt ∧
    c.binding = j.warrant.binding sha j.action j.fence
  good : receipt.Good
  applied : effectCount j.operation t.calls = 1

variable (sha) in
/-- The claim has its receipt, the result is not recorded. -/
structure Job.Settled (j : Job) (base : List RemediationFact) (starts : List Nat)
    (t : Trail) (p : RemediationProjection) (receipt : ActionReceipt) : Prop
    extends j.At sha t p .executing, j.Received sha t receipt where
  facts : j.Grown base t (j.begunMarks starts)
  result : t.commands (j.plan.tenantId.val, j.command ":result") = none

variable (sha) in
/-- The result is recorded. -/
structure Job.Closed (j : Job) (base : List RemediationFact) (starts : List Nat)
    (t : Trail) (p : RemediationProjection) (receipt : ActionReceipt) : Prop
    extends j.At sha t p .succeeded, j.Received sha t receipt where
  facts : j.Grown base t
    (j.begunMarks starts ++ [(.executionSucceeded, j.command ":result")])
  result : t.commands (j.plan.tenantId.val, j.command ":result") =
    some (j.entry sha .executionSucceeded (resultPayload sha receipt))

variable (sha) in
/-- Not even the request is recorded. -/
structure Job.Untouched (j : Job) (base : List RemediationFact) (t : Trail)
    (p : RemediationProjection) : Prop extends j.At sha t p .preflight where
  version : j.request.expectedVersion = p.version
  facts : t.facts j.plan.key = base
  intent : t.commands (j.plan.tenantId.val, j.command ":intent") = none
  result : t.commands (j.plan.tenantId.val, j.command ":result") = none
  unclaimed : t.claims j.operation = none
  unapplied : effectCount j.operation t.calls = 0

variable (sha) in
/-- The request is recorded: there are three things a stopped call may leave behind then. -/
inductive Job.Begun (j : Job) (base : List RemediationFact) (starts : List Nat) (attempt : Nat)
    (t : Trail) (p : RemediationProjection) : Prop
  | opened (h : j.Open sha base starts attempt t p)
  | settled (receipt : ActionReceipt) (h : j.Settled sha base starts t p receipt)
  | closed (receipt : ActionReceipt) (h : j.Closed sha base starts t p receipt)

variable (sha) in
/-- What every stop leaves alone: the ledger is in order, the warrant is stored, there is quota, and no
    start beyond the last attempt is known. -/
structure Job.Ground (j : Job) (starts : List Nat) (attempt : Nat) (s : State) : Prop where
  ledger : LedgerOk s
  stored : j.warrant.Stored sha s
  quota : j.warrant.Quota sha s
  starts : starts.length ≤ attempt
  unstarted : ∀ k, attempt < k → k ≤ 16 → s.commands (j.plan.tenantId.val, j.startCommand k) = none

variable (sha) in
/-- **The crash invariant**, after attempts up to `attempt`. -/
def Job.Recovering (j : Job) (base : List RemediationFact) (attempt : Nat) (s : State) : Prop :=
  ∃ starts p, j.Ground sha starts attempt s ∧
    (j.Untouched sha base s.trail p ∨ j.Begun sha base starts attempt s.trail p)

/-! ## The invariant is kept -/

section Kept

variable {j : Job} {base : List RemediationFact} {starts : List Nat} {attempt attempt' : Nat}
  {s s' : State} {t : Trail} {p : RemediationProjection}

theorem Job.Ground.aside (h : j.Ground sha starts attempt s) (ha : j.warrant.Aside sha s s') :
    j.Ground sha starts attempt s' where
  ledger := h.ledger.of_same ha.ledger
  stored := h.stored.aside ha
  quota := ha.quota h.quota
  starts := h.starts
  unstarted k hk hmax := by
    rw [ha.ledger.commands]
    exact h.unstarted k hk hmax

theorem Job.Recovering.aside (h : j.Recovering sha base attempt s) (ha : j.warrant.Aside sha s s') :
    j.Recovering sha base attempt s' := by
  obtain ⟨starts, p, hground, hstage⟩ := h
  rw [← ha.trail] at hstage
  exact ⟨starts, p, hground.aside ha, hstage⟩

theorem Job.Ground.mono (h : j.Ground sha starts attempt s) (hle : attempt ≤ attempt') :
    j.Ground sha starts attempt' s :=
  { h with starts := h.starts.trans hle, unstarted := fun k hk hmax => h.unstarted k (by omega) hmax }

theorem Job.Begun.mono (h : j.Begun sha base starts attempt t p) (hle : attempt ≤ attempt') :
    j.Begun sha base starts attempt' t p := by
  cases h with
  | opened h =>
    refine .opened { h with claim := fun c hc => ?_ }
    obtain ⟨hreceipt, hattempt, hbinding⟩ := h.claim c hc
    exact ⟨hreceipt, hattempt.trans hle, hbinding⟩
  | settled receipt h => exact .settled receipt h
  | closed receipt h => exact .closed receipt h

theorem Job.Recovering.mono (h : j.Recovering sha base attempt s) (hle : attempt ≤ attempt') :
    j.Recovering sha base attempt' s := by
  obtain ⟨starts, p, hground, hstage⟩ := h
  exact ⟨starts, p, hground.mono hle, hstage.imp id fun hbegun => hbegun.mono hle⟩

/-- The projection a begun job is at. -/
theorem Job.Begun.at (h : j.Begun sha base starts attempt t p) :
    ∃ status ∈ [RemediationStatus.executing, .succeeded], j.At sha t p status := by
  cases h with
  | opened h => exact ⟨_, List.mem_cons_self, h.toAt⟩
  | settled receipt h => exact ⟨_, List.mem_cons_self, h.toAt⟩
  | closed receipt h => exact ⟨_, List.mem_cons_of_mem _ List.mem_cons_self, h.toAt⟩

theorem Job.Begun.intent (h : j.Begun sha base starts attempt t p) :
    t.commands (j.plan.tenantId.val, j.command ":intent") =
      some (j.entry sha .executionRequested j.intentPayload) := by
  cases h with
  | opened h => exact h.intent
  | settled receipt h => exact h.intent
  | closed receipt h => exact h.intent

/-- A recorded fact that is no start beyond the last attempt. -/
theorem Job.Ground.record (h : j.Ground sha starts attempt s) {factType : RemediationFactType}
    {commandId : String} {payload : Fields} {fact : RemediationFact} {p' : RemediationProjection}
    (hrecorded : Recorded sha s j.plan.key factType commandId payload fact p')
    (entry : String × Digest) {starts' : List Nat} (hstarts : starts'.length ≤ attempt')
    (hle : attempt ≤ attempt') (hcommand : ∀ k, attempt' < k → j.startCommand k ≠ commandId) :
    j.Ground sha starts' attempt'
      (s.record j.plan.key (j.plan.tenantId.val, commandId) entry fact p') where
  ledger := h.ledger.record hrecorded _ _
  stored := ⟨h.stored.plan, h.stored.approval, h.stored.policy, h.stored.undenied, h.stored.quorum⟩
  quota := ⟨h.quota.allowed, h.quota.remaining⟩
  starts := hstarts
  unstarted k hk hmax := by
    show Function.update s.commands (j.plan.tenantId.val, commandId) (some entry)
      (j.plan.tenantId.val, j.startCommand k) = none
    rw [Function.update_of_ne fun heq => hcommand k hk (Prod.mk.inj heq).2]
    exact h.unstarted k (by omega) hmax

/-- The ledger of a job grows by the fact that is recorded. -/
theorem Job.Grown.record {marks : List (RemediationFactType × String)} (h : j.Grown base s.trail marks)
    {factType : RemediationFactType} {commandId : String} {payload : Fields} {fact : RemediationFact}
    {p' : RemediationProjection}
    (hrecorded : Recorded sha s j.plan.key factType commandId payload fact p')
    (command : String × String) (entry : String × Digest) :
    j.Grown base (s.record j.plan.key command entry fact p').trail
      (marks ++ [(factType, commandId)]) := by
  obtain ⟨new, hfacts, hmarks⟩ := h
  obtain ⟨actor, time, hbuilt⟩ := hrecorded.built
  obtain ⟨-, -, htype, -, hcommand, -⟩ := buildFact_ok hbuilt
  refine ⟨new ++ [fact], ?_, ?_⟩
  · show Function.update s.facts j.plan.key (s.facts j.plan.key ++ [fact]) j.plan.key = _
    rw [Function.update_self, show s.facts j.plan.key = base ++ new from hfacts, List.append_assoc]
  · rw [List.map_append, hmarks, List.map_singleton, RemediationFact.mark, htype, hcommand]

/-- The projection after a recorded fact. -/
theorem Job.At.record {status : RemediationStatus} (h : j.At sha s.trail p status)
    {factType : RemediationFactType} {fact : RemediationFact} {p' : RemediationProjection}
    (hsuccessor : Successor p p' factType) (command : String × String) (entry : String × Digest) :
    j.At sha (s.record j.plan.key command entry fact p').trail p' factType.status where
  projection := Function.update_self _ _ _
  binds := hsuccessor.binds h.binds
  fence := hsuccessor.fence.trans h.fence
  status := hsuccessor.status

/-- A command that is recorded. -/
theorem record_commands_self (key command : String × String) (entry : String × Digest)
    (fact : RemediationFact) (p' : RemediationProjection) :
    (s.record key command entry fact p').trail.commands command = some entry :=
  Function.update_self _ _ _

/-- A command that is not recorded. -/
theorem record_commands_ne {key : String × String} {tenantId commandId other : String}
    (entry : String × Digest) (fact : RemediationFact) (p' : RemediationProjection)
    (hne : other ≠ commandId) :
    (s.record key (tenantId, commandId) entry fact p').trail.commands (tenantId, other) =
      s.trail.commands (tenantId, other) :=
  Function.update_of_ne (fun heq => hne (Prod.mk.inj heq).2) _ _

end Kept

/-! ## The request -/

section Calls

variable {j : Job} {base : List RemediationFact} {starts : List Nat} {attempt last : Nat}
  {s : State} {p : RemediationProjection} {α : Type} {R : Except Error α → State → Prop}
  {actor : Identifier}

/-- The judgment of the calls of one attempt. -/
abbrev Job.Goes (sha : Sha256) (ports : Ports) (j : Job) (base : List RemediationFact) (attempt : Nat)
    {α : Type} (R : Except Error α → State → Prop) (x : Program α) (s : State) : Prop :=
  Along (Honest ports) (j.Recovering sha base attempt) R x s

/-- The request is recorded, or was recorded before. -/
theorem goes_request (hfits : j.Fits sha ports) (hroom : base.length + attempt + 2 ≤ maxFacts)
    (hle : last ≤ attempt) (hground : j.Ground sha starts last s)
    (hstage : j.Untouched sha base s.trail p ∨ j.Begun sha base starts last s.trail p)
    {f : RemediationProjection → Program α}
    (hf : ∀ s' starts' p', j.Ground sha starts' last s' → j.Begun sha base starts' last s'.trail p' →
      j.Goes sha ports base attempt R (f p') s') :
    j.Goes sha ports base attempt R (Atomic.appendNow sha ports j.plan j.request.expectedVersion
      .executionRequested (j.command ":intent") actor j.intentPayload >>= f) s := by
  have hrecovering : j.Recovering sha base attempt s :=
    Job.Recovering.mono ⟨starts, p, hground, hstage⟩ hle
  have hI : ∀ s s', j.warrant.Aside sha s s' → j.Recovering sha base attempt s →
      j.Recovering sha base attempt s' := fun _ _ ha h => h.aside ha
  rcases hstage with h | h
  · have hadmits : Admits s j.plan p j.request.expectedVersion .executionRequested
        (j.command ":intent") j.intentPayload :=
      { ledger := hground.ledger, projection := h.projection, command := h.intent,
        identifier := hfits.intent,
        room := by rw [show s.facts j.plan.key = base from h.facts]; omega
        version := h.version, kind := by decide,
        move := by rw [h.status]; decide
        payload := by simp [Job.intentPayload, Fields.of] }
    refine along_appendNow hI hadmits hrecovering ?_
    rintro fact p' hrecorded hsuccessor s' rfl
    have hnone : ([] : List Nat).length ≤ last := Nat.zero_le last
    have hground' := (hground.aside (.tick s 1)).record hrecorded
      (j.entry sha .executionRequested j.intentPayload) hnone le_rfl
      fun k _ => startCommand_ne j k (by decide)
    have hgrown : j.Grown base (s.advance 1).trail [] := ⟨[], by rw [List.append_nil]; exact h.facts, rfl⟩
    have hopen : j.Open sha base [] last ((s.advance 1).record j.plan.key
        (j.plan.tenantId.val, j.command ":intent") (j.entry sha .executionRequested j.intentPayload)
        fact p').trail p' :=
      { (h.toAt : j.At sha (s.advance 1).trail p _).record hsuccessor _ _ with
        facts := hgrown.record hrecorded _ _
        intent := record_commands_self _ _ _ _ _
        result := (record_commands_ne _ _ _ (intent_ne_result j).symm).trans h.result
        claim := fun c hc => by
          have hnone : s.claims j.operation = none := h.unclaimed
          rw [show s.claims j.operation = some c from hc] at hnone
          cases hnone
        applied := by
          show effectCount j.operation s.calls ≤ 1
          rw [show effectCount j.operation s.calls = 0 from h.unapplied]
          exact Nat.zero_le 1 }
    exact ⟨Job.Recovering.mono ⟨[], p', hground', .inr (.opened hopen)⟩ hle,
      hf _ [] p' hground' (.opened hopen)⟩
  · obtain ⟨status, -, hat⟩ := h.at
    refine along_appendNow_known hI h.intent hat.projection hrecovering ?_
    exact hf _ starts p (hground.aside (.tick s 1)) h

/-! ## The claim -/

theorem lt_addSeconds (time : Datetime) {n : Nat} (hn : 0 < n) : time < time.addSeconds n := by
  rw [Datetime.lt_iff]
  show time.instant < time.instant + (n : Int) * 1000000
  omega

theorem lt_claimUntil (time : Datetime) (action : ActionDefinition) :
    time < time.addSeconds action.retry.attemptTimeoutSeconds :=
  lt_addSeconds time (by have h := action.retry.bounds.2.1.1; omega)

theorem Warrant.Intends.key {w : Warrant} {action : ActionDefinition} {fence : Identifier}
    {request : EffectRequest} {dryRun : Bool} {intent : ActionIntent}
    (h : w.Intends sha action fence request dryRun intent) :
    intent.key = (w.plan.tenantId.val, request.operationId) := by
  unfold ActionIntent.key
  rw [h.tenant, h.operation]

/-- The claim of an open job, held by this attempt. -/
structure Job.Holds (j : Job) (attempt : Nat) (s : State) (c : EffectClaim) : Prop where
  claim : s.claims j.operation = some c
  attempt : c.attempt = attempt
  fence : c.fenceToken = j.fence

theorem Job.Ground.setClaim (h : j.Ground sha starts last s) (key : String × String) (c : EffectClaim) :
    j.Ground sha starts last (s.setClaim key c) where
  ledger := h.ledger.of_same ⟨rfl, rfl, rfl⟩
  stored := ⟨h.stored.plan, h.stored.approval, h.stored.policy, h.stored.undenied, h.stored.quorum⟩
  quota := ⟨h.quota.allowed, h.quota.remaining⟩
  starts := h.starts
  unstarted := h.unstarted

theorem Job.Open.setClaim (h : j.Open sha base starts last s.trail p) {c : EffectClaim}
    (hopen : c.receipt = none) (hattempt : c.attempt ≤ attempt)
    (hbinding : c.binding = j.warrant.binding sha j.action j.fence) :
    j.Open sha base starts attempt (s.setClaim j.operation c).trail p :=
  { projection := h.projection, binds := h.binds, fence := h.fence, status := h.status,
    facts := h.facts, intent := h.intent, result := h.result, applied := h.applied,
    claim := fun c' hc' => by
      have hnew : Function.update s.claims j.operation (some c) j.operation = some c' := hc'
      rw [Function.update_self] at hnew
      rw [← Option.some.inj hnew]
      exact ⟨hopen, hattempt, hbinding⟩ }

/-- The claim is granted to this attempt, or it has its receipt. -/
theorem goes_claim (hlt : last < attempt) (hground : j.Ground sha starts last s)
    (hbegun : j.Begun sha base starts last s.trail p) {intent : ActionIntent}
    (hintends : j.warrant.Intends sha j.action j.fence (j.at attempt) false intent)
    {f : EffectClaimRecord → Program α}
    (hopen : ∀ s' c record, j.Ground sha starts last s' → j.Open sha base starts attempt s'.trail p →
      j.Holds attempt s' c → record.receipt = none → record.claimToken = c.claimToken →
      j.Goes sha ports base attempt R (f record) s')
    (hdone : ∀ s' receipt record, j.Ground sha starts last s' →
      (j.Settled sha base starts s'.trail p receipt ∨ j.Closed sha base starts s'.trail p receipt) →
      record.receipt = some receipt → j.Goes sha ports base attempt R (f record) s') :
    j.Goes sha ports base attempt R (Atomic.claimIntent sha ports intent actor >>= f) s := by
  have hrecovering : j.Recovering sha base attempt s :=
    Job.Recovering.mono ⟨starts, p, hground, .inr hbegun⟩ hlt.le
  have hground' : j.Ground sha starts last (s.advance 1) := hground.aside (.tick s 1)
  have hkey : intent.key = j.operation := hintends.key
  have hattempt : intent.attempt = attempt := hintends.attempt
  have hlater := lt_claimUntil (ports.clock s.tick) intent.action
  refine fun _ => ⟨hrecovering.aside (.tick s 1), ?_⟩
  -- a claim that is granted leaves the job open, for this attempt
  have hgrant : ∀ c, c.receipt = none → c.attempt = attempt → c.fenceToken = j.fence →
      c.binding = j.warrant.binding sha j.action j.fence → j.Open sha base starts last s.trail p →
      ∀ record, record.receipt = none → record.claimToken = c.claimToken →
      j.Recovering sha base attempt ((s.advance 1).setClaim intent.key c) ∧
        j.Goes sha ports base attempt R (f record) ((s.advance 1).setClaim intent.key c) := by
    intro c hreceipt hmine hfence hbinding h record hrecord htoken
    rw [hkey]
    have hopen' : j.Open sha base starts attempt ((s.advance 1).setClaim j.operation c).trail p :=
      Job.Open.setClaim (s := s.advance 1) h hreceipt hmine.le hbinding
    have hground'' := hground'.setClaim j.operation c
    exact ⟨⟨starts, p, hground''.mono hlt.le, .inr (.opened hopen')⟩,
      hopen _ c record hground'' hopen' ⟨Function.update_self _ _ _, hmine, hfence⟩ hrecord htoken⟩
  refine Along.atom fun hhonest => ?_
  have hsettled : ∀ receipt, (j.Settled sha base starts s.trail p receipt ∨
      j.Closed sha base starts s.trail p receipt) → j.Received sha s.trail receipt →
      Exec.Sat (claimEffect sha intent actor.val (ports.clock s.tick) ((ports.clock s.tick).addSeconds
        intent.action.retry.attemptTimeoutSeconds)) (s.advance 1)
        (fun record s' => j.Recovering sha base attempt s' ∧
          j.Goes sha ports base attempt R (f record) s')
        (fun e s' => j.Recovering sha base attempt s' ∧ R (.error e) s') := by
    intro receipt hdone' hreceived
    obtain ⟨c, hc, hreceipt, hbinding⟩ := hreceived.claim
    have hc' : (s.advance 1).claims intent.key = some c := by rw [hkey]; exact hc
    refine (claim_settled hlater hc' (hbinding.trans hintends.binding.symm) hreceipt).mono ?_
      (fun _ _ h => h.elim)
    rintro record s' ⟨rfl, rfl⟩
    exact ⟨hrecovering.aside (.tick s 1), hdone _ receipt _ hground' hdone' hreceipt⟩
  cases hbegun with
  | settled receipt h => exact hsettled receipt (.inl h) h.toReceived
  | closed receipt h => exact hsettled receipt (.inr h) h.toReceived
  | opened h =>
    cases hclaimed : s.claims j.operation with
    | none =>
      have hnone : (s.advance 1).claims intent.key = none := by rw [hkey]; exact hclaimed
      refine (claim_fresh hlater hnone).mono ?_ (fun _ _ h => h.elim)
      rintro record s' ⟨rfl, rfl⟩
      exact hgrant (newClaim sha intent actor.val _) rfl hattempt hintends.fenceToken hintends.binding h
        _ rfl rfl
    | some c =>
      obtain ⟨hreceipt, hearlier, hbinding⟩ := h.claim c hclaimed
      have hc : (s.advance 1).claims intent.key = some c := by rw [hkey]; exact hclaimed
      have hexpired : c.claimUntil ≤ ports.clock s.tick := hhonest c hc hreceipt
      refine (claim_renewed hlater hc (hbinding.trans hintends.binding.symm) hreceipt hexpired
        (by omega)).mono ?_ (fun _ _ h => h.elim)
      rintro record s' ⟨rfl, rfl⟩
      have hfence : c.fenceToken = j.fence := congrArg (fun b => b.2.2.2.2.2) hbinding
      exact hgrant (c.renew sha intent actor.val _) hreceipt hattempt hfence hbinding h _ hreceipt rfl

/-! ## The effect -/

theorem Job.begunMarks_concat (j : Job) (starts : List Nat) (attempt : Nat) :
    j.begunMarks (starts ++ [attempt]) =
      j.begunMarks starts ++ [(.executionStarted, j.startCommand attempt)] := by
  unfold Job.begunMarks
  rw [List.map_append, List.map_singleton, List.cons_append]

theorem Job.Grown.length {marks : List (RemediationFactType × String)} {t : Trail}
    (h : j.Grown base t marks) : (t.facts j.plan.key).length = base.length + marks.length := by
  obtain ⟨new, hfacts, hmarks⟩ := h
  rw [hfacts, List.length_append, ← hmarks, List.length_map]

/-- The start of this attempt is recorded. -/
theorem goes_started (hfits : j.Fits sha ports) (hroom : base.length + attempt + 2 ≤ maxFacts)
    (hlt : last < attempt) (hmax : attempt ≤ 16) (hground : j.Ground sha starts last s)
    (hopen : j.Open sha base starts attempt s.trail p) {c : EffectClaim} (hholds : j.Holds attempt s c)
    {payload : Fields} (hpayload : payload.entries.length ≤ 32) {f : RemediationProjection → Program α}
    (hf : ∀ s' p', j.Ground sha (starts ++ [attempt]) attempt s' →
      j.Open sha base (starts ++ [attempt]) attempt s'.trail p' → j.Holds attempt s' c →
      j.Goes sha ports base attempt R (f p') s') :
    j.Goes sha ports base attempt R (Atomic.appendNow sha ports j.plan p.version .executionStarted
      (j.startCommand attempt) actor payload >>= f) s := by
  have hlength := hopen.facts.length
  have hmarks : (j.begunMarks starts).length = starts.length + 1 := by
    rw [Job.begunMarks, List.length_cons, List.length_map]
  have hstarts := hground.starts
  have hadmits : Admits s j.plan p p.version .executionStarted (j.startCommand attempt) payload :=
    { ledger := hground.ledger, projection := hopen.projection, command := hground.unstarted attempt hlt hmax,
      identifier := hfits.started hmax
      room := by
        show (s.trail.facts j.plan.key).length < maxFacts
        omega
      version := rfl, kind := by decide, move := by rw [hopen.status]; decide, payload := hpayload }
  refine along_appendNow (fun _ _ ha h => Job.Recovering.aside h ha) hadmits
    ⟨starts, p, hground.mono hlt.le, .inr (.opened hopen)⟩ ?_
  rintro fact p' hrecorded hsuccessor s' rfl
  have hlonger : (starts ++ [attempt]).length ≤ attempt := by
    rw [List.length_append, List.length_singleton]
    omega
  have hground' := (hground.aside (.tick s 1)).record hrecorded
    (j.entry sha .executionStarted payload) hlonger hlt.le
    fun k hk heq => by
      have hsame := startCommand_injective j heq
      omega
  have hgrown : j.Grown base (s.advance 1).trail (j.begunMarks starts) := hopen.facts
  have hopen' : j.Open sha base (starts ++ [attempt]) attempt ((s.advance 1).record j.plan.key
      (j.plan.tenantId.val, j.startCommand attempt) (j.entry sha .executionStarted payload) fact
      p').trail p' :=
    { (hopen.toAt : j.At sha (s.advance 1).trail p _).record hsuccessor _ _ with
      facts := by
        rw [j.begunMarks_concat]
        exact hgrown.record hrecorded _ _
      intent := (record_commands_ne _ _ _ (startCommand_ne j attempt (by decide)).symm).trans hopen.intent
      result := (record_commands_ne _ _ _ (startCommand_ne j attempt (by decide)).symm).trans hopen.result
      claim := hopen.claim
      applied := hopen.applied }
  exact ⟨⟨_, p', hground', .inr (.opened hopen')⟩, hf _ p' hground' hopen' ⟨hholds.1, hholds.2, hholds.3⟩⟩

/-- The state after a call of the adapter. -/
def State.asked (s : State) (call : AdapterCall) : State :=
  { s with tick := s.tick + 1, calls := s.calls ++ [call] }

theorem Job.Ground.asked (h : j.Ground sha starts last s) (call : AdapterCall) :
    j.Ground sha starts last (s.asked call) where
  ledger := h.ledger.of_same ⟨rfl, rfl, rfl⟩
  stored := ⟨h.stored.plan, h.stored.approval, h.stored.policy, h.stored.undenied, h.stored.quorum⟩
  quota := ⟨h.quota.allowed, h.quota.remaining⟩
  starts := h.starts
  unstarted := h.unstarted

theorem Job.Open.asked (h : j.Open sha base starts attempt s.trail p) {call : AdapterCall}
    (happlied : effectCount j.operation (s.calls ++ [call]) ≤ 1) :
    j.Open sha base starts attempt (s.asked call).trail p :=
  { projection := h.projection, binds := h.binds, fence := h.fence, status := h.status,
    facts := h.facts, intent := h.intent, result := h.result, claim := h.claim, applied := happlied }

/-- A receipt for the operation and the attempt. -/
structure Job.Receipt (j : Job) (attempt : Nat) (receipt : ActionReceipt) : Prop where
  good : receipt.Good
  key : (receipt.tenantId.val, receipt.operationId.val) = j.operation
  fence : receipt.fenceToken = j.fence
  attempt : receipt.attempt = attempt

/-- **The effect is there after the attempt**: it was observed, or it is executed now. -/
theorem goes_effect (hground : j.Ground sha starts attempt s)
    (hopen : j.Open sha base starts attempt s.trail p) {c : EffectClaim} (hholds : j.Holds attempt s c)
    {intent : ActionIntent}
    (hintends : j.warrant.Intends sha j.action j.fence (j.at attempt) false intent)
    {f : ActionReceipt → Program α}
    (hf : ∀ s' receipt, j.Ground sha starts attempt s' → j.Open sha base starts attempt s'.trail p →
      j.Holds attempt s' c → effectCount j.operation s'.calls = 1 → j.Receipt attempt receipt →
      j.Goes sha ports base attempt R (f receipt) s') :
    j.Goes sha ports base attempt R (Atomic.attemptEffect ports intent >>= f) s := by
  have hkey : intent.key = j.operation := hintends.key
  refine Along.bind (Q := fun r s' => ∃ receipt, r = .ok receipt ∧ j.Ground sha starts attempt s' ∧
    j.Open sha base starts attempt s'.trail p ∧ j.Holds attempt s' c ∧
    effectCount j.operation s'.calls = 1 ∧ j.Receipt attempt receipt) ?_ ?_ ?_
  · have hrecovering : ∀ {s'}, j.Ground sha starts attempt s' →
        j.Open sha base starts attempt s'.trail p → j.Recovering sha base attempt s' :=
      fun hg ho => ⟨starts, p, hg, .inr (.opened ho)⟩
    have hsame : effectCount j.operation (s.calls ++ [.observe intent]) = effectCount j.operation s.calls := by
      unfold effectCount
      rw [List.countP_append]
      rfl
    have hground₁ := hground.asked (.observe intent)
    have hopen₁ : j.Open sha base starts attempt (s.asked (.observe intent)).trail p :=
      hopen.asked (by rw [hsame]; exact hopen.applied)
    refine Along.atom fun hhonest => ?_
    obtain ⟨observed, hanswer, hexact, hready⟩ := hhonest
    rw [hkey] at hexact hready
    refine sat_callAdapter (fun before hbefore => ?_) (fun e he => ?_)
    swap
    · rw [hanswer] at he
      cases he
    obtain rfl := Except.ok.inj (hanswer.symm.trans hbefore)
    refine ⟨hrecovering hground₁ hopen₁, ?_⟩
    by_cases hthere : effectCount j.operation s.calls = 0
    · -- the effect is not there: the provider is asked for it
      obtain ⟨hstate, hpreconditions⟩ := hready hthere
      have hnot : ¬observed.state = .applied := fun h => by
        have hpos := hexact.mp h
        omega
      rw [if_neg hnot, if_neg (by
        rintro ⟨hbefore', hnotApplied⟩
        rcases hstate with h | h
        · exact hbefore' h
        · exact hnotApplied h), if_neg (not_not.mpr hpreconditions)]
      refine Steps.along_atom fun hhonest' => ?_
      obtain ⟨receipt, hreceipt, hsucceeded, htenant, hoperation, hfence, hattempt⟩ := hhonest'
      have hone : effectCount j.operation ((s.asked (.observe intent)).calls ++ [.execute intent]) = 1 := by
        have hexecute : AdapterCall.applies j.operation (.execute intent) = true := decide_eq_true hkey
        show effectCount j.operation ((s.calls ++ [.observe intent]) ++ [.execute intent]) = 1
        unfold effectCount at hsame hthere ⊢
        rw [List.countP_append, hsame, hthere, List.countP_singleton, if_pos hexecute]
      have hground₂ := hground₁.asked (.execute intent)
      have hopen₂ : j.Open sha base starts attempt
          ((s.asked (.observe intent)).asked (.execute intent)).trail p := Job.Open.asked hopen₁ hone.le
      refine sat_callAdapter (fun receipt' hreceipt' => ?_) (fun e he => ?_)
      · obtain rfl := Except.ok.inj (hreceipt.symm.trans hreceipt')
        refine ⟨hrecovering hground₂ hopen₂, receipt, rfl, hground₂, hopen₂,
          ⟨hholds.1, hholds.2, hholds.3⟩, hone, .inl hsucceeded, ?_, ?_, ?_⟩
        · rw [htenant, hoperation]
          exact hkey
        · rw [hfence]
          exact hintends.fenceToken
        · rw [hattempt]
          exact hintends.attempt
      · exact absurd (hreceipt.symm.trans he) (by simp)
    · -- the effect is there already
      have hpos : 0 < effectCount j.operation s.calls := Nat.pos_of_ne_zero hthere
      have hone : effectCount j.operation s.calls = 1 := Nat.le_antisymm hopen.applied hpos
      rw [if_pos (hexact.mpr hpos)]
      refine fun _ => ⟨(hrecovering hground₁ hopen₁).aside (.tick _ 1), ?_⟩
      refine ⟨_, rfl, hground₁.aside (.tick _ 1), hopen₁, ⟨hholds.1, hholds.2, hholds.3⟩,
        hsame.trans hone, .inr rfl, hkey, hintends.fenceToken, hintends.attempt⟩
  · rintro e s' ⟨receipt, hreceipt, -⟩
    cases hreceipt
  · rintro a s' ⟨receipt, hreceipt, hg, ho, hh, hone, hbound⟩
    rw [Except.ok.inj hreceipt]
    exact hf s' receipt hg ho hh hone hbound

/-- The claim gets the receipt. -/
theorem goes_complete (hground : j.Ground sha starts attempt s)
    (hopen : j.Open sha base starts attempt s.trail p) {c : EffectClaim} (hholds : j.Holds attempt s c)
    (hone : effectCount j.operation s.calls = 1) {receipt : ActionReceipt}
    (hreceipt : j.Receipt attempt receipt) {record : EffectClaimRecord}
    (htoken : record.claimToken = c.claimToken) {f : Unit → Program α}
    (hf : ∀ s', j.Ground sha starts attempt s' → j.Settled sha base starts s'.trail p receipt →
      j.Goes sha ports base attempt R (f ()) s') :
    j.Goes sha ports base attempt R (Atomic.completeIntent sha ports record receipt >>= f) s := by
  have hrecovering : j.Recovering sha base attempt s := ⟨starts, p, hground, .inr (.opened hopen)⟩
  obtain ⟨hunreceived, -, hbinding⟩ := hopen.claim c hholds.claim
  have hc : (s.advance 1).claims (receipt.tenantId.val, receipt.operationId.val) = some c := by
    rw [hreceipt.key]
    exact hholds.claim
  refine fun _ => ⟨hrecovering.aside (.tick s 1), ?_⟩
  refine Along.atom fun _ => (complete_recorded hc htoken.symm (hholds.fence.trans hreceipt.fence.symm)
    (hholds.attempt.trans hreceipt.attempt.symm) hunreceived).mono ?_ (fun _ _ h => h.elim)
  rintro u s' rfl
  rw [hreceipt.key]
  have hground' : j.Ground sha starts attempt ((s.advance 1).setClaim j.operation
      { c with receipt := some receipt }) := (hground.aside (.tick s 1)).setClaim _ _
  have hsettled : j.Settled sha base starts ((s.advance 1).setClaim j.operation
      { c with receipt := some receipt }).trail p receipt :=
    { projection := hopen.projection, binds := hopen.binds, fence := hopen.fence, status := hopen.status,
      intent := hopen.intent, facts := hopen.facts, result := hopen.result, good := hreceipt.good,
      applied := hone, claim := ⟨_, Function.update_self _ _ _, rfl, hbinding⟩ }
  exact ⟨⟨starts, p, hground', .inr (.settled receipt hsettled)⟩, hf _ hground' hsettled⟩

/-! ## The result -/

theorem Job.Received.record {receipt : ActionReceipt} (h : j.Received sha s.trail receipt)
    (fact : RemediationFact) (p' : RemediationProjection) (entry : String × Digest) :
    j.Received sha (s.record j.plan.key (j.plan.tenantId.val, j.command ":result") entry fact p').trail
      receipt :=
  ⟨(record_commands_ne _ _ _ (intent_ne_result j)).trans h.intent, h.claim, h.good, h.applied⟩

theorem executionFact_good {receipt : ActionReceipt} (h : receipt.Good) :
    executionFact receipt.outcome = some .executionSucceeded := by
  rcases h with h | h
  · rw [h]
    rfl
  · rw [h]
    rfl

/-- The result is recorded, or was recorded before. -/
theorem goes_result (hfits : j.Fits sha ports) (hroom : base.length + attempt + 2 ≤ maxFacts)
    (hground : j.Ground sha starts attempt s) {receipt : ActionReceipt}
    (hdone : j.Settled sha base starts s.trail p receipt ∨ j.Closed sha base starts s.trail p receipt)
    {f : RemediationProjection → Program α}
    (hf : ∀ s' p', j.Ground sha starts attempt s' → j.Closed sha base starts s'.trail p' receipt →
      j.Goes sha ports base attempt R (f p') s') :
    j.Goes sha ports base attempt R (Atomic.appendNow sha ports j.plan p.version .executionSucceeded
      (j.command ":result") actor (resultPayload sha receipt) >>= f) s := by
  have hI : ∀ s s', j.warrant.Aside sha s s' → j.Recovering sha base attempt s →
      j.Recovering sha base attempt s' := fun _ _ ha h => h.aside ha
  rcases hdone with h | h
  · have hlength := h.facts.length
    have hmarks : (j.begunMarks starts).length = starts.length + 1 := by
      rw [Job.begunMarks, List.length_cons, List.length_map]
    have hstarts := hground.starts
    have hadmits : Admits s j.plan p p.version .executionSucceeded (j.command ":result")
        (resultPayload sha receipt) :=
      { ledger := hground.ledger, projection := h.projection, command := h.result,
        identifier := hfits.result
        room := by
          show (s.trail.facts j.plan.key).length < maxFacts
          omega
        version := rfl, kind := by decide, move := by rw [h.status]; decide
        payload := by simp [resultPayload, Fields.of] }
    refine along_appendNow hI hadmits ⟨starts, p, hground, .inr (.settled receipt h)⟩ ?_
    rintro fact p' hrecorded hsuccessor s' rfl
    have hground' := (hground.aside (.tick s 1)).record hrecorded
      (j.entry sha .executionSucceeded (resultPayload sha receipt)) hstarts le_rfl
      fun k _ => startCommand_ne j k (by decide)
    have hgrown : j.Grown base (s.advance 1).trail (j.begunMarks starts) := h.facts
    have hreceived : j.Received sha (s.advance 1).trail receipt := h.toReceived
    have hclosed : j.Closed sha base starts ((s.advance 1).record j.plan.key
        (j.plan.tenantId.val, j.command ":result")
        (j.entry sha .executionSucceeded (resultPayload sha receipt)) fact p').trail p' receipt :=
      { (h.toAt : j.At sha (s.advance 1).trail p _).record hsuccessor _ _,
        hreceived.record fact p' _ with
        facts := hgrown.record hrecorded _ _
        result := record_commands_self _ _ _ _ _ }
    exact ⟨⟨starts, p', hground', .inr (.closed receipt hclosed)⟩, hf _ p' hground' hclosed⟩
  · refine along_appendNow_known hI h.result h.projection
      ⟨starts, p, hground, .inr (.closed receipt h)⟩ ?_
    exact hf _ p (hground.aside (.tick s 1)) h

/-- What a call that goes through leaves behind. -/
def Job.Done (sha : Sha256) (j : Job) (base : List RemediationFact) (attempt : Nat)
    (r : Except Error ActionReceipt) (s : State) : Prop :=
  ∃ receipt starts p, r = .ok receipt ∧ j.Ground sha starts attempt s ∧
    j.Closed sha base starts s.trail p receipt

theorem goes_recordExecution (hfits : j.Fits sha ports) (hroom : base.length + attempt + 2 ≤ maxFacts)
    (hground : j.Ground sha starts attempt s) {receipt : ActionReceipt}
    (hdone : j.Settled sha base starts s.trail p receipt ∨ j.Closed sha base starts s.trail p receipt)
    {scope : EffectScope} (hscope : scope.plan = j.plan) (actor : Identifier) :
    j.Goes sha ports base attempt (j.Done sha base attempt)
      (Atomic.recordExecution sha ports scope (j.at attempt) actor receipt p.version) s := by
  have hgood : receipt.Good := by
    rcases hdone with h | h
    · exact h.good
    · exact h.good
  unfold Atomic.recordExecution
  rw [executionFact_good hgood, hscope]
  refine goes_result hfits hroom hground hdone fun s' p' hground' hclosed => ?_
  refine Along.check (fun h => absurd (fun hambiguous => ?_) h) fun _ => ?_
  · rw [ActionReceipt.Good, hambiguous] at hgood
    rcases hgood with h | h
    · cases h
    · cases h
  · exact Along.check (fun h => absurd hgood h) fun _ => ⟨receipt, starts, p', rfl, hground', hclosed⟩

/-- **One call of `execute`**, on whatever the calls before it left: after each of its steps the job can
    still be recovered, and if it goes through the job is closed. -/
theorem goes_execute (hfits : j.Fits sha ports) (hroom : base.length + attempt + 2 ≤ maxFacts)
    (hlt : last < attempt) (hmax : attempt ≤ 16) (hrecovering : j.Recovering sha base last s) :
    j.Goes sha ports base attempt (j.Done sha base attempt)
      (Atomic.execute sha ports j.warrant.identity (j.at attempt)) s := by
  have hI : ∀ s s', j.warrant.Aside sha s s' → j.Recovering sha base attempt s →
      j.Recovering sha base attempt s' := fun _ _ ha h => h.aside ha
  obtain ⟨starts, p, hground, hstage⟩ := hrecovering
  have hat : ∃ status ∈ [RemediationStatus.preflight, .executing, .succeeded],
      j.At sha s.trail p status := by
    rcases hstage with h | h
    · exact ⟨_, List.mem_cons_self, h.toAt⟩
    · obtain ⟨status, hstatus, h'⟩ := h.at
      exact ⟨status, List.mem_cons_of_mem _ hstatus, h'⟩
  obtain ⟨status, hstatus, hat⟩ := hat
  have hs : j.Recovering sha base attempt s := Job.Recovering.mono ⟨starts, p, hground, hstage⟩ hlt.le
  unfold Atomic.execute
  show j.Goes sha ports base attempt _ (Atomic.validatedScope sha ports j.warrant.identity
    j.request.planId j.request.actionId _ >>= _) s
  rw [hfits.planId, hfits.actionId]
  refine along_validatedScope hI hfits.current hground.stored hground.quota hat.projection hat.binds
    (by rw [hat.status]; exact hstatus) hfits.action hs fun s₁ haside => ?_
  have hstage₁ := hstage
  rw [← haside.trail] at hstage₁
  have hground₁ := hground.aside haside
  have hid : (j.at attempt).actionId = j.action.actionId.val := hfits.actionId
  have hrange : (1 : Int) ≤ attempt ∧ (attempt : Int) ≤ 16 := by omega
  unfold Atomic.executeScoped
  refine along_effectIntent hI hfits.action hid hfits.operation hrange (hI _ _ haside hs)
    fun intent hintends => ?_
  rw [hat.fence] at hintends
  have hpayload : Fields.of [("action_id", Json.str (j.at attempt).actionId),
      ("idempotency_key", .str intent.action.idempotencyKey.val),
      ("fence_token", .str (j.warrant.scope p).projection.fenceToken.val)] = j.intentPayload := by
    rw [hintends.subject]
    show Fields.of [_, _, ("fence_token", .str p.fenceToken.val)] = _
    rw [hat.fence]
    rfl
  rw [hpayload]
  refine goes_request hfits hroom hlt.le (hground₁.aside (.tick s₁ 1)) hstage₁
    fun s₂ starts₂ p₂ hground₂ hbegun₂ => ?_
  refine goes_claim hlt hground₂ hbegun₂ hintends ?_ ?_
  · intro s₃ c record hground₃ hopen₃ hholds₃ hnone htoken
    refine Along.bind (Q := fun r s' => ∃ receipt starts' p', r = .ok (receipt, p'.version) ∧
      j.Ground sha starts' attempt s' ∧ j.Settled sha base starts' s'.trail p' receipt) ?_ ?_ ?_
    · unfold Atomic.executionReceipt
      rw [hnone]
      refine goes_started hfits hroom hlt hmax hground₃ hopen₃ hholds₃ (by simp [Fields.of]) ?_
      intro s₄ p₄ hground₄ hopen₄ hholds₄
      refine goes_effect hground₄ hopen₄ hholds₄ hintends ?_
      intro s₅ receipt hground₅ hopen₅ hholds₅ hone hreceipt
      refine goes_complete hground₅ hopen₅ hholds₅ hone hreceipt htoken ?_
      exact fun s₆ hground₆ hsettled => ⟨receipt, _, p₄, rfl, hground₆, hsettled⟩
    · rintro e s' ⟨receipt, starts', p', hresult, -⟩
      cases hresult
    · rintro a s' ⟨receipt, starts', p', hresult, hground', hsettled⟩
      rw [Except.ok.inj hresult]
      exact goes_recordExecution hfits hroom hground' (.inl hsettled) rfl _
  · intro s₃ receipt record hground₃ hdone hsome
    unfold Atomic.executionReceipt
    rw [hsome]
    exact goes_recordExecution hfits hroom (hground₃.mono hlt.le) hdone rfl _

end Calls

/-! ## Any number of crashes -/

/-- The laws of the ledger hold in every state of a run of the services. -/
theorem LedgerLaws.event {s t : State} {op : Op} {i : Event} (h : LedgerLaws sha t)
    (hi : May sha ports s op t i) : LedgerLaws sha (i.apply t) := by
  cases hi
  case record key factType commandId payload fact p hrecords hrecorded =>
    exact h.record (c := ⟨key.1, key.2, 0, factType, commandId, "", ⟨0, 0⟩, payload⟩) hrecorded
  all_goals exact ⟨h.numbered, h.bounded, h.chained, h.replayed, h.ledger.of_same ⟨rfl, rfl, rfl⟩,
    ⟨h.index.known, h.index.distinct, h.index.indexed⟩⟩

theorem ledgerLaws_services (policies : List ActionPolicy) (limits : String → Int) (ops : List Op) :
    LedgerLaws sha (run sha ports (State.start policies limits) ops) := by
  refine Machine.run_invariant_all (fun s op hs => ?_) _ (ledgerLaws_start policies limits) ops
  exact (step_path sha ports s op).invariant (fun _ _ ht hi => ht.event hi) hs

/-- A plan in `PREFLIGHT`, with a valid scope, room in its ledger, and nothing known of the operation. -/
structure Job.Ready (sha : Sha256) (j : Job) (s : State) : Prop where
  laws : LedgerLaws sha s
  stored : j.warrant.Stored sha s
  quota : j.warrant.Quota sha s
  projection : ∃ p, s.projections j.plan.key = some p ∧ j.warrant.Binds sha p ∧
    p.fenceToken = j.fence ∧ p.status = .preflight ∧ j.request.expectedVersion = p.version
  room : (s.facts j.plan.key).length + 18 ≤ maxFacts
  intent : s.commands (j.plan.tenantId.val, j.command ":intent") = none
  result : s.commands (j.plan.tenantId.val, j.command ":result") = none
  started : ∀ k ≤ 16, s.commands (j.plan.tenantId.val, j.startCommand k) = none
  unclaimed : s.claims j.operation = none
  unapplied : effectCount j.operation s.calls = 0

theorem Job.Ready.recovering {j : Job} {s : State} (h : j.Ready sha s) :
    j.Recovering sha (s.facts j.plan.key) 0 s := by
  obtain ⟨p, hp, hbinds, hfence, hstatus, hversion⟩ := h.projection
  refine ⟨[], p, ⟨h.laws.ledger, h.stored, h.quota, Nat.zero_le 0, fun k _ => h.started k⟩, .inl ?_⟩
  exact
    { projection := hp, binds := hbinds, fence := hfence, status := hstatus, version := hversion,
      facts := rfl, intent := h.intent, result := h.result, unclaimed := h.unclaimed,
      unapplied := h.unapplied }

/-- A call that stops after some steps. -/
structure Try where
  attempt : Nat
  steps : Nat

section Runs

variable (sha : Sha256) (ports : Ports) (j : Job)

def Job.program (attempt : Nat) : Program ActionReceipt :=
  Atomic.execute sha ports j.warrant.identity (j.at attempt)

/-- The state after calls that stopped. -/
def Job.afterTries (s : State) : List Try → State
  | [] => s
  | t :: tries => afterTries ((j.program sha ports t.attempt).crashed t.steps s) tries

/-- The steps these calls took. -/
def Job.tryMarks (s : State) : List Try → List (Steps.Mark PortCall State)
  | [] => []
  | t :: tries => (j.program sha ports t.attempt).marksUntil t.steps s ++
      tryMarks ((j.program sha ports t.attempt).crashed t.steps s) tries

end Runs

section Recovered

variable {j : Job} {base : List RemediationFact} {s : State}

/-- **Calls that stop keep the job recoverable**, wherever they stop. -/
theorem recovering_tries (hfits : j.Fits sha ports) (hroom : base.length + 18 ≤ maxFacts)
    {tries : List Try} {first last : Nat} (hrecovering : j.Recovering sha base first s)
    (hattempts : (first :: (tries.map (·.attempt) ++ [last])).Pairwise (· < ·)) (hlast : last ≤ 16)
    (hhonest : ∀ m ∈ j.tryMarks sha ports s tries, Honest ports m.label m.before) :
    ∃ latest < last, j.Recovering sha base latest (j.afterTries sha ports s tries) := by
  induction tries generalizing first s with
  | nil => exact ⟨first, List.rel_of_pairwise_cons hattempts List.mem_cons_self, hrecovering⟩
  | cons t tries ih =>
    obtain ⟨hfirst, hrest⟩ := List.pairwise_cons.mp hattempts
    have hlt : first < t.attempt := hfirst _ List.mem_cons_self
    have hmax : t.attempt < last :=
      List.rel_of_pairwise_cons hrest (List.mem_append_right _ List.mem_cons_self)
    have hgoes := goes_execute hfits (by omega) hlt (by omega) hrecovering
    have hcrashed := Along.crashed hgoes (hrecovering.mono hlt.le) t.steps
      fun m hm => hhonest m (List.mem_append_left _ hm)
    exact ih hcrashed hrest fun m hm => hhonest m (List.mem_append_right _ hm)

/-- How many facts of the operation the ledger holds. -/
def Job.recorded (j : Job) (factType : RemediationFactType) (suffix : String) (s : State) : Nat :=
  (s.facts j.plan.key).countP fun f => f.factType = factType && f.commandId.val = j.command suffix

theorem Job.Grown.recorded {marks : List (RemediationFactType × String)}
    (h : j.Grown base s.trail marks) {factType : RemediationFactType} {suffix : String}
    (hbase : ∀ f ∈ base, f.commandId.val ≠ j.command suffix) :
    j.recorded factType suffix s =
      marks.countP fun m => m.1 = factType && m.2 = j.command suffix := by
  obtain ⟨new, hfacts, hmarks⟩ := h
  have hfacts' : s.facts j.plan.key = base ++ new := hfacts
  unfold Job.recorded
  rw [hfacts', List.countP_append, ← hmarks, List.countP_map, List.countP_eq_zero.mpr, Nat.zero_add]
  · rfl
  · intro f hf hcount
    exact hbase f hf (of_decide_eq_true (Bool.and_eq_true_iff.mp hcount).2)

/-- No start is the request or the result. -/
theorem countP_starts (j : Job) (starts : List Nat) {factType : RemediationFactType} {suffix : String}
    (hfactType : RemediationFactType.executionStarted ≠ factType) :
    (starts.map fun attempt => (RemediationFactType.executionStarted, j.startCommand attempt)).countP
      (fun m => m.1 = factType && m.2 = j.command suffix) = 0 := by
  refine List.countP_eq_zero.mpr fun m hm hcount => ?_
  obtain ⟨attempt, -, rfl⟩ := List.mem_map.mp hm
  exact hfactType (of_decide_eq_true (Bool.and_eq_true_iff.mp hcount).1)

/-- The command of a fact is known. -/
theorem LedgerLaws.unknown (h : LedgerLaws sha s) {commandId : String}
    (hnone : s.commands (j.plan.tenantId.val, commandId) = none) :
    ∀ f ∈ s.facts j.plan.key, f.commandId.val ≠ commandId := by
  intro f hf heq
  have hknown := h.index.known _ _ f hf
  rw [heq, hnone] at hknown
  cases hknown

/-- **Execution recovers from crashes.**  However often a call of the operation stopped, after any of its
    steps, a later call that goes through returns a receipt that says the effect is there; the ledger
    holds one request and one success of the operation, the claim holds that very receipt, and the effect
    was applied once. -/
theorem execute_recovers (sha : Sha256) (ports : Ports) (j : Job) (hfits : j.Fits sha ports) (s : State)
    (hready : j.Ready sha s) (tries : List Try) (last : Nat)
    (hattempts : (0 :: (tries.map (·.attempt) ++ [last])).Pairwise (· < ·)) (hlast : last ≤ 16)
    (hhonest : ∀ m ∈ j.tryMarks sha ports s tries ++
      (j.program sha ports last).marks (j.afterTries sha ports s tries),
        Honest ports m.label m.before) :
    ∃ receipt after, executeAction sha ports j.warrant.identity (j.at last)
        (j.afterTries sha ports s tries) = (.ok receipt, after) ∧
      (receipt.outcome = .succeeded ∨ receipt.outcome = .duplicate) ∧
      j.recorded .executionRequested ":intent" after = 1 ∧
      j.recorded .executionSucceeded ":result" after = 1 ∧
      (∃ c, after.claims j.operation = some c ∧ c.receipt = some receipt) ∧
      effectCount j.operation after.calls = 1 := by
  obtain ⟨latest, hlt, hrecovering⟩ := recovering_tries hfits hready.room hready.recovering hattempts
    hlast fun m hm => hhonest m (List.mem_append_left _ hm)
  have hroom := hready.room
  have hgoes := goes_execute hfits (by omega) hlt hlast hrecovering
  have hdone := Along.exec hgoes fun m hm => hhonest m (List.mem_append_right _ hm)
  obtain ⟨receipt, starts, p, hok, hground, hclosed⟩ := hdone
  rw [Atomic.exec_execute] at hok hclosed hground
  refine ⟨receipt, _, Prod.ext hok rfl, hclosed.good, ?_, ?_, ?_, hclosed.applied⟩
  · rw [hclosed.facts.recorded (hready.laws.unknown hready.intent), List.countP_append, Job.begunMarks,
      List.countP_cons, countP_starts j starts (by decide), List.countP_singleton]
    simp
  · rw [hclosed.facts.recorded (hready.laws.unknown hready.result), List.countP_append, Job.begunMarks,
      List.countP_cons, countP_starts j starts (by decide), List.countP_singleton]
    simp
  · obtain ⟨c, hc, hreceipt, -⟩ := hclosed.claim
    exact ⟨c, hc, hreceipt⟩

end Recovered

/-! ## A worked case

The plan has one action.  The first call stops right after the provider has executed it; the second one
observes the effect, records the receipt and the result. -/

local instance decidableOk {ε α : Type} {r : Except ε α} {P : α → Prop} [DecidablePred P] :
    Decidable (∃ a, r = .ok a ∧ P a) :=
  match r with
  | .ok a => decidable_of_iff (P a) ⟨fun h => ⟨a, rfl, h⟩, fun ⟨_, ha, h⟩ => Except.ok.inj ha ▸ h⟩
  | .error _ => isFalse fun ⟨_, ha, _⟩ => by cases ha

local instance decidableSome {α : Type} {o : Option α} {P : α → Prop} [DecidablePred P] :
    Decidable (∃ a, o = some a ∧ P a) :=
  match o with
  | some a => decidable_of_iff (P a) ⟨fun h => ⟨a, rfl, h⟩, fun ⟨_, ha, h⟩ => Option.some.inj ha ▸ h⟩
  | none => isFalse fun ⟨_, ha, _⟩ => by cases ha

local instance decidableFound {α : Type} {o : Option α} {P : α → Prop} [DecidablePred P] :
    Decidable (∀ a, o = some a → P a) :=
  match o with
  | some a => decidable_of_iff (P a) ⟨fun h _ ha => Option.some.inj ha ▸ h, fun h => h a rfl⟩
  | none => isTrue fun _ ha => by cases ha

instance decidableHonest (ports : Ports) (s : State) : (label : PortCall) →
    Decidable (Honest ports label s)
  | .adapter (.observe _) => by unfold Honest; infer_instance
  | .adapter (.execute _) => by unfold Honest; infer_instance
  | .claim _ _ _ _ => by unfold Honest; infer_instance
  | .adapter (.dryRun _) | .adapter (.compensate _) | .authorize _ | .clock | .read | .putPlan _
  | .putApproval _ | .addDecision _ | .append _ _ _ _ _ | .replacePolicy _ | .reserve _ _
  | .complete _ _ => isTrue trivial

/-- The sample policy, with a window that a claim can run out in. -/
def longPolicy : ActionPolicy :=
  { samplePolicy with maintenanceWindowEnd := ⟨10000000000, 0⟩, window_ok := by decide }

/-- An action that can be compensated. -/
def soloAction : ActionDefinition :=
  { sampleAction "a" with compensation := ⟨true, .observeOnly, none, false, observes_unbound, enabled_observes⟩ }

/-- A plan with one action. -/
def soloPlan : RemediationPlan :=
  { samplePlan someone with
    actions := [soloAction], policySnapshot := longPolicy.snapshot .constant,
    expiresAt := ⟨10000000000, 0⟩, actions_ok := by decide, expiry_ok := by decide,
    ids_unique := by decide, target_ok := by decide, risk_ok := by decide }

theorem phase_fits : (AList.singleton "phase" (.str "ready") : ObservedFacts).entries.length ≤ 32 := by decide

/-- A clock that moves one second with each question, up to a bound, and a provider whose effect is seen
    from the question `visible` on. -/
def soloPorts (visible : Nat) : Ports :=
  { samplePorts false with
    clock := fun n => ⟨((min n 200 : Nat) : Int) * 1000000, 0⟩
    observe := fun n intent => .ok
      { tenantId := intent.tenantId, planId := intent.planId, actionId := intent.action.actionId,
        operationId := intent.operationId, targetFingerprint := zeroHash,
        state := if n < visible then .before else .applied,
        facts := AList.singleton "phase" (.str "ready"), observedAt := ⟨10, 0⟩,
        providerReceiptRef := none, attemptFence := intent.fenceToken, facts_ok := phase_fits } }

/-- The plan is approved, and its action preflighted under the operation `o1`. -/
def soloState : State :=
  run .constant (soloPorts 30) (State.start [longPolicy] fun _ => 2)
    (sampleApproval soloPlan "y" ++ [.preflight (sampleIdentity "x") (sampleRequest "a" "o1" 4)])

def soloApproval : ActionApprovalRequest :=
  (soloState.approvals ("t", (approvalIdOf .constant soloPlan).val)).get (by decide +kernel)

def soloWarrant : Warrant := ⟨sampleIdentity "x", soloPlan, soloApproval, longPolicy⟩

/-- The execution of the action, under an operation id. -/
def soloJob (operationId : String) : Job where
  warrant := soloWarrant
  action := soloAction
  request := sampleRequest "a" operationId 6
  fence := fenceOf .constant soloPlan

theorem solo_current : soloWarrant.Current .constant (soloPorts 30) where
  tenant := rfl
  planDigest := by decide +kernel
  approvalPolicy := by decide +kernel
  planPolicy := rfl
  authorized _ := rfl
  approvalUnexpired n := by
    have hexpiry : soloApproval.expiresAt.instant = 7206000000 := by decide +kernel
    show ((min n 200 : Nat) : Int) * 1000000 < soloApproval.expiresAt.instant
    omega
  planUnexpired n := by
    show ((min n 200 : Nat) : Int) * 1000000 < 10000000000
    omega
  permitted n := by
    have hall : ∀ k : Nat, k < 201 →
        refusal longPolicy soloPlan true ⟨(k : Int) * 1000000, 0⟩ = none := by decide +kernel
    exact hall (min n 200) (by omega)

theorem solo_fits {operationId : String} (hoperation : isIdentifier operationId = true)
    (hshort : operationId.toList.length ≤ 117) :
    (soloJob operationId).Fits .constant (soloPorts 30) :=
  ⟨solo_current, List.mem_cons_self, rfl, rfl, hoperation, hshort⟩

theorem soloApproval_stored :
    soloState.approvals ("t", (approvalIdOf .constant soloPlan).val) = some soloApproval :=
  (Option.some_get _).symm

theorem solo_projection : (soloState.projections ("t", "p")).isSome := by decide +kernel

/-- What the stores hold of the warrant, looked up once. -/
theorem solo_records :
    soloState.plans soloPlan.key = some soloPlan ∧
    soloState.policies "t" = some longPolicy ∧
    soloApproval.approvalId.val = (approvalIdOf .constant soloPlan).val ∧
    (∀ item ∈ soloWarrant.decisions soloState, item.disposition ≠ .deny) ∧
    soloApproval.requirement.quorum ≤ (approvers (exactDecision .constant (soloWarrant.scope
      ((soloState.projections ("t", "p")).get solo_projection)))
      (soloWarrant.decisions soloState)).length := by
  decide +kernel

theorem solo_stored : soloWarrant.Stored .constant soloState := by
  obtain ⟨hplan, hpolicy, hid, hundenied, hquorum⟩ := solo_records
  refine ⟨hplan, ?_, hpolicy, hundenied, fun _ => hquorum⟩
  show soloState.approvals ("t", soloApproval.approvalId.val) = some soloApproval
  rw [hid]
  exact soloApproval_stored

/-- What the stores hold of the operation, looked up once. -/
theorem solo_operation :
    (∃ p, soloState.projections ("t", "p") = some p ∧
      (p.approvalId = some soloApproval.approvalId.val ∧
        p.approvalDigest = some (soloApproval.digest .constant).val) ∧
      p.fenceToken = fenceOf .constant soloPlan ∧ p.status = .preflight ∧ 6 = (p.version : Int)) ∧
    (soloState.facts ("t", "p")).length + 18 ≤ maxFacts ∧
    soloState.commands ("t", "o2:intent") = none ∧ soloState.commands ("t", "o2:result") = none ∧
    (∀ k ≤ 16, soloState.commands ("t", (soloJob "o2").startCommand k) = none) ∧
    (soloState.claims ("t", "o2")).isNone = true ∧ effectCount ("t", "o2") soloState.calls = 0 ∧
    (∀ action ∈ soloPlan.actions, ∀ decision,
      soloState.reservations (soloWarrant.reservation .constant action) = some decision →
        decision.allowed = true) ∧
    (soloPlan.actions.countP (soloWarrant.unreserved .constant soloState) : Int) ≤
      soloState.remaining "t" := by
  decide +kernel

theorem solo_ready : (soloJob "o2").Ready .constant soloState := by
  obtain ⟨⟨p, hp, hbinds, hrest⟩, hroom, hintent, hresult, hstarted, hclaims, hcalls, hallowed,
    hremaining⟩ := solo_operation
  exact
    { laws := ledgerLaws_services _ _ _, stored := solo_stored, quota := ⟨hallowed, hremaining⟩,
      projection := ⟨p, hp, ⟨hbinds.1, hbinds.2⟩, hrest⟩, room := hroom, intent := hintent,
      result := hresult, started := hstarted, unclaimed := Option.isNone_iff_eq_none.mp hclaims,
      unapplied := hcalls }

/-- The worked case: the first call stops after the provider has executed the action, the second call
    finds the effect, and everything holds as if there had been one call. -/
theorem execute_recovers_sample :
    ((soloJob "o2").afterTries .constant (soloPorts 30) soloState [⟨1, 21⟩]).calls.countP
      AdapterCall.isExecute = 1 ∧
    ∃ receipt after, executeAction .constant (soloPorts 30) soloWarrant.identity ((soloJob "o2").at 2)
        ((soloJob "o2").afterTries .constant (soloPorts 30) soloState [⟨1, 21⟩]) = (.ok receipt, after) ∧
      (receipt.outcome = .succeeded ∨ receipt.outcome = .duplicate) ∧
      (soloJob "o2").recorded .executionRequested ":intent" after = 1 ∧
      (soloJob "o2").recorded .executionSucceeded ":result" after = 1 ∧
      (∃ c, after.claims (soloJob "o2").operation = some c ∧ c.receipt = some receipt) ∧
      effectCount (soloJob "o2").operation after.calls = 1 :=
  ⟨by decide +kernel, execute_recovers .constant (soloPorts 30) (soloJob "o2")
    (solo_fits (by decide) (by decide)) soloState solo_ready [⟨1, 21⟩] 2 (by decide) (by decide)
    (by decide +kernel)⟩

/-- An operation id of 125 characters. -/
def longOperation : String := String.ofList (List.replicate 125 'o')

/-- **What the code asks for besides.**  The commands of an operation are identifiers too, so an operation
    id of 125 characters is valid and no call under it gets through, however honest the ports. -/
theorem long_operation_refused :
    isIdentifier longOperation = true ∧
    (∀ m ∈ ((soloJob longOperation).program .constant (soloPorts 30) 1).marks soloState,
      Honest (soloPorts 30) m.label m.before) ∧
    ¬∃ receipt, (executeAction .constant (soloPorts 30) soloWarrant.identity
      ((soloJob longOperation).at 1) soloState).1 = .ok receipt := by
  refine ⟨by decide +kernel, by decide +kernel, ?_⟩
  rintro ⟨receipt, hok⟩
  have hrefused : (executeAction .constant (soloPorts 30) soloWarrant.identity
      ((soloJob longOperation).at 1) soloState).1.toOption.isSome = false := by decide +kernel
  rw [hok] at hrefused
  cases hrefused

end Remediation

end Aegis
