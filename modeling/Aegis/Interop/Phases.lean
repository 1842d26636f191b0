/-
  WHAT ONE STEP OF A GATEWAY CALL DOES, by the phase the call is in.

  A call is FREE until the policy has admitted it; an invocation is then AUTHORISED, REQUESTED, CLAIMED,
  ANSWERED by the peer and SETTLED, and a cancellation or a reconciliation HOLDS the projection it has
  read.  `Advance` lists the steps that matter, each with the whole append it makes; every other step
  leaves the ledger alone.  `follows_program` is the only place that looks at the programs; whatever is
  said about interleavings is said about `Advance`.
-/
import Mathlib
import Aegis.Lib.Concurrent
import Aegis.Interop.Gateway

namespace Aegis

namespace Interop

open Threads
open Steps (atom)

/-! ## The system -/

abbrev GatewayPool := Pool GatewayCall GatewayStep Failure State InvocationResult

abbrev GatewayEvent := Threads.Event GatewayCall GatewayStep State

section System

variable (sha : Sha256) (texts : Texts) (ports : Ports)

/-- The pool after an interleaving of calls. -/
def gatewayRun (moves : List (Move GatewayCall)) : GatewayPool :=
  (Pool.start State.init).run (GatewayCall.program sha texts ports) moves

/-- The steps of an interleaving. -/
def gatewayEvents (moves : List (Move GatewayCall)) : List GatewayEvent :=
  (Pool.start State.init).events (GatewayCall.program sha texts ports) moves

end System

/-! ## Phases -/

inductive Phase where
  | free (call : GatewayCall)
  | authorised (a : InvokeCall) (peer : TrustEntry)
  | requested (a : InvokeCall) (peer : TrustEntry) (p : InvocationProjection)
  | claimed (a : InvokeCall) (peer : TrustEntry) (p : InvocationProjection)
  | answered (a : InvokeCall) (peer : TrustEntry) (p : InvocationProjection) (task : TaskContract)
    (answer : Except Failure PeerResult)
  | settled (a : InvokeCall) (peer : TrustEntry) (task : TaskContract)
    (answer : Except Failure PeerResult)
  | holding (operationId : String) (p : InvocationProjection)
  | reading (a : ReconcileCall) (p : InvocationProjection)
  | observed (a : ReconcileCall) (p : InvocationProjection) (result : PeerResult)
  | reconciled (a : ReconcileCall) (result : PeerResult)
  | closing

def GatewayCall.operationId : GatewayCall → String
  | .invoke a => a.operationId
  | .reconcile a => a.operationId
  | .cancel a => a.operationId

/-- The phase is one of this call. -/
def Phase.Of (call : GatewayCall) : Phase → Prop
  | .free call' => call' = call
  | .authorised a _ => call = .invoke a
  | .requested a _ _ => call = .invoke a
  | .claimed a _ _ => call = .invoke a
  | .answered a _ _ _ _ => call = .invoke a
  | .settled a _ _ _ => call = .invoke a
  | .holding operationId _ => call.operationId = operationId
  | .reading a _ => call = .reconcile a
  | .observed a _ _ => call = .reconcile a
  | .reconciled a _ => call = .reconcile a
  | .closing => True

/-- The ledger is the same. -/
structure Same (s s' : State) : Prop where
  facts : s'.facts = s.facts
  commands : s'.commands = s.commands
  projections : s'.projections = s.projections

theorem Same.refl (s : State) : Same s s := ⟨rfl, rfl, rfl⟩

/-- Whether a step is none of those that a phase knows. -/
def GatewayStep.plain : GatewayStep → Bool
  | .append _ | .transportInvoke _ _ | .transportReconcile _ _ => false
  | _ => true

/-- The append that follows the peer's answer. -/
inductive Concludes (sha : Sha256) (texts : Texts) (a : InvokeCall) (claimed : InvocationProjection) :
    Except Failure PeerResult → AppendCall → Prop
  | ambiguous (e : Failure) (now : Datetime) (he : e.kind ∈ ambiguousKinds) :
    Concludes sha texts a claimed (.error e) (a.ambiguousCall claimed now)
  | failed (e : Failure) (now : Datetime) (he : e.kind ∉ ambiguousKinds) :
    Concludes sha texts a claimed (.error e) (a.failedCall claimed now)
  | succeeded (result : PeerResult) (d : Digest) (now : Datetime)
    (hd : digestValue sha texts (resultDocument result) = .ok d) :
    Concludes sha texts a claimed (.ok result) (a.succeededCall claimed result.1 result.2 d now)

/-- The phase after an append that was accepted or refused. -/
def thenPhase (r : Except Failure InteroperabilityFact) (next : Phase) : Phase :=
  match r with
  | .ok _ => next
  | .error _ => .closing

/-- The operation is claimed, and nothing stops the call before it concludes. -/
def Phase.Pending (sha : Sha256) (texts : Texts) : Phase → Prop
  | .claimed _ _ _ => True
  | .answered _ _ _ _ answer =>
    ∀ result, answer = .ok result → ∃ d, digestValue sha texts (resultDocument result) = .ok d
  | _ => False

/-- One step of a call. -/
inductive Advance (sha : Sha256) (texts : Texts) (ports : Ports) :
    Phase → GatewayStep → State → State → Phase → Prop
  | plain {φ label s s'} (hlabel : label.plain = true) (hsame : Same s s') :
    Advance sha texts ports φ label s s' φ
  | authorise {label s s'} (a : InvokeCall) (peer : TrustEntry)
    (hlabel : label = .authorize peer a.capability) (hsame : Same s s') :
    Advance sha texts ports (.free (.invoke a)) label s s' (.authorised a peer)
  | hold {φ s} (operationId : String) (p : InvocationProjection)
    (hof : ∀ call, φ.Of call → call.operationId = operationId)
    (hfree : ¬φ.Pending sha texts) (hread : s.projections operationId = some p) :
    Advance sha texts ports φ (.projection operationId) s s (.holding operationId p)
  | read {s} (a : ReconcileCall) (p : InvocationProjection)
    (hread : s.projections a.operationId = some p) :
    Advance sha texts ports (.free (.reconcile a)) (.projection a.operationId) s s (.reading a p)
  | request {s s'} (a : InvokeCall) (peer : TrustEntry) (task : TaskContract)
    (p : InvocationProjection) (r : Except Failure InteroperabilityFact)
    (hstate : p.state = .requested) (hversion : p.version = 1) (hpeer : p.peerId.val = a.peerId)
    (hfence : p.fenceToken.val = a.fenceToken) (hoperation : p.operationId.val = a.operationId)
    (hrun : append sha texts (a.requestedCall task p) s = (r, s')) :
    Advance sha texts ports (.authorised a peer) (.append (a.requestedCall task p)) s s'
      (thenPhase r (.requested a peer p))
  | claim {s s'} (a : InvokeCall) (peer : TrustEntry) (p : InvocationProjection) (now : Datetime)
    (r : Except Failure InteroperabilityFact)
    (hrun : append sha texts (a.claimedCall (p.claim now)) s = (r, s')) :
    Advance sha texts ports (.requested a peer p) (.append (a.claimedCall (p.claim now))) s s'
      (thenPhase r (.claimed a peer (p.claim now)))
  | call {s s'} (a : InvokeCall) (peer : TrustEntry) (p : InvocationProjection) (task : TaskContract)
    (htask : task.taskId.val = "interop-task-" ++ a.operationId) (hsame : Same s s') :
    Advance sha texts ports (.claimed a peer p) (.transportInvoke peer task) s s'
      (.answered a peer p task (validated sha texts peer a.capability task
        (ports.invoke peer task a.message a.timeoutSeconds s.tick)))
  | conclude {s s'} (a : InvokeCall) (peer : TrustEntry) (p : InvocationProjection)
    (task : TaskContract) (answer : Except Failure PeerResult) (c : AppendCall)
    (r : Except Failure InteroperabilityFact) (hc : Concludes sha texts a p answer c)
    (hrun : append sha texts c s = (r, s')) :
    Advance sha texts ports (.answered a peer p task answer) (.append c) s s'
      (thenPhase r (.settled a peer task answer))
  | cancelRequest {s s'} (a : CancelCall) (p : InvocationProjection) (now : Datetime)
    (r : Except Failure InteroperabilityFact) (hopen : p.state ∉ terminalStates)
    (hrun : append sha texts (a.requestedCall p now) s = (r, s')) :
    Advance sha texts ports (.holding a.operationId p) (.append (a.requestedCall p now)) s s' .closing
  | cancelled {s s'} (a : CancelCall) (p : InvocationProjection) (status : StatusContract)
    (now : Datetime) (r : Except Failure InteroperabilityFact) (hversion : 1 ≤ p.version)
    (hrun : append sha texts (a.confirmedCall p status now) s = (r, s')) :
    Advance sha texts ports .closing (.append (a.confirmedCall p status now)) s s' .closing
  | observe {s s'} (a : ReconcileCall) (p : InvocationProjection) (peer : TrustEntry)
    (task : TaskContract) (result : PeerResult)
    (hanswer : ports.reconcile peer task a.timeoutSeconds s.tick = .ok result) (hsame : Same s s') :
    Advance sha texts ports (.reading a p) (.transportReconcile peer task) s s' (.observed a p result)
  | unobserved {s s'} (a : ReconcileCall) (p : InvocationProjection) (peer : TrustEntry)
    (task : TaskContract) (hsame : Same s s') :
    Advance sha texts ports (.reading a p) (.transportReconcile peer task) s s' .closing
  | reconcile {s s'} (a : ReconcileCall) (p : InvocationProjection) (result : PeerResult)
    (d : Digest) (now : Datetime) (r : Except Failure InteroperabilityFact)
    (hopen : p.state = .ambiguous)
    (hconclusive : result.1.state = .completed ∨ result.1.state = .failed)
    (hrun : append sha texts (a.reconciledCall p result.1 result.2 d now) s = (r, s')) :
    Advance sha texts ports (.observed a p result)
      (.append (a.reconciledCall p result.1 result.2 d now)) s s' (thenPhase r (.reconciled a result))

/-- What a call returns, by the phase it ends in. -/
def Returns : Except Failure InvocationResult → Phase → Prop
  | .error _, _ => True
  | .ok r, phase =>
    r.artifacts = [] ∨ (∃ a peer task status, phase = .settled a peer task (.ok (status, r.artifacts))) ∨
      ∃ a status, phase = .reconciled a (status, r.artifacts)

/-- How a call ends. -/
structure Ends (sha : Sha256) (texts : Texts) (r : Except Failure InvocationResult) (φ : Phase) :
    Prop where
  returns : Returns r φ
  landed : ¬φ.Pending sha texts

/-! ## The programs -/

section Programs

variable {sha : Sha256} {texts : Texts} {ports : Ports} {α β : Type} {φ : Phase}
  {f : α → Program β} {last : Except Failure β → Phase → Prop}

abbrev OnWay (sha : Sha256) (texts : Texts) (ports : Ports) (p : Program InvocationResult)
    (φ : Phase) : Prop :=
  Follows (Advance sha texts ports) (Ends sha texts) p φ

theorem ends_error {e : Failure} (h : ¬φ.Pending sha texts) : Ends sha texts (.error e) φ := ⟨trivial, h⟩

theorem same_ask {answer : Nat → Except Failure α} {s : State} :
    Exec.Sat (ask answer) s (fun a s' => Same s s' ∧ answer s.tick = .ok a)
      (fun e s' => Same s s' ∧ answer s.tick = .error e) := by
  unfold ask
  rw [Exec.sat_bind, Exec.sat_read, Exec.sat_bind, Exec.sat_modify, Exec.sat_lift]
  exact ⟨fun a ha => ⟨⟨rfl, rfl, rfl⟩, ha⟩, fun e he => ⟨⟨rfl, rfl, rfl⟩, he⟩⟩

theorem same_reserve {limits : Limits} {tenantRef reservationId : String} {costUnits : Int} {s : State} :
    Exec.Sat (reserve limits tenantRef reservationId costUnits) s (fun _ s' => Same s s')
      (fun _ s' => Same s s') := by
  unfold reserve
  refine Exec.Sat.check (fun _ => Same.refl s) fun _ => ?_
  rw [Exec.sat_bind, Exec.sat_read]
  cases s.reservations reservationId with
  | some existing =>
    rw [Exec.sat_require]
    exact ⟨fun _ => Same.refl s, fun _ => Same.refl s⟩
  | none => exact Exec.Sat.check (fun _ => Same.refl s) fun _ => ⟨rfl, rfl, rfl⟩

theorem same_allow {limits : Limits} {cooled : Nat → Nat → Bool} {peerId : String} {s : State} :
    Exec.Sat (allow limits cooled peerId) s (fun _ s' => Same s s') (fun _ s' => Same s s') := by
  unfold allow
  rw [Exec.sat_bind, Exec.sat_read]
  split
  · exact Same.refl s
  · rw [Exec.sat_bind, Exec.sat_modify]
    split
    · exact ⟨rfl, rfl, rfl⟩
    · exact ⟨rfl, rfl, rfl⟩

theorem same_recordCircuit {limits : Limits} {peerId : String} {success : Bool} {s : State} :
    Exec.Sat (recordCircuit limits peerId success) s (fun _ s' => Same s s') (fun _ _ => False) := by
  unfold recordCircuit
  rw [Exec.sat_modify]
  cases success with
  | true => exact ⟨rfl, rfl, rfl⟩
  | false => exact ⟨rfl, rfl, rfl⟩

/-- A plain step at the head of a program. -/
theorem follows_plain {label : GatewayStep} {x : GatewayAction α} (hlabel : label.plain = true)
    (hx : ∀ s, Exec.Sat x s (fun _ s' => Same s s') (fun _ s' => Same s s'))
    (hfail : ∀ e, last (.error e) φ) (hf : ∀ a, Follows (Advance sha texts ports) last (f a) φ) :
    Follows (Advance sha texts ports) last (atom label x >>= f) φ :=
  Follows.atom fun s => (hx s).mono (fun a _ h => ⟨φ, .plain hlabel h, hf a⟩)
    (fun e _ h => ⟨φ, .plain hlabel h, hfail e⟩)

theorem follows_ask {label : GatewayStep} {answer : Nat → Except Failure α}
    (hlabel : label.plain = true) (hfail : ∀ e, last (.error e) φ)
    (hf : ∀ a, Follows (Advance sha texts ports) last (f a) φ) :
    Follows (Advance sha texts ports) last (atom label (ask answer) >>= f) φ :=
  follows_plain hlabel (fun _ => same_ask.mono (fun _ _ h => h.1) fun _ _ h => h.1) hfail hf

/-- A plain step that never fails. -/
theorem follows_total {label : GatewayStep} {x : GatewayAction α} (hlabel : label.plain = true)
    (hx : ∀ s, Exec.Sat x s (fun _ s' => Same s s') (fun _ _ => False))
    (hf : ∀ a, Follows (Advance sha texts ports) last (f a) φ) :
    Follows (Advance sha texts ports) last (atom label x >>= f) φ :=
  Follows.atom fun s => (hx s).mono (fun a _ h => ⟨φ, .plain hlabel h, hf a⟩) fun _ _ h => h.elim

/-- An append at the head of a program: how it comes out is its phase's affair. -/
theorem follows_append {c : AppendCall} {f : Unit → Program β} (next : Phase)
    (hok : ∀ s r s', append sha texts c s = (r, s') →
      Advance sha texts ports φ (.append c) s s' (thenPhase r next))
    (hfail : ∀ e, last (.error e) .closing) (hf : Follows (Advance sha texts ports) last (f ()) next) :
    Follows (Advance sha texts ports) last (appendFact sha texts c >>= f) φ := by
  unfold appendFact
  refine Follows.atom fun s => ?_
  rw [Exec.sat_bind]
  unfold Exec.Sat
  rcases hrun : append sha texts c s with ⟨r, s'⟩
  cases r with
  | ok fact => exact ⟨next, hok s (.ok fact) s' hrun, hf⟩
  | error e => exact ⟨.closing, hok s (.error e) s' hrun, hfail e⟩

theorem follows_clock {f : Datetime → Program β}
    (hf : ∀ now, Follows (Advance sha texts ports) last (f now) φ) :
    Follows (Advance sha texts ports) last (clock ports >>= f) φ :=
  follows_total rfl (fun _ => same_ask.mono (fun _ _ h => h.1) fun _ _ h => by cases h.2) hf

theorem ends_nil {r : InvocationResult} (h : r.artifacts = []) (hφ : ¬φ.Pending sha texts) :
    Ends sha texts (.ok r) φ := ⟨.inl h, hφ⟩

/-- `cancel` in any phase it can be called in: it holds the projection that it reads. -/
theorem onWay_cancel (a : CancelCall) (hof : ∀ call, φ.Of call → call.operationId = a.operationId)
    (hφ : ¬φ.Pending sha texts) : OnWay sha texts ports (cancel sha texts ports a) φ := by
  unfold OnWay cancel readProjection
  refine Follows.atom fun s => ?_
  show ∃ phase', _ ∧ _
  cases hread : s.projections a.operationId with
  | none => exact ⟨φ, .plain rfl (Same.refl s), ends_error hφ⟩
  | some current =>
    refine ⟨.holding a.operationId current, .hold _ _ hof hφ hread, ?_⟩
    refine Follows.check (fun _ => ends_error id) fun _ => ?_
    refine Follows.check (fun _ => ends_error id) fun hopen => follows_clock fun now => ?_
    refine follows_ask rfl (fun _ => ends_error id) fun peer => ?_
    cases peer with
    | none => exact ends_error id
    | some peer =>
      refine follows_append .closing (fun s r s' hrun => ?_) (fun _ => ends_error id) ?_
      · cases r with
        | ok fact => exact .cancelRequest a current now _ hopen hrun
        | error e => exact .cancelRequest a current now _ hopen hrun
      refine Follows.attempt (fun _ _ => ends_error id) fun task _ => ?_
      refine follows_ask rfl (fun _ => ends_error id) fun status => ?_
      refine Follows.check (fun _ => ends_error id) fun _ => follows_clock fun cancelledAt => ?_
      refine follows_append .closing (fun s r s' hrun => ?_) (fun _ => ends_error id) (ends_nil rfl id)
      cases r with
      | ok fact => exact .cancelled a _ status cancelledAt _ (Nat.succ_pos _) hrun
      | error e => exact .cancelled a _ status cancelledAt _ (Nat.succ_pos _) hrun

theorem ends_checked {r : InvocationResult} (h : Ends sha texts (.ok r) φ) :
    Ends sha texts r.checked φ := by
  unfold InvocationResult.checked
  split
  · exact ends_error h.landed
  · exact h

theorem onWay_reconcile (a : ReconcileCall) :
    OnWay sha texts ports (reconcile sha texts ports a) (.free (.reconcile a)) := by
  unfold OnWay reconcile readProjection
  refine Follows.atom fun s => ?_
  show ∃ phase', _ ∧ _
  cases hread : s.projections a.operationId with
  | none => exact ⟨_, .plain rfl (Same.refl s), ends_error id⟩
  | some current =>
    refine ⟨.reading a current, .read _ _ hread, ?_⟩
    refine Follows.check (fun _ => ends_error id) fun hopen => ?_
    refine Follows.check (fun _ => ends_error id) fun _ => follows_clock fun now => ?_
    refine follows_ask rfl (fun _ => ends_error id) fun peer => ?_
    refine Follows.attempt (fun _ _ => ends_error id) fun _ _ => ?_
    refine Follows.check (fun _ => ends_error id) fun _ => ?_
    refine Follows.attempt (fun _ _ => ends_error id) fun task _ => ?_
    refine Follows.atom fun s => same_ask.mono (fun result s' h => ?_) fun e s' h => ?_
    · refine ⟨.observed a current result, .observe a current peer task result h.2 h.1, ?_⟩
      obtain ⟨status, artifacts⟩ := result
      refine Follows.check (fun _ => ends_error id) fun hconclusive => ?_
      refine Follows.attempt (fun _ _ => ends_error id) fun d _ => ?_
      refine follows_append (.reconciled a (status, artifacts))
        (fun s r s' hrun => .reconcile a current _ d now r hopen hconclusive hrun)
        (fun _ => ends_error id) ?_
      exact ends_checked ⟨.inr (.inr ⟨a, status, rfl⟩), id⟩
    · exact ⟨.closing, .unobserved a current peer task h.1, ends_error id⟩

theorem checked_ok {r r' : InvocationResult} (h : r.checked = .ok r') : r' = r := by
  unfold InvocationResult.checked at h
  split at h
  · cases h
  · exact (Except.ok.inj h).symm

/-- What a replay reports: the state of the projection, and no artifacts. -/
theorem replay_ok {a : InvokeCall} {existing : InvocationProjection} {requestDigest : Digest}
    {now : Datetime} {r : InvocationResult}
    (h : replay sha texts a existing requestDigest now = .ok r) :
    r.replayed = true ∧ r.artifacts = [] ∧ r.status.state = taskState existing.state ∧
      r.status.progressPercent = (if existing.state = .succeeded then 100 else 0) := by
  unfold replay at h
  split at h
  · cases h
  split at h
  · cases h
  split at h
  · cases h
  obtain ⟨statusDigest, -, h⟩ := except_bind_ok.mp h
  by_cases hversion : ¬(1 ≤ existing.version ∧ existing.version ≤ 10000)
  · rw [if_pos hversion] at h
    cases h
  · rw [if_neg hversion] at h
    obtain ⟨task, -, h⟩ := except_bind_ok.mp h
    rw [checked_ok h]
    exact ⟨rfl, rfl, rfl, rfl⟩

theorem replay_ends {a : InvokeCall} {existing : InvocationProjection} {requestDigest : Digest}
    {now : Datetime} (hφ : ¬φ.Pending sha texts) :
    Ends sha texts (replay sha texts a existing requestDigest now) φ := by
  cases hreplay : replay sha texts a existing requestDigest now with
  | error e => exact ends_error hφ
  | ok r => exact ends_nil (replay_ok hreplay).2.1 hφ

/-- From the peer's answer to the end. -/
theorem onWay_conclude (a : InvokeCall) (peer : TrustEntry) (task : TaskContract)
    (claimed : InvocationProjection) (answer : Except Failure PeerResult) :
    OnWay sha texts ports (conclude sha texts ports a task claimed answer)
      (.answered a peer claimed task answer) := by
  unfold OnWay conclude record
  have hrecord : ∀ success s, Exec.Sat (recordCircuit ports.limits a.peerId success) s
      (fun _ s' => Same s s') (fun _ _ => False) := fun _ _ => same_recordCircuit
  cases answer with
  | error e =>
    dsimp only
    split
    · rename_i he
      refine follows_total rfl (hrecord false) fun _ => follows_clock fun now => ?_
      exact follows_append _
        (fun s r s' hrun => .conclude a peer claimed task _ _ r (.ambiguous e now he) hrun)
        (fun _ => ends_error id) (ends_error id)
    · rename_i he
      refine follows_total rfl (hrecord false) fun _ => follows_clock fun now => ?_
      exact follows_append _
        (fun s r s' hrun => .conclude a peer claimed task _ _ r (.failed e now he) hrun)
        (fun _ => ends_error id) (ends_error id)
  | ok result =>
    obtain ⟨status, artifacts⟩ := result
    refine follows_total rfl (hrecord true) fun _ => ?_
    refine Follows.attempt (fun e he => ends_error fun hpending => ?_) fun d hd => ?_
    · obtain ⟨d, hd⟩ := hpending _ rfl
      rw [hd] at he
      cases he
    refine follows_clock fun now => ?_
    refine follows_append _
      (fun s r s' hrun => .conclude a peer claimed task _ _ r (.succeeded _ d now hd) hrun)
      (fun _ => ends_error id) ?_
    exact ends_checked ⟨.inr (.inl ⟨a, peer, task, status, rfl⟩), id⟩

/-- The projection of a new operation. -/
theorem newProjection_fields {a : InvokeCall} {peer : TrustEntry} {requestDigest trustDigest : Digest}
    {policy : PolicyContract} {now : Datetime} {p : InvocationProjection}
    (h : a.newProjection peer requestDigest trustDigest policy now = .ok p) :
    p.state = .requested ∧ p.version = 1 ∧ p.peerId.val = a.peerId ∧
      p.fenceToken.val = a.fenceToken ∧ p.operationId.val = a.operationId := by
  unfold InvokeCall.newProjection at h
  obtain ⟨operationId, hoperation, h⟩ := except_bind_ok.mp h
  obtain ⟨peerId, hpeer, h⟩ := except_bind_ok.mp h
  obtain ⟨fenceToken, hfence, h⟩ := except_bind_ok.mp h
  cases h
  exact ⟨rfl, rfl, parseIdentifier_ok hpeer, parseIdentifier_ok hfence, parseIdentifier_ok hoperation⟩

theorem newTask_id {a : InvokeCall} {peer : TrustEntry} {requestDigest : Digest}
    {policy : PolicyContract} {now : Datetime} {task : TaskContract}
    (h : a.newTask sha texts peer requestDigest policy now = .ok task) :
    task.taskId.val = "interop-task-" ++ a.operationId := by
  unfold InvokeCall.newTask at h
  obtain ⟨digest, -, h⟩ := except_bind_ok.mp h
  obtain ⟨taskId, htask, h⟩ := except_bind_ok.mp h
  obtain ⟨peerId, -, h⟩ := except_bind_ok.mp h
  obtain ⟨fenceToken, -, h⟩ := except_bind_ok.mp h
  unfold TaskContract.checked at h
  split at h
  · rw [← Except.ok.inj h]
    exact parseIdentifier_ok htask
  · cases h

/-- From the request on. -/
theorem onWay_claimAndCall (a : InvokeCall) (peer : TrustEntry) (task : TaskContract)
    (p : InvocationProjection) (htask : task.taskId.val = "interop-task-" ++ a.operationId) :
    OnWay sha texts ports (claimAndCall sha texts ports a peer task p) (.requested a peer p) := by
  unfold OnWay claimAndCall
  refine follows_ask rfl (fun _ => ends_error id) fun cancelled => ?_
  split
  · exact onWay_cancel _ (fun call hcall => by rw [show call = .invoke a from hcall]; rfl) id
  · refine follows_clock fun claimedAt => ?_
    refine follows_append _ (fun s r s' hrun => .claim a peer p claimedAt r hrun)
      (fun _ => ends_error id) ?_
    refine Follows.atom fun s => ?_
    rw [Exec.sat_reify]
    have hcall : ∀ s', Same s s' → ∃ phase', Advance sha texts ports (.claimed a peer (p.claim claimedAt))
        (.transportInvoke peer task) s s' phase' ∧
        OnWay sha texts ports (conclude sha texts ports a task (p.claim claimedAt)
          (validated sha texts peer a.capability task
            (ports.invoke peer task a.message a.timeoutSeconds s.tick))) phase' :=
      fun s' hsame => ⟨_, .call a peer _ task htask hsame, onWay_conclude a peer task _ _⟩
    unfold ask
    rw [Exec.sat_bind, Exec.sat_read, Exec.sat_bind, Exec.sat_modify, Exec.sat_lift]
    constructor
    · intro result hresult
      have hnext := hcall { s with tick := s.tick + 1 } ⟨rfl, rfl, rfl⟩
      rw [hresult] at hnext
      exact hnext
    · intro e he
      have hnext := hcall { s with tick := s.tick + 1 } ⟨rfl, rfl, rfl⟩
      rw [he] at hnext
      exact hnext

theorem onWay_invokeNew (a : InvokeCall) (requestDigest : Digest) (now : Datetime) :
    OnWay sha texts ports (invokeNew sha texts ports a requestDigest now) (.free (.invoke a)) := by
  unfold OnWay invokeNew
  refine follows_ask rfl (fun _ => ends_error id) fun peer => ?_
  refine Follows.atom fun s => same_ask.mono (fun policy s' h => ?_)
    fun e s' h => ⟨_, .plain rfl h.1, ends_error id⟩
  refine ⟨.authorised a peer, .authorise a peer rfl h.1, ?_⟩
  refine Follows.check (fun _ => ends_error id) fun _ => ?_
  refine follows_plain rfl (fun _ => same_reserve) (fun _ => ends_error id) fun _ => ?_
  refine Follows.attempt (fun _ _ => ends_error id) fun trustDigest _ => ?_
  refine Follows.attempt (fun _ _ => ends_error id) fun task htask => ?_
  refine Follows.attempt (fun _ _ => ends_error id) fun p hp => ?_
  obtain ⟨hstate, hversion, hpeer, hfence, hoperation⟩ := newProjection_fields hp
  exact follows_append _
    (fun s r s' hrun => .request a peer task p r hstate hversion hpeer hfence hoperation hrun)
    (fun _ => ends_error id) (onWay_claimAndCall a peer task p (newTask_id htask))

theorem onWay_invoke (a : InvokeCall) :
    OnWay sha texts ports (invoke sha texts ports a) (.free (.invoke a)) := by
  unfold OnWay invoke readProjection
  refine Follows.check (fun _ => ends_error id) fun _ => ?_
  refine Follows.check (fun _ => ends_error id) fun _ => ?_
  refine follows_plain rfl (fun _ => same_allow) (fun _ => ends_error id) fun allowed => ?_
  refine Follows.check (fun _ => ends_error id) fun _ => follows_clock fun now => ?_
  refine Follows.attempt (fun _ _ => ends_error id) fun requestDigest _ => ?_
  refine Follows.atom fun s => ?_
  show ∃ phase', _ ∧ _
  cases hread : s.projections a.operationId with
  | none => exact ⟨_, .plain rfl (Same.refl s), onWay_invokeNew a requestDigest now⟩
  | some existing => exact ⟨_, .plain rfl (Same.refl s), replay_ends id⟩

/-- **Every call goes from phase to phase.** -/
theorem follows_program (call : GatewayCall) :
    OnWay sha texts ports (call.program sha texts ports) (.free call) := by
  cases call with
  | invoke a => exact onWay_invoke a
  | reconcile a => exact onWay_reconcile a
  | cancel a =>
    exact onWay_cancel a (fun call hcall => by rw [← show GatewayCall.cancel a = call from hcall]; rfl) id

end Programs

/-! ## What a step does to the ledger -/

section Steps

variable {sha : Sha256} {texts : Texts} {ports : Ports} {s s' : State} {φ φ' : Phase}
  {label : GatewayStep}

/-- A fact is recorded, with the next projection of its operation. -/
structure Recorded (sha : Sha256) (texts : Texts) (s : State) (c : AppendCall) (p : InvocationProjection)
    (fact : InteroperabilityFact) (s' : State) : Prop where
  projection : c.projection = some p
  new : s.commands c.commandRef = none
  built : buildFact sha texts c (s.facts c.operationId) = .ok fact
  version : p.version = s.nextVersion c.operationId
  after : ∃ d, s' = s.record c fact d

theorem Recorded.facts {c : AppendCall} {p : InvocationProjection} {fact : InteroperabilityFact}
    (h : Recorded sha texts s c p fact s') (op : String) :
    s'.facts op = if op = c.operationId then s.facts op ++ [fact] else s.facts op := by
  obtain ⟨d, rfl⟩ := h.after
  show Function.update s.facts c.operationId _ op = _
  rw [Function.update_apply]
  split
  · rename_i hop
    rw [hop]
  · rfl

theorem Recorded.projections {c : AppendCall} {p : InvocationProjection} {fact : InteroperabilityFact}
    (h : Recorded sha texts s c p fact s') (op : String) :
    s'.projections op = if op = c.operationId then some p else s.projections op := by
  obtain ⟨d, rfl⟩ := h.after
  show (c.projection.elim s.projections fun p => Function.update s.projections c.operationId (some p)) op = _
  rw [h.projection]
  exact Function.update_apply _ _ _ _

/-- An append of the gateway is refused, is known, or is recorded. -/
theorem append_cases {c : AppendCall} {p : InvocationProjection} (hp : c.projection = some p)
    {r : Except Failure InteroperabilityFact} (hrun : append sha texts c s = (r, s')) :
    (∃ e, r = .error e ∧ s' = s) ∨
      (∃ fact current, r = .ok fact ∧ s' = s ∧ fact ∈ s.facts c.operationId ∧
        fact.commandRef.val = c.commandRef ∧ s.projections c.operationId = some current ∧
        p.version = current.version + 1) ∨
      ∃ fact, r = .ok fact ∧ Recorded sha texts s c p fact s' := by
  have hout := append_outcome sha texts s c
  rw [hrun] at hout
  cases hout with
  | recorded fact d hnew hfact hversion =>
    exact .inr (.inr ⟨fact, rfl, hp, hnew, hfact, hversion p hp, d, rfl⟩)
  | known fact hmem hcommand hversion =>
    obtain ⟨current, hcurrent, hnext⟩ := hversion p hp
    exact .inr (.inl ⟨fact, current, rfl, rfl, hmem, hcommand, hcurrent, hnext⟩)
  | refused e => exact .inl ⟨e, rfl, rfl⟩

/-- The states a fact of this type can leave an operation in. -/
def Leaves : InteroperabilityFactType → InvocationState → Prop
  | .invocationRequested, state => state = .requested
  | .invocationClaimed, state => state = .claimed
  | .invocationSucceeded, state => state = .succeeded
  | .invocationFailed, state => state = .failed
  | .invocationAmbiguous, state => state = .ambiguous
  | .invocationReconciled, state => state = .reconciled
  | .taskCancelRequested, state => state ∉ terminalStates
  | .taskCancelled, state => state = .cancelled
  | _, _ => False

theorem Concludes.projection {a : InvokeCall} {claimed : InvocationProjection}
    {answer : Except Failure PeerResult} {c : AppendCall} (h : Concludes sha texts a claimed answer c) :
    ∃ p, c.projection = some p ∧ p.version = 3 ∧ Leaves c.factType p.state := by
  cases h with
  | ambiguous e now he => exact ⟨_, rfl, rfl, rfl⟩
  | failed e now he => exact ⟨_, rfl, rfl, rfl⟩
  | succeeded result d now hd => exact ⟨_, rfl, rfl, rfl⟩

/-- **A step leaves the ledger alone, or records one fact with the next projection.** -/
theorem Advance.ledger (h : Advance sha texts ports φ label s s' φ') :
    Same s s' ∨ ∃ c p fact, label = .append c ∧ Leaves c.factType p.state ∧
      Recorded sha texts s c p fact s' := by
  have happend : ∀ {c : AppendCall} {p : InvocationProjection} {r : Except Failure InteroperabilityFact},
      c.projection = some p → Leaves c.factType p.state → append sha texts c s = (r, s') →
      Same s s' ∨ ∃ c' p fact, GatewayStep.append c = .append c' ∧ Leaves c'.factType p.state ∧
        Recorded sha texts s c' p fact s' := by
    intro c p r hp hleaves hrun
    rcases append_cases hp hrun with ⟨e, -, rfl⟩ | ⟨fact, current, -, rfl, -⟩ | ⟨fact, -, hrecorded⟩
    · exact .inl (Same.refl _)
    · exact .inl (Same.refl _)
    · exact .inr ⟨c, p, fact, rfl, hleaves, hrecorded⟩
  cases h with
  | plain hlabel hsame => exact .inl hsame
  | authorise a peer hlabel hsame => exact .inl hsame
  | hold operationId p hof hfree hread => exact .inl (Same.refl s)
  | read a p hread => exact .inl (Same.refl s)
  | request a peer task p r hstate hversion hpeer hfence hoperation hrun => exact happend rfl hstate hrun
  | claim a peer p now r hrun => exact happend rfl rfl hrun
  | call a peer p task htask hsame => exact .inl hsame
  | conclude a peer p task answer c r hc hrun =>
    obtain ⟨p', hp', -, hleaves⟩ := hc.projection
    exact happend hp' hleaves hrun
  | cancelRequest a p now r hopen hrun => exact happend rfl hopen hrun
  | cancelled a p status now r hversion hrun => exact happend rfl rfl hrun
  | observe a p peer task result hanswer hsame => exact .inl hsame
  | unobserved a p peer task hsame => exact .inl hsame
  | reconcile a p result d now r hopen hconclusive hrun => exact happend rfl rfl hrun

/-- A step stays in the phases of its call. -/
theorem Advance.of {call : GatewayCall} (h : Advance sha texts ports φ label s s' φ')
    (hφ : φ.Of call) : φ'.Of call := by
  cases h with
  | plain hlabel hsame => exact hφ
  | authorise a peer hlabel hsame => exact Eq.symm hφ
  | hold operationId p hof hfree hread => exact hof call hφ
  | read a p hread => exact Eq.symm hφ
  | request a peer task p r hstate hversion hpeer hfence hoperation hrun =>
    cases r with
    | ok fact => exact hφ
    | error e => exact trivial
  | claim a peer p now r hrun =>
    cases r with
    | ok fact => exact hφ
    | error e => exact trivial
  | call a peer p task htask hsame => exact hφ
  | conclude a peer p task answer c r hc hrun =>
    cases r with
    | ok fact => exact hφ
    | error e => exact trivial
  | cancelRequest a p now r hopen hrun => exact trivial
  | cancelled a p status now r hversion hrun => exact trivial
  | observe a p peer task result hanswer hsame => exact hφ
  | unobserved a p peer task hsame => exact trivial
  | reconcile a p result d now r hopen hconclusive hrun =>
    cases r with
    | ok fact => exact hφ
    | error e => exact trivial

/-! ## Versions -/

/-- The projection of an operation counts its facts. -/
def Versioned (s : State) : Prop :=
  ∀ op, (s.facts op).length = (s.projections op).elim 0 (·.version) ∧
    ∀ p, s.projections op = some p → 1 ≤ p.version

theorem Versioned.step (hs : Versioned s) (h : Advance sha texts ports φ label s s' φ') :
    Versioned s' := by
  rcases h.ledger with hsame | ⟨c, p, fact, -, -, hrecorded⟩
  · intro op
    rw [hsame.facts, hsame.projections]
    exact hs op
  · intro op
    rw [hrecorded.facts, hrecorded.projections]
    split
    · rename_i hop
      subst hop
      have hlength := (hs c.operationId).1
      have hversion := hrecorded.version
      unfold State.nextVersion at hversion
      cases hcurrent : s.projections c.operationId with
      | none =>
        rw [hcurrent, Option.elim_none] at hlength hversion
        refine ⟨?_, fun p' hp' => ?_⟩
        · rw [List.length_append, List.length_singleton, hlength, Option.elim_some]
          omega
        · cases hp'
          omega
      | some current =>
        rw [hcurrent, Option.elim_some] at hlength hversion
        refine ⟨?_, fun p' hp' => ?_⟩
        · rw [List.length_append, List.length_singleton, hlength, Option.elim_some]
          omega
        · cases hp'
          omega
    · exact hs op

/-- Facts stay where they are, and an operation stays known. -/
theorem Advance.grows (h : Advance sha texts ports φ label s s' φ') (op : String) :
    s.facts op <+: s'.facts op ∧ (s.projections op ≠ none → s'.projections op ≠ none) := by
  rcases h.ledger with hsame | ⟨c, p, fact, -, -, hrecorded⟩
  · rw [hsame.facts, hsame.projections]
    exact ⟨List.prefix_rfl, id⟩
  · rw [hrecorded.facts, hrecorded.projections]
    split
    · exact ⟨List.prefix_append _ _, fun _ => nofun⟩
    · exact ⟨List.prefix_rfl, id⟩

theorem versioned_init : Versioned State.init := by
  intro op
  refine ⟨rfl, fun p hp => ?_⟩
  exact absurd (show (none : Option InvocationProjection) = some p from hp) (Option.some_ne_none p).symm

/-- The first version of an operation means that nobody has recorded it. -/
theorem Versioned.first (hs : Versioned s) {op : String} (h : s.nextVersion op = 1) :
    s.projections op = none := by
  unfold State.nextVersion at h
  cases hcurrent : s.projections op with
  | none => rfl
  | some current =>
    rw [hcurrent, Option.elim_some] at h
    have hpos := (hs op).2 current hcurrent
    omega

/-- A projection that a call has read has a version. -/
def Phase.Positive : Phase → Prop
  | .holding _ p => 1 ≤ p.version
  | .reading _ p => 1 ≤ p.version
  | .observed _ p _ => 1 ≤ p.version
  | _ => True

theorem Advance.positive (hs : Versioned s) (h : Advance sha texts ports φ label s s' φ')
    (hφ : φ.Positive) : φ'.Positive := by
  cases h with
  | plain hlabel hsame => exact hφ
  | authorise a peer hlabel hsame => exact trivial
  | hold operationId p hof hfree hread => exact (hs operationId).2 p hread
  | read a p hread => exact (hs a.operationId).2 p hread
  | request a peer task p r hstate hversion hpeer hfence hoperation hrun =>
    cases r with
    | ok fact => exact trivial
    | error e => exact trivial
  | claim a peer p now r hrun =>
    cases r with
    | ok fact => exact trivial
    | error e => exact trivial
  | call a peer p task htask hsame => exact trivial
  | conclude a peer p task answer c r hc hrun =>
    cases r with
    | ok fact => exact trivial
    | error e => exact trivial
  | cancelRequest a p now r hopen hrun => exact trivial
  | cancelled a p status now r hversion hrun => exact trivial
  | observe a p peer task result hanswer hsame => exact hφ
  | unobserved a p peer task hsame => exact trivial
  | reconcile a p result d now r hopen hconclusive hrun =>
    cases r with
    | ok fact => exact trivial
    | error e => exact trivial

/-- **An operation becomes known by the request of an invocation only.** -/
theorem Advance.first (hs : Versioned s) (h : Advance sha texts ports φ label s s' φ')
    (hφ : φ.Positive) {op : String} (hnone : s.projections op = none) (hsome : s'.projections op ≠ none) :
    ∃ a peer task p fact, a.operationId = op ∧ φ = .authorised a peer ∧ φ' = .requested a peer p ∧
      label = .append (a.requestedCall task p) ∧ Recorded sha texts s (a.requestedCall task p) p fact s' := by
  have hsame : ¬Same s s' := fun hsame => hsome (by rw [hsame.projections]; exact hnone)
  -- what is recorded of the operation has version 1
  have hone : ∀ {c : AppendCall} {p : InvocationProjection} {r : Except Failure InteroperabilityFact},
      c.projection = some p → append sha texts c s = (r, s') →
      ∃ fact, r = .ok fact ∧ c.operationId = op ∧ p.version = 1 ∧ Recorded sha texts s c p fact s' := by
    intro c p r hp hrun
    rcases append_cases hp hrun with ⟨e, -, rfl⟩ | ⟨fact, current, -, rfl, -⟩ | ⟨fact, hr, hrecorded⟩
    · exact absurd (Same.refl _) hsame
    · exact absurd (Same.refl _) hsame
    · have hop : op = c.operationId := by
        by_contra hother
        refine hsome ?_
        rw [hrecorded.projections, if_neg hother]
        exact hnone
      refine ⟨fact, hr, hop.symm, ?_, hrecorded⟩
      rw [hrecorded.version, State.nextVersion, ← hop, hnone]
      rfl
  cases h with
  | plain hlabel hquiet => exact absurd hquiet hsame
  | authorise a peer hlabel hquiet => exact absurd hquiet hsame
  | hold operationId p hof hfree hread => exact absurd (Same.refl s) hsame
  | read a p hread => exact absurd (Same.refl s) hsame
  | request a peer task p r hstate hversion hpeer hfence hoperation hrun =>
    obtain ⟨fact, rfl, hop, -, hrecorded⟩ := hone rfl hrun
    exact ⟨a, peer, task, p, fact, hop, rfl, rfl, rfl, hrecorded⟩
  | claim a peer p now r hrun =>
    obtain ⟨fact, rfl, hop, hversion, hrecorded⟩ := hone rfl hrun
    have htwo : (p.claim now).version = 2 := rfl
    omega
  | call a peer p task htask hquiet => exact absurd hquiet hsame
  | conclude a peer p task answer c r hc hrun =>
    obtain ⟨p', hp', hthree, -⟩ := hc.projection
    obtain ⟨fact, rfl, hop, hversion, hrecorded⟩ := hone hp' hrun
    omega
  | cancelRequest a p now r hopen hrun =>
    obtain ⟨fact, rfl, hop, hversion, hrecorded⟩ := hone rfl hrun
    have hpos : 1 ≤ p.version := hφ
    have hnext : p.version + 1 = 1 := hversion
    omega
  | cancelled a p status now r hpos hrun =>
    obtain ⟨fact, rfl, hop, hversion, hrecorded⟩ := hone rfl hrun
    have hnext : p.version + 1 = 1 := hversion
    omega
  | observe a p peer task result hanswer hquiet => exact absurd hquiet hsame
  | unobserved a p peer task hquiet => exact absurd hquiet hsame
  | reconcile a p result d now r hopen hconclusive hrun =>
    obtain ⟨fact, rfl, hop, hversion, hrecorded⟩ := hone rfl hrun
    have hpos : 1 ≤ p.version := hφ
    have hnext : p.version + 1 = 1 := hversion
    omega

end Steps

/-- The invocation is ambiguous, and reconciled then. -/
def sampleMoves : List (Move GatewayCall) :=
  .start 0 (.invoke sampleInvoke) :: List.replicate 14 (.turn 0) ++
    .start 1 (.reconcile sampleReconcile) :: List.replicate 5 (.turn 1)

end Interop

end Aegis
