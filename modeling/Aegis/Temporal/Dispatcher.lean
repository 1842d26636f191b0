/-
  THE OUTBOX DISPATCHER: messages of the store sent to the workflow service.

  `dispatch` claims a batch, which CHARGES every message of it with an attempt, and then delivers the
  messages one by one.  Each delivery is settled by how it ended; an exception outside the handled
  ones, or the death of the worker, ends the loop and leaves the rest of the batch claimed, charged
  and untried.

  A run is a list of dispatch calls with ledger operations between them.  `invocations` are the
  deliveries a history has really made.  What a dead letter can be traced back to:
    * `dispatch_laws` -- when no delivery but the last of a batch cuts the loop, every charged attempt
      was a delivery, so a dead letter had a poison delivery or five deliveries of its own;
    * a delivery that returned leaves its message delivered for good, cut loops or not.
-/
import Mathlib
import Aegis.Durability.Outbox

namespace Aegis

namespace Temporal

open Durability

/-! ## The dispatcher -/

/-- How `_deliver` ends for one claim.  `poison` stands for `KeyError`, `PayloadRejected`,
    `TypeError`, `ValidationError` and `ValueError`; `unhandled` for any other exception. -/
inductive Delivery where
  | returned | poison | alreadyStarted | rpcError | unhandled | died
deriving DecidableEq, Repr

/-- The store call that settles a claim after its delivery, if the dispatcher gets to make one. -/
def settleCall (now : Datetime) (claim : DeliveryClaim) : Delivery → Option Op
  | .poison => some (.failOutbox claim "poison_payload" now true)
  | .alreadyStarted => some (.completeOutbox claim)
  | .rpcError =>
    some (.failOutbox claim "temporal_rpc_error"
      (now.addSeconds (min 30 (2 ^ claim.attempt : Nat))) false)
  | .returned => some (.completeOutbox claim)
  | .unhandled => none
  | .died => none

/-- What counts as delivered. -/
def Delivery.counts : Delivery → Bool
  | .returned => true
  | .alreadyStarted => true
  | _ => false

/-- One call of `_deliver`. -/
structure Invocation where
  claim : DeliveryClaim
  outcome : Delivery

/-- How a `dispatch` call ends. -/
inductive DispatchEnd where
  | returned (delivered : Nat)
  | raised (error : Error)
  | unhandled
  | died

/-- A `dispatch` call as seen from outside: the deliveries it made and how it ended. -/
structure Dispatched where
  invoked : List Invocation
  result : DispatchEnd

/-- The loop over the claims. -/
def dispatchLoop (sha : Sha256) (now : Datetime) (deliver : DeliveryClaim → Delivery) :
    List DeliveryClaim → Nat → Store → Dispatched × Store
  | [], delivered, s => ({ invoked := [], result := .returned delivered }, s)
  | claim :: claims, delivered, s =>
    match settleCall now claim (deliver claim) with
    | none =>
      ({ invoked := [⟨claim, deliver claim⟩],
         result := if deliver claim = .died then .died else .unhandled }, s)
    | some op =>
      match Durability.step sha s op with
      | (.error e, s') => ({ invoked := [⟨claim, deliver claim⟩], result := .raised e }, s')
      | (.ok _, s') =>
        let rest := dispatchLoop sha now deliver claims
          (if (deliver claim).counts = true then delivered + 1 else delivered) s'
        ({ rest.1 with invoked := ⟨claim, deliver claim⟩ :: rest.1.invoked }, rest.2)

/-- The claim call of a dispatch. -/
def claimCall (tenantId workerRef : String) (now : Datetime) (limit : Int) : Op :=
  .claimOutbox tenantId workerRef now (now.addSeconds 30) limit

/-- `dispatch`; `deliver` says how the delivery of each claim ends. -/
def dispatch (sha : Sha256) (tenantId workerRef : String) (now : Datetime) (limit : Int)
    (deliver : DeliveryClaim → Delivery) (s : Store) : Dispatched × Store :=
  match Durability.step sha s (claimCall tenantId workerRef now limit) with
  | (.error e, s') => ({ invoked := [], result := .raised e }, s')
  | (.ok result, s') => dispatchLoop sha now deliver (issuedBy (.ok result)) 0 s'

/-! ## Runs -/

/-- The calls of a run. -/
inductive Call where
  | ledger (op : Op)
  | dispatch (tenantId workerRef : String) (now : Datetime) (limit : Int)
      (deliver : DeliveryClaim → Delivery)

/-- A ledger operation that is not one of the outbox port, which only the dispatcher uses. -/
def Call.permitted : Call → Prop
  | .ledger op => op.settles = none ∧ op.claimTime = none
  | .dispatch .. => True

inductive CallResult where
  | ledger (result : Except Error Result)
  | dispatched (result : Dispatched)

/-- One call. -/
def step (sha : Sha256) (s : Store) : Call → CallResult × Store
  | .ledger op => (.ledger (Durability.step sha s op).1, (Durability.step sha s op).2)
  | .dispatch tenantId workerRef now limit deliver =>
    (.dispatched (dispatch sha tenantId workerRef now limit deliver s).1,
      (dispatch sha tenantId workerRef now limit deliver s).2)

abbrev HistoryEntry := Machine.Entry Store Call CallResult

def run (sha : Sha256) (calls : List Call) : Store := Machine.final (step sha) Store.empty calls

def history (sha : Sha256) (calls : List Call) : List HistoryEntry :=
  Machine.trace (step sha) Store.empty calls

/-- The deliveries a call made. -/
def invokedBy : CallResult → List Invocation
  | .ledger _ => []
  | .dispatched result => result.invoked

/-- The deliveries of a history, in order. -/
def invocations (h : List HistoryEntry) : List Invocation := h.flatMap fun e => invokedBy e.result

/-! ## What is asked of a run -/

/-- The delivery was one of the message under `k`. -/
def Invocation.isOf (i : Invocation) (k : DeliveryKey) : Prop := claimKey i.claim = k

/-- The dead letter is the message's own doing: a poison delivery, or five deliveries. -/
def OwnAccount (invoked : List Invocation) (k : DeliveryKey) : Prop :=
  (∃ i ∈ invoked, i.isOf k ∧ i.outcome = .poison) ∨
    ∀ attempt, 1 ≤ attempt → attempt ≤ 5 → ∃ i ∈ invoked, i.isOf k ∧ i.claim.attempt = attempt

/-- The delivery of a claim ends the loop without settling it. -/
def Delivery.cuts : Delivery → Bool
  | .unhandled => true
  | .died => true
  | _ => false

/-- No delivery before the last one of the batch cuts the loop. -/
def AllTried (deliver : DeliveryClaim → Delivery) (claims : List DeliveryClaim) : Prop :=
  ∀ claim ∈ claims.dropLast, (deliver claim).cuts = false

/-- The condition of a call in the store it starts from: a dispatch tries its whole batch. -/
def Call.triesAll (sha : Sha256) (s : Store) : Call → Prop
  | .ledger _ => True
  | .dispatch tenantId workerRef now limit deliver =>
    AllTried deliver (issuedBy (Durability.step sha s (claimCall tenantId workerRef now limit)).1)

/-! ## One settlement -/

variable {sha : Sha256} {s : Store}

/-- The record a delivery leaves: settled, or still claimed when the loop was cut. -/
def settledBy (now : Datetime) (claim : DeliveryClaim) (outcome : Delivery) (r : DeliveryRecord) :
    DeliveryRecord :=
  match outcome with
  | .returned => settledRecord r .delivered none none
  | .alreadyStarted => settledRecord r .delivered none none
  | .poison => settledRecord r .deadLetter (some "poison_payload") (some now)
  | .rpcError => settledRecord r
      (if maxDeliveryAttempts ≤ claim.attempt then .deadLetter else .pending)
      (some "temporal_rpc_error") (some (now.addSeconds (min 30 (2 ^ claim.attempt : Nat))))
  | .unhandled => r
  | .died => r

@[simp] theorem settledBy_attempts (now : Datetime) (claim : DeliveryClaim) (outcome : Delivery)
    (r : DeliveryRecord) : (settledBy now claim outcome r).attempts = r.attempts := by
  cases outcome with
  | _ => rfl

/-- The store with another record for the message of a claim. -/
def withRecord (claim : DeliveryClaim) (record : DeliveryRecord) (s : Store) : Store :=
  { s with deliveries := s.deliveries.insert (claimKey claim) record }

/-- An update of a claim that owns its record goes through. -/
theorem updateClaim_owned {claim : DeliveryClaim} {r : DeliveryRecord} {status : DeliveryStatus}
    {errorCode : Option String} {retryAt : Option Datetime}
    (hr : s.deliveries.lookup (claimKey claim) = some r) (howns : ownsClaim r claim) :
    updateClaim claim status errorCode retryAt s
      = (.ok (), withRecord claim (settledRecord r status errorCode retryAt) s) := by
  have h := updateClaim_sat claim status errorCode retryAt s
  revert h
  unfold Exec.Sat
  rcases updateClaim claim status errorCode retryAt s with ⟨result, s'⟩
  cases result with
  | ok v =>
    rintro ⟨r', hr', -, rfl⟩
    rw [hr] at hr'
    obtain rfl := Option.some.inj hr'
    rfl
  | error e =>
    rintro ⟨-, -, hno⟩
    exact absurd howns (hno r hr)

/-- **A delivery that is settled leaves its record as `settledBy` says**, and no other changes. -/
theorem settle_owned (sha : Sha256) {now : Datetime} {claim : DeliveryClaim} {outcome : Delivery} {op : Op}
    {r : DeliveryRecord} (hop : settleCall now claim outcome = some op)
    (hr : s.deliveries.lookup (claimKey claim) = some r) (howns : ownsClaim r claim) :
    ∃ v s', Durability.step sha s op = (.ok v, s') ∧
      s'.deliveries.lookup (claimKey claim) = some (settledBy now claim outcome r) ∧
      ∀ k, k ≠ claimKey claim → s'.deliveries.lookup k = s.deliveries.lookup k := by
  have hupdate : ∀ status errorCode retryAt,
      settledBy now claim outcome r = settledRecord r status errorCode retryAt →
      Durability.step sha s op = ((do
        updateClaim claim status errorCode retryAt; return Result.none) : Action Result) s →
      ∃ v s', Durability.step sha s op = (.ok v, s') ∧
        s'.deliveries.lookup (claimKey claim) = some (settledBy now claim outcome r) ∧
        ∀ k, k ≠ claimKey claim → s'.deliveries.lookup k = s.deliveries.lookup k := by
    intro status errorCode retryAt hrecord hstep
    have hbody : ((do
        updateClaim claim status errorCode retryAt; return Result.none) : Action Result) s
        = (.ok .none, withRecord claim (settledRecord r status errorCode retryAt) s) := by
      show Exec.andThen (updateClaim claim status errorCode retryAt) _ s = _
      unfold Exec.andThen
      rw [updateClaim_owned hr howns]; rfl
    refine ⟨_, _, hstep.trans hbody, ?_, fun k hk => ?_⟩
    · rw [hrecord]; exact AList.lookup_insert _
    · exact AList.lookup_insert_ne hk
  cases outcome with
  | returned => cases hop; exact hupdate _ _ _ rfl rfl
  | alreadyStarted => cases hop; exact hupdate _ _ _ rfl rfl
  | poison =>
    cases hop
    exact hupdate .deadLetter (some "poison_payload") (some now) rfl rfl
  | rpcError =>
    cases hop
    refine hupdate (if maxDeliveryAttempts ≤ claim.attempt then .deadLetter else .pending) _ _ rfl ?_
    show Op.body sha (.failOutbox claim _ _ false) s = _
    simp only [Op.body, failOutbox, Bool.false_eq_true, false_or]
  | unhandled => cases hop
  | died => cases hop

/-! ## One dispatch -/

/-- What the loop did: `done` are the claims it delivered. -/
structure LoopRun (sha : Sha256) (now : Datetime) (deliver : DeliveryClaim → Delivery)
    (claims done : List DeliveryClaim) (s : Store) (out : Dispatched × Store) : Prop where
  isPrefix : done <+: claims
  invoked : out.1.invoked = done.map fun c => ⟨c, deliver c⟩
  invariant : StoreInvariant sha out.2
  settled : ∀ c ∈ done, ∀ r, s.deliveries.lookup (claimKey c) = some r →
    out.2.deliveries.lookup (claimKey c) = some (settledBy now c (deliver c) r)
  frame : ∀ k, (∀ c ∈ done, claimKey c ≠ k) → out.2.deliveries.lookup k = s.deliveries.lookup k
  all : AllTried deliver claims → done = claims

theorem settleCall_none {now : Datetime} {claim : DeliveryClaim} {outcome : Delivery}
    (h : settleCall now claim outcome = none) : outcome.cuts = true ∧
      ∀ r, settledBy now claim outcome r = r := by
  cases outcome with
  | unhandled => exact ⟨rfl, fun _ => rfl⟩
  | died => exact ⟨rfl, fun _ => rfl⟩
  | _ => cases h

/-- The loop settles what it delivers, and delivers everything unless it is cut.  Induction on the
    claims; those still to come own their records, because keys are distinct. -/
theorem dispatchLoop_run (now : Datetime) (deliver : DeliveryClaim → Delivery) :
    ∀ (claims : List DeliveryClaim) (delivered : Nat) (s : Store), StoreInvariant sha s →
    (claims.map claimKey).Nodup →
    (∀ c ∈ claims, ∃ r, s.deliveries.lookup (claimKey c) = some r ∧ ownsClaim r c) →
    ∃ done, LoopRun sha now deliver claims done s
      (dispatchLoop sha now deliver claims delivered s) := by
  intro claims
  induction claims with
  | nil =>
    intro delivered s hinv _ _
    exact ⟨[], ⟨List.prefix_refl [], rfl, hinv, by simp, fun _ _ => rfl, fun _ => rfl⟩⟩
  | cons claim claims ih =>
    intro delivered s hinv hnodup howned
    obtain ⟨hfresh, hnodup'⟩ := List.nodup_cons.mp hnodup
    obtain ⟨r, hr, howns⟩ := howned claim List.mem_cons_self
    cases hop : settleCall now claim (deliver claim) with
    | none =>
      obtain ⟨hcuts, hsame⟩ := settleCall_none hop
      have hloop : dispatchLoop sha now deliver (claim :: claims) delivered s
          = ({ invoked := [⟨claim, deliver claim⟩],
               result := if deliver claim = .died then .died else .unhandled }, s) := by
        rw [dispatchLoop, hop]
      rw [hloop]
      refine ⟨[claim], ⟨⟨claims, rfl⟩, rfl, hinv, ?_, fun _ _ => rfl, ?_⟩⟩
      · rintro c hc r' hr'
        obtain rfl := List.mem_singleton.mp hc
        rw [hsame]; exact hr'
      · intro hall
        cases claims with
        | nil => rfl
        | cons next rest =>
          have hno := hall claim (by rw [List.dropLast_cons_cons]; exact List.mem_cons_self)
          rw [hcuts] at hno
          cases hno
    | some op =>
      obtain ⟨v, s', hstep, hlookup, hframe⟩ := settle_owned sha hop hr howns
      have hinv' : StoreInvariant sha s' := by
        have h := step_invariant sha s op hinv
        rw [hstep] at h
        exact h
      have hne : ∀ c ∈ claims, claimKey c ≠ claimKey claim := by
        intro c hc heq
        exact hfresh (heq ▸ List.mem_map_of_mem hc)
      obtain ⟨done, hrun⟩ := ih
        (if (deliver claim).counts = true then delivered + 1 else delivered) s' hinv' hnodup' (by
          intro c hc
          rw [hframe _ (hne c hc)]
          exact howned c (List.mem_cons_of_mem _ hc))
      have hloop : dispatchLoop sha now deliver (claim :: claims) delivered s
          = (let rest := dispatchLoop sha now deliver claims
              (if (deliver claim).counts = true then delivered + 1 else delivered) s'
             ({ rest.1 with invoked := ⟨claim, deliver claim⟩ :: rest.1.invoked }, rest.2)) := by
        rw [dispatchLoop, hop]
        dsimp only
        rw [hstep]
      rw [hloop]
      have hdone : ∀ c ∈ done, c ∈ claims := fun c hc => hrun.isPrefix.subset hc
      refine ⟨claim :: done, ⟨?_, ?_, hrun.invariant, ?_, ?_, ?_⟩⟩
      · exact (List.prefix_cons_inj claim).mpr hrun.isPrefix
      · show _ :: _ = _
        rw [hrun.invoked]; rfl
      · intro c hc r' hr'
        rcases List.mem_cons.mp hc with rfl | hc
        · -- the first claim: settled now, and no later one has its key
          rw [hr] at hr'
          obtain rfl := Option.some.inj hr'
          rw [hrun.frame _ fun d hd => hne d (hdone d hd)]
          exact hlookup
        · refine hrun.settled c hc r' ?_
          rw [hframe _ (hne c (hdone c hc))]; exact hr'
      · intro k hk
        rw [hrun.frame k fun c hc => hk c (List.mem_cons_of_mem _ hc)]
        exact hframe k (Ne.symm (hk claim List.mem_cons_self))
      · intro hall
        rw [hrun.all]
        intro c hc
        refine hall c ?_
        cases claims with
        | nil => exact absurd hc (by simp)
        | cons next rest =>
          rw [List.dropLast_cons_cons]; exact List.mem_cons_of_mem _ hc

/-- What a dispatch does to the record under `k`: nothing, the dead letter of a message whose
    attempts are used up, a delivery, or, in a batch that was cut, a charge without a delivery. -/
inductive DispatchStep (now : Datetime) (deliver : DeliveryClaim → Delivery) (tried : Prop)
    (invoked : List Invocation) (k : DeliveryKey) :
    Option DeliveryRecord → Option DeliveryRecord → Prop
  | same (r : Option DeliveryRecord) (hnone : ∀ i ∈ invoked, ¬i.isOf k) :
      DispatchStep now deliver tried invoked k r r
  | dead (r : DeliveryRecord) (hopen : ¬r.status.final) (hfull : maxDeliveryAttempts ≤ r.attempts)
      (hnone : ∀ i ∈ invoked, ¬i.isOf k) :
      DispatchStep now deliver tried invoked k (some r) (some { r with status := .deadLetter })
  | delivered (r r' : DeliveryRecord) (c : DeliveryClaim) (hopen : ¬r.status.final)
      (hkey : claimKey c = k) (hattempt : c.attempt = r.attempts + 1)
      (hattempts : r'.attempts = c.attempt) (hstatus : r'.status = .claimed)
      (hmem : ⟨c, deliver c⟩ ∈ invoked)
      (honly : ∀ i ∈ invoked, i.isOf k → i = ⟨c, deliver c⟩) :
      DispatchStep now deliver tried invoked k (some r) (some (settledBy now c (deliver c) r'))
  | untried (r r' : DeliveryRecord) (hopen : ¬r.status.final) (hstatus : r'.status = .claimed)
      (hcut : ¬tried) (hnone : ∀ i ∈ invoked, ¬i.isOf k) :
      DispatchStep now deliver tried invoked k (some r) (some r')

theorem issueClaim_none_full {worker : String} {r : DeliveryRecord}
    (h : issueClaim sha worker r = none) : maxDeliveryAttempts ≤ r.attempts := by
  unfold issueClaim at h
  split at h
  · omega
  · cases h

/-- **One dispatch, read at one record.** -/
theorem dispatch_record (hinv : StoreInvariant sha s) (t worker : String) (now : Datetime)
    (limit : Int) (deliver : DeliveryClaim → Delivery) :
    StoreInvariant sha (dispatch sha t worker now limit deliver s).2 ∧
    ∀ k, DispatchStep now deliver
      (Call.triesAll sha s (.dispatch t worker now limit deliver))
      (dispatch sha t worker now limit deliver s).1.invoked k (s.deliveries.lookup k)
      ((dispatch sha t worker now limit deliver s).2.deliveries.lookup k) := by
  have hcalled : Called sha
      (Machine.entry (Durability.step sha) s (claimCall t worker now limit)) := ⟨hinv, rfl⟩
  have hstep := fun k => step_delivery hinv (claimCall t worker now limit) k
  have hnodup := issued_nodup hcalled
  have hinv' := step_invariant sha s (claimCall t worker now limit) hinv
  simp only [Machine.entry] at hnodup
  unfold dispatch Call.triesAll
  rcases hclaim : Durability.step sha s (claimCall t worker now limit) with ⟨result, s₁⟩
  rw [hclaim] at hnodup hinv'
  simp only [hclaim] at hstep
  cases result with
  | error e =>
    refine ⟨hinv', fun k => ?_⟩
    have hk := hstep k
    dsimp only
    generalize s.deliveries.lookup k = before at hk ⊢
    generalize s₁.deliveries.lookup k = after at hk ⊢
    cases hk with
    | same => exact .same _ (by simp)
    | created r hissued hsettled htime => cases htime
    | claimed r t worker now claimUntil limit c hop hclaimable hkey hissue hmem =>
      exact absurd hmem (by simp [issuedBy])
    | dead r t' worker' now' claimUntil limit' hop hclaimable hkey hissue hissued =>
      exact .dead r (claimable_not_final hclaimable) (issueClaim_none_full hissue) (by simp)
    | settled r c status errorCode retryAt v hop => cases hop
  | ok result =>
    dsimp only
    set claims := issuedBy (.ok result) with hclaims
    -- every claim owns its record, and no two are for one message
    have howned : ∀ c ∈ claims, ∃ r, s₁.deliveries.lookup (claimKey c) = some r ∧
        ownsClaim r c := by
      intro c hc
      obtain ⟨r, t, worker, now, claimUntil, limit, -, -, -, -, hafter⟩ :=
        (hstep (claimKey c)).issued hc rfl
      exact ⟨_, hafter, rfl, rfl, rfl⟩
    obtain ⟨done, hrun⟩ := dispatchLoop_run now deliver claims 0 s₁ hinv' hnodup howned
    refine ⟨hrun.invariant, fun k => ?_⟩
    have hdone : ∀ c ∈ done, c ∈ claims := fun c hc => hrun.isPrefix.subset hc
    -- a delivery of the message needs a claim of it among the delivered ones
    have hinvoked : ∀ i ∈ (dispatchLoop sha now deliver claims 0 s₁).1.invoked,
        i.claim ∈ done ∧ i = ⟨i.claim, deliver i.claim⟩ := by
      intro i hi
      rw [hrun.invoked] at hi
      obtain ⟨c, hc, rfl⟩ := List.mem_map.mp hi
      exact ⟨hc, rfl⟩
    have hquiet : (∀ c ∈ claims, claimKey c ≠ k) →
        (∀ i ∈ (dispatchLoop sha now deliver claims 0 s₁).1.invoked, ¬i.isOf k) ∧
        (dispatchLoop sha now deliver claims 0 s₁).2.deliveries.lookup k
          = s₁.deliveries.lookup k := by
      intro hno
      refine ⟨fun i hi hof => hno i.claim (hdone _ (hinvoked i hi).1) hof, ?_⟩
      exact hrun.frame k fun c hc => hno c (hdone c hc)
    have hk := hstep k
    cases hbefore : s.deliveries.lookup k with
    | none =>
      rw [hbefore] at hk
      generalize hafter : s₁.deliveries.lookup k = after at hk
      cases hk with
      | same r hissued _ =>
        obtain ⟨hnone, hlookup⟩ := hquiet hissued
        rw [hlookup, hafter]
        exact .same none hnone
      | created r hissued hsettled htime => cases htime
    | some r =>
      rw [hbefore] at hk
      generalize hafter : s₁.deliveries.lookup k = after at hk
      cases hk with
      | same r hissued _ =>
        obtain ⟨hnone, hlookup⟩ := hquiet hissued
        rw [hlookup, hafter]
        exact .same _ hnone
      | dead r t' worker' now' claimUntil limit' hop hclaimable hkey hissue hissued =>
        obtain ⟨hnone, hlookup⟩ := hquiet hissued
        rw [hlookup, hafter]
        exact .dead r (claimable_not_final hclaimable) (issueClaim_none_full hissue) hnone
      | claimed r t' worker' now' claimUntil limit' c hop hclaimable hkey hissue hmem honly =>
        obtain ⟨hckey, hattempt, hrecord⟩ := issueClaim_some hissue
        have hck : claimKey c = k := hckey.trans hkey
        rw [hrecord] at hafter
        by_cases hin : c ∈ done
        · rw [← hck] at hafter ⊢
          rw [hrun.settled c hin _ hafter]
          refine .delivered r _ c (claimable_not_final hclaimable) rfl hattempt rfl rfl ?_ ?_
          · rw [hrun.invoked]; exact List.mem_map.mpr ⟨c, hin, rfl⟩
          · intro i hi hof
            obtain ⟨hidone, hi⟩ := hinvoked i hi
            rw [hi, honly i.claim (hdone _ hidone) (hof.trans hck)]
        · -- charged but not delivered: the loop was cut before it
          have hout : ∀ d ∈ done, claimKey d ≠ k := by
            intro d hd hdk
            rw [honly d (hdone d hd) hdk] at hd
            exact hin hd
          rw [hrun.frame k hout, hafter]
          refine .untried r _ (claimable_not_final hclaimable) rfl ?_ ?_
          · intro hall
            rw [hclaim] at hall
            exact hin (by rw [hrun.all hall]; exact hmem)
          · exact fun i hi hof => hout i.claim (hinvoked i hi).1 hof
      | settled r c status errorCode retryAt v hop => cases hop

/-! ## The invariant of a run -/

/-- Every attempt the record was charged with was a delivery, and a dead letter has its reason. -/
structure Accounted (invoked : List Invocation) (k : DeliveryKey) (r : DeliveryRecord) : Prop where
  attempts : ∀ attempt, 1 ≤ attempt → attempt ≤ r.attempts →
    ∃ i ∈ invoked, i.isOf k ∧ i.claim.attempt = attempt
  dead : r.status = .deadLetter →
    (∃ i ∈ invoked, i.isOf k ∧ i.outcome = .poison) ∨ maxDeliveryAttempts ≤ r.attempts

theorem Accounted.mono {invoked more : List Invocation} {k : DeliveryKey} {r : DeliveryRecord}
    (h : Accounted invoked k r) : Accounted (invoked ++ more) k r := by
  refine ⟨fun attempt hlow hhigh => ?_, fun hdead => ?_⟩
  · obtain ⟨i, hi, hof, ha⟩ := h.attempts attempt hlow hhigh
    exact ⟨i, List.mem_append_left _ hi, hof, ha⟩
  · rcases h.dead hdead with ⟨i, hi, hof, hp⟩ | hfull
    · exact Or.inl ⟨i, List.mem_append_left _ hi, hof, hp⟩
    · exact Or.inr hfull

/-- Five attempts, or a poison delivery: the two ways to a dead letter. -/
theorem Accounted.ownAccount {invoked : List Invocation} {k : DeliveryKey} {r : DeliveryRecord}
    (h : Accounted invoked k r) (hdead : r.status = .deadLetter) : OwnAccount invoked k := by
  rcases h.dead hdead with hpoison | hfull
  · exact Or.inl hpoison
  · refine Or.inr fun attempt hlow hhigh => h.attempts attempt hlow (le_trans hhigh ?_)
    exact hfull

/-- The status a settled delivery leaves. -/
theorem settledBy_dead {now : Datetime} {c : DeliveryClaim} {outcome : Delivery}
    {r : DeliveryRecord} (hstatus : r.status = .claimed)
    (h : (settledBy now c outcome r).status = .deadLetter) :
    outcome = .poison ∨ maxDeliveryAttempts ≤ c.attempt := by
  cases outcome with
  | returned => cases h
  | alreadyStarted => cases h
  | poison => exact Or.inl rfl
  | rpcError =>
    right
    by_contra hfew
    simp only [settledBy, settledRecord, if_neg hfew] at h
    cases h
  | unhandled => rw [settledBy, hstatus] at h; cases h
  | died => rw [settledBy, hstatus] at h; cases h

/-- A dispatch that tries its whole batch keeps every record accounted for. -/
theorem DispatchStep.accounted {now : Datetime} {deliver : DeliveryClaim → Delivery} {tried : Prop}
    {before invoked : List Invocation} {k : DeliveryKey} {r r' : Option DeliveryRecord}
    (h : DispatchStep now deliver tried invoked k r r') (htried : tried)
    (hold : ∀ d, r = some d → Accounted before k d) :
    ∀ d, r' = some d → Accounted (before ++ invoked) k d := by
  intro d hd
  cases h with
  | same r hnone => exact (hold d hd).mono
  | dead r hopen hfull hnone =>
    cases hd
    exact ⟨(hold r rfl).mono.attempts, fun _ => Or.inr hfull⟩
  | delivered r r' c hopen hkey hattempt hattempts hstatus hmem honly =>
    cases hd
    have hin : ⟨c, deliver c⟩ ∈ before ++ invoked := List.mem_append_right _ hmem
    refine ⟨fun attempt hlow hhigh => ?_, fun hdead => ?_⟩
    · rw [settledBy_attempts, hattempts] at hhigh
      by_cases hnew : attempt = c.attempt
      · exact ⟨_, hin, hkey, hnew.symm⟩
      · exact (hold r rfl).mono.attempts attempt hlow (by omega)
    · rcases settledBy_dead hstatus hdead with hpoison | hfull
      · exact Or.inl ⟨_, hin, hkey, hpoison⟩
      · refine Or.inr ?_
        rw [settledBy_attempts, hattempts]; exact hfull
  | untried r r' hopen hstatus hcut hnone => exact absurd htried hcut

/-- A message delivered once stays delivered. -/
theorem DispatchStep.delivered_stays {now : Datetime} {deliver : DeliveryClaim → Delivery}
    {tried : Prop} {invoked : List Invocation} {k : DeliveryKey} {r : DeliveryRecord}
    {r' : Option DeliveryRecord} (h : DispatchStep now deliver tried invoked k (some r) r')
    (hr : r.status = .delivered) : r' = some r := by
  have hfinal : r.status.final := by rw [hr]; trivial
  cases h with
  | same r hnone => rfl
  | dead r hopen _ _ => exact absurd hfinal hopen
  | delivered r r' c hopen _ _ _ _ _ _ => exact absurd hfinal hopen
  | untried r r' hopen _ _ _ => exact absurd hfinal hopen

/-- The message of a delivery that returned is delivered. -/
theorem DispatchStep.returned {now : Datetime} {deliver : DeliveryClaim → Delivery} {tried : Prop}
    {invoked : List Invocation} {i : Invocation} {r r' : Option DeliveryRecord}
    (h : DispatchStep now deliver tried invoked (claimKey i.claim) r r') (hi : i ∈ invoked)
    (hreturned : i.outcome = .returned) : ∃ d, r' = some d ∧ d.status = .delivered := by
  cases h with
  | same r hnone => exact absurd rfl (hnone i hi)
  | dead r hopen hfull hnone => exact absurd rfl (hnone i hi)
  | delivered r r' c hopen hkey hattempt hattempts hstatus hmem honly =>
    have heq := honly i hi rfl
    rw [heq] at hreturned
    exact ⟨_, rfl, by rw [show deliver c = .returned from hreturned]; rfl⟩
  | untried r r' hopen hstatus hcut hnone => exact absurd rfl (hnone i hi)

/-- A ledger operation outside the outbox port creates outbox records fresh and changes none. -/
theorem ledger_outbox {op : Op} {result : Except Error Result} {k : DeliveryKey}
    {r r' : Option DeliveryRecord} (h : DeliveryStep sha op result k r r')
    (hsettles : op.settles = none) (htime : op.claimTime = none) (houtbox : k.2.1 = .outbox) :
    r' = r ∨ ∃ d, r' = some d ∧ d.attempts = 0 ∧ d.status = .pending := by
  cases h with
  | same r _ _ => exact Or.inl rfl
  | created r hissued hsettled htime hkey hattempts hstatus hfresh =>
    exact Or.inr ⟨r, rfl, hfresh houtbox⟩
  | claimed r t worker now claimUntil limit c hop => rw [hop] at htime; cases htime
  | dead r t worker now claimUntil limit hop => rw [hop] at htime; cases htime
  | settled r c status errorCode retryAt v hop => rw [hsettles] at hop; cases hop

/-- What ties a history to its store. -/
structure DispatchInvariant (sha : Sha256) (h : List HistoryEntry) (s : Store) : Prop where
  store : StoreInvariant sha s
  returned : ∀ i ∈ invocations h, i.outcome = .returned →
    ∃ r, s.deliveries.lookup (claimKey i.claim) = some r ∧ r.status = .delivered
  accounted : (∀ e ∈ h, e.op.permitted ∧ e.op.triesAll sha e.before) →
    ∀ k, k.2.1 = .outbox → ∀ r, s.deliveries.lookup k = some r → Accounted (invocations h) k r

theorem invocations_concat (h : List HistoryEntry) (e : HistoryEntry) :
    invocations (h ++ [e]) = invocations h ++ invokedBy e.result := by
  simp [invocations]

theorem step_dispatchInvariant (h : List HistoryEntry) (s : Store) (call : Call)
    (hinv : DispatchInvariant sha h s) :
    DispatchInvariant sha (h ++ [Machine.entry (step sha) s call]) (step sha s call).2 := by
  cases call with
  | ledger op =>
    have hstep := fun k => step_delivery hinv.store op k
    have hsame : invocations (h ++ [Machine.entry (step sha) s (.ledger op)]) = invocations h := by
      rw [invocations_concat]; exact List.append_nil _
    refine ⟨step_invariant sha s op hinv.store, ?_, ?_⟩
    · rw [hsame]
      intro i hi hreturned
      obtain ⟨r, hr, hstatus⟩ := hinv.returned i hi hreturned
      have hk := hstep (claimKey i.claim)
      rw [hr] at hk
      obtain ⟨r', hr', -, hfinal⟩ := hk.progress
      refine ⟨r', hr', ?_⟩
      rw [hfinal (by rw [hstatus]; trivial)]
      exact hstatus
    · rw [hsame]
      intro hall k houtbox r hr
      obtain ⟨⟨hsettles, htime⟩, -⟩ := hall _ (List.mem_append_right _ (List.mem_singleton.mpr rfl))
      have hold := hinv.accounted (fun e he => hall e (List.mem_append_left _ he)) k houtbox
      rcases ledger_outbox (hstep k) hsettles htime houtbox with hkeep | ⟨d, hd, hzero, hpending⟩
      · exact hold r (hkeep ▸ hr)
      · obtain rfl : d = r := Option.some.inj (hd.symm.trans hr)
        refine ⟨fun attempt hlow hhigh => by omega, fun hdead => ?_⟩
        rw [hpending] at hdead; cases hdead
  | dispatch t worker now limit deliver =>
    obtain ⟨hstore, hstep⟩ := dispatch_record hinv.store t worker now limit deliver
    rw [step]
    refine ⟨hstore, ?_, ?_⟩
    · rw [invocations_concat]
      intro i hi hreturned
      rcases List.mem_append.mp hi with hi | hi
      · obtain ⟨r, hr, hstatus⟩ := hinv.returned i hi hreturned
        have hk := hstep (claimKey i.claim)
        rw [hr] at hk
        exact ⟨r, hk.delivered_stays hstatus, hstatus⟩
      · exact (hstep (claimKey i.claim)).returned hi hreturned
    · rw [invocations_concat]
      intro hall k houtbox r hr
      have htried := (hall _ (List.mem_append_right _ (List.mem_singleton.mpr rfl))).2
      refine (hstep k).accounted htried ?_ r hr
      exact hinv.accounted (fun e he => hall e (List.mem_append_left _ he)) k houtbox

theorem dispatchInvariant_run (sha : Sha256) (calls : List Call) :
    DispatchInvariant sha (history sha calls) (run sha calls) := by
  refine Machine.history_induction (I := DispatchInvariant sha) ?_ step_dispatchInvariant calls
  refine ⟨storeInvariant_empty sha, fun i hi => absurd hi (by simp [invocations]), ?_⟩
  intro _ k _ r hr
  exact absurd hr (by simp [Store.empty])

/-- **A message is dead-lettered on its own account**, in every run in which no delivery but the last
    of a batch cuts its dispatch.  And in every run at all, a message whose delivery returned is
    delivered from then on. -/
theorem dispatch_laws (sha : Sha256) (calls : List Call) :
    (∀ i ∈ invocations (history sha calls), i.outcome = .returned →
      ∃ r, (run sha calls).deliveries.lookup (claimKey i.claim) = some r ∧
        r.status = .delivered) ∧
    ((∀ e ∈ history sha calls, e.op.permitted ∧ e.op.triesAll sha e.before) →
      ∀ t m r, (run sha calls).deliveries.lookup (t, .outbox, m) = some r →
        r.status = .deadLetter → OwnAccount (invocations (history sha calls)) (t, .outbox, m)) := by
  have hinv := dispatchInvariant_run sha calls
  refine ⟨hinv.returned, fun hall t m r hr hdead => ?_⟩
  exact (hinv.accounted hall (t, .outbox, m) rfl r hr).ownAccount hdead

/-! ## Worked runs -/

def queuedMessage (id : Identifier) : OutboxDraft where
  messageId := id
  destination := ⟨"temporal", computed⟩
  messageType := ⟨"investigation.start", computed⟩
  availableAt := ⟨0, 0⟩
  payload := ∅
  payload_ok := by decide +kernel

/-- An append that queues two messages, `a` and `b`. -/
def queueCall : Call := .ledger (.append "t" "case" "c" 0
  [{ eventId := ⟨"e", computed⟩, eventType := ⟨"case.created", computed⟩, occurredAt := ⟨0, 0⟩,
     actorRef := ⟨"x", computed⟩, correlationRef := ⟨"q", computed⟩, causationRef := none,
     schemaVersion := 1, payload := ∅, schema_ok := schema_one, payload_ok := payload_empty }]
  [queuedMessage ⟨"a", computed⟩, queuedMessage ⟨"b", computed⟩] [])

/-- Message `a` makes the client raise something the dispatcher does not handle. -/
def firstBreaks (claim : DeliveryClaim) : Delivery :=
  if claim.messageId.val = "a" then .unhandled else .returned

/-- The `n`-th dispatch, 30 seconds after the one before it. -/
def dispatchAt (deliver : DeliveryClaim → Delivery) (n : Nat) : Call :=
  .dispatch "t" "w" ⟨(n : Int) * 30000000, 0⟩ 20 deliver

/-- **A neighbour's fault.**  Message `a` breaks its delivery six times; message `b`, behind it in the
    batch, is never delivered at all, and is a dead letter after the sixth dispatch. -/
theorem dead_letter_untried :
    ((run Sha256.constant (queueCall :: (List.range 6).map (dispatchAt firstBreaks))).deliveries.lookup
      ("t", .outbox, "b")).map (·.status) = some .deadLetter ∧
    ¬OwnAccount (invocations (history Sha256.constant
      (queueCall :: (List.range 6).map (dispatchAt firstBreaks)))) ("t", .outbox, "b") := by
  have hnone : ∀ i ∈ invocations (history Sha256.constant
      (queueCall :: (List.range 6).map (dispatchAt firstBreaks))),
      claimKey i.claim ≠ ("t", .outbox, "b") := by decide +kernel
  refine ⟨by decide +kernel, ?_⟩
  rintro (⟨i, hi, hof, -⟩ | hfive)
  · exact hnone i hi hof
  · obtain ⟨i, hi, hof, -⟩ := hfive 1 (by decide) (by decide)
    exact hnone i hi hof

/-- Message `a` is poison, `b` is delivered. -/
def firstPoison (claim : DeliveryClaim) : Delivery :=
  if claim.messageId.val = "a" then .poison else .returned

/-- One dispatch of both messages: the poison one is dead for its own sake, the other delivered. -/
theorem dispatch_laws_poison :
    OwnAccount (invocations (history Sha256.constant [queueCall, dispatchAt firstPoison 0]))
      ("t", .outbox, "a") ∧
    ((run Sha256.constant [queueCall, dispatchAt firstPoison 0]).deliveries.lookup
      ("t", .outbox, "b")).map (·.status) = some .delivered := by
  have hdead : ((run Sha256.constant [queueCall, dispatchAt firstPoison 0]).deliveries.lookup
      ("t", .outbox, "a")).any (fun r => r.status == .deadLetter) = true := by decide +kernel
  obtain ⟨r, hr, hstatus⟩ := (Option.any_eq_true _ _).mp hdead
  refine ⟨(dispatch_laws Sha256.constant [queueCall, dispatchAt firstPoison 0]).2 ?_ "t" "a" r hr
    (by simpa using hstatus), by decide +kernel⟩
  intro e he
  rcases List.mem_cons.mp he with rfl | he
  · exact ⟨⟨rfl, rfl⟩, trivial⟩
  · obtain rfl := List.mem_singleton.mp he
    refine ⟨trivial, fun claim _ => ?_⟩
    by_cases ha : claim.messageId.val = "a"
    · simp only [firstPoison, if_pos ha, Delivery.cuts]
    · simp only [firstPoison, if_neg ha, Delivery.cuts]

end Temporal

end Aegis
