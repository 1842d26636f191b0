/-
  WHAT ONE OPERATION CAN DO TO ONE DELIVERY RECORD.

  A record is created by an append, claimed or dead-lettered by a claim call, and settled by a
  completion or a failure; every operation does one of these to a key or leaves it
  (`step_delivery`).  The cases name the claim that was issued or settled, so that the lease laws
  are read off the history without looking at an operation again.

  The invariant that carries this: a record is stored under its own tenant, direction and message
  id, and its attempts stay within the bound (`DeliveriesCoherent`).
-/
import Mathlib
import Aegis.Durability.Effects

namespace Aegis

namespace Durability

variable {sha : Sha256} {s : Store}

/-! ## The invariant -/

/-- The key a record belongs under. -/
def recordKey (r : DeliveryRecord) : DeliveryKey := (r.tenantId.val, r.direction, r.messageId.val)

/-- Records stand under their own keys, with attempts within the bound. -/
def DeliveriesCoherent (d : Deliveries) : Prop :=
  ∀ k r, d.lookup k = some r → recordKey r = k ∧ r.attempts ≤ maxDeliveryAttempts

structure StoreInvariant (sha : Sha256) (s : Store) : Prop where
  ledger : LedgerInvariant sha s
  deliveries : DeliveriesCoherent s.deliveries

/-! ## The step on one key -/

/-- The claims a call returned. -/
def issuedBy : Except Error Result → List DeliveryClaim
  | .ok (.claims claims) => claims
  | _ => []

/-- The claim a call completes or fails. -/
def Op.settles : Op → Option DeliveryClaim
  | .completeOutbox claim => some claim
  | .failOutbox claim _ _ _ => some claim
  | _ => none

/-- The time a claim call is given. -/
def Op.claimTime : Op → Option Datetime
  | .claimOutbox _ _ now _ _ => some now
  | _ => none

/-- What a call does to the record under `k`. -/
inductive DeliveryStep (sha : Sha256) (op : Op) (result : Except Error Result) (k : DeliveryKey) :
    Option DeliveryRecord → Option DeliveryRecord → Prop
  | same (r : Option DeliveryRecord) (hissued : ∀ c ∈ issuedBy result, claimKey c ≠ k)
      (hsettled : ∀ c v, op.settles = some c → result = .ok v → claimKey c ≠ k) :
      DeliveryStep sha op result k r r
  | created (r : DeliveryRecord) (hissued : issuedBy result = []) (hsettled : op.settles = none)
      (htime : op.claimTime = none) (hkey : recordKey r = k) (hattempts : r.attempts ≤ 1)
      (hstatus : r.status ≠ .claimed)
      (hfresh : k.2.1 = .outbox → r.attempts = 0 ∧ r.status = .pending) :
      DeliveryStep sha op result k none (some r)
  | claimed (r : DeliveryRecord) (t worker : String) (now claimUntil : Datetime) (limit : Int)
      (c : DeliveryClaim) (hop : op = .claimOutbox t worker now claimUntil limit)
      (hclaimable : claimable t now .outbox r = true) (hkey : outboxKey r = k)
      (hissue : issueClaim sha worker r = some c) (hmem : c ∈ issuedBy result)
      (honly : ∀ c' ∈ issuedBy result, claimKey c' = k → c' = c) :
      DeliveryStep sha op result k (some r) (some (claimedRecord sha worker claimUntil r))
  | dead (r : DeliveryRecord) (t worker : String) (now claimUntil : Datetime) (limit : Int)
      (hop : op = .claimOutbox t worker now claimUntil limit)
      (hclaimable : claimable t now .outbox r = true) (hkey : outboxKey r = k)
      (hissue : issueClaim sha worker r = none) (hissued : ∀ c ∈ issuedBy result, claimKey c ≠ k) :
      DeliveryStep sha op result k (some r) (some { r with status := .deadLetter })
  | settled (r : DeliveryRecord) (c : DeliveryClaim) (status : DeliveryStatus)
      (errorCode : Option String) (retryAt : Option Datetime) (v : Result)
      (hop : op.settles = some c) (hok : result = .ok v) (hkey : claimKey c = k)
      (howns : ownsClaim r c) (hstatus : status ≠ .claimed) (hissued : issuedBy result = []) :
      DeliveryStep sha op result k (some r) (some (settledRecord r status errorCode retryAt))

/-- A call that returns no claims and settles none leaves the key. -/
theorem DeliveryStep.quiet {op : Op} {result : Except Error Result} {k : DeliveryKey}
    (hissued : issuedBy result = []) (hsettled : op.settles = none) (r : Option DeliveryRecord) :
    DeliveryStep sha op result k r r := by
  refine .same r ?_ ?_
  · intro c hc; rw [hissued] at hc; exact absurd hc (by simp)
  · intro c v hc; rw [hsettled] at hc; exact absurd hc (by simp)

/-- The claim of a record: its key, its attempt and its token. -/
theorem issueClaim_some {worker : String} {r : DeliveryRecord} {c : DeliveryClaim}
    (h : issueClaim sha worker r = some c) : claimKey c = outboxKey r ∧
      c.attempt = r.attempts + 1 ∧ ∀ claimUntil, claimedRecord sha worker claimUntil r
        = { r with attempts := c.attempt, claimToken := some c.claimToken.val,
                   claimUntil := some claimUntil, status := .claimed } := by
  have h' := h
  unfold issueClaim at h
  split at h
  · cases h
  · have hc := Option.some.inj h
    refine ⟨by rw [← hc]; rfl, by rw [← hc], fun claimUntil => ?_⟩
    rw [claimedRecord, h']

theorem issueClaim_none {worker : String} {r : DeliveryRecord} (h : issueClaim sha worker r = none)
    (claimUntil : Datetime) :
    claimedRecord sha worker claimUntil r = { r with status := .deadLetter } := by
  rw [claimedRecord, h]

/-- A step keeps a record under its key, within the bound. -/
theorem DeliveryStep.coherent {op : Op} {result : Except Error Result} {k : DeliveryKey}
    {before after : Option DeliveryRecord} (h : DeliveryStep sha op result k before after)
    (hold : ∀ r, before = some r → recordKey r = k ∧ r.attempts ≤ maxDeliveryAttempts) :
    ∀ r, after = some r → recordKey r = k ∧ r.attempts ≤ maxDeliveryAttempts := by
  intro r' hr'
  cases h with
  | same r _ _ => exact hold r' hr'
  | created r hissued hsettled htime hkey hattempts hstatus =>
    cases hr'
    exact ⟨hkey, le_trans hattempts (by decide)⟩
  | claimed r t worker now claimUntil limit c hop hclaimable hkey hissue hmem honly =>
    obtain ⟨-, -, hrecord⟩ := issueClaim_some hissue
    rw [hrecord] at hr'
    cases hr'
    exact ⟨(hold r rfl).1, c.attempt_ok.2⟩
  | dead r t worker now claimUntil limit hop hclaimable hkey hissue hissued =>
    cases hr'
    exact hold r rfl
  | settled r c status errorCode retryAt v hop hok hkey howns hstatus hissued =>
    cases hr'
    exact hold r rfl

/-! ## Appends -/

/-- An append creates records under new keys and leaves the others. -/
theorem Appended.delivery {t ty id : String} {expectedVersion : Int} {drafts : List EventDraft}
    {outbox : List OutboxDraft} {inbox : List InboxDraft} {s' : Store}
    {appended : List ApplicationEvent} {last : ApplicationEvent}
    {projected : String × String → Option RunView} (hinv : LedgerInvariant sha s)
    (h : Appended sha t ty id expectedVersion drafts outbox inbox s appended last projected s')
    {op : Op} {result : Except Error Result} (hissued : issuedBy result = [])
    (hsettled : op.settles = none) (htime : op.claimTime = none) (k : DeliveryKey) :
    DeliveryStep sha op result k (s.deliveries.lookup k) (s'.deliveries.lookup k) := by
  have ht : last.tenantId.val = t := h.tenant hinv last (List.mem_of_getLast? h.is_last)
  have hnew : s'.deliveries
      = insertDeliveries s.deliveries last.tenantId last.occurredAt outbox inbox := by
    rw [h.store]; rfl
  rw [hnew, insertDeliveries]
  by_cases hin : ∃ m ∈ inbox, (last.tenantId.val, Direction.inbox, m.messageId.val) = k
  · obtain ⟨m, hm, hkey, hlookup⟩ := Table.lookup_insertAll_of_mem
      (d := Table.insertAll (fun m : OutboxDraft => (last.tenantId.val, Direction.outbox,
        m.messageId.val)) (outboxRecord last.tenantId) s.deliveries outbox)
      (inboxRecord last.tenantId last.occurredAt) hin
    have hnone : s.deliveries.lookup k = none := by
      rw [AList.lookup_eq_none, ← hkey, ht]; exact h.inbox_fresh m hm
    rw [hlookup, hnone]
    refine .created _ hissued hsettled htime hkey (le_refl 1) (by simp [inboxRecord]) ?_
    rw [← hkey]
    intro houtbox; cases houtbox
  · push Not at hin
    rw [Table.lookup_insertAll_of_notMem hin]
    by_cases hout : ∃ m ∈ outbox, (last.tenantId.val, Direction.outbox, m.messageId.val) = k
    · obtain ⟨m, hm, hkey, hlookup⟩ := Table.lookup_insertAll_of_mem (d := s.deliveries)
        (outboxRecord last.tenantId) hout
      have hnone : s.deliveries.lookup k = none := by
        rw [AList.lookup_eq_none, ← hkey, ht]; exact h.outbox_fresh m hm
      rw [hlookup, hnone]
      refine .created _ hissued hsettled htime hkey (by simp [outboxRecord])
        (by simp [outboxRecord]) fun _ => ⟨rfl, rfl⟩
    · push Not at hout
      rw [Table.lookup_insertAll_of_notMem hout]
      exact .quiet hissued hsettled _

/-! ## Claims -/

theorem claimLoop_claims (worker : String) (claimUntil : Datetime) :
    ∀ (records : List DeliveryRecord) (d : Deliveries),
    (claimLoop sha worker claimUntil records d).1 = records.filterMap (issueClaim sha worker) := by
  intro records
  induction records with
  | nil => intro d; rfl
  | cons r records ih =>
    intro d
    show (issueClaim sha worker r).toList ++ (claimLoop sha worker claimUntil records _).1 = _
    rw [ih, List.filterMap_cons]
    cases issueClaim sha worker r with
    | none => rfl
    | some c => rfl

theorem claimLoop_deliveries (worker : String) (claimUntil : Datetime) :
    ∀ (records : List DeliveryRecord) (d : Deliveries),
    (claimLoop sha worker claimUntil records d).2
      = Table.insertAll outboxKey (claimedRecord sha worker claimUntil) d records := by
  intro records
  induction records with
  | nil => intro d; rfl
  | cons r records ih => intro d; exact ih _

/-- A candidate stands under its outbox key and is claimable. -/
theorem candidates_mem {d : Deliveries} (hd : DeliveriesCoherent d) {t : String} {now : Datetime}
    {limit : Nat} {r : DeliveryRecord} (h : r ∈ candidates d t now limit) :
    d.lookup (outboxKey r) = some r ∧ claimable t now .outbox r = true := by
  have hmem := List.mem_of_mem_take h
  rw [List.mem_insertionSort, List.mem_map] at hmem
  obtain ⟨⟨k, r'⟩, he, rfl⟩ := hmem
  obtain ⟨hentry, hclaimable⟩ := List.mem_filter.mp he
  have hlookup : d.lookup k = some r' := AList.mem_lookup_iff.mpr hentry
  have hkey := (hd k r' hlookup).1
  have hdirection : k.2.1 = .outbox := by
    simp only [claimable, Bool.and_eq_true, beq_iff_eq] at hclaimable
    exact hclaimable.1.1.1
  have houtbox : outboxKey r' = k := by
    rw [← hkey] at hdirection ⊢
    simp only [recordKey] at hdirection
    simp only [outboxKey, recordKey, hdirection]
  rw [houtbox]
  refine ⟨hlookup, ?_⟩
  simp only [hdirection] at hclaimable
  exact hclaimable

/-- A claim call, on one key. -/
theorem claimOutbox_delivery (hd : DeliveriesCoherent s.deliveries) {t worker : String}
    {now claimUntil : Datetime} {limit : Int} {claims : List DeliveryClaim} {d' : Deliveries}
    (h : (claims, d') = claimLoop sha worker claimUntil
      (candidates s.deliveries t now limit.toNat) s.deliveries) (k : DeliveryKey) :
    DeliveryStep sha (.claimOutbox t worker now claimUntil limit) (.ok (.claims claims)) k
      (s.deliveries.lookup k) (d'.lookup k) := by
  obtain ⟨hclaims, hd'⟩ := Prod.mk.inj h
  rw [claimLoop_claims] at hclaims
  rw [claimLoop_deliveries] at hd'
  -- a claim for `k` comes from the record under `k`
  have hfrom : ∀ c ∈ claims, claimKey c = k → ∃ r, s.deliveries.lookup k = some r ∧
      r ∈ candidates s.deliveries t now limit.toNat ∧ issueClaim sha worker r = some c := by
    intro c hc hkey
    rw [hclaims, List.mem_filterMap] at hc
    obtain ⟨r, hr, hissue⟩ := hc
    have hrkey := (issueClaim_some hissue).1
    have hlookup := (candidates_mem hd hr).1
    rw [← hrkey, hkey] at hlookup
    exact ⟨r, hlookup, hr, hissue⟩
  by_cases hsome : ∃ r ∈ candidates s.deliveries t now limit.toNat, outboxKey r = k
  · obtain ⟨r, hr, hkey, hlookup⟩ := Table.lookup_insertAll_of_mem (d := s.deliveries)
      (claimedRecord sha worker claimUntil) hsome
    obtain ⟨hbefore, hclaimable⟩ := candidates_mem hd hr
    rw [hkey] at hbefore
    rw [hd', hlookup, hbefore]
    cases hissue : issueClaim sha worker r with
    | none =>
      rw [issueClaim_none hissue]
      refine .dead r t worker now claimUntil limit rfl hclaimable hkey hissue ?_
      intro c hc hck
      obtain ⟨r', hr', -, hissue'⟩ := hfrom c hc hck
      rw [hbefore] at hr'
      rw [← Option.some.inj hr', hissue] at hissue'
      cases hissue'
    | some c =>
      refine .claimed r t worker now claimUntil limit c rfl hclaimable hkey hissue ?_ ?_
      · show c ∈ claims
        rw [hclaims]; exact List.mem_filterMap.mpr ⟨r, hr, hissue⟩
      · intro c' hc' hck
        obtain ⟨r', hr', -, hissue'⟩ := hfrom c' hc' hck
        rw [hbefore] at hr'
        rw [← Option.some.inj hr', hissue] at hissue'
        exact (Option.some.inj hissue').symm
  · push Not at hsome
    rw [hd', Table.lookup_insertAll_of_notMem hsome]
    refine .same _ ?_ (fun c v hc => absurd hc (by simp [Op.settles]))
    intro c hc hck
    obtain ⟨r, hr, hmem, hissue⟩ := hfrom c hc hck
    exact hsome r hmem ((issueClaim_some hissue).1.symm.trans hck)

/-- No call issues two claims for one message. -/
theorem claimLoop_nodup (hd : DeliveriesCoherent s.deliveries) (worker : String)
    (claimUntil now : Datetime) (t : String) (limit : Nat) :
    ((claimLoop sha worker claimUntil (candidates s.deliveries t now limit)
      s.deliveries).1.map claimKey).Nodup := by
  have hnodup : (candidates s.deliveries t now limit).Pairwise
      (fun a b => outboxKey a ≠ outboxKey b) := by
    refine List.Pairwise.sublist (List.take_sublist _ _) ?_
    have hperm := List.perm_insertionSort claimOrder
      ((s.deliveries.entries.filter fun e => claimable t now e.1.2.1 e.2).map fun e => e.2)
    refine (hperm.pairwise_iff (fun h => Ne.symm h)).mpr ?_
    rw [List.pairwise_map]
    have hkeys : s.deliveries.entries.Pairwise (fun a b => a.1 ≠ b.1) := by
      have := s.deliveries.nodupKeys
      rwa [List.NodupKeys, List.keys, List.Nodup, List.pairwise_map] at this
    have hfiltered : (s.deliveries.entries.filter fun e => claimable t now e.1.2.1 e.2).Pairwise
        (fun a b => a.1 ≠ b.1) := List.Pairwise.filter _ hkeys
    refine List.Pairwise.imp_of_mem ?_ hfiltered
    intro a b ha hb hne heq
    have hkey : ∀ e ∈ s.deliveries.entries.filter (fun e => claimable t now e.1.2.1 e.2),
        outboxKey e.2 = e.1 := by
      intro e he
      obtain ⟨hentry, hclaimable⟩ := List.mem_filter.mp he
      have hk := (hd e.1 e.2 (AList.mem_lookup_iff.mpr hentry)).1
      simp only [claimable, Bool.and_eq_true, beq_iff_eq] at hclaimable
      have hdirection := hclaimable.1.1.1
      rw [← hk] at hdirection ⊢
      simp only [recordKey] at hdirection
      simp only [outboxKey, recordKey, hdirection]
    rw [hkey a ha, hkey b hb] at heq
    exact hne heq
  rw [claimLoop_claims, List.Nodup, List.pairwise_map]
  refine List.Pairwise.filterMap (issueClaim sha worker) ?_ hnodup
  intro a b hab c hc c' hc'
  rw [(issueClaim_some hc).1, (issueClaim_some hc').1]
  exact hab

/-! ## Every operation -/

theorem updateClaim_delivery {op : Op} {claim : DeliveryClaim} {status : DeliveryStatus}
    {errorCode : Option String} {retryAt : Option Datetime} (hop : op.settles = some claim)
    (hstatus : status ≠ .claimed) (k : DeliveryKey) :
    Exec.Sat (updateClaim claim status errorCode retryAt) s
      (fun _ s' => DeliveryStep sha op (.ok .none) k (s.deliveries.lookup k)
        (s'.deliveries.lookup k))
      (fun e s' => DeliveryStep sha op (.error e) k (s.deliveries.lookup k)
        (s'.deliveries.lookup k)) := by
  refine (updateClaim_sat claim status errorCode retryAt s).mono ?_ ?_
  · rintro _ s' ⟨record, hrecord, howns, rfl⟩
    by_cases hk : claimKey claim = k
    · subst hk
      dsimp only
      rw [hrecord, AList.lookup_insert]
      exact .settled record claim status errorCode retryAt .none hop rfl rfl howns hstatus rfl
    · dsimp only
      rw [AList.lookup_insert_ne (Ne.symm hk)]
      refine .same _ (by simp [issuedBy]) ?_
      intro c v hc _
      rw [hop] at hc
      rw [← Option.some.inj hc]; exact hk
  · rintro e s' ⟨rfl, -, -⟩
    exact .same _ (by simp [issuedBy]) (fun c v _ hv => by cases hv)

/-- **What one operation does to one record.** -/
theorem step_delivery (hinv : StoreInvariant sha s) (op : Op) (k : DeliveryKey) :
    DeliveryStep sha op (step sha s op).1 k (s.deliveries.lookup k)
      ((step sha s op).2.deliveries.lookup k) := by
  refine Exec.Sat.outcome (x := op.body sha) (P := fun result s' => DeliveryStep sha op result k
    (s.deliveries.lookup k) (s'.deliveries.lookup k)) ?_
  have hsame : ∀ op : Op, op.settles = none → ∀ (e : Error) (s' : Store), s' = s →
      DeliveryStep sha op (.error e) k (s.deliveries.lookup k) (s'.deliveries.lookup k) := by
    rintro op hop e s' rfl
    exact .quiet rfl hop _
  cases op with
  | append t ty id v drafts outbox inbox =>
    refine Exec.Sat.call (append_sat sha t ty id v drafts outbox inbox s) (hsame _ rfl) ?_
    rintro appended s' ⟨last, projected, h⟩
    exact h.delivery hinv.ledger rfl rfl rfl k
  | acceptRun identity request waitForSignal now =>
    refine Exec.Sat.call (acceptRun_sat hinv.ledger identity request waitForSignal now)
      (hsame _ rfl) ?_
    rintro run s' (⟨-, rfl⟩ | ⟨traceRef, drafts, appended, last, projected, h⟩)
    · exact .quiet rfl rfl _
    · exact h.append.delivery (withIdempotency_keeps hinv.ledger identity request waitForSignal)
        rfl rfl rfl k
  | acceptSignal identity command availableAt occurredAt =>
    refine Exec.Sat.call (acceptSignal_sat hinv.ledger identity command availableAt occurredAt)
      (hsame _ rfl) ?_
    rintro run s' (⟨-, rfl⟩ | ⟨current, drafts, appended, last, projected, h⟩)
    · exact .quiet rfl rfl _
    · exact h.append.delivery hinv.ledger rfl rfl rfl k
  | recordTransition t runId eventType operationId actor request failureCode attributes now =>
    refine Exec.Sat.call (recordTransition_sat hinv.ledger t runId eventType operationId actor
      request failureCode attributes now) (hsame _ rfl) ?_
    rintro run s' (rfl | ⟨current, draft, appended, last, projected, h⟩)
    · exact .quiet rfl rfl _
    · exact h.append.delivery hinv.ledger rfl rfl rfl k
  | replayLegacy t id actor correlation legacy upcast =>
    refine Exec.Sat.call (replayLegacy_sat sha t id actor correlation legacy upcast s)
      (hsame _ rfl) ?_
    rintro appended s' ⟨drafts, last, projected, -, h⟩
    exact h.delivery hinv.ledger rfl rfl rfl k
  | claimOutbox t worker now claimUntil limit =>
    refine Exec.Sat.call (claimOutbox_sat sha t worker now claimUntil limit s) (hsame _ rfl) ?_
    rintro claims s' ⟨-, hloop, -⟩
    exact claimOutbox_delivery hinv.deliveries hloop k
  | completeOutbox claim =>
    exact Exec.Sat.call (updateClaim_delivery rfl (by decide) k) (fun _ _ h => h) fun _ _ h => h
  | failOutbox claim errorCode retryAt permanent =>
    refine Exec.Sat.call (updateClaim_delivery rfl ?_ k) (fun _ _ h => h) fun _ _ h => h
    split <;> decide
  | rebuildRunProjections t =>
    refine Exec.Sat.call (rebuildRunProjections_sat hinv.ledger t) (hsame _ rfl) ?_
    rintro _ s' hs'
    rw [hs']; exact .quiet rfl rfl _
  | rebuildRun t r =>
    refine Exec.Sat.call (rebuildRun_sat hinv.ledger t r) (hsame _ rfl) ?_
    rintro _ s' rfl
    exact .quiet rfl rfl _

theorem storeInvariant_empty (sha : Sha256) : StoreInvariant sha Store.empty :=
  ⟨ledgerInvariant_empty sha, fun k r h => absurd h (by simp [Store.empty])⟩

theorem step_invariant (sha : Sha256) (s : Store) (op : Op) (hinv : StoreInvariant sha s) :
    StoreInvariant sha (step sha s op).2 := by
  refine ⟨step_keeps sha s op hinv.ledger, fun k r h => ?_⟩
  exact (step_delivery hinv op k).coherent (fun r hr => hinv.deliveries k r hr) r h

theorem storeInvariant_run (sha : Sha256) (ops : List Op) : StoreInvariant sha (run sha ops) :=
  Machine.run_invariant_all (step_invariant sha) _ (storeInvariant_empty sha) ops

end Durability

end Aegis
