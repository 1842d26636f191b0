/-
  THE OUTBOX LEASE PROTOCOL, for any number of workers and any order of calls.

  A message moves from PENDING to CLAIMED and from there to DELIVERED, back to PENDING, or to
  DEAD_LETTER.  A worker's hold on it is a LEASE: it ends when it is settled or when its time is
  over.  What keeps workers apart is the attempt counter of the record, which only grows
  (`Progress`): a claim carries the number it was issued with, and every later claim of the message
  carries a larger one.

  Each law compares two or three calls of one history.  The states between them are reached by calls
  whose effect on one record is `DeliveryStep`, so every law is a predicate of one record, true
  after the first call, kept by `DeliveryStep`, and at odds with the second call.
-/
import Mathlib
import Aegis.Durability.Deliveries

namespace Aegis

namespace Durability

variable {sha : Sha256} {s : Store}

/-! ## What is asked of the protocol -/

abbrev HistoryEntry := Machine.Entry Store Op (Except Error Result)

/-- The call issued the claim. -/
def Issues (e : HistoryEntry) (c : DeliveryClaim) : Prop := c ∈ issuedBy e.result

/-- The call completed or failed the claim. -/
def Settles (e : HistoryEntry) (c : DeliveryClaim) : Prop :=
  e.op.settles = some c ∧ ∃ v, e.result = .ok v

/-- The statuses no delivery leaves. -/
def DeliveryStatus.final : DeliveryStatus → Prop
  | .delivered => True
  | .deadLetter => True
  | .pending => False
  | .claimed => False

/-- The times given to claim calls never go back. -/
def ClaimTimesOrdered (h : List HistoryEntry) : Prop :=
  (h.filterMap fun e => e.op.claimTime).Pairwise (· ≤ ·)

/-- The record under a message, as the protocol may change it: the attempts never decrease, and a
    final record stays as it is. -/
def RecordProgress (r r' : DeliveryRecord) : Prop :=
  r.attempts ≤ r'.attempts ∧ (r.status.final → r' = r)

/-- Two claims of one lease. -/
def SameLease (c d : DeliveryClaim) : Prop :=
  claimKey d = claimKey c ∧ d.attempt = c.attempt ∧ d.claimToken = c.claimToken

/-- The laws of the outbox over the history of `ops`. -/
structure LeaseLaws (sha : Sha256) (ops : List Op) : Prop where
  /-- A message is tried at most five times. -/
  attempts_bounded : ∀ k r, (run sha ops).deliveries.lookup k = some r → r.attempts ≤ 5
  /-- Whatever calls follow, attempts do not decrease and final records do not change. -/
  progress : ∀ more k r, (run sha ops).deliveries.lookup k = some r →
    ∃ r', (run sha (ops ++ more)).deliveries.lookup k = some r' ∧ RecordProgress r r'
  /-- A call issues at most one claim per message. -/
  issued_once_per_call : ∀ e ∈ history sha ops, ((issuedBy e.result).map claimKey).Nodup
  /-- A later claim of a message has a larger attempt number. -/
  issued_once : ∀ pre e mid e' post c c', history sha ops = pre ++ e :: (mid ++ e' :: post) →
    Issues e c → Issues e' c' → claimKey c' = claimKey c → c.attempt < c'.attempt
  /-- So has a later settlement. -/
  settled_once : ∀ pre e mid e' post c c', history sha ops = pre ++ e :: (mid ++ e' :: post) →
    Settles e c → Settles e' c' → claimKey c' = claimKey c → c.attempt < c'.attempt
  /-- A claim that another has superseded is refused, and the refusal changes nothing. -/
  superseded : ∀ pre e mid e' mid' e'' post c c',
    history sha ops = pre ++ e :: (mid ++ e' :: (mid' ++ e'' :: post)) →
    Issues e c → Issues e' c' → claimKey c' = claimKey c → e''.op.settles = some c →
    e''.result = .error ⟨.messageClaimConflict, "outbox claim is stale or not owned"⟩ ∧
      e''.after = e''.before
  /-- While a lease runs and is not settled, its message is not issued again. -/
  exclusive : ClaimTimesOrdered (history sha ops) →
    ∀ pre e mid e' post c c' t worker now claimUntil limit t' worker' now' claimUntil' limit',
    history sha ops = pre ++ e :: (mid ++ e' :: post) →
    e.op = .claimOutbox t worker now claimUntil limit → Issues e c →
    e'.op = .claimOutbox t' worker' now' claimUntil' limit' → Issues e' c' →
    claimKey c' = claimKey c →
    claimUntil ≤ now' ∨ ∃ m ∈ mid, ∃ d, Settles m d ∧ SameLease c d
  /-- A claim call changes the messages it returns or dead-letters, and no others. -/
  claim_frame : ∀ e ∈ history sha ops, ∀ t worker now claimUntil limit,
    e.op = .claimOutbox t worker now claimUntil limit → ∀ k,
    (∃ c, Issues e c ∧ claimKey c = k) ∨
      (∃ r, e.before.deliveries.lookup k = some r ∧
        e.after.deliveries.lookup k = some { r with status := .deadLetter }) ∨
      e.after.deliveries.lookup k = e.before.deliveries.lookup k
  /-- A settlement changes its own message only. -/
  settle_frame : ∀ e ∈ history sha ops, ∀ c, e.op.settles = some c → ∀ k, k ≠ claimKey c →
    e.after.deliveries.lookup k = e.before.deliveries.lookup k

/-! ## One step, read at one record -/

section DeliveryStep

variable {op : Op} {result : Except Error Result} {k : DeliveryKey} {c : DeliveryClaim}
  {before after : Option DeliveryRecord}

/-- The record of an issued claim: due before, leased after. -/
theorem DeliveryStep.issued (h : DeliveryStep sha op result k before after)
    (hc : c ∈ issuedBy result) (hkey : claimKey c = k) :
    ∃ r t worker now claimUntil limit, op = .claimOutbox t worker now claimUntil limit ∧
      before = some r ∧ claimable t now .outbox r = true ∧ c.attempt = r.attempts + 1 ∧
      after = some { r with attempts := c.attempt, claimToken := some c.claimToken.val,
                            claimUntil := some claimUntil, status := .claimed } := by
  cases h with
  | same r hissued hsettled => exact absurd hkey (hissued c hc)
  | created r hissued hsettled htime hk hattempts hstatus =>
    rw [hissued] at hc; exact absurd hc List.not_mem_nil
  | claimed r t worker now claimUntil limit c' hop hclaimable hk hissue hmem honly =>
    have hcc : c = c' := honly c hc hkey
    subst hcc
    obtain ⟨-, hattempt, hrecord⟩ := issueClaim_some hissue
    refine ⟨r, t, worker, now, claimUntil, limit, hop, rfl, hclaimable, hattempt, ?_⟩
    rw [hrecord]
  | dead r t worker now claimUntil limit hop hclaimable hk hissue hissued =>
    exact absurd hkey (hissued c hc)
  | settled r c' status errorCode retryAt v hop hok hk howns hstatus hissued =>
    rw [hissued] at hc; exact absurd hc List.not_mem_nil

/-- The record of a settled claim: leased to it before, free after. -/
theorem DeliveryStep.settles (h : DeliveryStep sha op result k before after)
    (hop : op.settles = some c) {v : Result} (hok : result = .ok v) (hkey : claimKey c = k) :
    ∃ r r', before = some r ∧ ownsClaim r c ∧ after = some r' ∧ r'.attempts = r.attempts ∧
      r'.status ≠ .claimed := by
  cases h with
  | same r hissued hsettled => exact absurd hkey (hsettled c v hop hok)
  | created r hissued hsettled htime hk hattempts hstatus => rw [hsettled] at hop; cases hop
  | claimed r t worker now claimUntil limit c' hop' hclaimable hk hissue hmem honly =>
    rw [hop'] at hop; cases hop
  | dead r t worker now claimUntil limit hop' hclaimable hk hissue hissued =>
    rw [hop'] at hop; cases hop
  | settled r c' status errorCode retryAt v' hop' hok' hk howns hstatus hissued =>
    rw [hop'] at hop
    obtain rfl := Option.some.inj hop
    exact ⟨r, _, rfl, howns, rfl, rfl, hstatus⟩

theorem claimable_not_final {t : String} {now : Datetime} {direction : Direction}
    {r : DeliveryRecord} (h : claimable t now direction r = true) : ¬r.status.final := by
  intro hfinal
  simp only [claimable, Bool.and_eq_true, Bool.or_eq_true, beq_iff_eq] at h
  rcases h.2 with hpending | ⟨hclaimed, -⟩
  · rw [hpending] at hfinal; exact hfinal
  · rw [hclaimed] at hfinal; exact hfinal

/-- A step keeps a record and moves it forward. -/
theorem DeliveryStep.progress {r : DeliveryRecord} (h : DeliveryStep sha op result k (some r) after) :
    ∃ r', after = some r' ∧ RecordProgress r r' := by
  cases h with
  | same _ hissued hsettled => exact ⟨r, rfl, le_refl _, fun _ => rfl⟩
  | claimed _ t worker now claimUntil limit c' hop hclaimable hk hissue hmem honly =>
    obtain ⟨-, hattempt, hrecord⟩ := issueClaim_some hissue
    refine ⟨_, rfl, ?_, fun hfinal => absurd hfinal (claimable_not_final hclaimable)⟩
    rw [hrecord]
    show r.attempts ≤ c'.attempt
    omega
  | dead _ t worker now claimUntil limit hop hclaimable hk hissue hissued =>
    exact ⟨_, rfl, le_refl _, fun hfinal => absurd hfinal (claimable_not_final hclaimable)⟩
  | settled _ c' status errorCode retryAt v hop hok hk howns hstatus hissued =>
    refine ⟨_, rfl, le_refl _, fun hfinal => ?_⟩
    rw [howns.1] at hfinal
    exact absurd hfinal id

/-- The attempt `n` of the record has begun and will not be claimed again. -/
def Spent (n : Nat) (r : Option DeliveryRecord) : Prop :=
  ∃ d, r = some d ∧ n ≤ d.attempts ∧ (d.attempts = n → d.status ≠ .claimed)

theorem DeliveryStep.spent {n : Nat} (h : DeliveryStep sha op result k before after)
    (hspent : Spent n before) : Spent n after := by
  obtain ⟨r, rfl, hle, hfree⟩ := hspent
  cases h with
  | same _ hissued hsettled => exact ⟨r, rfl, hle, hfree⟩
  | claimed _ t worker now claimUntil limit c' hop hclaimable hk hissue hmem honly =>
    obtain ⟨-, hattempt, hrecord⟩ := issueClaim_some hissue
    -- the new attempt is past `n`, so nothing is asked of its status
    refine ⟨_, rfl, ?_, ?_⟩
    · rw [hrecord]; show n ≤ c'.attempt; omega
    · rw [hrecord]; intro (heq : c'.attempt = n); omega
  | dead _ t worker now claimUntil limit hop hclaimable hk hissue hissued =>
    refine ⟨_, rfl, hle, fun _ => ?_⟩
    intro hstatus; cases hstatus
  | settled _ c' status errorCode retryAt v hop hok hk howns hstatus hissued =>
    exact ⟨_, rfl, hle, fun _ => hstatus⟩

/-- The lease the claim `c` holds until `claimUntil`. -/
def Leased (c : DeliveryClaim) (claimUntil : Datetime) (r : Option DeliveryRecord) : Prop :=
  ∃ d, r = some d ∧ d.status = .claimed ∧ d.claimToken = some c.claimToken.val ∧
    d.attempts = c.attempt ∧ d.claimUntil = some claimUntil

/-- A leased record is claimable only once the lease has run out. -/
theorem Leased.claimable {claimUntil : Datetime} {r : DeliveryRecord}
    (h : Leased c claimUntil (some r)) {t : String} {now : Datetime} {direction : Direction}
    (hclaimable : claimable t now direction r = true) : claimUntil ≤ now := by
  obtain ⟨d, hd, hstatus, -, -, huntil⟩ := h
  obtain rfl := Option.some.inj hd
  simp only [Durability.claimable, hstatus, huntil, Bool.and_eq_true, Bool.or_eq_true,
    beq_iff_eq, decide_eq_true_eq] at hclaimable
  rcases hclaimable.2 with hpending | ⟨-, hle⟩
  · cases hpending
  · exact hle

/-- A step keeps a lease, or finds it run out, or settles it. -/
theorem DeliveryStep.leased {claimUntil : Datetime} (h : DeliveryStep sha op result k before after)
    (hlease : Leased c claimUntil before) (hkey : claimKey c = k) :
    Leased c claimUntil after ∨ (∃ now, op.claimTime = some now ∧ claimUntil ≤ now) ∨
      ∃ d, op.settles = some d ∧ (∃ v, result = .ok v) ∧ SameLease c d := by
  cases h with
  | same _ hissued hsettled => exact .inl hlease
  | created r hissued hsettled htime hk hattempts hstatus =>
    obtain ⟨d, hd, -⟩ := hlease; cases hd
  | claimed r t worker now until' limit c' hop hclaimable hk hissue hmem honly =>
    refine .inr (.inl ⟨now, ?_, hlease.claimable hclaimable⟩)
    rw [hop]; rfl
  | dead r t worker now until' limit hop hclaimable hk hissue hissued =>
    refine .inr (.inl ⟨now, ?_, hlease.claimable hclaimable⟩)
    rw [hop]; rfl
  | settled r c' status errorCode retryAt v hop hok hk howns hstatus hissued =>
    obtain ⟨d, hd, -, htoken, hattempt, -⟩ := hlease
    obtain rfl := Option.some.inj hd
    obtain ⟨-, htoken', hattempt'⟩ := howns
    refine .inr (.inr ⟨c', hop, ⟨v, hok⟩, hk.trans hkey.symm, ?_, ?_⟩)
    · rw [← hattempt', hattempt]
    · rw [htoken] at htoken'
      exact Subtype.ext (Option.some.inj htoken').symm

end DeliveryStep

/-! ## From one step to a stretch of calls -/

/-- A predicate of one record that every step keeps holds after any calls. -/
theorem record_run {P : Option DeliveryRecord → Prop} {k : DeliveryKey}
    (hstep : ∀ op result before after, DeliveryStep sha op result k before after → P before →
      P after) (hinv : StoreInvariant sha s) (hs : P (s.deliveries.lookup k)) (ops : List Op) :
    P ((Machine.final (step sha) s ops).deliveries.lookup k) := by
  suffices h : StoreInvariant sha (Machine.final (step sha) s ops) ∧
      P ((Machine.final (step sha) s ops).deliveries.lookup k) from h.2
  refine Machine.run_invariant_all
    (I := fun s => StoreInvariant sha s ∧ P (s.deliveries.lookup k)) ?_ s ⟨hinv, hs⟩ ops
  rintro s op ⟨hinv, hs⟩
  exact ⟨step_invariant sha s op hinv, hstep _ _ _ _ (step_delivery hinv op k) hs⟩

/-- A lease is kept by the calls of a stretch, or one of them finds it run out or settles it. -/
theorem lease_run {c : DeliveryClaim} {claimUntil : Datetime} :
    ∀ (ops : List Op) (s : Store), StoreInvariant sha s →
    Leased c claimUntil (s.deliveries.lookup (claimKey c)) →
    Leased c claimUntil ((Machine.final (step sha) s ops).deliveries.lookup (claimKey c)) ∨
      (∃ m ∈ Machine.trace (step sha) s ops, ∃ now, m.op.claimTime = some now ∧ claimUntil ≤ now) ∨
      ∃ m ∈ Machine.trace (step sha) s ops, ∃ d, Settles m d ∧ SameLease c d := by
  intro ops
  induction ops with
  | nil => intro s _ hlease; exact .inl hlease
  | cons op ops ih =>
    intro s hinv hlease
    rcases (step_delivery hinv op (claimKey c)).leased hlease rfl with hkept | hrest
    · -- still leased: the rest of the stretch decides
      rcases ih _ (step_invariant sha s op hinv) hkept with hend | ⟨m, hm, h⟩ | ⟨m, hm, h⟩
      · exact .inl hend
      · exact .inr (.inl ⟨m, List.mem_cons_of_mem _ hm, h⟩)
      · exact .inr (.inr ⟨m, List.mem_cons_of_mem _ hm, h⟩)
    · rcases hrest with ⟨now, hnow, hle⟩ | ⟨d, hd, hok, hsame⟩
      · exact .inr (.inl ⟨_, List.mem_cons_self, now, hnow, hle⟩)
      · exact .inr (.inr ⟨_, List.mem_cons_self, d, ⟨hd, hok⟩, hsame⟩)

/-! ## Calls of one history -/

/-- An entry is a call from a state that meets the invariant. -/
structure Called (sha : Sha256) (e : HistoryEntry) : Prop where
  before : StoreInvariant sha e.before
  entry : e = Machine.entry (step sha) e.before e.op

theorem Called.delivery {e : HistoryEntry} (h : Called sha e) (k : DeliveryKey) :
    DeliveryStep sha e.op e.result k (e.before.deliveries.lookup k) (e.after.deliveries.lookup k) := by
  have hstep := step_delivery h.before e.op k
  rw [h.entry]
  exact hstep

theorem Called.after {e : HistoryEntry} (h : Called sha e) : StoreInvariant sha e.after := by
  have hstep := step_invariant sha e.before e.op h.before
  rw [h.entry]
  exact hstep

theorem Called.outcome {e : HistoryEntry} (h : Called sha e) :
    (e.result, e.after) = step sha e.before e.op := by
  rw [h.entry]; rfl

theorem history_called {ops : List Op} {e : HistoryEntry} (he : e ∈ history sha ops) :
    Called sha e := by
  obtain ⟨hbefore, hentry⟩ :=
    Machine.trace_before (step_invariant sha) (storeInvariant_empty sha) he
  exact ⟨hbefore, hentry⟩

/-- Two calls of a history and the calls between them. -/
theorem history_pair {ops : List Op} {pre mid post : List HistoryEntry} {e e' : HistoryEntry}
    (h : history sha ops = pre ++ e :: (mid ++ e' :: post)) :
    Called sha e ∧ Called sha e' ∧ ∃ between, mid = Machine.trace (step sha) e.after between ∧
      e'.before = Machine.final (step sha) e.after between := by
  obtain ⟨-, between, -, hmid, he'⟩ := Machine.trace_pair h
  have he : e ∈ history sha ops := by rw [h]; simp
  have he₁ : e' ∈ history sha ops := by rw [h]; simp
  exact ⟨history_called he, history_called he₁, between, hmid, by rw [he']; rfl⟩

/-- What the first of two calls leaves of a record is still so before the second. -/
theorem history_record {P : Option DeliveryRecord → Prop} {k : DeliveryKey} {ops : List Op}
    {pre mid post : List HistoryEntry} {e e' : HistoryEntry}
    (h : history sha ops = pre ++ e :: (mid ++ e' :: post))
    (hstep : ∀ op result before after, DeliveryStep sha op result k before after → P before →
      P after) (hafter : P (e.after.deliveries.lookup k)) : P (e'.before.deliveries.lookup k) := by
  obtain ⟨hcalled, -, between, -, hbefore⟩ := history_pair h
  rw [hbefore]
  exact record_run hstep hcalled.after hafter between

/-- The attempt number `n` of the record has begun. -/
def Begun (n : Nat) (r : Option DeliveryRecord) : Prop := ∃ d, r = some d ∧ n ≤ d.attempts

theorem DeliveryStep.begun {n : Nat} {op : Op} {result : Except Error Result} {k : DeliveryKey}
    {before after : Option DeliveryRecord} (h : DeliveryStep sha op result k before after)
    (hbegun : Begun n before) : Begun n after := by
  obtain ⟨r, rfl, hle⟩ := hbegun
  obtain ⟨r', hr', hprogress, -⟩ := h.progress
  exact ⟨r', hr', le_trans hle hprogress⟩

/-- An issued attempt has begun in every later state of the run. -/
theorem issued_begun {ops : List Op} {pre mid post : List HistoryEntry} {e e' : HistoryEntry}
    {c : DeliveryClaim} (h : history sha ops = pre ++ e :: (mid ++ e' :: post)) (hc : Issues e c) :
    Begun c.attempt (e'.before.deliveries.lookup (claimKey c)) := by
  refine history_record h (fun _ _ _ _ hstep => hstep.begun) ?_
  obtain ⟨r, t, worker, now, claimUntil, limit, -, -, -, -, hafter⟩ :=
    ((history_pair h).1.delivery (claimKey c)).issued hc rfl
  exact ⟨_, hafter, le_refl _⟩

/-! ## The laws -/

theorem issued_increases {ops : List Op} {pre mid post : List HistoryEntry} {e e' : HistoryEntry}
    {c c' : DeliveryClaim} (h : history sha ops = pre ++ e :: (mid ++ e' :: post)) (hc : Issues e c)
    (hc' : Issues e' c') (hkey : claimKey c' = claimKey c) : c.attempt < c'.attempt := by
  obtain ⟨d, hd, hle⟩ := issued_begun h hc
  obtain ⟨r, t, worker, now, claimUntil, limit, -, hbefore, -, hattempt, -⟩ :=
    ((history_pair h).2.1.delivery (claimKey c)).issued hc' hkey
  rw [hbefore] at hd
  obtain rfl := Option.some.inj hd
  omega

theorem settled_increases {ops : List Op} {pre mid post : List HistoryEntry} {e e' : HistoryEntry}
    {c c' : DeliveryClaim} (h : history sha ops = pre ++ e :: (mid ++ e' :: post)) (hc : Settles e c)
    (hc' : Settles e' c') (hkey : claimKey c' = claimKey c) : c.attempt < c'.attempt := by
  obtain ⟨hop, v, hok⟩ := hc
  obtain ⟨hop', v', hok'⟩ := hc'
  have hspent : Spent c.attempt (e'.before.deliveries.lookup (claimKey c)) := by
    refine history_record h (fun _ _ _ _ hstep => hstep.spent) ?_
    obtain ⟨r, r', -, howns, hafter, hattempts, hstatus⟩ :=
      ((history_pair h).1.delivery (claimKey c)).settles hop hok rfl
    exact ⟨r', hafter, by rw [hattempts, howns.2.2], fun _ => hstatus⟩
  obtain ⟨d, hd, hle, hfree⟩ := hspent
  obtain ⟨r, r', hbefore, howns, -⟩ :=
    ((history_pair h).2.1.delivery (claimKey c)).settles hop' hok' hkey
  rw [hbefore] at hd
  obtain rfl := Option.some.inj hd
  -- the second settlement found the record claimed, so its attempt is a later one
  have hne : r.attempts ≠ c.attempt := fun heq => hfree heq howns.1
  have hattempt : r.attempts = c'.attempt := howns.2.2
  omega

/-- A claim the record does not carry is refused and nothing changes. -/
theorem settle_refused {op : Op} {c : DeliveryClaim} (hop : op.settles = some c)
    (hnot : ∀ r, s.deliveries.lookup (claimKey c) = some r → ¬ownsClaim r c) :
    step sha s op = (.error ⟨.messageClaimConflict, "outbox claim is stale or not owned"⟩, s) := by
  have hupdate : ∀ status errorCode retryAt, Exec.Sat (do
      updateClaim c status errorCode retryAt; return Result.none) s
      (fun _ _ => False) (fun e s' => s' = s ∧
        e = ⟨.messageClaimConflict, "outbox claim is stale or not owned"⟩) := by
    intro status errorCode retryAt
    refine Exec.Sat.call (updateClaim_sat c status errorCode retryAt s) ?_ ?_
    · rintro e s' ⟨hs, he, -⟩; exact ⟨hs, he⟩
    · rintro _ s' ⟨r, hr, howns, -⟩; exact absurd howns (hnot r hr)
  have hbody : Exec.Sat (op.body sha) s (fun _ _ => False) (fun e s' => s' = s ∧
      e = ⟨.messageClaimConflict, "outbox claim is stale or not owned"⟩) := by
    cases op with
    | completeOutbox claim =>
      obtain rfl := Option.some.inj hop
      exact hupdate _ _ _
    | failOutbox claim errorCode retryAt permanent =>
      obtain rfl := Option.some.inj hop
      exact hupdate _ _ _
    | _ => cases hop
  show op.body sha s = _
  revert hbody
  unfold Exec.Sat
  rcases op.body sha s with ⟨result, s'⟩
  cases result with
  | ok v => intro hfalse; exact absurd hfalse id
  | error e => rintro ⟨rfl, rfl⟩; rfl

theorem superseded_refused {ops : List Op} {pre mid mid' post : List HistoryEntry}
    {e e' e'' : HistoryEntry} {c c' : DeliveryClaim}
    (h : history sha ops = pre ++ e :: (mid ++ e' :: (mid' ++ e'' :: post))) (hc : Issues e c)
    (hc' : Issues e' c') (hkey : claimKey c' = claimKey c) (hop : e''.op.settles = some c) :
    e''.result = .error ⟨.messageClaimConflict, "outbox claim is stale or not owned"⟩ ∧
      e''.after = e''.before := by
  have hlt := issued_increases h hc hc' hkey
  have hlater : history sha ops = (pre ++ e :: mid) ++ e' :: (mid' ++ e'' :: post) := by
    rw [h]; simp
  obtain ⟨d, hd, hle⟩ := issued_begun hlater hc'
  rw [hkey] at hd
  have hstep : step sha e''.before e''.op
      = (.error ⟨.messageClaimConflict, "outbox claim is stale or not owned"⟩, e''.before) := by
    refine settle_refused hop ?_
    intro r hr howns
    rw [hr] at hd
    obtain rfl := Option.some.inj hd
    have := howns.2.2
    omega
  have houtcome := (history_pair hlater).2.1.outcome
  rw [hstep] at houtcome
  exact Prod.mk.inj houtcome

/-- The time of an earlier claim call is at most that of a later one. -/
theorem claimTimes_le {h pre mid post : List HistoryEntry} {m e : HistoryEntry} {now now' : Datetime}
    (hordered : ClaimTimesOrdered h) (hsplit : h = pre ++ mid ++ e :: post) (hm : m ∈ mid)
    (hnow : m.op.claimTime = some now) (hnow' : e.op.claimTime = some now') : now ≤ now' := by
  rw [ClaimTimesOrdered, List.pairwise_filterMap, hsplit, List.pairwise_append] at hordered
  exact hordered.2.2 m (List.mem_append_right _ hm) e List.mem_cons_self now hnow now' hnow'

theorem lease_exclusive {ops : List Op} {pre mid post : List HistoryEntry} {e e' : HistoryEntry}
    {c c' : DeliveryClaim} {t worker t' worker' : String} {now claimUntil now' claimUntil' : Datetime}
    {limit limit' : Int} (hordered : ClaimTimesOrdered (history sha ops))
    (h : history sha ops = pre ++ e :: (mid ++ e' :: post))
    (hop : e.op = .claimOutbox t worker now claimUntil limit) (hc : Issues e c)
    (hop' : e'.op = .claimOutbox t' worker' now' claimUntil' limit') (hc' : Issues e' c')
    (hkey : claimKey c' = claimKey c) :
    claimUntil ≤ now' ∨ ∃ m ∈ mid, ∃ d, Settles m d ∧ SameLease c d := by
  obtain ⟨hcalled, hcalled', between, hmid, hbefore⟩ := history_pair h
  have hlease : Leased c claimUntil (e.after.deliveries.lookup (claimKey c)) := by
    obtain ⟨r, t, worker, now, claimUntil, limit, hop₁, -, -, -, hafter⟩ :=
      (hcalled.delivery (claimKey c)).issued hc rfl
    rw [hop] at hop₁
    cases hop₁
    exact ⟨_, hafter, rfl, rfl, rfl, rfl⟩
  rcases lease_run between e.after hcalled.after hlease with hend | ⟨m, hm, hrun⟩ | hsettled
  · -- the lease was still there, and yet the message was claimable
    obtain ⟨r, t, worker, now, until', limit, hop₁, hr, hclaimable, -, -⟩ :=
      (hcalled'.delivery (claimKey c)).issued hc' hkey
    rw [hop'] at hop₁
    cases hop₁
    rw [← hbefore, hr] at hend
    exact .inl (hend.claimable hclaimable)
  · obtain ⟨time, htime, hle⟩ := hrun
    rw [← hmid] at hm
    have hlater : time ≤ now' := by
      have hsplit : history sha ops = (pre ++ [e]) ++ mid ++ e' :: post := by rw [h]; simp
      exact claimTimes_le hordered hsplit hm htime (by rw [hop']; rfl)
    exact .inl (Int.le_trans hle hlater)
  · rw [hmid]; exact .inr hsettled

/-- Only a claim call issues claims, and it issues one per message. -/
theorem issued_nodup {e : HistoryEntry} (h : Called sha e) :
    ((issuedBy e.result).map claimKey).Nodup := by
  by_cases hsome : ∃ c, Issues e c
  · obtain ⟨c, hc⟩ := hsome
    obtain ⟨-, t, worker, now, claimUntil, limit, hop, -⟩ :=
      (h.delivery (claimKey c)).issued hc rfl
    rw [h.entry]
    show ((issuedBy (step sha e.before e.op).1).map claimKey).Nodup
    rw [hop]
    refine Exec.Sat.outcome (x := (Op.claimOutbox t worker now claimUntil limit).body sha)
      (P := fun result _ => ((issuedBy result).map claimKey).Nodup) ?_
    refine Exec.Sat.call (claimOutbox_sat sha t worker now claimUntil limit e.before) ?_ ?_
    · intro _ _ _; exact List.nodup_nil
    · rintro claims s' ⟨-, hloop, -⟩
      obtain ⟨hclaims, -⟩ := Prod.mk.inj hloop
      show (claims.map claimKey).Nodup
      rw [hclaims]
      exact claimLoop_nodup h.before.deliveries worker claimUntil now t limit.toNat
  · have hnil : issuedBy e.result = [] := List.eq_nil_iff_forall_not_mem.mpr fun c hc =>
      hsome ⟨c, hc⟩
    rw [hnil]
    exact List.nodup_nil

theorem claim_changes {e : HistoryEntry} (h : Called sha e) {t worker : String}
    {now claimUntil : Datetime} {limit : Int}
    (hop : e.op = .claimOutbox t worker now claimUntil limit) (k : DeliveryKey) :
    (∃ c, Issues e c ∧ claimKey c = k) ∨
      (∃ r, e.before.deliveries.lookup k = some r ∧
        e.after.deliveries.lookup k = some { r with status := .deadLetter }) ∨
      e.after.deliveries.lookup k = e.before.deliveries.lookup k := by
  have hstep := h.delivery k
  rw [hop] at hstep
  generalize e.before.deliveries.lookup k = before at hstep ⊢
  generalize e.after.deliveries.lookup k = after at hstep ⊢
  cases hstep with
  | same r hissued hsettled => exact .inr (.inr rfl)
  | created r hissued hsettled htime hk hattempts hstatus => cases htime
  | claimed r t worker now claimUntil limit c' hop hclaimable hk hissue hmem honly =>
    exact .inl ⟨c', hmem, (issueClaim_some hissue).1.trans hk⟩
  | dead r t worker now claimUntil limit hop hclaimable hk hissue hissued =>
    exact .inr (.inl ⟨r, rfl, rfl⟩)
  | settled r c' status errorCode retryAt v hop hok hk howns hstatus hissued => cases hop

theorem settle_changes {e : HistoryEntry} (h : Called sha e) {c : DeliveryClaim}
    (hop : e.op.settles = some c) {k : DeliveryKey} (hk : k ≠ claimKey c) :
    e.after.deliveries.lookup k = e.before.deliveries.lookup k := by
  have hstep := h.delivery k
  generalize e.before.deliveries.lookup k = before at hstep ⊢
  generalize e.after.deliveries.lookup k = after at hstep ⊢
  cases hstep with
  | same r hissued hsettled => rfl
  | created r hissued hsettled htime hk' hattempts hstatus => rw [hsettled] at hop; cases hop
  | claimed r t worker now claimUntil limit c' hop' hclaimable hk' hissue hmem honly =>
    rw [hop'] at hop; cases hop
  | dead r t worker now claimUntil limit hop' hclaimable hk' hissue hissued =>
    rw [hop'] at hop; cases hop
  | settled r c' status errorCode retryAt v hop' hok hk' howns hstatus hissued =>
    rw [hop] at hop'
    obtain rfl := Option.some.inj hop'
    exact absurd hk'.symm hk

theorem run_progress (sha : Sha256) (ops more : List Op) {k : DeliveryKey} {r : DeliveryRecord}
    (hr : (run sha ops).deliveries.lookup k = some r) :
    ∃ r', (run sha (ops ++ more)).deliveries.lookup k = some r' ∧ RecordProgress r r' := by
  rw [run, Machine.final_append]
  refine record_run (P := fun after => ∃ r', after = some r' ∧ RecordProgress r r') ?_
    (storeInvariant_run sha ops) ⟨r, hr, le_refl _, fun _ => rfl⟩ more
  rintro op result before after hstep ⟨r₁, rfl, hle, hfinal⟩
  obtain ⟨r₂, hr₂, hle', hfinal'⟩ := hstep.progress
  refine ⟨r₂, hr₂, le_trans hle hle', fun hf => ?_⟩
  obtain rfl := hfinal hf
  exact hfinal' hf

/-- **The outbox lease protocol** holds in every history of the store. -/
theorem outbox_lease_protocol (sha : Sha256) (ops : List Op) : LeaseLaws sha ops where
  attempts_bounded k r h := ((storeInvariant_run sha ops).deliveries k r h).2
  progress more _ _ h := run_progress sha ops more h
  issued_once_per_call _ he := issued_nodup (history_called he)
  issued_once _ _ _ _ _ _ _ := issued_increases
  settled_once _ _ _ _ _ _ _ := settled_increases
  superseded _ _ _ _ _ _ _ _ _ := superseded_refused
  exclusive hordered _ _ _ _ _ _ _ _ _ _ _ _ _ _ _ _ _ := lease_exclusive hordered
  claim_frame _ he _ _ _ _ _ hop k := claim_changes (history_called he) hop k
  settle_frame _ he _ hop _ hk := settle_changes (history_called he) hop hk

end Durability

end Aegis
