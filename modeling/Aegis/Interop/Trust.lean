/-
  THE TRUST REGISTRY.

  Each peer has a list of entries.  `register` appends one that somebody wrote, which must await review;
  every other operation appends a COPY of the latest entry with a new status.  So an ACTIVE entry is a
  copy of a pending one, and what it allows is what was written there (`Exact`).

  The laws are about neighbours in the list, so an append has to check one pair only
  (`PeerLaws.append`); that nothing else ever happens to a list is `registry_step`.
-/
import Mathlib
import Aegis.Lib.Exec
import Aegis.Lib.Machine
import Aegis.Interop.Records

namespace Aegis

namespace Interop

open Exec (Sat)

variable {sha : Sha256} {texts : Texts}

/-! ## The registry -/

/-- `_entries`. -/
structure Registry where
  entries : String → List TrustEntry

def Registry.start : Registry := ⟨fun _ => []⟩

/-- `_current`. -/
def Registry.current (r : Registry) (peerId : String) : Option TrustEntry := (r.entries peerId).getLast?

def Registry.append (r : Registry) (peerId : String) (entry : TrustEntry) : Registry :=
  ⟨Function.update r.entries peerId (r.entries peerId ++ [entry])⟩

abbrev TrustAction (α : Type) : Type := Exec Failure Registry α

/-- `register`. -/
def register (entry : TrustEntry) : TrustAction TrustEntry := do
  let r ← Exec.read
  let current := r.current entry.peerId.val
  Exec.require (entry.revision = current.elim 1 (·.revision + 1))
    ⟨.concurrencyConflict, "peer trust revision is stale"⟩
  Exec.require (∀ c ∈ current, c.protocol = entry.protocol)
    ⟨.integrityFailure, "peer protocol cannot change in place"⟩
  Exec.require (entry.status = .pendingReview)
    ⟨.policyDenied, "new or changed trust must await review"⟩
  Exec.modify fun r => r.append entry.peerId.val entry
  pure entry

/-- `tuple(sorted({*reviewers, reviewer}))`. -/
def withReviewer (reviewers : List String) (reviewer : String) : List String :=
  (reviewer :: reviewers).dedup.insertionSort (fun a b => a ≤ b)

/-- The copy that a transition appends. -/
def TrustEntry.transition (e : TrustEntry) (target : TrustStatus) (reviewer : String) (now : Datetime)
    (changeDigest : Digest) : TrustEntry :=
  { e with revision := e.revision + 1, status := target,
           reviewedBy := withReviewer e.reviewedBy reviewer, reviewedAt := some now, changeDigest }

/-- What is asked of a transition. -/
structure TransitionCall where
  peerId : String
  expectedRevision : Int
  reviewerRef : String
  now : Datetime
  typedConfirmation : String

/-- `_transition`. -/
def transition (sha : Sha256) (texts : Texts) (call : TransitionCall) (target : TrustStatus)
    (requiredConfirmation : String) : TrustAction TrustEntry := do
  Exec.require (call.typedConfirmation = requiredConfirmation)
    ⟨.payloadRejected, "typed trust confirmation is invalid"⟩
  let r ← Exec.read
  match r.current call.peerId with
  | none => Exec.raise ⟨.policyDenied, "peer is unavailable"⟩
  | some current => do
    Exec.require ((current.revision : Int) = call.expectedRevision)
      ⟨.concurrencyConflict, "peer trust revision is stale"⟩
    Exec.require (target = .active → current.status = .pendingReview)
      ⟨.policyDenied, "only pending trust can be activated"⟩
    Exec.require (target ≠ .active → current.status ≠ .revoked ∧ current.status ≠ .emergencyDisabled)
      ⟨.policyDenied, "terminal peer trust cannot transition"⟩
    let changeDigest ← Exec.lift (digestValue sha texts (.obj
      [("previous", .str current.changeDigest.val), ("revision", .int (current.revision + 1)),
        ("reviewer_ref", .str call.reviewerRef), ("status", .str target.value)]))
    let updated := current.transition target call.reviewerRef call.now changeDigest
    Exec.modify fun r => r.append call.peerId updated
    pure updated

/-- `review`. -/
def review (sha : Sha256) (texts : Texts) (call : TransitionCall) : TrustAction TrustEntry :=
  transition sha texts call .active ("TRUST " ++ call.peerId)

/-- `quarantine`. -/
def quarantine (sha : Sha256) (texts : Texts) (call : TransitionCall) : TrustAction TrustEntry :=
  transition sha texts call .quarantined ("QUARANTINE " ++ call.peerId)

/-- `revoke`. -/
def revoke (sha : Sha256) (texts : Texts) (call : TransitionCall) : TrustAction TrustEntry :=
  transition sha texts call .revoked ("REVOKE " ++ call.peerId)

/-- `emergency_disable`. -/
def emergencyDisable (sha : Sha256) (texts : Texts) (call : TransitionCall) : TrustAction TrustEntry :=
  transition sha texts call .emergencyDisabled ("DISABLE " ++ call.peerId)

/-- What a use of a peer asks for. -/
structure UseCall where
  peerId : String
  protocol : ProtocolKind
  capabilityId : Identifier
  risk : RiskLevel
  classification : DataClassification
  now : Datetime

/-- `require_active`. -/
def Registry.requireActive (r : Registry) (call : UseCall) : Except Failure TrustEntry :=
  match r.current call.peerId with
  | none => .error ⟨.policyDenied, "peer is not registered for this protocol"⟩
  | some current =>
    if current.protocol ≠ call.protocol then
      .error ⟨.policyDenied, "peer is not registered for this protocol"⟩
    else if current.status ≠ .active then .error ⟨.policyDenied, "peer trust is not active"⟩
    else if current.expiresAt ≤ call.now ∨ current.reviewAfter ≤ call.now then
      .error ⟨.policyDenied, "peer trust review is expired"⟩
    else if call.capabilityId ∉ current.allowedCapabilities then
      .error ⟨.policyDenied, "peer capability is not allowed"⟩
    else if call.risk ∉ current.allowedRisks then .error ⟨.policyDenied, "peer risk is not allowed"⟩
    else if call.classification ∉ current.allowedClassifications then
      .error ⟨.policyDenied, "peer classification is not allowed"⟩
    else .ok current

/-! ## Calls -/

inductive TrustOp where
  | register (entry : TrustEntry)
  | review (call : TransitionCall)
  | quarantine (call : TransitionCall)
  | revoke (call : TransitionCall)
  | emergencyDisable (call : TransitionCall)

def TrustOp.body (sha : Sha256) (texts : Texts) : TrustOp → TrustAction TrustEntry
  | .register entry => Interop.register entry
  | .review call => Interop.review sha texts call
  | .quarantine call => Interop.quarantine sha texts call
  | .revoke call => Interop.revoke sha texts call
  | .emergencyDisable call => Interop.emergencyDisable sha texts call

def trustStep (sha : Sha256) (texts : Texts) (r : Registry) (op : TrustOp) :
    Except Failure TrustEntry × Registry := op.body sha texts r

abbrev TrustHistoryEntry := Machine.Entry Registry TrustOp (Except Failure TrustEntry)

def trustRun (sha : Sha256) (texts : Texts) (ops : List TrustOp) : Registry :=
  Machine.final (trustStep sha texts) Registry.start ops

def trustHistory (sha : Sha256) (texts : Texts) (ops : List TrustOp) : List TrustHistoryEntry :=
  Machine.trace (trustStep sha texts) Registry.start ops

/-! ## The laws of one list -/

/-- The two entries differ in revision, status, reviewers, review time and change digest at most. -/
def Exact (pending active : TrustEntry) : Prop :=
  active = { pending with
    revision := active.revision, status := active.status, reviewedBy := active.reviewedBy,
    reviewedAt := active.reviewedAt, changeDigest := active.changeDigest }

/-- The entries of a peer. -/
structure PeerLaws (peerId : String) (entries : List TrustEntry) : Prop where
  revisions : entries.map (·.revision) = (List.range entries.length).map (· + 1)
  protocol : ∀ a ∈ entries, ∀ b ∈ entries, a.protocol = b.protocol
  peer : ∀ a ∈ entries, a.peerId.val = peerId
  reviewed : ∀ pre active post, entries = pre ++ active :: post → active.status = .active →
    ∃ before pending, pre = before ++ [pending] ∧ pending.status = .pendingReview ∧
      Exact pending active

theorem peerLaws_nil (peerId : String) : PeerLaws peerId [] where
  revisions := rfl
  protocol := fun _ h => absurd h List.not_mem_nil
  peer := fun _ h => absurd h List.not_mem_nil
  reviewed := by
    intro pre active post h
    exact absurd h.symm (by simp)

/-- The revision of the latest entry is the number of entries. -/
theorem PeerLaws.latest {peerId : String} {entries : List TrustEntry} (h : PeerLaws peerId entries)
    {current : TrustEntry} (hcurrent : entries.getLast? = some current) :
    current.revision = entries.length := by
  obtain ⟨before, rfl⟩ := List.getLast?_eq_some_iff.mp hcurrent
  have hmap := h.revisions
  rw [List.map_append, List.length_append, List.length_singleton, List.range_succ,
    List.map_append] at hmap
  have hlast := (List.append_inj' hmap rfl).2
  rw [List.length_append, List.length_singleton]
  exact (List.cons.inj hlast).1

/-- **An append has one pair to check.** -/
theorem PeerLaws.append {peerId : String} {entries : List TrustEntry} (h : PeerLaws peerId entries)
    {entry : TrustEntry} (hpeer : entry.peerId.val = peerId)
    (hrevision : entry.revision = entries.getLast?.elim 1 (·.revision + 1))
    (hprotocol : ∀ current ∈ entries.getLast?, current.protocol = entry.protocol)
    (hreviewed : entry.status = .active → ∃ pending ∈ entries.getLast?,
      pending.status = .pendingReview ∧ Exact pending entry) :
    PeerLaws peerId (entries ++ [entry]) := by
  have hlength : entry.revision = entries.length + 1 := by
    cases hlast : entries.getLast? with
    | none =>
      rw [hlast] at hrevision
      rw [List.getLast?_eq_none_iff.mp hlast]
      exact hrevision
    | some current =>
      rw [hlast] at hrevision
      rw [← h.latest hlast]
      exact hrevision
  have hsame : ∀ a ∈ entries, a.protocol = entry.protocol := by
    intro a ha
    cases hlast : entries.getLast? with
    | none =>
      rw [List.getLast?_eq_none_iff.mp hlast] at ha
      cases ha
    | some current =>
      have hmem : current ∈ entries := List.mem_of_getLast? hlast
      exact (h.protocol a ha current hmem).trans (hprotocol current hlast)
  refine ⟨?_, ?_, ?_, ?_⟩
  · rw [List.map_append, List.length_append, List.length_singleton, List.range_succ, List.map_append,
      h.revisions]
    show _ ++ [entry.revision] = _
    rw [hlength]
    rfl
  · intro a ha b hb
    rcases List.mem_append.mp ha with ha | ha
    · rcases List.mem_append.mp hb with hb | hb
      · exact h.protocol a ha b hb
      · rw [List.mem_singleton.mp hb]
        exact hsame a ha
    · rw [List.mem_singleton.mp ha]
      rcases List.mem_append.mp hb with hb | hb
      · exact (hsame b hb).symm
      · rw [List.mem_singleton.mp hb]
  · intro a ha
    rcases List.mem_append.mp ha with ha | ha
    · exact h.peer a ha
    · rw [List.mem_singleton.mp ha]
      exact hpeer
  · intro pre active post hsplit hactive
    rcases List.eq_nil_or_concat post with rfl | ⟨front, last, rfl⟩
    · -- the new entry is the active one
      obtain ⟨rfl, hlast⟩ := List.append_inj' hsplit rfl
      obtain rfl := (List.cons.inj hlast).1
      obtain ⟨pending, hpending, hstatus, hexact⟩ := hreviewed hactive
      obtain ⟨before, rfl⟩ := List.getLast?_eq_some_iff.mp hpending
      exact ⟨before, pending, rfl, hstatus, hexact⟩
    · have hfront : entries = pre ++ active :: front := by
        have happend : entries ++ [entry] = (pre ++ active :: front) ++ [last] := by
          rw [hsplit]
          simp
        exact (List.append_inj' happend rfl).1
      exact h.reviewed pre active front hfront hactive

/-! ## What a call does -/

/-- A call that returns has appended one entry, which the list allows; one that raises has changed
    nothing. -/
theorem registry_step (r : Registry) (op : TrustOp) :
    Sat (op.body sha texts) r
      (fun entry r' => ∃ peerId, r' = r.append peerId entry ∧
        (PeerLaws peerId (r.entries peerId) → PeerLaws peerId (r.entries peerId ++ [entry])))
      (fun _ r' => r' = r) := by
  have htransition : ∀ (call : TransitionCall) (target : TrustStatus) (required : String),
      Sat (transition sha texts call target required) r
        (fun entry r' => ∃ peerId, r' = r.append peerId entry ∧
          (PeerLaws peerId (r.entries peerId) → PeerLaws peerId (r.entries peerId ++ [entry])))
        (fun _ r' => r' = r) := by
    intro call target required
    refine Sat.check (fun _ => rfl) fun _ => ?_
    rw [Exec.sat_bind, Exec.sat_read]
    cases hcurrent : r.current call.peerId with
    | none => exact rfl
    | some current =>
      refine Sat.check (fun _ => rfl) fun _ => ?_
      refine Sat.check (fun _ => rfl) fun hpending => ?_
      refine Sat.check (fun _ => rfl) fun _ => ?_
      refine Sat.attempt (fun _ _ => rfl) fun changeDigest _ => ?_
      rw [Exec.sat_bind, Exec.sat_modify, Exec.sat_pure]
      refine ⟨call.peerId, rfl, fun hlaws => ?_⟩
      have hlast : (r.entries call.peerId).getLast? = some current := hcurrent
      refine hlaws.append (hlaws.peer current (List.mem_of_getLast? hlast)) ?_ ?_ ?_
      · rw [hlast]
        rfl
      · rw [hlast]
        rintro _ ⟨rfl⟩
        rfl
      · intro hactive
        exact ⟨current, hlast, hpending hactive, rfl⟩
  cases op with
  | register entry =>
    show Sat (Exec.read >>= _) r _ _
    rw [Exec.sat_bind, Exec.sat_read]
    refine Sat.check (fun _ => rfl) fun hrevision => ?_
    refine Sat.check (fun _ => rfl) fun hprotocol => ?_
    refine Sat.check (fun _ => rfl) fun hstatus => ?_
    rw [Exec.sat_bind, Exec.sat_modify, Exec.sat_pure]
    refine ⟨entry.peerId.val, rfl, fun hlaws => hlaws.append rfl hrevision hprotocol fun hactive => ?_⟩
    rw [hstatus] at hactive
    cases hactive
  | review call => exact htransition call _ _
  | quarantine call => exact htransition call _ _
  | revoke call => exact htransition call _ _
  | emergencyDisable call => exact htransition call _ _

theorem append_entries (r : Registry) (peerId : String) (entry : TrustEntry) (other : String) :
    (r.append peerId entry).entries other =
      if other = peerId then r.entries peerId ++ [entry] else r.entries other := by
  unfold Registry.append
  by_cases hsame : other = peerId
  · rw [hsame, if_pos rfl]
    exact Function.update_self ..
  · rw [if_neg hsame]
    exact Function.update_of_ne hsame ..

/-- Every list keeps its laws and its entries. -/
theorem trustStep_keeps (r : Registry) (op : TrustOp) :
    ((∀ peerId, PeerLaws peerId (r.entries peerId)) →
      ∀ peerId, PeerLaws peerId ((trustStep sha texts r op).2.entries peerId)) ∧
    (∀ peerId, r.entries peerId <+: (trustStep sha texts r op).2.entries peerId) ∧
    ∀ e, (trustStep sha texts r op).1 = .error e → (trustStep sha texts r op).2 = r := by
  have hstep : Sat (op.body sha texts) r _ _ := registry_step r op
  unfold trustStep
  unfold Sat at hstep
  rcases hrun : op.body sha texts r with ⟨result, r'⟩
  rw [hrun] at hstep
  cases result with
  | error e =>
    obtain rfl : r' = r := hstep
    exact ⟨id, fun _ => List.prefix_refl _, fun _ _ => rfl⟩
  | ok entry =>
    obtain ⟨changed, rfl, hallowed⟩ := hstep
    refine ⟨fun hlaws peerId => ?_, fun peerId => ?_, fun e he => by cases he⟩
    · rw [append_entries]
      split
      · rename_i hsame
        rw [hsame]
        exact hallowed (hlaws changed)
      · exact hlaws peerId
    · rw [append_entries]
      split
      · rename_i hsame
        rw [hsame]
        exact List.prefix_append _ _
      · exact List.prefix_refl _

/-! ## The history -/

/-- What an entry that is handed out allows. -/
structure Permits (r : Registry) (call : UseCall) (entry : TrustEntry) : Prop where
  latest : (r.entries call.peerId).getLast? = some entry
  protocol : entry.protocol = call.protocol
  active : entry.status = .active
  unexpired : call.now < entry.expiresAt
  reviewed : call.now < entry.reviewAfter
  capability : call.capabilityId ∈ entry.allowedCapabilities
  risk : call.risk ∈ entry.allowedRisks
  classification : call.classification ∈ entry.allowedClassifications

theorem requireActive_permits {r : Registry} {call : UseCall} {entry : TrustEntry}
    (h : r.requireActive call = .ok entry) : Permits r call entry := by
  unfold Registry.requireActive at h
  split at h
  · cases h
  · rename_i current hcurrent
    by_cases hprotocol : current.protocol ≠ call.protocol
    · rw [if_pos hprotocol] at h
      cases h
    rw [if_neg hprotocol] at h
    by_cases hactive : current.status ≠ .active
    · rw [if_pos hactive] at h
      cases h
    rw [if_neg hactive] at h
    by_cases hexpired : current.expiresAt ≤ call.now ∨ current.reviewAfter ≤ call.now
    · rw [if_pos hexpired] at h
      cases h
    rw [if_neg hexpired] at h
    by_cases hcapability : call.capabilityId ∉ current.allowedCapabilities
    · rw [if_pos hcapability] at h
      cases h
    rw [if_neg hcapability] at h
    by_cases hrisk : call.risk ∉ current.allowedRisks
    · rw [if_pos hrisk] at h
      cases h
    rw [if_neg hrisk] at h
    by_cases hclass : call.classification ∉ current.allowedClassifications
    · rw [if_pos hclass] at h
      cases h
    rw [if_neg hclass] at h
    obtain rfl := Except.ok.inj h
    simp only [not_or, Datetime.le_iff, not_le] at hexpired
    exact ⟨hcurrent, not_not.mp hprotocol, not_not.mp hactive, hexpired.1, hexpired.2,
      not_not.mp hcapability, not_not.mp hrisk, not_not.mp hclass⟩

/-- **The history of the trust registry**, after any calls with any arguments: the lists keep their laws,
    a call only appends, one that fails changes nothing, and what is handed out for use is the latest
    entry, active and wide enough. -/
theorem trust_history (sha : Sha256) (texts : Texts) (ops : List TrustOp) :
    (∀ peerId, PeerLaws peerId ((trustRun sha texts ops).entries peerId)) ∧
    (∀ e ∈ trustHistory sha texts ops,
      (∀ peerId, e.before.entries peerId <+: e.after.entries peerId) ∧
      ∀ failure, e.result = .error failure → e.after = e.before) ∧
    ∀ call entry, (trustRun sha texts ops).requireActive call = .ok entry →
      Permits (trustRun sha texts ops) call entry := by
  refine ⟨?_, ?_, fun call entry h => requireActive_permits h⟩
  · exact Machine.run_invariant_all (I := fun r => ∀ peerId, PeerLaws peerId (r.entries peerId))
      (fun r op h => (trustStep_keeps r op).1 h) Registry.start (fun peerId => peerLaws_nil peerId) ops
  · intro e he
    obtain ⟨xs, ys, -, hentry⟩ := Machine.trace_mem he
    rw [hentry]
    exact (trustStep_keeps _ _).2

end Interop

end Aegis
