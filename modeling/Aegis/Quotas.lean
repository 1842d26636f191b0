/-
  FOUR QUOTAS: effects, sandboxes, model budgets and protocol invocations.

  `InMemoryEffectQuota`, `InMemorySandboxQuota` and `InMemoryBudget` keep what is left of each tenant's
  limit and record every decision, denials included, under the tenant and the reservation; a reservation
  that is known is answered with its decision.  `InvocationQuota` keeps what is used, records what it
  grants only, and compares a known reservation with the call.

  `reserveRecorded` is what the first three share.  A decision is built before anything is written, so a
  decision that fails its own checks leaves no trace.
-/
import Mathlib
import Aegis.Lib.Quota
import Aegis.Remediation.Stores
import Aegis.Sandbox.Control
import Aegis.Interop.Ledger

namespace Aegis

namespace Quotas

open Exec (Sat)

/-! ## Recorded decisions -/

/-- What is left for each tenant, and the decisions. -/
structure Book (δ : Type) where
  remaining : String → Int
  reservations : String × String → Option δ

/-- A new book: `dict(limits)`, read with a default. -/
def Book.start {δ : Type} (limits : String → Option Int) (default : Int) : Book δ :=
  ⟨fun t => (limits t).getD default, fun _ => none⟩

/-- The arguments of `reserve` that are not deleted. -/
structure ReserveCall where
  tenantId : String
  reservationId : String
  units : Int

def ReserveCall.key (c : ReserveCall) : String × String := (c.tenantId, c.reservationId)

/-- What the three classes do.  `build` is the constructor of the decision, given whether the units are
    there and what then remains. -/
def reserveRecorded {δ : Type} (message : String) (build : ReserveCall → Bool → Int → Except Error δ)
    (c : ReserveCall) : Exec Error (Book δ) δ := do
  Exec.require (1 ≤ c.units) ⟨.valueError, message⟩
  let s ← Exec.read
  match s.reservations c.key with
  | some existing => pure existing
  | none => do
    let remaining := s.remaining c.tenantId
    let allowed := decide (c.units ≤ remaining)
    let newRemaining := if allowed then remaining - c.units else remaining
    let decision ← Exec.lift (build c allowed newRemaining)
    Exec.modify fun s =>
      { remaining := if allowed then Function.update s.remaining c.tenantId newRemaining else s.remaining
        reservations := Function.update s.reservations c.key (some decision) }
    pure decision

/-- `EffectQuotaDecision(...)`. -/
def buildEffect (c : ReserveCall) (allowed : Bool) (_ : Int) :
    Except Error Remediation.EffectQuotaDecision := do
  let reservationId ← Identifier.parse "EffectQuotaDecision.reservation_id" c.reservationId
  .ok { allowed, reservationId, units := c.units.toNat,
        reason := if allowed then "reserved" else "effect_quota_exhausted" }

/-- `InMemoryEffectQuota.reserve`. -/
def reserveEffect (c : ReserveCall) :
    Exec Error (Book Remediation.EffectQuotaDecision) Remediation.EffectQuotaDecision :=
  reserveRecorded "effect quota units must be positive" buildEffect c

/-- `SandboxQuotaDecision(...)`. -/
def buildSandbox (c : ReserveCall) (allowed : Bool) (_ : Int) :
    Except Error Sandbox.SandboxQuotaDecision := do
  let reservationId ← Identifier.parse "SandboxQuotaDecision.reservation_id" c.reservationId
  .ok { allowed, reservationId, units := c.units,
        reason := if allowed then "reserved" else "sandbox_quota_exhausted" }

/-- `InMemorySandboxQuota.reserve`. -/
def reserveSandbox (c : ReserveCall) :
    Exec Error (Book Sandbox.SandboxQuotaDecision) Sandbox.SandboxQuotaDecision :=
  reserveRecorded "sandbox quota units must be positive" buildSandbox c

structure BudgetDecision where
  allowed : Bool
  reservationId : String
  requestedUnits : Int
  remainingUnits : Int
  reason : String

/-- `BudgetDecision(...)`. -/
def buildBudget (c : ReserveCall) (allowed : Bool) (remaining : Int) : Except Error BudgetDecision :=
  if 0 ≤ remaining then
    .ok { allowed, reservationId := c.reservationId, requestedUnits := c.units,
          remainingUnits := remaining,
          reason := if allowed then "reserved" else "tenant_budget_exhausted" }
  else .error (validationError "BudgetDecision.remaining_units")

/-- `InMemoryBudget.reserve`, of the identity its tenant. -/
def reserveBudget (c : ReserveCall) : Exec Error (Book BudgetDecision) BudgetDecision :=
  reserveRecorded "budget reservation units must be positive" buildBudget c

/-! ## What a call does -/

section Recorded

variable {δ : Type} {message : String} {build : ReserveCall → Bool → Int → Except Error δ}

/-- The ways a recorded reservation goes. -/
inductive Reserved (build : ReserveCall → Bool → Int → Except Error δ) (s : Book δ) (c : ReserveCall) :
    Except Error δ × Book δ → Prop
  | existing (d : δ) (hpositive : 1 ≤ c.units) (hd : s.reservations c.key = some d) :
    Reserved build s c (.ok d, s)
  | granted (d : δ) (hpositive : 1 ≤ c.units) (hnew : s.reservations c.key = none)
    (hunits : c.units ≤ s.remaining c.tenantId)
    (hd : build c true (s.remaining c.tenantId - c.units) = .ok d) :
    Reserved build s c (.ok d,
      { remaining := Function.update s.remaining c.tenantId (s.remaining c.tenantId - c.units)
        reservations := Function.update s.reservations c.key (some d) })
  | denied (d : δ) (hpositive : 1 ≤ c.units) (hnew : s.reservations c.key = none)
    (hunits : s.remaining c.tenantId < c.units)
    (hd : build c false (s.remaining c.tenantId) = .ok d) :
    Reserved build s c (.ok d, { s with reservations := Function.update s.reservations c.key (some d) })
  | failed (e : Error) (hnone : 1 ≤ c.units → s.reservations c.key = none) : Reserved build s c (.error e, s)

theorem reserveRecorded_reserved (message : String) (build : ReserveCall → Bool → Int → Except Error δ)
    (s : Book δ) (c : ReserveCall) :
    Reserved build s c (reserveRecorded message build c s) := by
  have hrun : Sat (reserveRecorded message build c) s
      (fun d s' => Reserved build s c (.ok d, s')) (fun e s' => Reserved build s c (.error e, s')) := by
    unfold reserveRecorded
    refine Sat.check (fun hno => .failed _ fun h => absurd h hno) fun hpositive => ?_
    rw [Exec.sat_bind, Exec.sat_read]
    cases hd : s.reservations c.key with
    | some d => exact .existing d hpositive hd
    | none =>
      refine Sat.attempt (fun e _ => .failed e fun _ => hd) fun d hbuild => ?_
      by_cases hunits : c.units ≤ s.remaining c.tenantId
      · simp only [hunits, decide_true, if_true] at hbuild ⊢
        exact .granted d hpositive hd hunits hbuild
      · simp only [hunits, decide_false, Bool.false_eq_true, if_false] at hbuild ⊢
        exact .denied d hpositive hd (lt_of_not_ge hunits) hbuild
  exact hrun.outcome (P := fun r s' => Reserved build s c (r, s'))

/-- What the gateway of a class reads in its decisions. -/
structure Reading (δ : Type) where
  allowed : δ → Bool
  units : δ → Int

/-- A decision says what was decided. -/
def Reading.Of (reading : Reading δ) (build : ReserveCall → Bool → Int → Except Error δ) : Prop :=
  ∀ c allowed remaining d, 1 ≤ c.units → build c allowed remaining = .ok d →
    reading.allowed d = allowed ∧ reading.units d = c.units

variable {reading : Reading δ} {limit : String → Int}

/-- The units of the allowed reservations, and what they have taken of the limit. -/
def Reading.view (reading : Reading δ) (limit : String → Int) : Quota.View (Book δ) String String Int where
  granted s t id := (s.reservations (t, id)).bind fun d =>
    if reading.allowed d = true then some (reading.units d) else none
  used s t := limit t - s.remaining t

/-- A reservation is known by its tenant and its text. -/
theorem update_key {s : Book δ} {c : ReserveCall} {d : δ} (t id : String) :
    Function.update s.reservations c.key (some d) (t, id) =
      if t = c.tenantId ∧ id = c.reservationId then some d else s.reservations (t, id) := by
  rw [Function.update_apply]
  exact if_congr Prod.mk_inj rfl rfl

/-- A denial that is recorded cannot be seen. -/
theorem view_denied {s : Book δ} {c : ReserveCall} {d : δ} (hnew : s.reservations c.key = none)
    (hallowed : reading.allowed d = false) :
    (reading.view limit).granted { s with reservations := Function.update s.reservations c.key (some d) } =
      (reading.view limit).granted s := by
  funext t id
  show (Function.update s.reservations c.key (some d) (t, id)).bind _ = (s.reservations (t, id)).bind _
  rw [update_key]
  by_cases hkey : t = c.tenantId ∧ id = c.reservationId
  · obtain ⟨rfl, rfl⟩ := hkey
    rw [if_pos ⟨rfl, rfl⟩, show s.reservations (c.tenantId, c.reservationId) = none from hnew]
    show (if reading.allowed d = true then _ else _) = none
    rw [hallowed]
    rfl
  · rw [if_neg hkey]

theorem Reserved.moves (hbuild : reading.Of build) {s : Book δ} {c : ReserveCall}
    {out : Except Error δ × Book δ} (h : Reserved build s c out) :
    Quota.Moves (reading.view limit) limit c.tenantId c.reservationId c.units s out.2 := by
  cases h with
  | existing d hpositive hd => exact .kept rfl rfl
  | failed e hnone => exact .kept rfl rfl
  | denied d hpositive hnew hunits hd =>
    exact .kept (view_denied hnew (hbuild c _ _ d hpositive hd).1) rfl
  | granted d hpositive hnew hunits hd =>
    obtain ⟨hallowed, htaken⟩ := hbuild c _ _ d hpositive hd
    refine .grants ⟨?_, ?_, fun t id => ?_, fun t => ?_⟩
    · show (s.reservations (c.tenantId, c.reservationId)).bind _ = none
      rw [show s.reservations (c.tenantId, c.reservationId) = none from hnew]
      rfl
    · show limit c.tenantId - s.remaining c.tenantId + c.units ≤ limit c.tenantId
      omega
    · show (Function.update s.reservations c.key (some d) (t, id)).bind _ = _
      rw [update_key]
      by_cases hkey : t = c.tenantId ∧ id = c.reservationId
      · rw [if_pos hkey, if_pos hkey]
        show (if reading.allowed d = true then _ else _) = _
        rw [hallowed, htaken]
        rfl
      · rw [if_neg hkey, if_neg hkey]
        rfl
    · show limit t - Function.update s.remaining c.tenantId (s.remaining c.tenantId - c.units) t = _
      rw [Function.update_apply]
      by_cases ht : t = c.tenantId
      · rw [if_pos ht, if_pos ht, ht]
        show _ = limit c.tenantId - s.remaining c.tenantId + c.units
        omega
      · rw [if_neg ht, if_neg ht]
        rfl

/-- A new decision replaces none. -/
theorem update_new {s : Book δ} {c : ReserveCall} (hnew : s.reservations c.key = none)
    {key : String × String} {d : δ} (hd : s.reservations key = some d) (d' : δ) :
    Function.update s.reservations c.key (some d') key = s.reservations key := by
  refine Function.update_of_ne (fun heq => ?_) _ _
  rw [heq, hnew] at hd
  cases hd

/-- A decision that is stored stays. -/
theorem Reserved.stays {s : Book δ} {c : ReserveCall} {out : Except Error δ × Book δ}
    (h : Reserved build s c out) {key : String × String} {d : δ} (hd : s.reservations key = some d) :
    out.2.reservations key = some d := by
  cases h with
  | existing d' hpositive hd' => exact hd
  | failed e hnone => exact hd
  | denied d' hpositive hnew hunits hd' => exact (update_new hnew hd d').trans hd
  | granted d' hpositive hnew hunits hd' => exact (update_new hnew hd d').trans hd

/-- A decision that is returned is stored. -/
theorem Reserved.stored {s s' : Book δ} {c : ReserveCall} {d : δ} (h : Reserved build s c (.ok d, s')) :
    s'.reservations c.key = some d := by
  cases h with
  | existing d hpositive hd => exact hd
  | denied d hpositive hnew hunits hd => exact Function.update_self ..
  | granted d hpositive hnew hunits hd => exact Function.update_self ..

/-- A known reservation is answered with its decision. -/
theorem Reserved.known {s : Book δ} {c : ReserveCall} {out : Except Error δ × Book δ}
    (h : Reserved build s c out) (hpositive : 1 ≤ c.units) {d : δ} (hd : s.reservations c.key = some d) :
    out = (.ok d, s) := by
  cases h with
  | existing d' _ hd' =>
    rw [hd'] at hd
    cases hd
    rfl
  | failed e hnone =>
    rw [hnone hpositive] at hd
    cases hd
  | denied d' _ hnew hunits hd' =>
    rw [hnew] at hd
    cases hd
  | granted d' _ hnew hunits hd' =>
    rw [hnew] at hd
    cases hd

/-- A denial changes no amount. -/
theorem Reserved.unchanged (hbuild : reading.Of build) {s s' : Book δ} {c : ReserveCall} {d : δ}
    (h : Reserved build s c (.ok d, s')) (hdenied : reading.allowed d = false) :
    (reading.view limit).used s' = (reading.view limit).used s ∧
      (reading.view limit).granted s' = (reading.view limit).granted s := by
  cases h with
  | existing d hpositive hd => exact ⟨rfl, rfl⟩
  | denied d hpositive hnew hunits hd => exact ⟨rfl, view_denied hnew hdenied⟩
  | granted d hpositive hnew hunits hd =>
    rw [(hbuild c _ _ d hpositive hd).1] at hdenied
    cases hdenied

/-- What fails leaves no trace. -/
theorem Reserved.failure {s s' : Book δ} {c : ReserveCall} {e : Error}
    (h : Reserved build s c (.error e, s')) : s' = s := by
  cases h with
  | failed e hnone => rfl

end Recorded

/-! ## The laws -/

/-- What every quota keeps: the sums, the amounts where nothing is granted, and the other tenants. -/
structure Kept {ε σ α ρ A : Type} [AddCommMonoid A] [LE A] (v : Quota.View σ String String A)
    (limit : String → A) (tenant : α → String) (granted : ρ → Bool) (step : σ → α → Except ε ρ × σ)
    (start : σ) (calls : List α) : Prop where
  conserved : Quota.Conserved v limit (Machine.final step start calls)
  denied : ∀ e ∈ Machine.trace step start calls, ∀ d, e.result = .ok d → granted d = false →
    v.used e.after = v.used e.before ∧ v.granted e.after = v.granted e.before
  failed : ∀ e ∈ Machine.trace step start calls, ∀ err, e.result = .error err → e.after = e.before
  others : ∀ e ∈ Machine.trace step start calls, ∀ t, t ≠ tenant e.op →
    v.used e.after t = v.used e.before t ∧ v.granted e.after t = v.granted e.before t

/-- What the three classes that record their decisions keep besides: a reservation is answered with its
    first decision. -/
structure RecordedLaws {δ : Type} (reading : Reading δ) (limits : String → Option Int) (default : Int)
    (reserve : ReserveCall → Exec Error (Book δ) δ) (calls : List ReserveCall) : Prop where
  kept : Kept (reading.view fun t => (limits t).getD default) (fun t => (limits t).getD default)
    ReserveCall.tenantId reading.allowed (fun s c => reserve c s) (.start limits default) calls
  repeated : ∀ pre e mid e' post d,
    Machine.trace (fun s c => reserve c s) (.start limits default) calls = pre ++ e :: (mid ++ e' :: post) →
    e.result = .ok d → e'.op.key = e.op.key → 1 ≤ e'.op.units →
      e'.result = .ok d ∧ e'.after = e'.before

section Recorded

variable {δ : Type} {message : String} {build : ReserveCall → Bool → Int → Except Error δ}
  {reading : Reading δ}

theorem reserveRecorded_laws (message : String) (hbuild : reading.Of build) (limits : String → Option Int)
    (default : Int) (calls : List ReserveCall) :
    RecordedLaws reading limits default (reserveRecorded message build) calls := by
  have hreserved := reserveRecorded_reserved message build
  -- an entry is a call from some state
  have hentry : ∀ e ∈ Machine.trace (fun s c => reserveRecorded message build c s) (.start limits default) calls,
      Reserved build e.before e.op (e.result, e.after) := by
    intro e he
    obtain ⟨xs, ys, -, hentry⟩ := Machine.trace_mem he
    rw [hentry]
    exact hreserved _ e.op
  refine ⟨⟨?_, ?_, ?_, ?_⟩, ?_⟩
  · refine Quota.conserved_run (fun s c => (hreserved s c).moves hbuild) (Quota.conserved_start ?_ ?_) calls
    · exact fun _ _ => rfl
    · exact fun t => sub_self _
  · intro e he d hd hdenied
    have h := hentry e he
    rw [hd] at h
    exact h.unchanged hbuild hdenied
  · intro e he err herr
    have h := hentry e he
    rw [herr] at h
    exact h.failure
  · intro e he t ht
    exact ((hentry e he).moves hbuild).others ht
  · intro pre e mid e' post d htrace hd hkey hpositive
    obtain ⟨xs, ys, he, -, he'⟩ := Machine.trace_pair htrace
    have hmem : e ∈ Machine.trace (fun s c => reserveRecorded message build c s) (.start limits default) calls := by
      rw [htrace]
      exact List.mem_append_right _ List.mem_cons_self
    have h := hentry e hmem
    rw [hd] at h
    have hstored : (Machine.final (fun s c => reserveRecorded message build c s) e.after ys).reservations
        e.op.key = some d :=
      Machine.run_invariant_all (fun s c hs => (hreserved s c).stays hs) e.after h.stored ys
    rw [← hkey] at hstored
    have hknown := (hreserved _ e'.op).known hpositive hstored
    rw [he']
    exact ⟨congrArg Prod.fst hknown, congrArg Prod.snd hknown⟩

end Recorded

/-! ## The three that record -/

/-- What a decision of each class says. -/
def effectReading : Reading Remediation.EffectQuotaDecision := ⟨(·.allowed), (·.units)⟩

def sandboxReading : Reading Sandbox.SandboxQuotaDecision := ⟨(·.allowed), (·.units)⟩

def budgetReading : Reading BudgetDecision := ⟨(·.allowed), (·.requestedUnits)⟩

theorem effectReading_of : effectReading.Of buildEffect := by
  intro c allowed remaining d hpositive hd
  obtain ⟨id, -, hd⟩ := except_bind_ok.mp hd
  cases hd
  exact ⟨rfl, Int.toNat_of_nonneg (by omega)⟩

theorem sandboxReading_of : sandboxReading.Of buildSandbox := by
  intro c allowed remaining d hpositive hd
  obtain ⟨id, -, hd⟩ := except_bind_ok.mp hd
  cases hd
  exact ⟨rfl, rfl⟩

theorem budgetReading_of : budgetReading.Of buildBudget := by
  intro c allowed remaining d hpositive hd
  unfold buildBudget at hd
  split at hd
  · cases hd
    exact ⟨rfl, rfl⟩
  · cases hd

/-! ## Invocations -/

section Invocations

open Interop (Limits Failure)

/-- The arguments of `InvocationQuota.reserve`. -/
structure InvocationCall where
  tenantRef : String
  reservationId : String
  costUnits : Int

/-- `InvocationQuota.reserve`, of a call. -/
def reserveInvocation (limits : Limits) (s : Interop.State) (c : InvocationCall) :
    Except Failure Unit × Interop.State :=
  Interop.reserve limits c.tenantRef c.reservationId c.costUnits s

variable {limits : Limits}

/-- The ways it goes. -/
inductive Invoked (limits : Limits) (s : Interop.State) (c : InvocationCall) :
    Except Failure Unit × Interop.State → Prop
  | known (hcost : 0 ≤ c.costUnits) (hknown : s.reservations c.reservationId = some (c.tenantRef, c.costUnits)) :
    Invoked limits s c (.ok (), s)
  | granted (hcost : 0 ≤ c.costUnits) (hnew : s.reservations c.reservationId = none)
    (hrequests : (s.usage c.tenantRef).1 + 1 ≤ limits.requestLimit)
    (hunits : (s.usage c.tenantRef).2 + c.costUnits ≤ limits.costLimit) :
    Invoked limits s c (.ok (), { s with
      usage := Function.update s.usage c.tenantRef
        ((s.usage c.tenantRef).1 + 1, (s.usage c.tenantRef).2 + c.costUnits)
      reservations := Function.update s.reservations c.reservationId (some (c.tenantRef, c.costUnits)) })
  | conflict (hcost : 0 ≤ c.costUnits) (r : String × Int) (hr : s.reservations c.reservationId = some r)
    (hother : r ≠ (c.tenantRef, c.costUnits)) :
    Invoked limits s c (.error ⟨.idempotencyConflict, "quota reservation conflicts"⟩, s)
  | exhausted (hcost : 0 ≤ c.costUnits) (hnew : s.reservations c.reservationId = none)
    (hno : ¬((s.usage c.tenantRef).1 + 1 ≤ limits.requestLimit ∧
      (s.usage c.tenantRef).2 + c.costUnits ≤ limits.costLimit)) :
    Invoked limits s c (.error ⟨.policyDenied, "interoperability quota is exhausted"⟩, s)
  | negative (hcost : ¬0 ≤ c.costUnits) :
    Invoked limits s c (.error ⟨.valueError, "cost reservation cannot be negative"⟩, s)

theorem reserveInvocation_invoked (limits : Limits) (s : Interop.State) (c : InvocationCall) :
    Invoked limits s c (reserveInvocation limits s c) := by
  have hrun : Sat (Interop.reserve limits c.tenantRef c.reservationId c.costUnits) s
      (fun _ s' => Invoked limits s c (.ok (), s')) (fun e s' => Invoked limits s c (.error e, s')) := by
    unfold Interop.reserve
    refine Sat.check (fun hno => .negative hno) fun hcost => ?_
    rw [Exec.sat_bind, Exec.sat_read]
    cases hr : s.reservations c.reservationId with
    | some r =>
      rw [Exec.sat_require]
      refine ⟨fun heq => ?_, fun hne => .conflict hcost r hr hne⟩
      rw [heq] at hr
      exact .known hcost hr
    | none =>
      refine Sat.check (fun hno => .exhausted hcost hr hno) fun hroom => ?_
      exact .granted hcost hr hroom.1 hroom.2
  exact hrun.outcome (P := fun r s' => Invoked limits s c (r, s'))

/-- The reservations granted, each one request and its cost; and what is used of both. -/
def invocationView : Quota.View Interop.State String String (Nat × Int) where
  granted s t id := (s.reservations id).bind fun r => if r.1 = t then some (1, r.2) else none
  used s t := s.usage t

def invocationLimit (limits : Limits) (_ : String) : Nat × Int := (limits.requestLimit, limits.costLimit)

theorem Invoked.moves {s : Interop.State} {c : InvocationCall} {out : Except Failure Unit × Interop.State}
    (h : Invoked limits s c out) :
    Quota.Moves invocationView (invocationLimit limits) c.tenantRef c.reservationId (1, c.costUnits) s out.2 := by
  cases h with
  | known => exact .kept rfl rfl
  | conflict => exact .kept rfl rfl
  | exhausted => exact .kept rfl rfl
  | negative => exact .kept rfl rfl
  | granted hcost hnew hrequests hunits =>
    refine .grants ⟨?_, ⟨hrequests, hunits⟩, fun t id => ?_, fun t => ?_⟩
    · show (s.reservations c.reservationId).bind _ = none
      rw [hnew]
      rfl
    · show (Function.update s.reservations c.reservationId (some (c.tenantRef, c.costUnits)) id).bind _ =
        if t = c.tenantRef ∧ id = c.reservationId then some (1, c.costUnits)
        else (s.reservations id).bind _
      rw [Function.update_apply]
      by_cases hid : id = c.reservationId
      · rw [if_pos hid, hid, hnew]
        by_cases ht : t = c.tenantRef
        · rw [if_pos ⟨ht, rfl⟩]
          exact if_pos ht.symm
        · rw [if_neg fun hboth => ht hboth.1]
          exact if_neg fun heq => ht heq.symm
      · rw [if_neg hid, if_neg fun hboth => hid hboth.2]
    · show Function.update s.usage c.tenantRef _ t = _
      rw [Function.update_apply]
      rfl

theorem Invoked.failure {s s' : Interop.State} {c : InvocationCall} {e : Failure}
    (h : Invoked limits s c (.error e, s')) : s' = s := by
  cases h with
  | conflict => rfl
  | exhausted => rfl
  | negative => rfl

/-- A reservation that is granted stays as it is. -/
theorem Invoked.stays {s : Interop.State} {c : InvocationCall} {out : Except Failure Unit × Interop.State}
    (h : Invoked limits s c out) {id : String} {r : String × Int} (hr : s.reservations id = some r) :
    out.2.reservations id = some r := by
  cases h with
  | known => exact hr
  | conflict => exact hr
  | exhausted => exact hr
  | negative => exact hr
  | granted hcost hnew hrequests hunits =>
    refine (Function.update_of_ne (fun heq => ?_) _ _).trans hr
    rw [heq, hnew] at hr
    cases hr

/-- A reservation that went through is granted. -/
theorem Invoked.stored {s s' : Interop.State} {c : InvocationCall} (h : Invoked limits s c (.ok (), s')) :
    s'.reservations c.reservationId = some (c.tenantRef, c.costUnits) := by
  cases h with
  | known hcost hknown => exact hknown
  | granted hcost hnew hrequests hunits => exact Function.update_self ..

theorem Invoked.nonneg {s s' : Interop.State} {c : InvocationCall} (h : Invoked limits s c (.ok (), s')) :
    0 ≤ c.costUnits := by
  cases h with
  | known hcost => exact hcost
  | granted hcost => exact hcost

/-- A granted reservation is compared with the call. -/
theorem Invoked.again {s : Interop.State} {c : InvocationCall} {out : Except Failure Unit × Interop.State}
    (h : Invoked limits s c out) (hcost : 0 ≤ c.costUnits) {r : String × Int}
    (hr : s.reservations c.reservationId = some r) :
    out.2 = s ∧ out.1 = if r = (c.tenantRef, c.costUnits) then .ok ()
      else .error ⟨.idempotencyConflict, "quota reservation conflicts"⟩ := by
  cases h with
  | known _ hknown =>
    rw [hknown] at hr
    exact ⟨rfl, (if_pos (Option.some.inj hr).symm).symm⟩
  | conflict _ r' hr' hother =>
    rw [hr'] at hr
    rw [← Option.some.inj hr]
    exact ⟨rfl, (if_neg hother).symm⟩
  | granted _ hnew =>
    rw [hnew] at hr
    cases hr
  | exhausted _ hnew =>
    rw [hnew] at hr
    cases hr
  | negative hno => exact absurd hcost hno

/-- A call that cannot go through: its reservation is granted to other parameters, or its limits are
    exhausted. -/
def Hopeless (limits : Limits) (c : InvocationCall) (s : Interop.State) : Prop :=
  (∃ r, s.reservations c.reservationId = some r ∧ r ≠ (c.tenantRef, c.costUnits)) ∨
    s.reservations c.reservationId = none ∧ ¬((s.usage c.tenantRef).1 + 1 ≤ limits.requestLimit ∧
      (s.usage c.tenantRef).2 + c.costUnits ≤ limits.costLimit)

theorem Invoked.hopeless {s s' : Interop.State} {c : InvocationCall} {e : Failure}
    (h : Invoked limits s c (.error e, s')) (hcost : 0 ≤ c.costUnits) : Hopeless limits c s := by
  cases h with
  | conflict _ r hr hother => exact .inl ⟨r, hr, hother⟩
  | exhausted _ hnew hno => exact .inr ⟨hnew, hno⟩
  | negative hno => exact absurd hcost hno

/-- A hopeless call does not go through. -/
theorem Hopeless.refused {s s' : Interop.State} {c : InvocationCall} (h : Hopeless limits c s) :
    ¬Invoked limits s c (.ok (), s') := by
  intro hok
  cases hok with
  | known _ hknown =>
    rcases h with ⟨r, hr, hother⟩ | ⟨hnew, -⟩
    · exact hother (Option.some.inj (hr.symm.trans hknown))
    · rw [hknown] at hnew
      cases hnew
  | granted _ hnew hrequests hunits =>
    rcases h with ⟨r, hr, -⟩ | ⟨-, hno⟩
    · rw [hr] at hnew
      cases hnew
    · exact hno ⟨hrequests, hunits⟩

/-- What is used never falls. -/
theorem Invoked.grows {s : Interop.State} {c : InvocationCall} {out : Except Failure Unit × Interop.State}
    (h : Invoked limits s c out) (t : String) :
    (s.usage t).1 ≤ (out.2.usage t).1 ∧ (s.usage t).2 ≤ (out.2.usage t).2 := by
  cases h with
  | known => exact ⟨le_rfl, le_rfl⟩
  | conflict => exact ⟨le_rfl, le_rfl⟩
  | exhausted => exact ⟨le_rfl, le_rfl⟩
  | negative => exact ⟨le_rfl, le_rfl⟩
  | granted hcost hnew hrequests hunits =>
    show _ ≤ (Function.update s.usage c.tenantRef _ t).1 ∧ _ ≤ (Function.update s.usage c.tenantRef _ t).2
    rw [Function.update_apply]
    split
    · rename_i ht
      rw [ht]
      exact ⟨Nat.le_succ _, Int.le_add_of_nonneg_right hcost⟩
    · exact ⟨le_rfl, le_rfl⟩

/-- A hopeless call stays so: what is used never falls. -/
theorem Hopeless.stays {s : Interop.State} {c c' : InvocationCall} {out : Except Failure Unit × Interop.State}
    (h : Hopeless limits c s) (hout : Invoked limits s c' out) : Hopeless limits c out.2 := by
  rcases h with ⟨r, hr, hother⟩ | ⟨hnone, hno⟩
  · exact .inl ⟨r, hout.stays hr, hother⟩
  cases hout with
  | known => exact .inr ⟨hnone, hno⟩
  | conflict => exact .inr ⟨hnone, hno⟩
  | exhausted => exact .inr ⟨hnone, hno⟩
  | negative => exact .inr ⟨hnone, hno⟩
  | granted hcost hnew hrequests hunits =>
    by_cases hid : c.reservationId = c'.reservationId
    · refine .inl ⟨(c'.tenantRef, c'.costUnits), ?_, fun heq => ?_⟩
      · rw [hid]
        exact Function.update_self ..
      · obtain ⟨ht, hc⟩ := Prod.mk.inj heq
        rw [ht] at hrequests hunits
        rw [hc] at hunits
        exact hno ⟨hrequests, hunits⟩
    · refine .inr ⟨(Function.update_of_ne hid _ _).trans hnone, fun hroom => hno ?_⟩
      obtain ⟨hmore, hmore'⟩ := (Invoked.granted hcost hnew hrequests hunits).grows c.tenantRef
      exact ⟨le_trans (Nat.succ_le_succ hmore) hroom.1, le_trans (Int.add_le_add_right hmore' _) hroom.2⟩

/-- What `InvocationQuota` keeps: a granted reservation is compared with the call, and a refusal, which is
    not recorded, is repeated. -/
structure InvocationLaws (limits : Limits) (calls : List InvocationCall) : Prop where
  kept : Kept invocationView (invocationLimit limits) InvocationCall.tenantRef (fun _ : Unit => true)
    (reserveInvocation limits) .init calls
  repeated : ∀ pre e mid e' post,
    Machine.trace (reserveInvocation limits) .init calls = pre ++ e :: (mid ++ e' :: post) →
    e.result = .ok () → e'.op.reservationId = e.op.reservationId → 0 ≤ e'.op.costUnits →
      e'.after = e'.before ∧
      e'.result = if (e.op.tenantRef, e.op.costUnits) = (e'.op.tenantRef, e'.op.costUnits) then .ok ()
        else .error ⟨.idempotencyConflict, "quota reservation conflicts"⟩
  refused : ∀ pre e mid e' post err,
    Machine.trace (reserveInvocation limits) .init calls = pre ++ e :: (mid ++ e' :: post) →
    e.result = .error err → e'.op = e.op → ∃ err', e'.result = .error err'

theorem invocation_laws (limits : Limits) (calls : List InvocationCall) : InvocationLaws limits calls := by
  have hinvoked := reserveInvocation_invoked limits
  have hentry : ∀ e ∈ Machine.trace (reserveInvocation limits) .init calls,
      Invoked limits e.before e.op (e.result, e.after) := by
    intro e he
    obtain ⟨xs, ys, -, hentry⟩ := Machine.trace_mem he
    rw [hentry]
    exact hinvoked _ e.op
  refine ⟨⟨?_, ?_, ?_, ?_⟩, ?_, ?_⟩
  · have hstart : Quota.Conserved invocationView (invocationLimit limits) Interop.State.init :=
      Quota.conserved_start (fun _ _ => rfl) fun _ => rfl
    exact Quota.conserved_run (fun s c => (hinvoked s c).moves) hstart calls
  · intro e he d hd hdenied
    cases hdenied
  · intro e he err herr
    have h := hentry e he
    rw [herr] at h
    exact h.failure
  · intro e he t ht
    exact (hentry e he).moves.others ht
  · intro pre e mid e' post htrace hok hid hcost
    obtain ⟨xs, ys, he, -, he'⟩ := Machine.trace_pair htrace
    have h := hentry e (by rw [htrace]; exact List.mem_append_right _ List.mem_cons_self)
    rw [hok] at h
    have hstored := Machine.run_invariant_all (fun s c hs => (hinvoked s c).stays hs) e.after h.stored ys
    rw [← hid] at hstored
    have hagain := (hinvoked _ e'.op).again hcost hstored
    rw [he']
    exact hagain
  · intro pre e mid e' post err htrace herr hop
    obtain ⟨xs, ys, he, -, he'⟩ := Machine.trace_pair htrace
    have h := hentry e (by rw [htrace]; exact List.mem_append_right _ List.mem_cons_self)
    rw [herr] at h
    have h' := hinvoked (Machine.final (reserveInvocation limits) e.after ys) e'.op
    cases hresult : e'.result with
    | error err' => exact ⟨err', rfl⟩
    | ok u =>
      rw [he'] at hresult
      rw [show reserveInvocation limits _ e'.op = (.ok (), _) from Prod.ext hresult rfl] at h'
      by_cases hcost : 0 ≤ e.op.costUnits
      · have hhopeless := h.hopeless hcost
        rw [← h.failure] at hhopeless
        have hlater := Machine.run_invariant_all (fun s c hs => Hopeless.stays hs (hinvoked s c)) e.after
          hhopeless ys
        rw [hop] at h'
        exact absurd h' hlater.refused
      · rw [hop] at h'
        exact absurd h'.nonneg hcost

end Invocations

/-! ## All four -/

/-- **The quotas conserve**: what a tenant has used is always the sum over its distinct granted
    reservations and within its limit, denials and failures change no amount, and tenants do not affect
    each other.  The three that record their decisions answer a reservation with its first decision;
    `InvocationQuota` compares a granted one with the call and repeats a refusal of the same call. -/
theorem quotas_conserve :
    (∀ limits calls, RecordedLaws effectReading limits 0 reserveEffect calls) ∧
    (∀ limits calls, RecordedLaws sandboxReading limits 0 reserveSandbox calls) ∧
    (∀ limits default calls, RecordedLaws budgetReading limits default reserveBudget calls) ∧
    ∀ limits calls, InvocationLaws limits calls :=
  ⟨fun limits calls => reserveRecorded_laws _ effectReading_of limits 0 calls,
    fun limits calls => reserveRecorded_laws _ sandboxReading_of limits 0 calls,
    fun limits default calls => reserveRecorded_laws _ budgetReading_of limits default calls,
    fun limits calls => invocation_laws limits calls⟩

/-- A reservation is asked for again with fewer units. -/
def sampleReservations : List InvocationCall := [⟨"tenant", "reservation", 10⟩, ⟨"tenant", "reservation", 3⟩]

/-- `InvocationQuota` refuses a reservation and grants the same identifier later: it does not return its
    first decision, and the usage changes. -/
theorem invocation_decided_again : ∃ e e',
    Machine.trace (reserveInvocation ⟨5, 5, 3⟩) .init sampleReservations = [e, e'] ∧
      e.op.tenantRef = e'.op.tenantRef ∧ e.op.reservationId = e'.op.reservationId ∧
      0 < e.op.costUnits ∧ 0 < e'.op.costUnits ∧
      e.result = .error ⟨.policyDenied, "interoperability quota is exhausted"⟩ ∧ e'.result = .ok () ∧
      e'.after.usage "tenant" ≠ e'.before.usage "tenant" :=
  ⟨_, _, rfl, rfl, rfl, by decide, by decide, rfl, rfl, by decide⟩

/-! ## The stores of the other models -/

theorem ret_bind {ε σ α β : Type} (a : α) (f : α → Exec ε σ β) (s : σ) :
    (Exec.ret a >>= f) s = f a s := rfl

theorem read_bind {ε σ β : Type} (f : σ → Exec ε σ β) (s : σ) : (Exec.read >>= f) s = f s s := rfl

/-- The effect quota among the stores of the remediation is this one. -/
theorem reserveQuota_eq (s : Remediation.State) (tenantId : String) (reservationId : Identifier)
    (units : Nat) :
    (Remediation.reserveQuota tenantId reservationId units s).1 =
        (reserveEffect ⟨tenantId, reservationId.val, units⟩ ⟨s.remaining, s.reservations⟩).1 ∧
      (⟨(Remediation.reserveQuota tenantId reservationId units s).2.remaining,
        (Remediation.reserveQuota tenantId reservationId units s).2.reservations⟩ : Book _) =
        (reserveEffect ⟨tenantId, reservationId.val, units⟩ ⟨s.remaining, s.reservations⟩).2 := by
  have hbuild : ∀ allowed remaining, buildEffect ⟨tenantId, reservationId.val, units⟩ allowed remaining =
      .ok { allowed, reservationId, units,
            reason := if allowed then "reserved" else "effect_quota_exhausted" } := by
    intro allowed remaining
    exact except_bind_ok.mpr ⟨reservationId, Identifier.parse_of reservationId.property, rfl⟩
  unfold Remediation.reserveQuota reserveEffect reserveRecorded
  by_cases hpositive : 1 ≤ units
  · rw [Exec.require_pos hpositive, Exec.require_pos (show (1 : Int) ≤ units by omega)]
    rw [ret_bind, ret_bind, read_bind, read_bind]
    dsimp only [ReserveCall.key]
    simp only [hbuild]
    cases s.reservations (tenantId, reservationId.val) with
    | some d => exact ⟨rfl, rfl⟩
    | none =>
      by_cases hunits : (units : Int) ≤ s.remaining tenantId
      · simp only [hunits, decide_true, if_true]
        exact ⟨rfl, rfl⟩
      · simp only [hunits, decide_false, Bool.false_eq_true, if_false]
        exact ⟨rfl, rfl⟩
  · rw [Exec.require_neg hpositive, Exec.require_neg (show ¬(1 : Int) ≤ units by omega)]
    exact ⟨rfl, rfl⟩

/-- So is the sandbox quota of the control service. -/
theorem reserve_eq (s : Sandbox.ControlState) (tenantId reservationId : Identifier) (units : Int) :
    (Sandbox.reserve tenantId reservationId units s).1 =
        (reserveSandbox ⟨tenantId.val, reservationId.val, units⟩ ⟨s.remaining, s.reservations⟩).1 ∧
      (⟨(Sandbox.reserve tenantId reservationId units s).2.remaining,
        (Sandbox.reserve tenantId reservationId units s).2.reservations⟩ : Book _) =
        (reserveSandbox ⟨tenantId.val, reservationId.val, units⟩ ⟨s.remaining, s.reservations⟩).2 := by
  have hbuild : ∀ allowed remaining, buildSandbox ⟨tenantId.val, reservationId.val, units⟩ allowed remaining =
      .ok { allowed, reservationId, units,
            reason := if allowed then "reserved" else "sandbox_quota_exhausted" } := by
    intro allowed remaining
    exact except_bind_ok.mpr ⟨reservationId, Identifier.parse_of reservationId.property, rfl⟩
  unfold Sandbox.reserve reserveSandbox reserveRecorded
  by_cases hpositive : 1 ≤ units
  · rw [Exec.require_pos hpositive, Exec.require_pos (show 1 ≤ units from hpositive)]
    rw [ret_bind, ret_bind, read_bind, read_bind]
    dsimp only [ReserveCall.key]
    simp only [hbuild]
    cases s.reservations (tenantId.val, reservationId.val) with
    | some d => exact ⟨rfl, rfl⟩
    | none =>
      by_cases hunits : units ≤ s.remaining tenantId.val
      · simp only [hunits, decide_true, if_true]
        exact ⟨rfl, rfl⟩
      · simp only [hunits, decide_false, Bool.false_eq_true, if_false]
        exact ⟨rfl, rfl⟩
  · rw [Exec.require_neg hpositive, Exec.require_neg (show ¬1 ≤ units from hpositive)]
    exact ⟨rfl, rfl⟩

end Quotas

end Aegis
