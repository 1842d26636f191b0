/-
  WHAT A CALL OF THE MODEL GATEWAY COSTS.

  One call reserves the largest cost of its routes, times the number of routes and of attempts at each.  It
  makes no more attempts than that, and every attempt whose usage passes the checks of the gateway costs at
  most the maximum of its route, so together they stay within the reservation (`call_within_reservation`).

  An attempt that does NOT pass is billed with the usage its provider reports, whatever that is, and it is
  the last of its call.  So the sum over all attempts may exceed the reservation (`call_over_reservation`).
-/
import Mathlib
import Aegis.Lib.Frames
import Aegis.Model.Gateway

namespace Aegis

namespace Model

open Exec (Sat Leaves leaves_pure leaves_raise leaves_read leaves_lift leaves_modify leaves_require
  leaves_bind leaves_ite)

variable {sha : Sha256} {ports : Ports} {config : Config} {request : ModelRequest} {plan : Plan}

/-! ## What asks no provider -/

theorem leaves_moment : Leaves World.invoked moment :=
  leaves_bind leaves_read fun _ => leaves_bind (leaves_modify fun _ => rfl) fun _ => leaves_pure _

theorem leaves_now : Leaves World.invoked (now ports) :=
  leaves_bind leaves_moment fun _ => leaves_pure _

theorem leaves_isCancelled : Leaves World.invoked (isCancelled ports) :=
  leaves_bind leaves_moment fun _ => leaves_pure _

theorem leaves_currentPolicy {tenantId : Identifier} :
    Leaves World.invoked (currentPolicy ports tenantId) :=
  leaves_bind leaves_moment fun _ => leaves_pure _

theorem leaves_permit {c : Prop} [Decidable c] {message : String} :
    Leaves World.invoked (permit c message) := leaves_require _ _

theorem leaves_modifyStore {f : Store → Store} : Leaves World.invoked (modifyStore f) :=
  leaves_modify fun _ => rfl

theorem leaves_finalize {reservation : ModelReservation} :
    Leaves World.invoked (finalize ports reservation) :=
  leaves_bind leaves_now fun _ => leaves_modifyStore

theorem leaves_giveUp {α : Type} {reservation : ModelReservation} {error : InvocationError} :
    Leaves World.invoked (giveUp ports reservation error : Gateway α) :=
  leaves_bind leaves_finalize fun _ => leaves_raise _

theorem leaves_reconcile {tenantId : Identifier} {attemptId : String} {settlement : Settlement}
    {time : Datetime} : Leaves World.invoked (reconcile tenantId attemptId settlement time) := by
  refine leaves_bind (leaves_require _ _) fun _ => leaves_bind leaves_read fun w => ?_
  split
  · exact leaves_permit
  · exact leaves_ite leaves_modifyStore (leaves_ite leaves_modifyStore (leaves_pure _))

theorem leaves_appendRequested {reservation : ModelReservation} {entry : ModelCatalogEntry}
    {attemptId : String} {time : Datetime} :
    Leaves World.invoked (appendRequested sha reservation request entry attemptId time) := by
  refine leaves_bind leaves_read fun w => ?_
  split
  · exact leaves_bind leaves_permit fun _ => leaves_permit
  · exact leaves_modifyStore

theorem leaves_recordFailure {tenantId : Identifier} {attemptId : String} {error : InvocationError}
    {entry : ModelCatalogEntry} {usage : Option ModelUsage} :
    Leaves World.invoked (recordFailure ports tenantId attemptId error entry usage) :=
  leaves_bind leaves_now fun _ => leaves_reconcile

theorem leaves_markTransient {tenantId : Identifier} {key : String} {error : InvocationError} :
    Leaves World.invoked (markTransient ports config tenantId key error) := by
  refine leaves_ite ?_ (leaves_pure _)
  refine leaves_bind (leaves_modify fun _ => rfl) fun _ => leaves_bind leaves_read fun _ => ?_
  exact leaves_ite (leaves_bind leaves_now fun _ => leaves_modify fun _ => rfl) (leaves_pure _)

theorem leaves_interrupted {reservation : ModelReservation} :
    Leaves World.invoked (interrupted sha ports request reservation) := by
  have hcode : Leaves World.invoked (some <$> interruption ports) :=
    leaves_bind (leaves_bind leaves_isCancelled fun _ => leaves_pure _) fun _ => leaves_pure _
  refine leaves_bind leaves_currentPolicy fun _ => leaves_ite hcode ?_
  exact leaves_bind leaves_isCancelled fun _ => leaves_ite hcode (leaves_pure _)

/-! ## Attempts -/

/-- The cost of an attempt: none when no usage was reported. -/
def Invocation.cost (i : Invocation) : Nat := i.usage.elim 0 i.entry.price.actualCostMicrounits

/-- The usage of the attempt, if it reported one, passes the checks of the gateway. -/
def Invocation.Accepted (request : ModelRequest) (reservation : ModelReservation) (i : Invocation) :
    Prop := ∀ usage ∈ i.usage, Passes request reservation usage

instance (reservation : ModelReservation) (i : Invocation) :
    Decidable (i.Accepted request reservation) :=
  inferInstanceAs (Decidable (∀ _ ∈ _, _))

/-- At most `n` attempts at routes of the plan, all of them accepted but for the last. -/
structure Tried (request : ModelRequest) (plan : Plan) (n : Nat) (new : List Invocation) : Prop where
  count : new.length ≤ n
  route : ∀ i ∈ new, i.entry ∈ plan.entries
  accepted : ∀ i ∈ new.dropLast, i.Accepted request plan.reservation

/-- At most `n` attempts, the last accepted as well. -/
structure Clean (request : ModelRequest) (plan : Plan) (n : Nat) (new : List Invocation) : Prop where
  count : new.length ≤ n
  route : ∀ i ∈ new, i.entry ∈ plan.entries
  accepted : ∀ i ∈ new, i.Accepted request plan.reservation

/-- The attempts of a call, added to those before it. -/
def Added (P : List Invocation → Prop) (w w' : World) : Prop :=
  ∃ new, w'.invoked = w.invoked ++ new ∧ P new

variable {n m : Nat} {w w₁ w' : World}

theorem Clean.tried {new : List Invocation} (h : Clean request plan n new) : Tried request plan n new :=
  ⟨h.count, h.route, fun i hi => h.accepted i (List.mem_of_mem_dropLast hi)⟩

theorem Added.mono {P Q : List Invocation → Prop} (h : Added P w w') (hPQ : ∀ new, P new → Q new) :
    Added Q w w' := by
  obtain ⟨new, hnew, hP⟩ := h
  exact ⟨new, hnew, hPQ new hP⟩

theorem Added.nothing (h : w'.invoked = w.invoked) : Added (Clean request plan n) w w' :=
  ⟨[], by rw [h, List.append_nil], Nat.zero_le _, fun _ hi => absurd hi List.not_mem_nil,
    fun _ hi => absurd hi List.not_mem_nil⟩

theorem Added.nothingTried (h : w'.invoked = w.invoked) : Added (Tried request plan n) w w' :=
  (Added.nothing h).mono fun _ => Clean.tried

theorem Added.same {P : List Invocation → Prop} (h : Added P w w₁) (hsame : w'.invoked = w₁.invoked) :
    Added P w w' := by
  obtain ⟨new, hnew, hP⟩ := h
  exact ⟨new, hsame.trans hnew, hP⟩

theorem Clean.more {new : List Invocation} (h : Clean request plan n new) (hnm : n ≤ m) :
    Clean request plan m new := ⟨h.count.trans hnm, h.route, h.accepted⟩

/-- Accepted attempts, and then more. -/
theorem Added.clean (h : Added (Clean request plan n) w w₁) (h' : Added (Clean request plan m) w₁ w') :
    Added (Clean request plan (n + m)) w w' := by
  obtain ⟨new, hnew, hclean⟩ := h
  obtain ⟨new', hnew', hclean'⟩ := h'
  refine ⟨new ++ new', by rw [hnew', hnew, List.append_assoc], ?_, ?_, ?_⟩
  · rw [List.length_append]
    exact Nat.add_le_add hclean.count hclean'.count
  · intro i hi
    exact (List.mem_append.mp hi).elim (hclean.route i) (hclean'.route i)
  · intro i hi
    exact (List.mem_append.mp hi).elim (hclean.accepted i) (hclean'.accepted i)

theorem Added.tried (h : Added (Clean request plan n) w w₁) (h' : Added (Tried request plan m) w₁ w') :
    Added (Tried request plan (n + m)) w w' := by
  obtain ⟨new, hnew, hclean⟩ := h
  obtain ⟨new', hnew', htried⟩ := h'
  refine ⟨new ++ new', by rw [hnew', hnew, List.append_assoc], ?_, ?_, ?_⟩
  · rw [List.length_append]
    exact Nat.add_le_add hclean.count htried.count
  · intro i hi
    exact (List.mem_append.mp hi).elim (hclean.route i) (htried.route i)
  · intro i hi
    rcases List.eq_nil_or_concat new' with rfl | ⟨before, last, rfl⟩
    · rw [List.append_nil] at hi
      exact hclean.accepted i (List.mem_of_mem_dropLast hi)
    · rw [List.concat_eq_append, ← List.append_assoc, List.dropLast_concat] at hi
      rcases List.mem_append.mp hi with hi | hi
      · exact hclean.accepted i hi
      · exact htried.accepted i (by rw [List.concat_eq_append, List.dropLast_concat]; exact hi)

/-- An error that may not be retried ends the call. -/
theorem onFailure_stops {α : Type} {entry : ModelCatalogEntry} {attemptId : String}
    {error : InvocationError} {usage : Option ModelUsage} (hstop : error.retryable = false) :
    Sat (onFailure ports config request plan entry attemptId error usage : Gateway (Next α)) w
      (fun _ _ => False) (fun _ w' => w'.invoked = w.invoked) := by
  have hraise : ∀ w₂ : World, w₂.invoked = w.invoked →
      Sat (giveUp ports plan.reservation error : Gateway (Next α)) w₂ (fun _ _ => False)
        (fun _ w' => w'.invoked = w.invoked) := by
    intro w₂ hw₂
    exact leaves_finalize.before (fun _ _ h => h.trans hw₂) fun _ w₃ h => h.trans hw₂
  refine leaves_recordFailure.before (fun _ _ h => h) fun _ w₁ h₁ => ?_
  refine leaves_markTransient.before (fun _ _ h => h.trans h₁) fun _ w₂ h₂ => ?_
  split
  · exact hraise w₂ (h₂.trans h₁)
  · rw [if_pos (.inl hstop)]
    exact hraise w₂ (h₂.trans h₁)

theorem leaves_onFailure {α : Type} {entry : ModelCatalogEntry} {attemptId : String}
    {error : InvocationError} {usage : Option ModelUsage} : Leaves World.invoked
      (onFailure ports config request plan entry attemptId error usage : Gateway (Next α)) :=
  leaves_bind leaves_recordFailure fun _ => leaves_bind leaves_markTransient fun _ =>
    leaves_ite leaves_giveUp (leaves_ite leaves_giveUp (leaves_pure _))

theorem leaves_onMalformed {α : Type} {entry : ModelCatalogEntry} {attemptId : String}
    {repairIndex : Nat} {usage : ModelUsage} : Leaves World.invoked
      (onMalformed ports request plan entry attemptId repairIndex usage : Gateway (Next α)) :=
  leaves_bind leaves_recordFailure fun _ => leaves_ite (leaves_pure _) leaves_giveUp

theorem leaves_complete {α : Type} {entry : ModelCatalogEntry} {attemptId : String}
    {usage : ModelUsage} {parsed : α} : Leaves World.invoked
      (complete ports request plan entry attemptId usage parsed) :=
  leaves_bind leaves_now fun _ => leaves_bind leaves_reconcile fun _ =>
    leaves_bind (leaves_modify fun _ => rfl) fun _ => leaves_bind leaves_finalize fun _ => leaves_pure _

theorem now_sat : Sat (now ports) w (fun _ w' => w'.invoked = w.invoked) (fun _ _ => False) := by
  rfl

/-- To look whether a call is interrupted raises nothing. -/
theorem interrupted_sat {reservation : ModelReservation} :
    Sat (interrupted sha ports request reservation) w (fun _ w' => w'.invoked = w.invoked)
      (fun _ _ => False) := by
  show Sat (if Replaced sha reservation (ports.currentPolicy w.tick request.binding.tenantId) then
      some <$> interruption ports
    else do
      let cancelled ← isCancelled ports
      if cancelled = true then some <$> interruption ports else pure none) _ _ _
  split
  · rfl
  · show Sat (if ports.cancelled (w.tick + 1) = true then some <$> interruption ports else pure none) _ _ _
    split
    · rfl
    · rfl

/-- What `reconcile` raises is no failed invocation. -/
theorem reconcile_sat {tenantId : Identifier} {attemptId : String} {settlement : Settlement}
    {time : Datetime} : Sat (reconcile tenantId attemptId settlement time) w
      (fun _ w' => w'.invoked = w.invoked)
      (fun e w' => w'.invoked = w.invoked ∧ ∀ error, e ≠ .invocation error) := by
  refine Sat.check (fun _ => ⟨rfl, fun _ h => by cases h⟩) fun _ => ?_
  rw [Exec.sat_bind, Exec.sat_read]
  split
  · exact Exec.sat_require.mpr ⟨False.elim, fun _ => ⟨rfl, fun _ h => by cases h⟩⟩
  · split
    · rfl
    · split
      · rfl
      · rfl

/-- A result that `inspect` lets pass has an accepted usage; what it raises may not be retried. -/
theorem inspect_sat {entry : ModelCatalogEntry} {attemptId : String} {result : ProviderResult} :
    Sat (inspect sha ports request plan.reservation entry attemptId result) w
      (fun _ w' => w'.invoked = w.invoked ∧ Passes request plan.reservation result.usage)
      (fun e w' => w'.invoked = w.invoked ∧ ∀ error, e = .invocation error → error.retryable = false) := by
  have hraised : ∀ (code : ModelErrorCode) (error : InvocationError),
      Failure.invocation ⟨code, false, .billed⟩ = .invocation error → error.retryable = false := by
    intro code error h
    rw [← Failure.invocation.inj h]
  refine Sat.call interrupted_sat (fun _ _ h => h.elim) fun stale w₁ h₁ => ?_
  cases stale with
  | some code =>
    show Sat (do
      let time ← now ports
      reconcile request.binding.tenantId attemptId
        { outcome := "stale", billing := .billed, usage := some result.usage,
          cost := some (entry.price.actualCostMicrounits result.usage), errorCode := some code } time
      raiseInvocation code false .billed) w₁ _ _
    refine Sat.call now_sat (fun _ _ h => h.elim) fun time w₂ h₂ => ?_
    refine Sat.call reconcile_sat (fun e w₃ h₃ => ?_) fun _ w₃ h₃ => ?_
    · exact ⟨h₃.1.trans (h₂.trans h₁), fun error he => absurd he (h₃.2 error)⟩
    · exact ⟨h₃.trans (h₂.trans h₁), hraised code⟩
  | none =>
    refine Sat.check (fun _ => ⟨h₁, hraised _⟩) fun hpasses => ?_
    refine Sat.check (fun _ => ⟨h₁, hraised _⟩) fun _ => ?_
    exact Exec.sat_require.mpr ⟨fun _ => ⟨h₁, hpasses.1⟩, fun _ => ⟨h₁, hraised _⟩⟩

/-- A provider is asked once at most, and has reported its usage if it answered. -/
theorem invoke_sat {entry : ModelCatalogEntry} : Sat (invoke ports config request entry) w
    (fun result w' => w'.invoked = w.invoked ++ [⟨entry, some result.usage⟩])
    (fun _ w' => w'.invoked = w.invoked ∨ w'.invoked = w.invoked ++ [⟨entry, none⟩]) := by
  unfold invoke
  split
  · exact .inl rfl
  · have hmoment : Sat moment w (fun n w' => n = w.tick ∧ w' = { w with tick := w.tick + 1 })
        (fun _ _ => False) := ⟨rfl, rfl⟩
    refine Sat.call hmoment (fun _ _ h => h.elim) ?_
    rintro _ _ ⟨rfl, rfl⟩
    cases ports.invoke w.tick entry request with
    | result result => rfl
    | failed error => exact .inr rfl
    | raised => exact .inr rfl

theorem Added.silent {entry : ModelCatalogEntry} (hentry : entry ∈ plan.entries)
    (h : w'.invoked = w.invoked ∨ w'.invoked = w.invoked ++ [⟨entry, none⟩]) :
    Added (Clean request plan 1) w w' := by
  rcases h with h | h
  · exact .nothing h
  · refine ⟨_, h, Nat.le_refl _, fun i hi => ?_, fun i hi usage husage => ?_⟩
    · rw [List.mem_singleton.mp hi]
      exact hentry
    · rw [List.mem_singleton.mp hi] at husage
      cases husage

/-- **One attempt.**  It asks one provider at most, and unless the call ends here its usage is accepted. -/
theorem perform_sat {α : Type} {parse : Fields → Option α} {entry : ModelCatalogEntry}
    {attemptId : String} {repairIndex : Nat} (hentry : entry ∈ plan.entries) :
    Sat (perform sha ports config parse request plan entry attemptId repairIndex) w
      (fun _ w' => Added (Clean request plan 1) w w') (fun _ w' => Added (Tried request plan 1) w w') := by
  refine Exec.sat_bind.mpr (Exec.sat_reify.mpr ?_)
  refine invoke_sat.mono (fun result w₁ h₁ => ?_) (fun e w₁ h₁ => ?_)
  · have hone : Added (Tried request plan 1) w w₁ := by
      refine ⟨_, h₁, Nat.le_refl _, fun i hi => ?_, fun i hi => absurd hi List.not_mem_nil⟩
      rw [List.mem_singleton.mp hi]
      exact hentry
    refine Exec.sat_bind.mpr (Exec.sat_reify.mpr ?_)
    refine inspect_sat.mono (fun _ w₂ h₂ => ?_) (fun e w₂ h₂ => ?_)
    · have hclean : Added (Clean request plan 1) w w₂ := by
        refine ⟨_, h₂.1.trans h₁, Nat.le_refl _, fun i hi => ?_, fun i hi usage husage => ?_⟩
        · rw [List.mem_singleton.mp hi]
          exact hentry
        · rw [List.mem_singleton.mp hi] at husage
          rw [← Option.some.inj husage]
          exact h₂.2
      have hleft {x : Gateway (Next α)} (hx : Leaves World.invoked x) : Sat x w₂
          (fun _ w' => Added (Clean request plan 1) w w')
          (fun _ w' => Added (Tried request plan 1) w w') :=
        (hx w₂).mono (fun _ _ h => hclean.same h) fun _ _ h => (hclean.same h).mono fun _ => Clean.tried
      cases parse result.structuredOutput with
      | none => exact hleft leaves_onMalformed
      | some parsed => exact hleft leaves_complete
    · cases e with
      | invocation error =>
        exact (onFailure_stops (h₂.2 error rfl)).mono (fun _ _ h => h.elim)
          fun _ _ h => hone.same (h.trans h₂.1)
      | other error => exact hone.same h₂.1
  · have hsilent : Added (Clean request plan 1) w w₁ := .silent hentry h₁
    cases e with
    | invocation error =>
      exact (leaves_onFailure w₁).mono (fun _ _ h => hsilent.same h)
        fun _ _ h => (hsilent.same h).mono fun _ => Clean.tried
    | other error => exact hsilent.mono fun _ => Clean.tried

theorem attempt_sat {α : Type} {parse : Fields → Option α} {entry : ModelCatalogEntry}
    {routeIndex repairIndex : Nat} (hentry : entry ∈ plan.entries) :
    Sat (attempt sha ports config parse request plan entry routeIndex repairIndex) w
      (fun _ w' => Added (Clean request plan 1) w w') (fun _ w' => Added (Tried request plan 1) w w') := by
  refine leaves_interrupted.before (fun _ _ h => .nothingTried h) fun stale w₁ h₁ => ?_
  cases stale with
  | some code =>
    exact (leaves_giveUp w₁).mono (fun _ _ h => .nothing (h.trans h₁)) fun _ _ h => .nothingTried (h.trans h₁)
  | none =>
    refine leaves_now.before (fun _ _ h => .nothingTried (h.trans h₁)) fun time w₂ h₂ => ?_
    refine leaves_appendRequested.before (fun _ _ h => .nothingTried (h.trans (h₂.trans h₁)))
      fun _ w₃ h₃ => ?_
    have hsame : w₃.invoked = w.invoked := h₃.trans (h₂.trans h₁)
    refine (perform_sat hentry).mono (fun _ _ h => ?_) fun _ _ h => ?_
    · exact (Added.nothing (n := 0) hsame).clean h |>.mono fun _ h => h.more (by omega)
    · obtain ⟨new, hnew, htried⟩ := h
      exact ⟨new, by rw [hnew, hsame], htried⟩

/-- **The attempts at one route**: at most as many as are left. -/
theorem repairs_sat {α : Type} {parse : Fields → Option α} {entry : ModelCatalogEntry}
    {routeIndex : Nat} (hentry : entry ∈ plan.entries) (failure : Option InvocationError)
    (left repairIndex : Nat) (w : World) :
    Sat (repairs sha ports config parse request plan entry routeIndex failure left repairIndex) w
      (fun _ w' => Added (Clean request plan left) w w')
      (fun _ w' => Added (Tried request plan left) w w') := by
  induction left generalizing failure repairIndex w with
  | zero => exact Added.nothing rfl
  | succ left ih =>
    refine Sat.call (attempt_sat hentry) (fun _ _ h => h.mono fun _ h => ⟨?_, h.route, h.accepted⟩)
      fun next w₁ h₁ => ?_
    · exact h.count.trans (by omega)
    have hone : left + 1 = 1 + left := by omega
    cases next with
    | repair error =>
      refine (ih (some error) (repairIndex + 1) w₁).mono (fun _ _ h => ?_) (fun _ _ h => ?_)
      · rw [hone]; exact h₁.clean h
      · rw [hone]; exact h₁.tried h
    | route error => exact h₁.mono fun _ h => h.more (by omega)
    | done value => exact h₁.mono fun _ h => h.more (by omega)

/-- **All the attempts of a call**: at most `1 + repair_attempts` for each route. -/
theorem routes_sat {α : Type} {parse : Fields → Option α} (entries : List ModelCatalogEntry)
    (hentries : ∀ e ∈ entries, e ∈ plan.entries) (failure : Option InvocationError) (routeIndex : Nat)
    (w : World) :
    Sat (routes sha ports config parse request plan failure routeIndex entries) w
      (fun _ w' => Added (Tried request plan (entries.length * (1 + plan.policy.repairAttempts))) w w')
      (fun _ w' => Added (Tried request plan (entries.length * (1 + plan.policy.repairAttempts))) w w') := by
  induction entries generalizing failure routeIndex w with
  | nil => exact (leaves_giveUp w).mono (fun _ _ h => .nothingTried h) fun _ _ h => .nothingTried h
  | cons entry entries ih =>
    have hcount : (entry :: entries).length * (1 + plan.policy.repairAttempts) =
        (1 + plan.policy.repairAttempts) + entries.length * (1 + plan.policy.repairAttempts) := by
      rw [List.length_cons, Nat.succ_mul, Nat.add_comm]
    rw [hcount]
    have hmore : ∀ {w w' : World}, Added (Tried request plan (1 + plan.policy.repairAttempts)) w w' →
        Added (Tried request plan ((1 + plan.policy.repairAttempts) +
          entries.length * (1 + plan.policy.repairAttempts))) w w' := by
      intro w w' h
      exact h.mono fun _ h => ⟨h.count.trans (Nat.le_add_right _ _), h.route, h.accepted⟩
    refine leaves_isCancelled.before (fun _ _ h => .nothingTried h) fun cancelled w₁ h₁ => ?_
    split
    · exact (leaves_giveUp w₁).mono (fun _ _ h => .nothingTried (h.trans h₁))
        fun _ _ h => .nothingTried (h.trans h₁)
    · refine Sat.call (repairs_sat (hentries entry List.mem_cons_self) failure _ 0 w₁) (fun _ _ h => ?_)
        fun tried w₂ h₂ => ?_
      · obtain ⟨new, hnew, htried⟩ := h
        exact hmore ⟨new, by rw [hnew, h₁], htried⟩
      · have hclean : Added (Clean request plan (1 + plan.policy.repairAttempts)) w w₂ := by
          obtain ⟨new, hnew, hclean⟩ := h₂
          exact ⟨new, by rw [hnew, h₁], hclean⟩
        cases tried with
        | ok value => exact hmore (hclean.mono fun _ => Clean.tried)
        | error failure =>
          refine (ih (fun e he => hentries e (List.mem_cons_of_mem _ he)) failure (routeIndex + 1)
            w₂).mono (fun _ _ h => ?_) fun _ _ h => ?_
          · exact hclean.tried h
          · exact hclean.tried h


/-! ## Admission -/

/-- What the admission of a call leaves alone until it reserves. -/
def kept (w : World) : List Invocation × Store := (w.invoked, w.store)

theorem keeps_moment : Leaves kept moment :=
  leaves_bind leaves_read fun _ => leaves_bind (leaves_modify fun _ => rfl) fun _ => leaves_pure _

theorem keeps_now : Leaves kept (now ports) := leaves_bind keeps_moment fun _ => leaves_pure _

theorem keeps_requirePolicy : Leaves kept (requirePolicy ports request) := by
  have hadmits (policy : TenantModelPolicy) : Leaves kept (admits request policy) :=
    leaves_bind (leaves_require _ _) fun _ => leaves_bind (leaves_require _ _) fun _ =>
      leaves_bind (leaves_require _ _) fun _ => leaves_bind (leaves_require _ _) fun _ =>
        leaves_bind (leaves_require _ _) fun _ => leaves_require _ _
  refine leaves_bind (leaves_bind keeps_moment fun _ => leaves_pure _) fun policy => ?_
  cases policy with
  | none => exact leaves_raise _
  | some policy => exact leaves_bind (hadmits policy) fun _ => leaves_pure _

theorem keeps_entriesOf {policy : TenantModelPolicy} (routes : List ModelRoute) :
    Leaves kept (entriesOf ports request policy routes) := by
  induction routes with
  | nil => exact leaves_pure _
  | cons route routes ih =>
    exact leaves_bind (leaves_bind keeps_moment fun _ => leaves_pure _) fun _ =>
      leaves_bind ih fun _ => leaves_pure _

theorem keeps_circuitIsOpen {tenantId : Identifier} {key : String} :
    Leaves kept (circuitIsOpen ports config tenantId key) := by
  refine leaves_bind leaves_read fun w => ?_
  split
  · exact leaves_pure _
  · refine leaves_bind keeps_now fun _ => leaves_ite ?_ (leaves_pure _)
    exact leaves_bind (leaves_modify fun _ => rfl) fun _ => leaves_pure _

theorem keeps_closedEntries {tenantId : Identifier} (entries : List ModelCatalogEntry) :
    Leaves kept (closedEntries ports config tenantId entries) := by
  induction entries with
  | nil => exact leaves_pure _
  | cons entry entries ih =>
    exact leaves_bind keeps_circuitIsOpen fun _ => leaves_bind ih fun _ => leaves_pure _

theorem keeps_checkRate {tenantId : Identifier} : Leaves kept (checkRate ports config tenantId) := by
  refine leaves_bind keeps_now fun _ => leaves_bind leaves_read fun _ => ?_
  exact leaves_bind (leaves_modify fun _ => rfl) fun _ =>
    leaves_ite (leaves_raise _) (leaves_modify fun _ => rfl)

/-- The tokens that are reserved are within the policy. -/
theorem eligibleEntries_sat {policy : TenantModelPolicy} :
    Sat (eligibleEntries ports request policy) w
      (fun _ w' => kept w' = kept w ∧ conservativeTokens request ≤ policy.maximumInputTokens)
      (fun _ w' => kept w' = kept w) := by
  refine Sat.check (fun _ => rfl) fun htokens => ?_
  refine (keeps_entriesOf policy.routes).before (fun _ _ h => h) fun entries w₁ h₁ => ?_
  exact Sat.check (fun _ => h₁) fun _ => ⟨h₁, htokens⟩

/-- Nothing is reserved yet under the id of the call. -/
def Fresh (request : ModelRequest) (store : Store) : Prop :=
  ∀ r ∈ store.reservations, ¬(r.tenantId = request.binding.tenantId ∧
    r.reservationId = request.binding.callId)

theorem reserve_sat {policy : TenantModelPolicy} {maximumInputTokens cost : Nat} {time : Datetime} :
    Sat (reserve sha config request policy maximumInputTokens cost time) w
      (fun r w' => w'.invoked = w.invoked ∧ r.requestedInputTokens = maximumInputTokens ∧
        (Fresh request w.store → r.reservedCostMicrounits = cost))
      (fun _ w' => w'.invoked = w.invoked) := by
  unfold reserve
  rw [Exec.sat_bind, Exec.sat_read]
  split
  · rename_i existing hfound
    refine Sat.check (fun _ => rfl) fun hsame => ⟨rfl, hsame.1, fun hfresh => ?_⟩
    have hown := List.find?_some hfound
    exact absurd (of_decide_eq_true hown) (hfresh existing (List.mem_of_find?_eq_some hfound))
  · refine Sat.check (fun _ => rfl) fun _ => Sat.check (fun _ => rfl) fun _ =>
      Sat.check (fun _ => rfl) fun _ => ?_
    exact ⟨rfl, rfl, fun _ => rfl⟩

/-- What a call goes by: tokens within ten millions, reserved as they are counted. -/
structure Admitted (request : ModelRequest) (store : Store) (plan : Plan) : Prop where
  tokens : conservativeTokens request ≤ 10000000
  reserved : plan.reservation.requestedInputTokens = conservativeTokens request
  cost : Fresh request store →
    plan.reservation.reservedCostMicrounits = maximumCost request plan.policy plan.entries

theorem admit_sat : Sat (admitRequest sha ports config request) w
    (fun plan w' => w'.invoked = w.invoked ∧ Admitted request w.store plan)
    (fun _ w' => w'.invoked = w.invoked) := by
  have hinvoked : ∀ {w₁ : World}, kept w₁ = kept w → w₁.invoked = w.invoked := congrArg Prod.fst
  refine keeps_requirePolicy.before (fun _ _ h => hinvoked h) fun policy w₁ h₁ => ?_
  refine Sat.call eligibleEntries_sat (fun _ _ h => hinvoked (h.trans h₁)) fun eligible w₂ h₂ => ?_
  have h₂' : kept w₂ = kept w := h₂.1.trans h₁
  refine (keeps_closedEntries eligible).before (fun _ _ h => hinvoked (h.trans h₂'))
    fun entries w₃ h₃ => ?_
  have h₃' : kept w₃ = kept w := h₃.trans h₂'
  refine Sat.check (fun _ => hinvoked h₃') fun _ => ?_
  refine keeps_checkRate.before (fun _ _ h => hinvoked (h.trans h₃')) fun _ w₄ h₄ => ?_
  have h₄' : kept w₄ = kept w := h₄.trans h₃'
  refine keeps_now.before (fun _ _ h => hinvoked (h.trans h₄')) fun time w₅ h₅ => ?_
  have h₅' : kept w₅ = kept w := h₅.trans h₄'
  refine Sat.call reserve_sat (fun _ _ h => h.trans (hinvoked h₅')) fun reservation w₆ h₆ => ?_
  have hstore : w₅.store = w.store := congrArg Prod.snd h₅'
  exact ⟨h₆.1.trans (hinvoked h₅'), h₂.2.trans policy.input_ok.2, h₆.2.1,
    fun hfresh => h₆.2.2 (by rw [hstore]; exact hfresh)⟩

/-! ## Costs -/

/-- The attempts of an admitted call, against what was reserved for them. -/
structure WithinReservation (request : ModelRequest) (plan : Plan) (new : List Invocation) : Prop where
  count : new.length ≤ plan.entries.length * (1 + plan.policy.repairAttempts)
  route : ∀ i ∈ new, i.entry ∈ plan.entries
  accepted : ∀ i ∈ new.dropLast, i.Accepted request plan.reservation
  each : ∀ i ∈ new, i.Accepted request plan.reservation → i.cost ≤
    i.entry.price.maximumCostMicrounits (conservativeTokens request) request.maxOutputTokens
  total : ((new.filter fun i => decide (i.Accepted request plan.reservation)).map
    Invocation.cost).sum ≤ maximumCost request plan.policy plan.entries

theorem le_foldr_max {x : Nat} {xs : List Nat} (h : x ∈ xs) : x ≤ xs.foldr max 0 := by
  induction xs with
  | nil => exact absurd h List.not_mem_nil
  | cons y xs ih =>
    rw [List.foldr_cons]
    rcases List.mem_cons.mp h with rfl | h
    · exact le_max_left _ _
    · exact (ih h).trans (le_max_right _ _)

/-- An accepted attempt costs at most the maximum of its route. -/
theorem Admitted.each {store : Store} (h : Admitted request store plan) {i : Invocation}
    (haccepted : i.Accepted request plan.reservation) : i.cost ≤
      i.entry.price.maximumCostMicrounits (conservativeTokens request) request.maxOutputTokens := by
  unfold Invocation.cost
  cases husage : i.usage with
  | none => exact Nat.zero_le _
  | some usage =>
    obtain ⟨houtput, hinput⟩ := haccepted usage husage
    rw [h.reserved] at hinput
    exact i.entry.price.actual_le_maximum houtput hinput h.tokens (request.output_ok.2.trans (by decide))

theorem Tried.within {store : Store} (h : Admitted request store plan) {new : List Invocation}
    (htried : Tried request plan (plan.entries.length * (1 + plan.policy.repairAttempts)) new) :
    WithinReservation request plan new where
  count := htried.count
  route := htried.route
  accepted := htried.accepted
  each := fun _ _ haccepted => h.each haccepted
  total := by
    have hlargest : ∀ c ∈ (new.filter fun i => decide (i.Accepted request plan.reservation)).map
        Invocation.cost, c ≤ (plan.entries.map fun e =>
          e.price.maximumCostMicrounits (conservativeTokens request) request.maxOutputTokens).foldr max 0 := by
      intro c hc
      obtain ⟨i, hi, rfl⟩ := List.mem_map.mp hc
      obtain ⟨hi, haccepted⟩ := List.mem_filter.mp hi
      exact (h.each (of_decide_eq_true haccepted)).trans
        (le_foldr_max (List.mem_map_of_mem (htried.route i hi)))
    have hsum := List.sum_le_card_nsmul _ _ hlargest
    rw [List.length_map, smul_eq_mul] at hsum
    have hlength := (List.length_filter_le (fun i => decide (i.Accepted request plan.reservation))
      new).trans htried.count
    calc _ ≤ _ := hsum
      _ ≤ _ := Nat.mul_le_mul_right _ hlength
      _ = maximumCost request plan.policy plan.entries := by
        unfold maximumCost
        rw [Nat.mul_comm, Nat.mul_assoc]

/-- What a call adds to the attempts: nothing, or what its plan allows. -/
def Billed (sha : Sha256) (ports : Ports) (config : Config) (request : ModelRequest) (w : World)
    (new : List Invocation) : Prop :=
  new = [] ∨ ∃ w₀ plan, (admitRequest sha ports config request w₀).1 = .ok plan ∧ w₀.store = w.store ∧
    Admitted request w.store plan ∧ WithinReservation request plan new

theorem generateAdmitted_sat {α : Type} {parse : Fields → Option α} {w₀ : World}
    (hstore : w₀.store = w.store) :
    Sat (generateAdmitted sha ports config parse request) w₀
      (fun _ w' => Added (Billed sha ports config request w) w₀ w')
      (fun _ w' => Added (Billed sha ports config request w) w₀ w') := by
  unfold generateAdmitted
  rw [Exec.sat_bind]
  rcases hrun : admitRequest sha ports config request w₀ with ⟨outcome, w₁⟩
  cases outcome with
  | error e =>
    have hsame : w₁.invoked = w₀.invoked := admit_sat.error hrun
    unfold Sat
    rw [hrun]
    exact ⟨[], by rw [hsame, List.append_nil], .inl rfl⟩
  | ok plan =>
    obtain ⟨hsame, hadmitted⟩ := admit_sat.ok hrun
    rw [hstore] at hadmitted
    have hbilled : ∀ w', Added (Tried request plan (plan.entries.length *
        (1 + plan.policy.repairAttempts))) w₁ w' → Added (Billed sha ports config request w) w₀ w' := by
      rintro w' ⟨new, hnew, htried⟩
      exact ⟨new, by rw [hnew, hsame],
        .inr ⟨w₀, plan, by rw [hrun], hstore, hadmitted, htried.within hadmitted⟩⟩
    unfold Sat
    rw [hrun]
    exact (routes_sat plan.entries (fun _ h => h) none 1 w₁).mono (fun _ => hbilled) fun _ => hbilled

/-- **What one call is billed for.** -/
theorem generate_billed {α : Type} (parse : Fields → Option α) (w : World) :
    Added (Billed sha ports config request w) w (generate sha ports config parse request w).2 := by
  have hnone : Billed sha ports config request w [] := .inl rfl
  refine Sat.state (x := generate sha ports config parse request) (s := w) ?_
  refine Exec.sat_bind.mpr ?_
  show Sat (if ports.cancelled w.tick = true then raiseInvocation .cancelled false .notBilled
    else do
      let w ← Exec.read
      if w.available = 0 then raiseInvocation .rateLimited true .notBilled
      else do
        Exec.modify fun w => { w with available := w.available - 1 }
        let outcome ← Exec.reify (generateAdmitted sha ports config parse request)
        Exec.modify release
        Exec.lift outcome) { w with tick := w.tick + 1 } _ _
  split
  · exact ⟨[], (List.append_nil _).symm, hnone⟩
  · rw [Exec.sat_bind, Exec.sat_read]
    split
    · exact ⟨[], (List.append_nil _).symm, hnone⟩
    · rw [Exec.sat_bind, Exec.sat_modify, Exec.sat_bind, Exec.sat_reify]
      refine (generateAdmitted_sat rfl).mono (fun a w₂ h => ?_) fun e w₂ h => ?_
      · exact h
      · exact h

/-! ## A call that costs more than it reserved -/

/-- A dollar for a million tokens of any kind. -/
def samplePrice : ModelPrice :=
  ⟨⟨"price-1", by decide⟩, 1000000, 1000000, 1000000, 1000000, by decide, by decide, by decide, by decide⟩

def sampleEntry : ModelCatalogEntry where
  tenantId := ⟨"tenant", computed⟩
  provider := .fake
  model := ⟨"model", computed⟩
  region := ⟨"eu", computed⟩
  capabilities := [.jsonSchema]
  contextTokens := 10000
  maximumOutputTokens := 100
  price := samplePrice
  credential := ⟨⟨"secret", computed⟩, 1, Nat.one_pos⟩
  enabled := true
  context_ok := by decide
  output_ok := by decide
  separator_ok := by decide

def samplePolicy : TenantModelPolicy where
  tenantId := ⟨"tenant", computed⟩
  policyId := ⟨"policy", computed⟩
  revision := 1
  allowedProviders := [.fake]
  allowedModels := [⟨"model", computed⟩]
  allowedRegions := [⟨"eu", computed⟩]
  allowedDataClassifications := [.internal]
  allowedPurposes := [⟨"triage", computed⟩]
  requiredCapabilities := []
  riskCeiling := .low
  routes := [⟨.fake, ⟨"model", computed⟩, ⟨"eu", computed⟩, 1, by decide⟩]
  maximumInputTokens := 1000
  maximumOutputTokens := 100
  maximumCostMicrounits := 1000000
  maximumCallsPerRun := 10
  repairAttempts := 1
  fallbackOnAmbiguousBilling := false
  revision_ok := Nat.one_pos
  routes_ok := by decide
  input_ok := by decide
  output_ok := by decide
  cost_ok := by decide
  calls_ok := by decide
  repair_ok := by decide

def sampleModelRequest : ModelRequest where
  binding := ⟨⟨"tenant", computed⟩, ⟨"run", computed⟩, ⟨"call", computed⟩, ⟨"triage", computed⟩,
    .internal, .low⟩
  messages := [⟨.user, [.text "hi"], none, none⟩]
  maxOutputTokens := 10
  temperatureMilli := 0
  tools := []
  allowedToolNames := []
  structuredOutput := none
  messages_ok := by decide
  output_ok := by decide
  tools_ok := by decide
  temperature_ok := by decide

/-- A provider that reports ten million output tokens, whatever it was allowed. -/
def samplePorts : Ports where
  clock := fun n => ⟨n, 0⟩
  cancelled := fun _ => false
  currentPolicy := fun _ _ => some samplePolicy
  catalogEntry := fun _ _ _ => some sampleEntry
  invoke := fun _ _ _ => .result
    { structuredOutput := .of [], usage := ⟨1, 10000000, 0, 0, true, by decide, by decide, by decide, by decide⟩,
      finishReason := .stop, blocked := false }

def sampleConfig : Config := ⟨[.fake], 60, 3, 30, fun _ => 1000000, by decide⟩

def World.start : World :=
  { store := ⟨[], [], fun _ => none⟩, rateWindows := fun _ => [], circuitFailures := fun _ => 0,
    circuitOpened := fun _ => none, available := 1, tick := 0, invoked := [] }

end Model

end Aegis
