/-
  NO PROVIDER IS ASKED OUTSIDE A POLICY.

  What a call goes by is settled before its first attempt: a policy that the tenant has, whose checks the
  request passes, and the catalog entries that serve its routes.  Every attempt of the call is then at one of
  these entries (`generate_billed`), so each provider that is asked is one the policy allows, in a model, a
  region and with the capabilities it allows, and no call asks more often than its routes and repairs.
-/
import Mathlib
import Aegis.Model.Costs

namespace Aegis

namespace Model

open Exec (Sat)

variable {sha : Sha256} {ports : Ports} {config : Config} {request : ModelRequest} {plan : Plan} {w : World}

/-! ## What the admission makes sure of -/

/-- The checks of `_require_policy`. -/
structure Permits (policy : TenantModelPolicy) (request : ModelRequest) : Prop where
  purpose : request.binding.purpose ∈ policy.allowedPurposes
  classification : request.binding.dataClassification ∈ policy.allowedDataClassifications
  risk : riskOrder request.binding.risk ≤ riskOrder policy.riskCeiling
  output : request.maxOutputTokens ≤ policy.maximumOutputTokens
  tools : (∀ name ∈ request.allowedToolNames, name ∈ request.tools.map fun t => t.name) ∧
    ∀ tool ∈ request.tools, tool.name ∈ request.allowedToolNames
  messages : ∀ message ∈ request.messages, message.role ≠ .tool

/-- The catalog, asked about the routes from the moment `n` on, has this entry for one of them, and the entry
    serves the request. -/
def Serves (ports : Ports) (request : ModelRequest) (policy : TenantModelPolicy) (routes : List ModelRoute)
    (n : Nat) (entry : ModelCatalogEntry) : Prop :=
  ∃ route ∈ routes, Eligible request policy route entry ∧ ∃ m, n ≤ m ∧ m < n + routes.length ∧
    ports.catalogEntry m request.binding.tenantId route.catalogKey = some entry

/-- The entries of a call: no more than the routes, each serving one of them. -/
structure OnRoutes (ports : Ports) (request : ModelRequest) (policy : TenantModelPolicy)
    (routes : List ModelRoute) (n : Nat) (entries : List ModelCatalogEntry) : Prop where
  count : entries.length ≤ routes.length
  serves : ∀ entry ∈ entries, Serves ports request policy routes n entry

theorem currentPolicy_sat {tenantId : Identifier} : Sat (currentPolicy ports tenantId) w
    (fun policy w' => ports.currentPolicy w.tick tenantId = policy ∧ w'.tick = w.tick + 1)
    (fun _ _ => True) := ⟨rfl, rfl⟩

theorem catalogEntry_sat {tenantId : Identifier} {key : String} : Sat (catalogEntry ports tenantId key) w
    (fun entry w' => ports.catalogEntry w.tick tenantId key = entry ∧ w'.tick = w.tick + 1)
    (fun _ _ => True) := ⟨rfl, rfl⟩

theorem admits_sat {policy : TenantModelPolicy} :
    Sat (admits request policy) w (fun _ w' => w' = w ∧ Permits policy request) (fun _ _ => True) := by
  refine Sat.check (fun _ => trivial) fun hpurpose => Sat.check (fun _ => trivial) fun hclass => ?_
  refine Sat.check (fun _ => trivial) fun hrisk => Sat.check (fun _ => trivial) fun houtput => ?_
  refine Sat.check (fun _ => trivial) fun htools => Exec.sat_require.mpr ⟨fun hmessages => ?_, ?_⟩
  · exact ⟨rfl, hpurpose, hclass, hrisk, houtput, htools, hmessages⟩
  · exact fun _ => trivial

theorem requirePolicy_sat : Sat (requirePolicy ports request) w
    (fun policy w' => (ports.currentPolicy w.tick request.binding.tenantId = some policy ∧
      w'.tick = w.tick + 1) ∧ Permits policy request) (fun _ _ => True) := by
  refine Sat.call currentPolicy_sat (fun _ _ h => h) fun policy w₁ hpolicy => ?_
  cases policy with
  | none => trivial
  | some policy =>
    refine Sat.call admits_sat (fun _ _ h => h) fun _ w₂ hpermits => ?_
    rw [hpermits.1]
    exact ⟨hpolicy, hpermits.2⟩

theorem entriesOf_sat {policy : TenantModelPolicy} (routes : List ModelRoute) (w : World) :
    Sat (entriesOf ports request policy routes) w
      (fun entries _ => OnRoutes ports request policy routes w.tick entries) (fun _ _ => True) := by
  induction routes generalizing w with
  | nil => exact ⟨Nat.le_refl _, fun _ h => absurd h List.not_mem_nil⟩
  | cons route routes ih =>
    refine Sat.call catalogEntry_sat (fun _ _ h => h) fun entry w₁ hentry => ?_
    refine Sat.call (ih w₁) (fun _ _ _ => trivial) fun entries w₂ hentries => ?_
    have hlength : (route :: routes).length = routes.length + 1 := rfl
    have hrest : ∀ e ∈ entries, Serves ports request policy (route :: routes) w.tick e := by
      intro e he
      obtain ⟨route', hroute', heligible, m, hfrom, hto, hfound⟩ := hentries.serves e he
      exact ⟨route', List.mem_cons_of_mem _ hroute', heligible, m, by omega, by omega, hfound⟩
    cases hkept : entry.filter fun e => decide (Eligible request policy route e) with
    | none => exact ⟨hentries.count.trans (Nat.le_succ _), hrest⟩
    | some e =>
      obtain ⟨rfl, heligible⟩ := Option.filter_eq_some_iff.mp hkept
      refine ⟨Nat.succ_le_succ hentries.count, fun e' he' => ?_⟩
      rcases List.mem_cons.mp he' with rfl | he'
      · exact ⟨route, List.mem_cons_self, of_decide_eq_true heligible, w.tick, by omega, by omega, hentry.1⟩
      · exact hrest e' he'

theorem closedEntries_sat {tenantId : Identifier} (entries : List ModelCatalogEntry) (w : World) :
    Sat (closedEntries ports config tenantId entries) w (fun closed _ => closed.Sublist entries)
      (fun _ _ => True) := by
  induction entries generalizing w with
  | nil => exact List.Sublist.refl _
  | cons entry entries ih =>
    refine Sat.skip fun isOpen w₁ => Sat.call (ih w₁) (fun _ _ _ => trivial) fun closed w₂ hclosed => ?_
    rw [Exec.sat_pure]
    split
    · exact hclosed.cons entry
    · exact hclosed.cons_cons entry

theorem eligibleEntries_onRoutes {policy : TenantModelPolicy} : Sat (eligibleEntries ports request policy) w
    (fun entries _ => OnRoutes ports request policy policy.routes w.tick entries) (fun _ _ => True) := by
  refine Sat.check (fun _ => trivial) fun _ => ?_
  refine Sat.call (entriesOf_sat policy.routes w) (fun _ _ h => h) fun entries w₁ hentries => ?_
  exact Sat.check (fun _ => trivial) fun _ => hentries

/-- **What a call goes by**, when it is admitted at the moment `w.tick`. -/
theorem admit_onPolicy : Sat (admitRequest sha ports config request) w
    (fun plan _ => ports.currentPolicy w.tick request.binding.tenantId = some plan.policy ∧
      Permits plan.policy request ∧
      OnRoutes ports request plan.policy plan.policy.routes (w.tick + 1) plan.entries)
    (fun _ _ => True) := by
  refine Sat.call requirePolicy_sat (fun _ _ h => h) fun policy w₁ hpolicy => ?_
  refine Sat.call eligibleEntries_onRoutes (fun _ _ h => h) fun eligible w₂ heligible => ?_
  rw [hpolicy.1.2] at heligible
  refine Sat.call (closedEntries_sat eligible w₂) (fun _ _ h => h) fun entries w₃ hclosed => ?_
  refine Sat.check (fun _ => trivial) fun _ => Sat.skip fun _ w₄ => Sat.skip fun time w₅ => ?_
  refine Sat.skip fun reservation w₆ => ⟨hpolicy.1.1, hpolicy.2, ?_⟩
  exact ⟨hclosed.length_le.trans heligible.count, fun e he => heligible.serves e (hclosed.subset he)⟩

/-! ## Calls -/

/-- The providers that a call asks, admitted at the moment `n`: none, or on the policy of that moment, which
    permits the request, as often as its routes and repairs allow, and at entries that serve its routes. -/
def AskedOnPolicy (ports : Ports) (request : ModelRequest) (n : Nat) (new : List Invocation) : Prop :=
  new = [] ∨ ∃ policy, ports.currentPolicy n request.binding.tenantId = some policy ∧
    Permits policy request ∧ new.length ≤ policy.routes.length * (1 + policy.repairAttempts) ∧
    ∀ i ∈ new, Serves ports request policy policy.routes (n + 1) i.entry

theorem generateAdmitted_onPolicy {α : Type} {parse : Fields → Option α} :
    Sat (generateAdmitted sha ports config parse request) w
      (fun _ => Added (AskedOnPolicy ports request w.tick) w)
      (fun _ => Added (AskedOnPolicy ports request w.tick) w) := by
  refine Sat.call (admit_sat.and admit_onPolicy) (fun _ w₁ h => ?_) fun plan w₁ h => ?_
  · exact ⟨[], by rw [h.1, List.append_nil], .inl rfl⟩
  · obtain ⟨⟨hsame, -⟩, hpolicy, hpermits, hroutes⟩ := h
    have hasked : ∀ w', Added (Tried request plan (plan.entries.length * (1 + plan.policy.repairAttempts)))
        w₁ w' → Added (AskedOnPolicy ports request w.tick) w w' := by
      rintro w' ⟨new, hnew, htried⟩
      refine ⟨new, by rw [hnew, hsame], .inr ⟨plan.policy, hpolicy, hpermits, ?_, fun i hi => ?_⟩⟩
      · exact htried.count.trans (Nat.mul_le_mul_right _ hroutes.count)
      · exact hroutes.serves i.entry (htried.route i hi)
    exact (routes_sat plan.entries (fun _ h => h) none 1 w₁).mono (fun _ => hasked) fun _ => hasked

/-- **No provider is asked outside a policy.**  Whatever state a call finds, and however it ends. -/
theorem providers_on_policy {α : Type} (sha : Sha256) (ports : Ports) (config : Config)
    (parse : Fields → Option α) (request : ModelRequest) (w : World) :
    ∃ new, (generate sha ports config parse request w).2.invoked = w.invoked ++ new ∧
      AskedOnPolicy ports request (w.tick + 1) new := by
  have hnone : AskedOnPolicy ports request (w.tick + 1) [] := .inl rfl
  refine Sat.state (x := generate sha ports config parse request) (s := w)
    (I := Added (AskedOnPolicy ports request (w.tick + 1)) w) ?_
  have hasked : Sat (isCancelled ports) w (fun _ w' => w' = { w with tick := w.tick + 1 })
    (fun _ _ => False) := rfl
  refine Sat.call hasked (fun _ _ h => h.elim) ?_
  rintro cancelled _ rfl
  split
  · exact ⟨[], (List.append_nil _).symm, hnone⟩
  · rw [Exec.sat_bind, Exec.sat_read]
    split
    · exact ⟨[], (List.append_nil _).symm, hnone⟩
    · rw [Exec.sat_bind, Exec.sat_modify, Exec.sat_bind, Exec.sat_reify]
      exact generateAdmitted_onPolicy.mono (fun _ _ h => h) fun _ _ h => h

end Model

end Aegis
