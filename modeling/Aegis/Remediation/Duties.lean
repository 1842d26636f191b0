/-
  SEPARATION OF DUTIES: whoever proposed a plan does not approve it.

  `decide` compares the approver with `plan.proposer_ref`, a field of the plan DOCUMENT; the proposer is
  whoever called `propose`, and `propose` does not compare the two.  So the law holds for the plans
  whose document names its proposer (`separation_of_duties`), and fails for the others: the caller of
  `propose` writes another name into the document and grants its own plan.

  The proof follows a grant back to the `decide` call that made it.  That call saw an approval and a
  plan; digests, which are collision free on the texts of the run, say that the plan had the proposer
  of the one recorded.
-/
import Mathlib
import Aegis.Remediation.Approvals

namespace Aegis

namespace Remediation

open Exec (Path)

variable {sha : Sha256} {ports : Ports}

/-! ## The law -/

/-- The call is `proposer`'s, and it recorded the proposal of the plan. -/
def RecordsProposal (e : HistoryEntry) (proposer : IdentityContext) (plan : RemediationPlan) : Prop :=
  (∃ commandId, e.op = .propose proposer plan commandId) ∧
    ∃ fact ∈ e.after.facts plan.key, fact ∉ e.before.facts plan.key ∧
      fact.factType = .proposalRecorded

/-- No grant of `ref` is stored for the plan's approval, and `ref` is in no quorum for the plan. -/
def NoGrantBy (sha : Sha256) (s : State) (ref : Identifier) (plan : RemediationPlan) : Prop :=
  (∀ key a, s.approvals key = some a → a.planDigest = plan.digest sha →
    ∀ d ∈ s.decisions key, d.disposition = .grant → d.approverRef ≠ ref) ∧
  ∀ key scope, scope.plan.digest sha = plan.digest sha →
    ref ∉ approvers (exactDecision sha scope) (s.decisions key)

/-- Whoever recorded a plan has no grant for it in the state the calls lead to. -/
def SeparatesDuties (sha : Sha256) (ports : Ports) (start : State) (ops : List Op) : Prop :=
  ∀ e ∈ history sha ports start ops, ∀ proposer plan, RecordsProposal e proposer plan →
    NoGrantBy sha (run sha ports start ops) (actorRef sha proposer) plan

/-! ## Approvals keep their digest -/

/-- What a request builds for a plan. -/
theorem buildApproval_ok {plan : RemediationPlan} {policy : ActionPolicy} {ref : Identifier}
    {time : Datetime} {a : ActionApprovalRequest}
    (h : buildApproval sha plan policy ref time = .ok a) :
    a.planDigest = plan.digest sha ∧
      a.requirement.prohibitSelfApproval = policy.prohibitSelfApproval := by
  unfold buildApproval at h
  split at h
  · rw [← Except.ok.inj h]
    exact ⟨rfl, rfl⟩
  · cases h

/-- The approval under a key may be written again, with the same digest. -/
def KeepsDigests (sha : Sha256) (s t : State) : Prop :=
  ∀ key a, s.approvals key = some a → ∃ b, t.approvals key = some b ∧ b.digest sha = a.digest sha

theorem KeepsDigests.refl (s : State) : KeepsDigests sha s s := fun _ a ha => ⟨a, ha, rfl⟩

theorem KeepsDigests.trans {s t u : State} (h : KeepsDigests sha s t) (h' : KeepsDigests sha t u) :
    KeepsDigests sha s u := by
  intro key a ha
  obtain ⟨b, hb, hba⟩ := h key a ha
  obtain ⟨c, hc, hcb⟩ := h' key b hb
  exact ⟨c, hc, hcb.trans hba⟩

theorem step_keepsDigests (s : State) (op : Op) : KeepsDigests sha s (step sha ports s op).2 := by
  refine (step_path sha ports s op).relates KeepsDigests.refl (fun _ _ _ => KeepsDigests.trans) ?_
  intro t i hi
  cases hi
  case approval identity planId version commandId plan policy n approval hop hplan hpolicy hbuilt
      hsame =>
    intro key a ha
    by_cases hkey : key = approval.key
    · rw [hkey] at ha ⊢
      exact ⟨approval, Function.update_self _ _ _, (hsame a ha).symm⟩
    · refine ⟨a, ?_, rfl⟩
      show Function.update t.approvals approval.key (some approval) key = some a
      rw [Function.update_of_ne hkey]
      exact ha
  all_goals exact KeepsDigests.refl t

theorem run_keepsDigests (start : State) (xs ys : List Op) :
    KeepsDigests sha (run sha ports start xs) (run sha ports start (xs ++ ys)) := by
  rw [run, run, Machine.final_append]
  exact Machine.final_rel KeepsDigests.refl (fun _ _ _ => KeepsDigests.trans) step_keepsDigests _ ys

/-! ## A grant and its plan -/

/-- What a stored decision says of the plan it is for. -/
theorem decision_origin {policies : List ActionPolicy} {limits : String → Int} {ops : List Op}
    (hprohibit : ∀ p, Installable policies ops p → p.prohibitSelfApproval = true)
    {key : String × String} {d : ApprovalDecision}
    (hd : d ∈ (run sha ports (State.start policies limits) ops).decisions key) :
    ∃ plan : RemediationPlan, plan.text sha ∈ planTexts sha ops ∧ d.planDigest = plan.digest sha ∧
      d.approverRef ≠ plan.proposerRef ∧
      ∃ a : ActionApprovalRequest,
        a.text ∈ approvalTexts (history sha ports (State.start policies limits) ops) ∧
        a.planDigest = plan.digest sha ∧
        ∃ b, (run sha ports (State.start policies limits) ops).approvals key = some b ∧
          b.digest sha = a.digest sha := by
  obtain ⟨hkey, e, he, approval, plan, identity, request, hop, hdecided, -⟩ :=
    decisions_made policies limits ops key d hd
  obtain ⟨policy, role, time, -, hrole, hbuilt⟩ := hdecided.made
  obtain ⟨hplanDigest, -, hself, -, -⟩ := decideRole_ok hrole
  obtain ⟨hdkey, -, hactor, -, hdigest, -, -, -⟩ := buildDecision_ok hbuilt
  obtain ⟨xs, ys, hops, hentry⟩ := Machine.trace_mem he
  have hbefore : e.before = run sha ports (State.start policies limits) xs := by rw [hentry]; rfl
  have hsub : xs ⊆ ops := by
    rw [hops]
    exact List.subset_append_left _ _
  have hstored := hdecided.stored
  have hplanned := hdecided.planned
  rw [hbefore] at hstored hplanned
  obtain ⟨-, proposer, commandId, hproposed, -⟩ := plans_proposed policies limits xs _ plan hplanned
  obtain ⟨_, _, _, _, plan', policy', n, -, -, hinstallable, happroval⟩ :=
    (approvals_requested policies limits xs _ approval hstored).mono hsub
  have hprohibited : approval.requirement.prohibitSelfApproval = true := by
    rw [(buildApproval_ok happroval).2]
    exact hprohibit policy' hinstallable
  refine ⟨plan, ⟨proposer, plan, commandId, hsub hproposed, rfl⟩, hdigest, ?_, approval,
    ⟨e, he, _, approval, .inl hdecided.stored, rfl⟩, hplanDigest, ?_⟩
  · rw [hactor]
    exact hself hprohibited
  · rw [← hkey, hdkey, hops]
    exact run_keepsDigests _ xs (e.op :: ys) _ approval hstored

/-- **Separation of duties**, for plans whose document names the caller that recorded them. -/
theorem separation_of_duties (policies : List ActionPolicy) (limits : String → Int) (ops : List Op)
    (hprohibit : ∀ p, Installable policies ops p → p.prohibitSelfApproval = true)
    (hplans : sha.CollisionFree (planTexts sha ops))
    (happrovals : sha.CollisionFree
      (approvalTexts (history sha ports (State.start policies limits) ops)))
    (hnamed : ∀ e ∈ history sha ports (State.start policies limits) ops, ∀ proposer plan,
      RecordsProposal e proposer plan → plan.proposerRef = actorRef sha proposer) :
    SeparatesDuties sha ports (State.start policies limits) ops := by
  intro e he proposer plan hrecords
  have hproposer : plan.proposerRef = actorRef sha proposer := hnamed e he proposer plan hrecords
  obtain ⟨⟨commandId, hop⟩, -⟩ := hrecords
  have hmem : plan.text sha ∈ planTexts sha ops := by
    obtain ⟨xs, ys, hops, -⟩ := Machine.trace_mem he
    refine ⟨proposer, plan, commandId, ?_, rfl⟩
    rw [hops, ← hop]
    exact List.mem_append_right _ List.mem_cons_self
  -- a grant that carries the plan's digest is not the proposer's
  have hother : ∀ plan' : RemediationPlan, plan'.text sha ∈ planTexts sha ops →
      plan'.digest sha = plan.digest sha → plan'.proposerRef = actorRef sha proposer := by
    intro plan' hmem' hdigest
    have htext : plan'.text sha = plan.text sha := hplans.hexdigest hmem' hmem hdigest
    rw [proposer_of_text htext, hproposer]
  constructor
  · intro key a ha hplan d hd _
    obtain ⟨plan', hmem', -, hne, b, hb, hbplan, c, hc, hcb⟩ := decision_origin hprohibit hd
    obtain rfl := Option.some.inj (ha.symm.trans hc)
    have htext : a.text = b.text := happrovals.hexdigest (run_approvalTexts ha) hb hcb
    have hdigest : plan'.digest sha = plan.digest sha := by
      rw [← hbplan, ← (approval_of_text htext).1, hplan]
    rw [← hother plan' hmem' hdigest]
    exact hne
  · intro key scope hscope href
    obtain ⟨d, hd, -, hexact, hdref⟩ := approvers_mem href
    obtain ⟨plan', hmem', hdplan, hne, -⟩ := decision_origin hprohibit hd
    simp only [exactDecision, Bool.and_eq_true, decide_eq_true_eq] at hexact
    have hdigest : plan'.digest sha = plan.digest sha := by
      rw [← hdplan, hexact.1.1.1, hscope]
    rw [← hother plan' hmem' hdigest] at hdref
    exact hne hdref

/-- The plan of the case when its document names `x`. -/
def ownPlan : RemediationPlan := samplePlan (actorRef .constant (sampleIdentity "x"))

/-- The worked case: `x` is refused when it grants the plan that names it. -/
theorem separation_of_duties_own_plan :
    ((history .constant (samplePorts false) sampleStart (sampleApproval ownPlan "x")).map fun e =>
      match e.result with
      | .ok _ => none
      | .error error => some error.message)
        = [none, none, some "self_approval_prohibited"] ∧
    SeparatesDuties .constant (samplePorts false) sampleStart (sampleApproval ownPlan "x") := by
  refine ⟨by decide +kernel, separation_of_duties [samplePolicy] (fun _ => 2) _ ?_
    (.of_subsingleton ?_) (.of_subsingleton (sample_approvalTexts ownPlan ?_)) ?_⟩
  · simp [Installable, sampleApproval, samplePolicy]
  · rintro _ ⟨_, p, _, hp, rfl⟩ _ ⟨_, q, _, hq, rfl⟩
    simp only [sampleApproval, List.mem_cons, List.not_mem_nil, Op.propose.injEq, reduceCtorEq,
      or_false] at hp hq
    rw [hp.2.1, hq.2.1]
  · simp [SampleCall, sampleApproval]
  · rintro e he proposer plan ⟨⟨commandId, hop⟩, -⟩
    obtain ⟨xs, ys, hops, -⟩ := Machine.trace_mem he
    have hmem : Op.propose proposer plan commandId ∈ sampleApproval ownPlan "x" := by
      rw [hops, ← hop]
      exact List.mem_append_right _ List.mem_cons_self
    simp only [sampleApproval, List.mem_cons, List.not_mem_nil, Op.propose.injEq, reduceCtorEq,
      or_false] at hmem
    rw [hmem.1, hmem.2.1]
    rfl

/-- **What the code allows.**  `x` proposes a plan whose document names someone else, requests its
    approval and grants it; every policy forbids self-approval. -/
theorem proposer_grants_own_plan :
    samplePolicy.prohibitSelfApproval = true ∧
    ¬SeparatesDuties .constant (samplePorts false) sampleStart (sampleApproval (samplePlan someone) "x") := by
  refine ⟨rfl, fun hduties => ?_⟩
  have hfacts : ((step .constant (samplePorts false) sampleStart
      (.propose (sampleIdentity "x") (samplePlan someone) "c1")).2.facts (samplePlan someone).key).map (·.factType)
        = [.proposalRecorded, .policyDecided] := by decide +kernel
  have happroval : ((run .constant (samplePorts false) sampleStart (sampleApproval (samplePlan someone) "x")).approvals
      ("t", (approvalIdOf .constant (samplePlan someone)).val)).map (·.planDigest)
        = some ((samplePlan someone).digest .constant) := by decide +kernel
  have hdecisions : ((run .constant (samplePorts false) sampleStart (sampleApproval (samplePlan someone) "x")).decisions
      ("t", (approvalIdOf .constant (samplePlan someone)).val)).map (fun d => (d.disposition, d.approverRef))
        = [(.grant, actorRef .constant (sampleIdentity "x"))] := by decide +kernel
  have hrecords : RecordsProposal (Machine.entry (step .constant (samplePorts false)) sampleStart
      (.propose (sampleIdentity "x") (samplePlan someone) "c1")) (sampleIdentity "x") (samplePlan someone) := by
    refine ⟨⟨"c1", rfl⟩, ?_⟩
    have hmem : RemediationFactType.proposalRecorded ∈ ((step .constant (samplePorts false)
        sampleStart (.propose (sampleIdentity "x") (samplePlan someone) "c1")).2.facts (samplePlan someone).key).map
          (·.factType) := by
      rw [hfacts]
      exact List.mem_cons_self
    obtain ⟨fact, hfact, htype⟩ := List.mem_map.mp hmem
    exact ⟨fact, hfact, List.not_mem_nil, htype⟩
  obtain ⟨a, ha, hplan⟩ := Option.map_eq_some_iff.mp happroval
  have hgrant : (ApprovalDisposition.grant, actorRef .constant (sampleIdentity "x")) ∈
      ((run .constant (samplePorts false) sampleStart (sampleApproval (samplePlan someone) "x")).decisions
        ("t", (approvalIdOf .constant (samplePlan someone)).val)).map
          (fun d => (d.disposition, d.approverRef)) := by
    rw [hdecisions]
    exact List.mem_cons_self
  obtain ⟨d, hd, hpair⟩ := List.mem_map.mp hgrant
  obtain ⟨hdisposition, href⟩ := Prod.mk.inj hpair
  exact (hduties _ List.mem_cons_self _ _ hrecords).1 _ a ha hplan d hd hdisposition href

end Remediation

end Aegis
