/-
  AT MOST ONE EXECUTION PER ATTEMPT, and what it rests on.

  A call of `execute` reaches the provider only through its claim.  The claim token is a hash of worker,
  attempt and fence, so a SECOND call with the same operation, actor and attempt finds a claim under its
  own token and goes on as if it had made it.  That is the one way to a second execution: in every
  interleaving in which no call meets a claim that is `Held` under its own token, no attempt is executed
  twice (`executions_le_one`).

  Phases of a call: it is FREE until it is granted the claim, it HOLDS one attempt of one operation then,
  and it is SPENT once it has reached the provider.  The invariant: an attempt that is held has not been
  executed, no two calls hold the same one, and no attempt beyond that of the claim exists at all.
-/
import Mathlib
import Aegis.Remediation.Quorum
import Aegis.Remediation.Atomic
import Aegis.Remediation.Claims

namespace Aegis

namespace Remediation

open Threads
open Steps (atom)
open Atomic (PortCall Program)

variable {sha : Sha256} {ports : Ports}

/-! ## The system -/

/-- A call of `execute`. -/
structure ExecuteCall where
  identity : IdentityContext
  request : EffectRequest

abbrev ExecutePool := Pool ExecuteCall PortCall Error State ActionReceipt

abbrev ExecuteEvent := Threads.Event ExecuteCall PortCall State

def ExecuteCall.program (sha : Sha256) (ports : Ports) (c : ExecuteCall) : Program ActionReceipt :=
  Atomic.execute sha ports c.identity c.request

/-- The pool after an interleaving of calls that begins in `s`. -/
def executing (sha : Sha256) (ports : Ports) (s : State) (moves : List (Move ExecuteCall)) :
    ExecutePool :=
  (Pool.start s).run (ExecuteCall.program sha ports) moves

/-- The steps of an interleaving. -/
def executingEvents (sha : Sha256) (ports : Ports) (s : State) (moves : List (Move ExecuteCall)) :
    List ExecuteEvent :=
  (Pool.start s).events (ExecuteCall.program sha ports) moves

/-- The call asks the provider to execute this attempt. -/
def AdapterCall.executes (key : String × String) (attempt : Nat) : AdapterCall → Bool
  | .execute intent => intent.key = key && intent.attempt = attempt
  | _ => false

/-- How often an attempt of an operation has been executed. -/
def executions (key : String × String) (attempt : Nat) (s : State) : Nat :=
  s.calls.countP (AdapterCall.executes key attempt)

/-- A state before any effect: stores and ledger as they may be, no claim, no execution. -/
structure Unclaimed (s : State) : Prop where
  claims : ∀ key, s.claims key = none
  executions : ∀ key attempt, executions key attempt s = 0

/-- A claim is not made under a token that already holds the operation. -/
def ClaimsAnew (sha : Sha256) (e : ExecuteEvent) : Prop :=
  ∀ intent workerRef now claimUntil, e.label = .claim intent workerRef now claimUntil →
    ∀ c, e.before.claims intent.key = some c → ¬Held sha intent workerRef.val now c

/-! ## Phases -/

inductive Phase where
  | free
  | holds (key : String × String) (attempt : Nat)
  | spent

/-- What a step leaves alone: the claims and the executions. -/
structure Quiet (s s' : State) : Prop where
  claims : s'.claims = s.claims
  executions : ∀ key attempt, executions key attempt s' = executions key attempt s

/-- A claim that is granted: the attempt is above the one before, or the claim was held already. -/
inductive Granted (sha : Sha256) (s s' : State) (intent : ActionIntent) (workerRef : String)
    (now : Datetime) : Prop
  | anew (c : EffectClaim) (hattempt : c.attempt = intent.attempt)
    (habove : ∀ old, s.claims intent.key = some old → old.attempt < intent.attempt)
    (hclaims : s'.claims = Function.update s.claims intent.key (some c))
  | again (c : EffectClaim) (hc : s.claims intent.key = some c)
    (hheld : Held sha intent workerRef now c) (hsame : s' = s)

/-- What one step does, by the phase and the call it makes. -/
def executeStep (sha : Sha256) : Phase → PortCall → State → State → Phase → Prop
  | phase, .claim intent workerRef now _, s, s', phase' =>
    (∀ key attempt, executions key attempt s' = executions key attempt s) ∧
      ((phase' = phase ∧ s'.claims = s.claims) ∨ (phase = .free ∧
        phase' = .holds intent.key intent.attempt ∧ Granted sha s s' intent workerRef.val now))
  | phase, .adapter (.execute intent), s, s', phase' =>
    phase = .holds intent.key intent.attempt ∧ phase' = .spent ∧ s'.claims = s.claims ∧
      s'.calls = s.calls ++ [.execute intent]
  | phase, .complete _ _, s, s', phase' =>
    phase' = phase ∧ (∀ key attempt, executions key attempt s' = executions key attempt s) ∧
      ∀ key, (s'.claims key).map (·.attempt) = (s.claims key).map (·.attempt)
  | phase, _, s, s', phase' => phase' = phase ∧ Quiet s s'

theorem Frame.quiet {s s' : State} (h : Frame s s') : Quiet s s' :=
  ⟨h.claims, fun key attempt => by unfold executions; rw [h.calls]⟩

/-- A program of `execute`, on its way in a phase. -/
abbrev OnWay (sha : Sha256) {α : Type} (p : Program α) (phase : Phase) : Prop :=
  Follows (executeStep sha) (fun _ _ => True) p phase

/-- A part of it that ends in the phase it begins in. -/
abbrev Stays (sha : Sha256) {α : Type} (p : Program α) (phase : Phase) : Prop :=
  Follows (executeStep sha) (fun _ phase' => phase' = phase) p phase

section Rules

variable {α β : Type} {f : α → Program β} {phase : Phase} {last : Except Error β → Phase → Prop}
  (hlast : ∀ e, last (.error e) phase)

include hlast

/-- A step that leaves claims and executions alone. -/
theorem follows_framed {label : PortCall} {x : Action α}
    (hlabel : ∀ s s', Quiet s s' → executeStep sha phase label s s' phase)
    (hx : ∀ s, Framed x s) (hf : ∀ a, Follows (executeStep sha) last (f a) phase) :
    Follows (executeStep sha) last (atom label x >>= f) phase :=
  Follows.atom fun s => (hx s).mono (fun a _ h => ⟨phase, hlabel _ _ h.quiet, hf a⟩)
    (fun e _ h => ⟨phase, hlabel _ _ h.quiet, hlast e⟩)

theorem follows_clock {f : Datetime → Program β}
    (hf : ∀ time, Follows (executeStep sha) last (f time) phase) :
    Follows (executeStep sha) last (Atomic.clockNow ports >>= f) phase :=
  follows_framed hlast (fun _ _ h => ⟨rfl, h⟩) (fun _ => framed_now) hf

theorem follows_look (g : State → α) (hf : ∀ a, Follows (executeStep sha) last (f a) phase) :
    Follows (executeStep sha) last (Atomic.look g >>= f) phase :=
  follows_framed hlast (fun _ _ h => ⟨rfl, h⟩) (fun _ => framed_look g) hf

theorem follows_stays {p : Program α} (hp : Stays sha p phase)
    (hf : ∀ a, Follows (executeStep sha) last (f a) phase) :
    Follows (executeStep sha) last (p >>= f) phase :=
  Follows.bind hp (fun e _ h => h ▸ hlast e) (fun a _ h => h ▸ hf a)

end Rules

/-! ## The parts of `execute` -/

section Parts

variable {phase : Phase} {identity : IdentityContext} {scope : EffectScope}

theorem stays_appendNow {plan : RemediationPlan} {expectedVersion : Int}
    {factType : RemediationFactType} {commandId : String} {actor : Identifier} {payload : Fields} :
    Stays sha (Atomic.appendNow sha ports plan expectedVersion factType commandId actor payload)
      phase := by
  refine follows_clock (fun _ => rfl) fun time => ?_
  exact follows_atom fun s => framed_append.mono (fun _ _ h => ⟨phase, ⟨rfl, h.quiet⟩, rfl⟩)
    (fun _ _ h => ⟨phase, ⟨rfl, h.quiet⟩, rfl⟩)

theorem stays_requireActionPolicy {plan : RemediationPlan} {consumeQuota : Bool} :
    Stays sha (Atomic.requireActionPolicy ports plan consumeQuota) phase := by
  refine follows_look (fun _ => rfl) _ fun current => follows_clock (fun _ => rfl) fun time => ?_
  cases current with
  | none => exact rfl
  | some policy =>
    dsimp only
    cases refusal policy plan consumeQuota time with
    | none => exact rfl
    | some reason => exact rfl

theorem stays_scopeRecords {planId actionId : String} :
    Stays sha (Atomic.scopeRecords identity planId actionId) phase := by
  refine follows_look (fun _ => rfl) _ fun plan => follows_look (fun _ => rfl) _ fun projection => ?_
  cases plan with
  | none => exact rfl
  | some plan =>
    cases projection with
    | none => exact rfl
    | some projection =>
      dsimp only
      cases projection.approvalId with
      | none => exact rfl
      | some approvalId =>
        refine Follows.check (fun _ => rfl) fun _ => follows_look (fun _ => rfl) _ fun approval => ?_
        cases approval with
        | none => exact rfl
        | some approval =>
          refine follows_look (fun _ => rfl) _ fun policy => ?_
          cases policy with
          | none => exact rfl
          | some policy => exact rfl

theorem stays_checkScope {statuses : List RemediationStatus} :
    Stays sha (Atomic.checkScope sha ports identity scope statuses) phase := by
  refine Follows.check (fun _ => rfl) fun _ => follows_clock (fun _ => rfl) fun time => ?_
  refine Follows.check (fun _ => rfl) fun _ => follows_clock (fun _ => rfl) fun time' => ?_
  refine Follows.check (fun _ => rfl) fun _ => follows_look (fun _ => rfl) _ fun decisions => ?_
  refine Follows.check (fun _ => rfl) fun _ => Follows.check (fun _ => rfl) fun _ => ?_
  unfold Steps.require
  exact rfl

theorem stays_validatedScope {planId actionId : String} {statuses : List RemediationStatus} :
    Stays sha (Atomic.validatedScope sha ports identity planId actionId statuses) phase := by
  refine follows_framed (fun _ => rfl) (fun _ _ h => ⟨rfl, h⟩) (fun _ => framed_authorize) fun _ => ?_
  refine follows_stays (fun _ => rfl) stays_scopeRecords fun scope => ?_
  refine follows_stays (fun _ => rfl) stays_checkScope fun _ => ?_
  refine follows_stays (fun _ => rfl) stays_requireActionPolicy fun _ => ?_
  refine follows_clock (fun _ => rfl) fun _ => ?_
  refine follows_framed (fun _ => rfl) (fun _ _ h => ⟨rfl, h⟩) (fun _ => framed_reserve) fun quota => ?_
  exact Follows.check (fun _ => rfl) fun _ => rfl

/-- A call that holds an attempt may execute it, once. -/
theorem onWay_attemptEffect {intent : ActionIntent} :
    OnWay sha (Atomic.attemptEffect ports intent) (.holds intent.key intent.attempt) := by
  have hown : ∀ (outcome : EffectOutcome) (code : Identifier) (ref : Option Identifier),
      OnWay sha (Atomic.ownReceipt ports intent outcome code ref)
        (.holds intent.key intent.attempt) := fun _ _ _ =>
    follows_clock (fun _ => trivial) fun _ => trivial
  have hexecutions : ∀ (s : State) key attempt, executions key attempt
      { s with tick := s.tick + 1, calls := s.calls ++ [.observe intent] } =
        executions key attempt s := by
    intro s key attempt
    unfold executions
    rw [List.countP_append]
    rfl
  refine Follows.atom fun s => sat_callAdapter (fun before _ => ?_) (fun e _ => ?_)
  · refine ⟨_, ⟨rfl, rfl, hexecutions s⟩, ?_⟩
    split
    · exact hown _ _ _
    · split
      · exact hown _ _ _
      · split
        · exact hown _ _ _
        · refine follows_atom fun s => sat_callAdapter (fun receipt _ => ?_) (fun e _ => ?_)
          · exact ⟨.spent, ⟨rfl, rfl, rfl, rfl⟩, trivial⟩
          · exact ⟨.spent, ⟨rfl, rfl, rfl, rfl⟩, trivial⟩
  · exact ⟨_, ⟨rfl, rfl, hexecutions s⟩, trivial⟩

theorem setClaim_attempts {s : State} {key : String × String} {c : EffectClaim}
    (hc : s.claims key = some c) {c' : EffectClaim} (hattempt : c'.attempt = c.attempt) :
    ∀ key', ((s.setClaim key c').claims key').map (·.attempt) = (s.claims key').map (·.attempt) := by
  intro key'
  show (Function.update s.claims key (some c') key').map (·.attempt) = _
  by_cases hkey : key' = key
  · rw [hkey, Function.update_self, hc]
    exact congrArg some hattempt
  · rw [Function.update_of_ne hkey]

/-- Completing a claim leaves the attempts as they are. -/
theorem stays_completeIntent {claim : EffectClaimRecord} {receipt : ActionReceipt} :
    Stays sha (Atomic.completeIntent sha ports claim receipt) phase := by
  refine follows_clock (fun _ => rfl) fun _ => follows_atom fun s => ?_
  have hout := complete_outcome sha s receipt claim.claimToken
  unfold Exec.Sat
  generalize completeEffect sha receipt claim.claimToken s = result at hout ⊢
  cases hout with
  | recorded c hc htoken hattempt hopen =>
    exact ⟨phase, ⟨rfl, fun _ _ => rfl, setClaim_attempts hc rfl⟩, rfl⟩
  | repeated c hc r hr hsame => exact ⟨phase, ⟨rfl, fun _ _ => rfl, fun _ => rfl⟩, rfl⟩
  | refused e => exact ⟨phase, ⟨rfl, fun _ _ => rfl, fun _ => rfl⟩, rfl⟩

/-- The rest of `execute`, once the claim has answered. -/
theorem onWay_afterClaim {request : EffectRequest} {actor : Identifier} {intent : ActionIntent}
    {claim : EffectClaimRecord} {requested : RemediationProjection}
    (hclaim : claim.receipt = none → phase = .holds intent.key intent.attempt) :
    OnWay sha (do
      let (receipt, resultVersion) ← Atomic.executionReceipt sha ports scope request actor intent
        claim requested
      Atomic.recordExecution sha ports scope request actor receipt resultVersion) phase := by
  have hrecord : ∀ (receipt : ActionReceipt) (version : Nat) (phase' : Phase),
      OnWay sha (Atomic.recordExecution sha ports scope request actor receipt version) phase' := by
    intro receipt version phase'
    unfold Atomic.recordExecution
    split
    · trivial
    · refine follows_stays (fun _ => trivial) stays_appendNow fun _ => ?_
      exact Follows.check (fun _ => trivial) fun _ =>
        Follows.check (fun _ => trivial) fun _ => trivial
  have hreceipt : OnWay sha
      (Atomic.executionReceipt sha ports scope request actor intent claim requested) phase := by
    unfold Atomic.executionReceipt
    cases hopen : claim.receipt with
    | some receipt => trivial
    | none =>
      rw [hclaim hopen]
      refine follows_stays (fun _ => trivial) stays_appendNow fun started => ?_
      refine Follows.bind onWay_attemptEffect (fun _ _ _ => trivial) (fun receipt phase' _ => ?_)
      exact follows_stays (fun _ => trivial) stays_completeIntent fun _ => trivial
  exact Follows.bind hreceipt (fun _ _ _ => trivial) (fun a phase' _ => hrecord a.1 a.2 phase')

/-- A claim leaves a call free, or gives it the attempt. -/
theorem granted_claimIntent {intent : ActionIntent} {actor : Identifier} :
    Follows (executeStep sha) (fun r phase' => ∀ claim, r = .ok claim → claim.receipt = none →
        phase' = .holds intent.key intent.attempt)
      (Atomic.claimIntent sha ports intent actor) .free := by
  refine follows_clock (fun _ _ h => by cases h) fun now => follows_atom fun s => ?_
  have hout := claim_outcome sha s intent actor.val now
    (now.addSeconds intent.action.retry.attemptTimeoutSeconds)
  unfold Exec.Sat
  generalize claimEffect sha intent actor.val now
    (now.addSeconds intent.action.retry.attemptTimeoutSeconds) s = result at hout ⊢
  cases hout with
  | fresh hnone =>
    refine ⟨.holds intent.key intent.attempt, ⟨fun _ _ => rfl, .inr ⟨rfl, rfl, ?_⟩⟩, fun _ _ _ => rfl⟩
    refine .anew _ rfl (fun old hold => ?_) rfl
    rw [hnone] at hold
    cases hold
  | renewed c hc hbinding hopen hexpired hattempt =>
    refine ⟨.holds intent.key intent.attempt, ⟨fun _ _ => rfl, .inr ⟨rfl, rfl, ?_⟩⟩, fun _ _ _ => rfl⟩
    refine .anew _ rfl (fun old hold => ?_) rfl
    rw [hc] at hold
    rw [← Option.some.inj hold]
    exact hattempt
  | held c hc hbinding hheld =>
    exact ⟨.holds intent.key intent.attempt,
      ⟨fun _ _ => rfl, .inr ⟨rfl, rfl, .again c hc hheld rfl⟩⟩, fun _ _ _ => rfl⟩
  | settled c hc hbinding r hr =>
    refine ⟨.free, ⟨fun _ _ => rfl, .inl ⟨rfl, rfl⟩⟩, fun claim hclaim hnone => ?_⟩
    rw [← Except.ok.inj hclaim] at hnone
    have hnone' : c.receipt = none := hnone
    rw [hr] at hnone'
    cases hnone'
  | refused e =>
    exact ⟨.free, ⟨fun _ _ => rfl, .inl ⟨rfl, rfl⟩⟩, fun claim hclaim => by cases hclaim⟩

theorem stays_effectIntent {request : EffectRequest} {dryRun : Bool} :
    Stays sha (Atomic.effectIntent sha ports scope request dryRun) phase :=
  follows_clock (fun _ => rfl) fun _ => rfl

/-- **Every call of `execute` goes through these phases.** -/
theorem onWay_execute (c : ExecuteCall) : OnWay sha (c.program sha ports) .free := by
  refine follows_stays (fun _ => trivial) stays_validatedScope fun scope => ?_
  refine follows_stays (fun _ => trivial) stays_effectIntent fun intent => ?_
  refine follows_stays (fun _ => trivial) stays_appendNow fun requested => ?_
  refine Follows.bind granted_claimIntent (fun _ _ _ => trivial) (fun claim phase hclaim => ?_)
  exact onWay_afterClaim fun hopen => hclaim claim rfl hopen

end Parts

/-! ## The invariant -/

/-- The phase of a call. -/
def InPhase (phases : Nat → Option (ExecuteCall × Phase)) (i : Nat) (phase : Phase) : Prop :=
  ∃ call, phases i = some (call, phase)

/-- The attempts that exist are those of the claims. -/
def Attempted (s : State) (key : String × String) (attempt : Nat) : Prop :=
  ∃ c, s.claims key = some c ∧ attempt ≤ c.attempt

/-- What holds between two steps of an interleaving. -/
structure Exclusive (s : State) (phases : Nat → Option (ExecuteCall × Phase)) : Prop where
  executed : ∀ key attempt, executions key attempt s ≠ 0 → Attempted s key attempt
  once : ∀ key attempt, executions key attempt s ≤ 1
  held : ∀ i key attempt, InPhase phases i (.holds key attempt) →
    executions key attempt s = 0 ∧ Attempted s key attempt
  alone : ∀ i j key attempt, InPhase phases i (.holds key attempt) →
    InPhase phases j (.holds key attempt) → i = j

theorem InPhase.update {phases : Nat → Option (ExecuteCall × Phase)} {i j : Nat}
    {call : ExecuteCall} {phase' phase : Phase}
    (h : InPhase (Function.update phases i (some (call, phase'))) j phase) :
    (j = i ∧ phase' = phase) ∨ (j ≠ i ∧ InPhase phases j phase) := by
  obtain ⟨call', hcall⟩ := h
  by_cases hj : j = i
  · rw [hj, Function.update_self] at hcall
    obtain ⟨-, hphase⟩ := Prod.mk.inj (Option.some.inj hcall)
    exact .inl ⟨hj, hphase⟩
  · rw [Function.update_of_ne hj] at hcall
    exact .inr ⟨hj, call', hcall⟩

/-- A step that keeps its phase, the executions and the attempts. -/
theorem Exclusive.same {s s' : State} {phases : Nat → Option (ExecuteCall × Phase)}
    (h : Exclusive s phases) {i : Nat} {call : ExecuteCall} {phase : Phase}
    (hi : phases i = some (call, phase))
    (hexecutions : ∀ key attempt, executions key attempt s' = executions key attempt s)
    (hattempts : ∀ key, (s'.claims key).map (·.attempt) = (s.claims key).map (·.attempt)) :
    Exclusive s' (Function.update phases i (some (call, phase))) := by
  have hphases : Function.update phases i (some (call, phase)) = phases := by
    rw [← hi]
    exact Function.update_eq_self i phases
  have hattempted : ∀ {key attempt}, Attempted s key attempt → Attempted s' key attempt := by
    rintro key attempt ⟨c, hc, hle⟩
    have hmap := hattempts key
    rw [hc] at hmap
    obtain ⟨c', hc', hattempt⟩ := Option.map_eq_some_iff.mp hmap
    have hsame : c'.attempt = c.attempt := hattempt
    exact ⟨c', hc', by omega⟩
  rw [hphases]
  exact
    { executed := fun key attempt hne => hattempted (h.executed key attempt (by
        rwa [hexecutions] at hne))
      once := fun key attempt => by
        rw [hexecutions]
        exact h.once key attempt
      held := fun j key attempt hj => by
        rw [hexecutions]
        exact ⟨(h.held j key attempt hj).1, hattempted (h.held j key attempt hj).2⟩
      alone := h.alone }

/-- A claim granted anew: nobody holds the attempt, and nobody has executed it. -/
theorem Exclusive.granted {s s' : State} {phases : Nat → Option (ExecuteCall × Phase)}
    (h : Exclusive s phases) {i : Nat} {call : ExecuteCall} {intent : ActionIntent} {c : EffectClaim}
    (hattempt : c.attempt = intent.attempt)
    (habove : ∀ old, s.claims intent.key = some old → old.attempt < intent.attempt)
    (hclaims : s'.claims = Function.update s.claims intent.key (some c))
    (hexecutions : ∀ key attempt, executions key attempt s' = executions key attempt s) :
    Exclusive s' (Function.update phases i (some (call, .holds intent.key intent.attempt))) := by
  have hnew : ¬Attempted s intent.key intent.attempt := by
    rintro ⟨old, hold, hle⟩
    have hlt := habove old hold
    omega
  have hmine : Attempted s' intent.key intent.attempt :=
    ⟨c, by rw [hclaims, Function.update_self], by omega⟩
  have hattempted : ∀ {key attempt}, Attempted s key attempt → Attempted s' key attempt := by
    rintro key attempt ⟨old, hold, hle⟩
    by_cases hkey : key = intent.key
    · subst hkey
      have hlt := habove old hold
      exact ⟨c, by rw [hclaims, Function.update_self], by omega⟩
    · exact ⟨old, by rw [hclaims, Function.update_of_ne hkey]; exact hold, hle⟩
  constructor
  · intro key attempt hne
    rw [hexecutions] at hne
    exact hattempted (h.executed key attempt hne)
  · intro key attempt
    rw [hexecutions]
    exact h.once key attempt
  · intro j key attempt hj
    rw [hexecutions]
    rcases hj.update with ⟨-, hphase⟩ | ⟨-, hold⟩
    · obtain ⟨rfl, rfl⟩ := Phase.holds.inj hphase
      refine ⟨?_, hmine⟩
      by_contra hne
      exact hnew (h.executed _ _ hne)
    · exact ⟨(h.held j key attempt hold).1, hattempted (h.held j key attempt hold).2⟩
  · intro j k key attempt hj hk
    rcases hj.update with ⟨rfl, hphase⟩ | ⟨-, hold⟩
    · rcases hk.update with ⟨rfl, -⟩ | ⟨-, hold'⟩
      · rfl
      · obtain ⟨rfl, rfl⟩ := Phase.holds.inj hphase
        exact absurd (h.held k _ _ hold').2 hnew
    · rcases hk.update with ⟨rfl, hphase⟩ | ⟨-, hold'⟩
      · obtain ⟨rfl, rfl⟩ := Phase.holds.inj hphase
        exact absurd (h.held j _ _ hold).2 hnew
      · exact h.alone j k key attempt hold hold'

/-- An execution spends the attempt that the call holds. -/
theorem Exclusive.spent {s s' : State} {phases : Nat → Option (ExecuteCall × Phase)}
    (h : Exclusive s phases) {i : Nat} {call : ExecuteCall} {intent : ActionIntent}
    (hi : phases i = some (call, .holds intent.key intent.attempt))
    (hclaims : s'.claims = s.claims) (hcalls : s'.calls = s.calls ++ [.execute intent]) :
    Exclusive s' (Function.update phases i (some (call, .spent))) := by
  obtain ⟨hzero, hattempted⟩ := h.held i _ _ ⟨call, hi⟩
  have hcount : ∀ key attempt, executions key attempt s' = executions key attempt s +
      if intent.key = key ∧ intent.attempt = attempt then 1 else 0 := by
    intro key attempt
    unfold executions
    rw [hcalls, List.countP_append, List.countP_singleton]
    simp [AdapterCall.executes]
  have hsame : ∀ {key attempt}, Attempted s key attempt → Attempted s' key attempt := by
    rintro key attempt ⟨c, hc, hle⟩
    exact ⟨c, by rw [hclaims]; exact hc, hle⟩
  constructor
  · intro key attempt hne
    rw [hcount] at hne
    split at hne
    · rename_i hmine
      rw [← hmine.1, ← hmine.2]
      exact hsame hattempted
    · exact hsame (h.executed key attempt (by omega))
  · intro key attempt
    rw [hcount]
    split
    · rename_i hmine
      rw [← hmine.1, ← hmine.2, hzero]
    · exact h.once key attempt
  · intro j key attempt hj
    rcases hj.update with ⟨-, hphase⟩ | ⟨hne, hold⟩
    · cases hphase
    · obtain ⟨hnone, hold'⟩ := h.held j key attempt hold
      refine ⟨?_, hsame hold'⟩
      rw [hcount, hnone, if_neg]
      -- another call cannot hold the attempt that is executed
      rintro ⟨rfl, rfl⟩
      exact hne (h.alone j i _ _ hold ⟨call, hi⟩)
  · intro j k key attempt hj hk
    rcases hj.update with ⟨-, hphase⟩ | ⟨-, hold⟩
    · cases hphase
    · rcases hk.update with ⟨-, hphase⟩ | ⟨-, hold'⟩
      · cases hphase
      · exact h.alone j k key attempt hold hold'

/-- **What one step keeps**, if no claim is made under a token that holds it already. -/
theorem exclusive_kept :
    Kept (executeStep sha) (fun _ => .free) (fun _ => True) (ClaimsAnew sha) Exclusive where
  start := by
    intro s phases i call _ h hi
    have hfree : ∀ j key attempt, InPhase (Function.update phases i (some (call, .free))) j
        (.holds key attempt) → InPhase phases j (.holds key attempt) := by
      intro j key attempt hj
      rcases hj.update with ⟨-, hphase⟩ | ⟨-, hold⟩
      · cases hphase
      · exact hold
    exact ⟨h.executed, h.once, fun j key attempt hj => h.held j key attempt (hfree _ _ _ hj),
      fun j k key attempt hj hk => h.alone j k key attempt (hfree _ _ _ hj) (hfree _ _ _ hk)⟩
  turn := by
    intro s phases i call phase label s' phase' h hi hstep hgood
    have hquiet : ∀ {p : Phase}, phases i = some (call, p) → Quiet s s' →
        Exclusive s' (Function.update phases i (some (call, p))) := fun hp hq =>
      h.same hp hq.executions fun key => by rw [hq.claims]
    cases label
    case claim intent workerRef now claimUntil =>
      obtain ⟨hexecutions, ⟨rfl, hclaims⟩ | ⟨rfl, rfl, hgranted⟩⟩ := hstep
      · exact h.same hi hexecutions fun key => by rw [hclaims]
      · cases hgranted with
        | anew c hattempt habove hclaims => exact h.granted hattempt habove hclaims hexecutions
        | again c hc hheld hsame => exact absurd hheld (hgood intent workerRef now claimUntil rfl c hc)
    case complete receipt claimToken =>
      obtain ⟨rfl, hexecutions, hattempts⟩ := hstep
      exact h.same hi hexecutions hattempts
    case adapter call' =>
      cases call'
      case execute intent =>
        obtain ⟨rfl, rfl, hclaims, hcalls⟩ := hstep
        exact h.spent hi hclaims hcalls
      all_goals
        obtain ⟨rfl, hq⟩ := hstep
        exact hquiet hi hq
    all_goals
      obtain ⟨rfl, hq⟩ := hstep
      exact hquiet hi hq
  crash := by
    intro s phases i _ h
    have hgone : ∀ j key attempt, InPhase (Function.update phases i none) j (.holds key attempt) →
        InPhase phases j (.holds key attempt) := by
      rintro j key attempt ⟨call, hcall⟩
      by_cases hj : j = i
      · rw [hj, Function.update_self] at hcall
        cases hcall
      · rw [Function.update_of_ne hj] at hcall
        exact ⟨call, hcall⟩
    exact ⟨h.executed, h.once, fun j key attempt hj => h.held j key attempt (hgone _ _ _ hj),
      fun j k key attempt hj hk => h.alone j k key attempt (hgone _ _ _ hj) (hgone _ _ _ hk)⟩

/-- **At most one execution per attempt**, in every interleaving of calls of `execute`, with calls that
    stop anywhere, in which no call claims an operation that is held under its own token. -/
theorem executions_le_one (sha : Sha256) (ports : Ports) (s : State) (moves : List (Move ExecuteCall))
    (hstart : Unclaimed s) (hanew : ∀ e ∈ executingEvents sha ports s moves, ClaimsAnew sha e)
    (key : String × String) (attempt : Nat) :
    executions key attempt (executing sha ports s moves).shared ≤ 1 := by
  have hinit : Exclusive s fun _ => none := by
    refine ⟨fun key attempt hne => absurd (hstart.executions key attempt) hne, fun key attempt => ?_,
      ?_, ?_⟩
    · rw [hstart.executions]
      exact Nat.zero_le 1
    · rintro i key attempt ⟨call, hcall⟩
      cases hcall
    · rintro i j key attempt ⟨call, hcall⟩
      cases hcall
  obtain ⟨phases, -, h⟩ := exclusive_kept.run onWay_execute moves (phased_start s) hinit
    (fun _ _ => trivial) hanew
  exact h.once key attempt

/-! ## A worked case

Action `a` of the approved plan is preflighted, and two workers of the SAME actor are sent to execute the
same attempt of the same operation. -/

/-- The state after the preflight; no call of the case has claimed anything. -/
def preflighted : State :=
  { run .constant (samplePorts false) sampleStart sampleOps with claims := fun _ => none }

theorem preflighted_unclaimed : Unclaimed preflighted := by
  refine ⟨fun _ => rfl, fun key attempt => List.countP_eq_zero.mpr fun call hcall => ?_⟩
  have hnone : preflighted.calls.countP AdapterCall.isExecute = 0 := by decide +kernel
  have hnot := List.countP_eq_zero.mp hnone call hcall
  cases call with
  | execute intent => exact absurd rfl hnot
  | dryRun | observe | compensate => exact Bool.false_ne_true

def sampleCall : ExecuteCall := ⟨sampleIdentity "x", sampleRequest "a" "o2" 6⟩

/-- The call runs alone. -/
def aloneMoves : List (Move ExecuteCall) := .start 0 sampleCall :: List.replicate 40 (.turn 0)

/-- The first call stops before it reaches the provider; a second one runs to its end, and then the first
    goes on. -/
def twinMoves : List (Move ExecuteCall) :=
  [.start 0 sampleCall, .start 1 sampleCall] ++ List.replicate 22 (.turn 0) ++
    List.replicate 40 (.turn 1) ++ List.replicate 40 (.turn 0)

/-- The step claims an operation that has no claim. -/
def claimsFirst (e : ExecuteEvent) : Bool :=
  match e.label with
  | .claim intent _ _ _ => (e.before.claims intent.key).isNone
  | _ => true

theorem claimsAnew_of_first {sha : Sha256} {e : ExecuteEvent} (h : claimsFirst e = true) :
    ClaimsAnew sha e := by
  intro intent workerRef now claimUntil hlabel c hc
  unfold claimsFirst at h
  rw [hlabel] at h
  have hnone : e.before.claims intent.key = none := Option.isNone_iff_eq_none.mp h
  rw [hc] at hnone
  cases hnone

/-- The worked case: one call alone executes its attempt once. -/
theorem executions_le_one_sample :
    executions ("t", "o2") 1 (executing .constant (samplePorts false) preflighted aloneMoves).shared = 1
      ∧ ∀ key attempt, executions key attempt
        (executing .constant (samplePorts false) preflighted aloneMoves).shared ≤ 1 := by
  have hfirst : (executingEvents .constant (samplePorts false) preflighted aloneMoves).all
      claimsFirst = true := by decide +kernel
  exact ⟨by decide +kernel, executions_le_one .constant (samplePorts false) preflighted aloneMoves
    preflighted_unclaimed fun e he => claimsAnew_of_first (List.all_eq_true.mp hfirst e he)⟩

/-- **What the code allows.**  The second call finds an unexpired claim without a receipt; its token is
    its own, so it executes, and the first call executes again. -/
theorem executes_twice :
    ¬∀ (moves : List (Move ExecuteCall)) key attempt, executions key attempt
      (executing .constant (samplePorts false) preflighted moves).shared ≤ 1 := by
  intro h
  have htwice : executions ("t", "o2") 1
      (executing .constant (samplePorts false) preflighted twinMoves).shared = 2 := by decide +kernel
  have hone := h twinMoves ("t", "o2") 1
  omega

end Remediation

end Aegis
