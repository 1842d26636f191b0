/-
  AT MOST ONE EXTERNAL INVOCATION PER OPERATION.

  `INVOCATION_REQUESTED` carries version 1, so it is recorded only for an operation that has no
  projection -- and a known command never passes with it, for a projection has version 1 at least.  So at
  most one call ever comes past it: the OWNER of the operation.  `INVOCATION_CLAIMED` carries version 2:
  it passes only right after, when the one fact is the request, whose command is another.

  The invariant: at most one call in progress owns an operation, an owner has not called the peer yet,
  and whoever has called it had both facts accepted.
-/
import Mathlib
import Aegis.Interop.Phases

namespace Aegis

namespace Interop

open Threads

variable {sha : Sha256} {texts : Texts} {ports : Ports}

/-! ## Statements -/

/-- The step calls the peer for an operation. -/
def invokes (op : String) (e : GatewayEvent) : Bool :=
  match e.call, e.label with
  | .invoke a, .transportInvoke _ _ => a.operationId = op
  | _, _ => false

/-- How often the peer has been called for an operation. -/
def invocations (op : String) (h : List GatewayEvent) : Nat := h.countP (invokes op)

theorem invocations_concat (op : String) (h : List GatewayEvent) (e : GatewayEvent) :
    invocations op (h ++ [e]) = invocations op h + if invokes op e = true then 1 else 0 := by
  unfold invocations
  rw [List.countP_append, List.countP_singleton]

theorem invocations_other {op : String} {h : List GatewayEvent} {e : GatewayEvent}
    (hother : invokes op e = false) : invocations op (h ++ [e]) = invocations op h := by
  rw [invocations_concat, hother]
  rfl

/-- A fact of this type is recorded for the operation, by this step. -/
def Accepts (factType : InteroperabilityFactType) (op : String) (e : GatewayEvent) : Prop :=
  ∃ c fact, e.label = .append c ∧ c.operationId = op ∧ c.factType = factType ∧
    e.before.commands c.commandRef = none ∧ e.after.facts op = e.before.facts op ++ [fact] ∧
    fact.factType = factType ∧ fact.commandRef.val = c.commandRef

/-- The request of an operation, and then its claim, have been accepted of this call. -/
def Admitted (h : List GatewayEvent) (i : Nat) (call : GatewayCall) (op : String) : Prop :=
  ∃ pre request mid claim post, h = pre ++ request :: mid ++ claim :: post ∧
    request.thread = i ∧ request.call = call ∧ Accepts .invocationRequested op request ∧
    claim.thread = i ∧ claim.call = call ∧ Accepts .invocationClaimed op claim

/-- The request alone. -/
def RequestAccepted (h : List GatewayEvent) (i : Nat) (call : GatewayCall) (op : String) : Prop :=
  ∃ request ∈ h, request.thread = i ∧ request.call = call ∧ Accepts .invocationRequested op request

/-! ## Owners -/

/-- The call is past the request and has not called the peer. -/
def Phase.Owns (op : String) : Phase → Prop
  | .requested a _ _ => a.operationId = op
  | .claimed a _ _ => a.operationId = op
  | _ => False

/-- What an owner has behind it. -/
def Phase.Behind (h : List GatewayEvent) (s : State) (i : Nat) (call : GatewayCall) : Phase → Prop
  | .requested a _ _ => RequestAccepted h i call a.operationId ∧
    ∃ fact, (s.facts a.operationId).head? = some fact ∧ fact.commandRef.val = a.commandRef
  | .claimed a _ _ => Admitted h i call a.operationId
  | _ => True

structure Owned (h : List GatewayEvent) (s : State) (phases : Nat → Option (GatewayCall × Phase)) :
    Prop where
  versioned : Versioned s
  caller : ∀ i call φ, phases i = some (call, φ) → φ.Of call
  unique : ∀ op i j ci cj φi φj, phases i = some (ci, φi) → phases j = some (cj, φj) →
    φi.Owns op → φj.Owns op → i = j
  begun : ∀ op i call φ, phases i = some (call, φ) → φ.Owns op →
    s.projections op ≠ none ∧ invocations op h = 0
  idle : ∀ op, s.projections op = none → invocations op h = 0
  once : ∀ op, invocations op h ≤ 1
  behind : ∀ i call φ, phases i = some (call, φ) → φ.Behind h s i call
  admitted : ∀ op pre e post, h = pre ++ e :: post → invokes op e = true →
    Admitted pre e.thread e.call op

theorem Admitted.mono {h more : List GatewayEvent} {i : Nat} {call : GatewayCall} {op : String}
    (hadmitted : Admitted h i call op) : Admitted (h ++ more) i call op := by
  obtain ⟨pre, request, mid, claim, post, rfl, hrest⟩ := hadmitted
  refine ⟨pre, request, mid, claim, post ++ more, ?_, hrest⟩
  simp only [List.append_assoc, List.cons_append]

theorem RequestAccepted.mono {h more : List GatewayEvent} {i : Nat} {call : GatewayCall} {op : String}
    (haccepted : RequestAccepted h i call op) : RequestAccepted (h ++ more) i call op := by
  obtain ⟨request, hmem, hrest⟩ := haccepted
  exact ⟨request, List.mem_append_left _ hmem, hrest⟩

theorem Phase.Behind.mono {h : List GatewayEvent} {s s' : State} {i : Nat} {call : GatewayCall}
    {φ : Phase} (hφ : φ.Behind h s i call) (hfacts : ∀ op, s.facts op <+: s'.facts op)
    (e : GatewayEvent) : φ.Behind (h ++ [e]) s' i call := by
  cases φ with
  | requested a peer p =>
    obtain ⟨haccepted, fact, hhead, hcommand⟩ := hφ
    show RequestAccepted _ i call a.operationId ∧ ∃ fact, (s'.facts a.operationId).head? = some fact ∧
      fact.commandRef.val = a.commandRef
    refine ⟨haccepted.mono, fact, ?_, hcommand⟩
    obtain ⟨more, hmore⟩ := hfacts a.operationId
    rw [← hmore, List.head?_append, hhead]
    rfl
  | claimed a peer p => exact Admitted.mono hφ
  | free => exact trivial
  | authorised => exact trivial
  | answered => exact trivial
  | settled => exact trivial
  | holding => exact trivial
  | observed => exact trivial
  | reading => exact trivial
  | reconciled => exact trivial
  | closing => exact trivial

/-- Whether a step calls the peer to invoke something. -/
def GatewayStep.callsPeer : GatewayStep → Bool
  | .transportInvoke _ _ => true
  | _ => false

theorem invokes_quiet {op : String} {i : Nat} {call : GatewayCall} {label : GatewayStep} {s s' : State}
    (hlabel : label.callsPeer = false) : invokes op ⟨i, call, label, s, s'⟩ = false := by
  cases label with
  | transportInvoke peer task => cases hlabel
  | _ =>
    unfold invokes
    cases call <;> rfl

theorem invokes_append {op : String} {i : Nat} {call : GatewayCall} {c : AppendCall} {s s' : State} :
    invokes op ⟨i, call, .append c, s, s'⟩ = false := invokes_quiet rfl

section Steps

variable {h : List GatewayEvent} {s s' : State} {phases : Nat → Option (GatewayCall × Phase)}
  {i : Nat} {call : GatewayCall} {φ φ' : Phase} {label : GatewayStep}

/-- A step that neither calls the peer nor makes an owner. -/
theorem Owned.other (hJ : Owned h s phases) (hi : phases i = some (call, φ))
    (hstep : Advance sha texts ports φ label s s' φ') (hquiet : ∀ op, invokes op ⟨i, call, label, s, s'⟩ = false)
    (howns : ∀ op, φ'.Owns op → φ.Owns op)
    (hbehind : φ'.Behind (h ++ [⟨i, call, label, s, s'⟩]) s' i call) :
    Owned (h ++ [⟨i, call, label, s, s'⟩]) s' (Function.update phases i (some (call, φ'))) := by
  have hcount : ∀ op, invocations op (h ++ [⟨i, call, label, s, s'⟩]) = invocations op h :=
    fun op => invocations_other (hquiet op)
  have hgrows := fun op => hstep.grows op
  -- whoever owns an operation afterwards owned it before
  have hback : ∀ op j cj φj, Function.update phases i (some (call, φ')) j = some (cj, φj) →
      φj.Owns op → ∃ φ, phases j = some (cj, φ) ∧ φ.Owns op := by
    intro op j cj φj hj hown
    rw [Function.update_apply] at hj
    split at hj
    · rename_i hji
      cases hj
      exact ⟨φ, hji ▸ hi, howns op hown⟩
    · exact ⟨φj, hj, hown⟩
  constructor
  · exact hJ.versioned.step hstep
  · intro j cj φj hj
    rw [Function.update_apply] at hj
    split at hj
    · cases hj
      exact hstep.of (hJ.caller i call φ hi)
    · exact hJ.caller j cj φj hj
  · intro op j k cj ck φj φk hj hk hjo hko
    obtain ⟨φj', hj', hjo'⟩ := hback op j cj φj hj hjo
    obtain ⟨φk', hk', hko'⟩ := hback op k ck φk hk hko
    exact hJ.unique op j k cj ck φj' φk' hj' hk' hjo' hko'
  · intro op j cj φj hj hown
    obtain ⟨φo, ho, hown'⟩ := hback op j cj φj hj hown
    have hbegun := hJ.begun op j cj φo ho hown'
    rw [hcount]
    exact ⟨(hgrows op).2 hbegun.1, hbegun.2⟩
  · intro op hnone
    rw [hcount]
    refine hJ.idle op ?_
    by_contra hsome
    exact (hgrows op).2 hsome hnone
  · intro op
    rw [hcount]
    exact hJ.once op
  · intro j cj φj hj
    rw [Function.update_apply] at hj
    split at hj
    · rename_i hji
      cases hj
      rw [hji]
      exact hbehind
    · exact (hJ.behind j cj φj hj).mono (fun op => (hgrows op).1) _
  · intro op pre e post hsplit hinvokes
    rcases append_split hsplit with ⟨-, rfl⟩ | ⟨post', hold⟩
    · rw [hquiet op] at hinvokes
      cases hinvokes
    · exact hJ.admitted op pre e post' hold hinvokes

/-- The request of an operation goes through: the call owns it from now on. -/
theorem Owned.request (hJ : Owned h s phases) {a : InvokeCall} {peer : TrustEntry}
    (hi : phases i = some (call, .authorised a peer)) {task : TaskContract} {p : InvocationProjection}
    {fact : InteroperabilityFact} (hversion : p.version = 1)
    (hrecorded : Recorded sha texts s (a.requestedCall task p) p fact s')
    (hstep : Advance sha texts ports (.authorised a peer) (.append (a.requestedCall task p)) s s'
      (.requested a peer p)) :
    Owned (h ++ [⟨i, call, .append (a.requestedCall task p), s, s'⟩]) s'
      (Function.update phases i (some (call, .requested a peer p))) := by
  have hnone : s.projections a.operationId = none :=
    hJ.versioned.first (hrecorded.version.symm.trans hversion)
  have hcall : call = .invoke a := hJ.caller i call _ hi
  obtain ⟨htype, hcommand, -⟩ := buildFact_fields hrecorded.built
  have hfacts : s'.facts a.operationId = s.facts a.operationId ++ [fact] := by
    exact (hrecorded.facts a.operationId).trans (if_pos rfl)
  have hnil : s.facts a.operationId = [] := by
    have hlength := (hJ.versioned a.operationId).1
    rw [hnone, Option.elim_none] at hlength
    exact List.length_eq_zero_iff.mp hlength
  -- nobody owned the operation: it had no projection
  have hfree : ∀ j cj φj, phases j = some (cj, φj) → ¬φj.Owns a.operationId := by
    intro j cj φj hj hown
    exact (hJ.begun _ j cj φj hj hown).1 hnone
  have hcount : ∀ op, invocations op (h ++ [⟨i, call, .append (a.requestedCall task p), s, s'⟩]) =
      invocations op h := fun op => invocations_other invokes_append
  constructor
  · exact hJ.versioned.step hstep
  · intro j cj φj hj
    rw [Function.update_apply] at hj
    split at hj
    · cases hj
      exact hcall
    · exact hJ.caller j cj φj hj
  · intro op j k cj ck φj φk hj hk hjo hko
    rw [Function.update_apply] at hj hk
    split at hj
    · rename_i hji
      cases hj
      split at hk
      · rename_i hki
        rw [hji, hki]
      · cases hjo
        exact absurd hko (hfree k ck φk hk)
    · split at hk
      · cases hk
        cases hko
        exact absurd hjo (hfree j cj φj hj)
      · exact hJ.unique op j k cj ck φj φk hj hk hjo hko
  · intro op j cj φj hj hown
    rw [hcount]
    rw [Function.update_apply] at hj
    split at hj
    · cases hj
      cases hown
      refine ⟨?_, hJ.idle _ hnone⟩
      rw [hrecorded.projections]
      exact fun hno => Option.some_ne_none p ((if_pos rfl).symm.trans hno)
    · have hbegun := hJ.begun op j cj φj hj hown
      exact ⟨(hstep.grows op).2 hbegun.1, hbegun.2⟩
  · intro op hop
    rw [hcount]
    refine hJ.idle op ?_
    by_contra hsome
    exact (hstep.grows op).2 hsome hop
  · intro op
    rw [hcount]
    exact hJ.once op
  · intro j cj φj hj
    rw [Function.update_apply] at hj
    split at hj
    · rename_i hji
      cases hj
      show RequestAccepted _ j call a.operationId ∧ ∃ fact, (s'.facts a.operationId).head? = some fact ∧
        fact.commandRef.val = a.commandRef
      refine ⟨⟨_, List.mem_append_right _ (List.mem_singleton.mpr rfl), hji.symm, rfl, _, fact,
        rfl, rfl, rfl, hrecorded.new, hfacts, htype, hcommand⟩, fact, ?_, hcommand⟩
      rw [hfacts, hnil]
      rfl
    · exact (hJ.behind j cj φj hj).mono (fun op => (hstep.grows op).1) _
  · intro op pre e post hsplit hinvokes
    rcases append_split hsplit with ⟨-, rfl⟩ | ⟨post', hold⟩
    · rw [invokes_append] at hinvokes
      cases hinvokes
    · exact hJ.admitted op pre e post' hold hinvokes

/-- A known command does not pass for a claim: its one fact is the request, under another command. -/
theorem Owned.claim_new (hJ : Owned h s phases) {a : InvokeCall} {peer : TrustEntry}
    {p : InvocationProjection} (hi : phases i = some (call, .requested a peer p))
    {fact : InteroperabilityFact} (hmem : fact ∈ s.facts a.operationId)
    (hcommand : fact.commandRef.val = a.commandRef ++ "-claim") {current : InvocationProjection}
    (hcurrent : s.projections a.operationId = some current) (hversion : current.version = 1) : False := by
  obtain ⟨-, first, hhead, hfirst⟩ := hJ.behind i call _ hi
  have hlength := (hJ.versioned a.operationId).1
  rw [hcurrent, Option.elim_some, hversion] at hlength
  obtain ⟨only, honly⟩ := List.length_eq_one_iff.mp hlength
  rw [honly] at hmem hhead
  rw [List.mem_singleton.mp hmem, Option.some.inj hhead, hfirst] at hcommand
  have hlong := congrArg String.length hcommand
  rw [String.length_append] at hlong
  have hclaim : "-claim".length = 6 := by decide
  omega

/-- The claim of the owner goes through. -/
theorem Owned.claim (hJ : Owned h s phases) {a : InvokeCall} {peer : TrustEntry}
    {p claimed : InvocationProjection} (hi : phases i = some (call, .requested a peer p))
    {fact : InteroperabilityFact}
    (hrecorded : Recorded sha texts s (a.claimedCall claimed) claimed fact s')
    (hstep : Advance sha texts ports (.requested a peer p) (.append (a.claimedCall claimed)) s s'
      (.claimed a peer claimed)) :
    Owned (h ++ [⟨i, call, .append (a.claimedCall claimed), s, s'⟩]) s'
      (Function.update phases i (some (call, .claimed a peer claimed))) := by
  have hcall : call = .invoke a := hJ.caller i call _ hi
  obtain ⟨htype, hcommand, -⟩ := buildFact_fields hrecorded.built
  have hfacts : s'.facts a.operationId = s.facts a.operationId ++ [fact] := by
    exact (hrecorded.facts a.operationId).trans (if_pos rfl)
  refine hJ.other hi hstep (fun _ => invokes_append) (fun _ hown => hown) ?_
  obtain ⟨request, hmem, hthread, hsame, haccepts⟩ := (hJ.behind i call _ hi).1
  obtain ⟨pre, mid, hsplit⟩ := List.append_of_mem hmem
  exact ⟨pre, request, mid, _, [], by rw [hsplit, List.append_assoc], hthread, hsame, haccepts,
    rfl, rfl, _, fact, rfl, rfl, rfl, hrecorded.new, hfacts, htype, hcommand⟩

/-- The owner calls the peer, and owns the operation no longer. -/
theorem Owned.called (hJ : Owned h s phases) {a : InvokeCall} {peer : TrustEntry}
    {p : InvocationProjection} (hi : phases i = some (call, .claimed a peer p)) {task : TaskContract}
    {answer : Except Failure PeerResult}
    (hstep : Advance sha texts ports (.claimed a peer p) (.transportInvoke peer task) s s'
      (.answered a peer p task answer)) :
    Owned (h ++ [⟨i, call, .transportInvoke peer task, s, s'⟩]) s'
      (Function.update phases i (some (call, .answered a peer p task answer))) := by
  have hcall : call = .invoke a := hJ.caller i call _ hi
  subst hcall
  obtain ⟨hbegun, hzero⟩ := hJ.begun a.operationId i _ _ hi rfl
  have hcount : ∀ op, invocations op (h ++ [⟨i, .invoke a, .transportInvoke peer task, s, s'⟩]) =
      invocations op h + if a.operationId = op then 1 else 0 := by
    intro op
    rw [invocations_concat]
    exact congrArg _ (if_congr decide_eq_true_iff rfl rfl)
  -- the other owners own other operations
  have hback : ∀ op j cj φj, Function.update phases i
      (some (.invoke a, Phase.answered a peer p task answer)) j = some (cj, φj) → φj.Owns op →
      phases j = some (cj, φj) ∧ a.operationId ≠ op := by
    intro op j cj φj hj hown
    rw [Function.update_apply] at hj
    split at hj
    · cases hj
      exact hown.elim
    · rename_i hji
      refine ⟨hj, fun hop => hji ?_⟩
      exact hJ.unique op j i _ _ _ _ hj hi hown hop
  constructor
  · exact hJ.versioned.step hstep
  · intro j cj φj hj
    rw [Function.update_apply] at hj
    split at hj
    · cases hj
      exact rfl
    · exact hJ.caller j cj φj hj
  · intro op j k cj ck φj φk hj hk hjo hko
    exact hJ.unique op j k cj ck φj φk (hback op j cj φj hj hjo).1 (hback op k ck φk hk hko).1 hjo hko
  · intro op j cj φj hj hown
    obtain ⟨hj', hop⟩ := hback op j cj φj hj hown
    have hold := hJ.begun op j cj φj hj' hown
    rw [hcount, if_neg hop, hold.2]
    exact ⟨(hstep.grows op).2 hold.1, rfl⟩
  · intro op hnone
    have hold : s.projections op = none := by
      by_contra hsome
      exact (hstep.grows op).2 hsome hnone
    rw [hcount, hJ.idle op hold, if_neg fun hop : a.operationId = op => hbegun (hop ▸ hold)]
  · intro op
    rw [hcount]
    split
    · rename_i hop
      rw [← hop, hzero]
    · exact hJ.once op
  · intro j cj φj hj
    rw [Function.update_apply] at hj
    split at hj
    · cases hj
      exact trivial
    · exact (hJ.behind j cj φj hj).mono (fun op => (hstep.grows op).1) _
  · intro op pre e post hsplit hinvokes
    rcases append_split hsplit with ⟨rfl, rfl⟩ | ⟨post', hold⟩
    · have hop : a.operationId = op := of_decide_eq_true hinvokes
      rw [← hop]
      exact hJ.behind i _ _ hi
    · exact hJ.admitted op pre e post' hold hinvokes

end Steps

/-! ## Every interleaving -/

/-- A phase that owns nothing has nothing behind it. -/
theorem Phase.behind_of_idle {h : List GatewayEvent} {s : State} {i : Nat} {call : GatewayCall}
    {φ : Phase} (hidle : ∀ op, ¬φ.Owns op) : φ.Behind h s i call := by
  cases φ with
  | requested a peer p => exact absurd rfl (hidle a.operationId)
  | claimed a peer p => exact absurd rfl (hidle a.operationId)
  | free => exact trivial
  | authorised => exact trivial
  | answered => exact trivial
  | settled => exact trivial
  | holding => exact trivial
  | observed => exact trivial
  | reading => exact trivial
  | reconciled => exact trivial
  | closing => exact trivial

theorem Owned.start {h : List GatewayEvent} {s : State} {phases : Nat → Option (GatewayCall × Phase)}
    {i : Nat} (hJ : Owned h s phases) {entry : Option (GatewayCall × Phase)}
    (hentry : ∀ call φ, entry = some (call, φ) → φ.Of call ∧ ∀ op, ¬φ.Owns op) :
    Owned h s (Function.update phases i entry) := by
  have hback : ∀ op j cj φj, Function.update phases i entry j = some (cj, φj) → φj.Owns op →
      phases j = some (cj, φj) := by
    intro op j cj φj hj hown
    rw [Function.update_apply] at hj
    split at hj
    · exact absurd hown ((hentry cj φj hj).2 op)
    · exact hj
  constructor
  · exact hJ.versioned
  · intro j cj φj hj
    rw [Function.update_apply] at hj
    split at hj
    · exact (hentry cj φj hj).1
    · exact hJ.caller j cj φj hj
  · intro op j k cj ck φj φk hj hk hjo hko
    exact hJ.unique op j k cj ck φj φk (hback op j cj φj hj hjo) (hback op k ck φk hk hko) hjo hko
  · intro op j cj φj hj hown
    exact hJ.begun op j cj φj (hback op j cj φj hj hown) hown
  · exact hJ.idle
  · exact hJ.once
  · intro j cj φj hj
    rw [Function.update_apply] at hj
    split at hj
    · exact Phase.behind_of_idle (hentry cj φj hj).2
    · exact hJ.behind j cj φj hj
  · exact hJ.admitted

/-- One step keeps the ownership in order. -/
theorem Owned.step {h : List GatewayEvent} {s s' : State}
    {phases : Nat → Option (GatewayCall × Phase)} {i : Nat} {call : GatewayCall} {φ φ' : Phase}
    {label : GatewayStep} (hJ : Owned h s phases) (hi : phases i = some (call, φ))
    (hstep : Advance sha texts ports φ label s s' φ') :
    Owned (h ++ [⟨i, call, label, s, s'⟩]) s' (Function.update phases i (some (call, φ'))) := by
  -- a step after which the call owns nothing, and which does not call the peer
  have hidle : label.callsPeer = false → (∀ op, ¬φ'.Owns op) →
      Owned (h ++ [⟨i, call, label, s, s'⟩]) s' (Function.update phases i (some (call, φ'))) :=
    fun hquiet hno => hJ.other hi hstep (fun _ => invokes_quiet hquiet)
      (fun op hown => absurd hown (hno op)) (Phase.behind_of_idle hno)
  have hall := hstep
  cases hstep with
  | plain hlabel hsame =>
    refine hJ.other hi hall (fun _ => invokes_quiet ?_) (fun _ hown => hown)
      ((hJ.behind i call φ hi).mono (fun op => (hall.grows op).1) _)
    cases label with
    | transportInvoke peer task => cases hlabel
    | _ => rfl
  | authorise a peer hlabel hsame => exact hidle (by rw [hlabel]; rfl) fun _ hno => hno
  | hold operationId p hof hfree hread => exact hidle rfl fun _ hno => hno
  | read a p hread => exact hidle rfl fun _ hno => hno
  | request a peer task p r hstate hversion hpeer hfence hoperation hrun =>
    rcases append_cases rfl hrun with ⟨e, rfl, rfl⟩ | ⟨fact, current, -, -, -, -, hcurrent, hnext⟩ |
      ⟨fact, rfl, hrecorded⟩
    · exact hidle rfl fun _ hno => hno
    · -- a known command would have to find version 0
      have hpos := (hJ.versioned _).2 current hcurrent
      omega
    · exact hJ.request hi hversion hrecorded hall
  | claim a peer p now r hrun =>
    rcases append_cases rfl hrun with ⟨e, rfl, rfl⟩ | ⟨fact, current, -, -, hmem, hcommand, hcurrent, hnext⟩ |
      ⟨fact, rfl, hrecorded⟩
    · exact hidle rfl fun _ hno => hno
    · refine (hJ.claim_new hi hmem hcommand hcurrent ?_).elim
      have htwo : (p.claim now).version = 2 := rfl
      omega
    · exact hJ.claim hi hrecorded hall
  | call a peer p task htask hsame => exact hJ.called hi hall
  | conclude a peer p task answer c r hc hrun =>
    refine hidle rfl ?_
    cases r with
    | ok fact => exact fun _ hno => hno
    | error e => exact fun _ hno => hno
  | cancelRequest a p now r hopen hrun => exact hidle rfl fun _ hno => hno
  | cancelled a p status now r hrun => exact hidle rfl fun _ hno => hno
  | observe a p peer task result hanswer hsame => exact hidle rfl fun _ hno => hno
  | unobserved a p peer task hsame => exact hidle rfl fun _ hno => hno
  | reconcile a p result d now r hopen hconclusive hrun =>
    refine hidle rfl ?_
    cases r with
    | ok fact => exact fun _ hno => hno
    | error e => exact fun _ hno => hno

theorem owned_kept : Chronicled (Advance sha texts ports) Phase.free (fun _ => True)
    (fun _ _ => True) Owned where
  start := by
    intro h s phases i call _ hJ _
    refine hJ.start fun call' φ hentry => ?_
    cases hentry
    exact ⟨rfl, fun _ hno => hno⟩
  turn := fun h s phases i call φ label s' φ' hJ hi hstep _ => hJ.step hi hstep
  crash := by
    intro h s phases i _ hJ
    exact hJ.start fun call φ hentry => by cases hentry

theorem owned_init : Owned [] State.init fun _ => none where
  versioned := versioned_init
  caller := fun _ _ _ hno => absurd hno.symm (Option.some_ne_none _)
  unique := fun _ _ _ _ _ _ _ hno => absurd hno.symm (Option.some_ne_none _)
  begun := fun _ _ _ _ hno => absurd hno.symm (Option.some_ne_none _)
  idle := fun _ _ => rfl
  once := fun _ => Nat.zero_le 1
  behind := fun _ _ _ hno => absurd hno.symm (Option.some_ne_none _)
  admitted := fun _ pre _ _ hsplit _ => absurd hsplit.symm (by simp)

/-- The ownership is in order after every interleaving. -/
theorem owned_run (moves : List (Move GatewayCall)) :
    ∃ phases, Phased (Advance sha texts ports) (Ends sha texts) (gatewayRun sha texts ports moves) phases ∧
      Owned (gatewayEvents sha texts ports moves) (gatewayRun sha texts ports moves).shared phases :=
  owned_kept.run follows_program moves (phased_start State.init) owned_init (fun _ _ => trivial)
    fun _ _ _ _ => trivial

/-- **At most one external invocation per operation, and only of a call whose request and claim were
    accepted**: in every interleaving of the calls. -/
theorem invoked_at_most_once (sha : Sha256) (texts : Texts) (ports : Ports)
    (moves : List (Move GatewayCall)) (op : String) :
    invocations op (gatewayEvents sha texts ports moves) ≤ 1 ∧
      ∀ pre e post, gatewayEvents sha texts ports moves = pre ++ e :: post → invokes op e = true →
        Admitted pre e.thread e.call op := by
  obtain ⟨phases, -, hJ⟩ := @owned_run sha texts ports moves
  exact ⟨hJ.once op, hJ.admitted op⟩

end Interop

end Aegis
