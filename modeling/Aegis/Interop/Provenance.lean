/-
  THE PROVENANCE OF ARTIFACTS.

  What a peer returns is untrusted, and `_validate_result` is where it is checked.  `invoke` passes the
  peer's result through it; `reconcile` does not.  So every artifact that a call returns is lawful in
  every run in which the reconciliations the peer answers conclusively are answered lawfully
  (`artifacts_lawful`), and one unlawful answer of that kind comes out as it is.

  The law is about the peer entry and the capability that the operation was AUTHORISED for: those of the
  policy decision before its request was accepted.
-/
import Mathlib
import Aegis.Interop.Evaluation
import Aegis.Interop.Invocations

namespace Aegis

namespace Interop

open Threads

variable {sha : Sha256} {texts : Texts} {ports : Ports}

/-! ## The law -/

/-- The provenance law of `_validate_result`. -/
structure Lawful (sha : Sha256) (texts : Texts) (op : String) (peer : TrustEntry)
    (capability : CapabilityContract) (artifacts : List ArtifactContract) : Prop where
  count : artifacts.length ≤ 64
  task : ∀ a ∈ artifacts, a.taskId.val = "interop-task-" ++ op
  producer : ∀ a ∈ artifacts, a.producerPeerId = peer.peerId
  card : peer.protocol = .a2a → ∀ a ∈ artifacts, some a.cardDigest = peer.cardDigest
  capability : ∀ a ∈ artifacts, digestValue sha texts capability.modelDump = .ok a.capabilityDigest
  size : ∃ bodies : List String,
    List.Forall₂ (fun a text => canonicalDocument texts a.modelDump = .ok text) artifacts bodies ∧
      (bodies.map String.length).sum ≤ peer.maximumResponseBytes

/-- The operation was authorised for this peer and this capability, and requested then. -/
def Authorised (h : List GatewayEvent) (op : String) (peer : TrustEntry)
    (capability : CapabilityContract) : Prop :=
  ∃ pre authorise mid request post a, h = pre ++ authorise :: mid ++ request :: post ∧
    authorise.thread = request.thread ∧ authorise.call = .invoke a ∧ request.call = .invoke a ∧
    authorise.label = .authorize peer capability ∧ Accepts .invocationRequested op request

/-- A reconciliation is answered conclusively, by this call. -/
def Answers (ports : Ports) (e : GatewayEvent) (a : ReconcileCall) (result : PeerResult) : Prop :=
  e.call = .reconcile a ∧ (∃ peer task, e.label = .transportReconcile peer task ∧
    ports.reconcile peer task a.timeoutSeconds e.before.tick = .ok result) ∧
    (result.1.state = .completed ∨ result.1.state = .failed)

/-- The loop over the artifacts passes when each of them is lawful. -/
theorem artifactBytes_lawful {peer : TrustEntry} {capability : CapabilityContract} {task : TaskContract}
    {artifacts : List ArtifactContract} {total : Nat}
    (h : artifactBytes sha texts peer capability task artifacts = .ok total) :
    (∀ a ∈ artifacts, a.taskId = task.taskId ∧ a.producerPeerId = peer.peerId ∧
      (peer.protocol = .a2a → some a.cardDigest = peer.cardDigest) ∧
      digestValue sha texts capability.modelDump = .ok a.capabilityDigest) ∧
    ∃ bodies : List String,
      List.Forall₂ (fun a text => canonicalDocument texts a.modelDump = .ok text) artifacts bodies ∧
        (bodies.map String.length).sum = total := by
  induction artifacts generalizing total with
  | nil =>
    unfold artifactBytes at h
    cases h
    exact ⟨fun a ha => absurd ha List.not_mem_nil, [], .nil, rfl⟩
  | cons a artifacts ih =>
    unfold artifactBytes at h
    split at h
    · cases h
    rename_i hprovenance
    split at h
    · cases h
    rename_i hcard
    obtain ⟨capabilityDigest, hcapability, h⟩ := except_bind_ok.mp h
    split at h
    · cases h
    rename_i hpin
    obtain ⟨text, htext, h⟩ := except_bind_ok.mp h
    obtain ⟨rest, hrest, h⟩ := except_bind_ok.mp h
    cases h
    obtain ⟨hall, bodies, hbodies, hsum⟩ := ih hrest
    obtain ⟨htask, hproducer⟩ := not_or.mp hprovenance
    have hsame : a.capabilityDigest = capabilityDigest := not_not.mp hpin
    refine ⟨fun b hb => ?_, text :: bodies, .cons htext hbodies, ?_⟩
    · rcases List.mem_cons.mp hb with rfl | hb
      · refine ⟨not_not.mp htask, not_not.mp hproducer, fun hprotocol => ?_, hsame ▸ hcapability⟩
        by_contra hother
        exact hcard ⟨hother, hprotocol⟩
      · exact hall b hb
    · rw [List.map_cons, List.sum_cons, hsum]

/-- **A result that passes the validation is lawful.** -/
theorem validateResult_lawful {peer : TrustEntry} {capability : CapabilityContract}
    {task : TaskContract} {result : PeerResult} {op : String}
    (htask : task.taskId.val = "interop-task-" ++ op)
    (h : validateResult sha texts peer capability task result = .ok ()) :
    Lawful sha texts op peer capability result.2 := by
  unfold validateResult at h
  split at h
  · cases h
  split at h
  · cases h
  rename_i hcount
  obtain ⟨total, htotal, h⟩ := except_bind_ok.mp h
  split at h
  · cases h
  rename_i hsize
  obtain ⟨hall, bodies, hbodies, hsum⟩ := artifactBytes_lawful htotal
  exact
    { count := Nat.le_of_not_lt hcount
      task := fun a ha => by rw [(hall a ha).1, htask]
      producer := fun a ha => (hall a ha).2.1
      card := fun hprotocol a ha => (hall a ha).2.2.1 hprotocol
      capability := fun a ha => (hall a ha).2.2.2
      size := ⟨bodies, hbodies, hsum ▸ Nat.le_of_not_lt hsize⟩ }

theorem validated_lawful {peer : TrustEntry} {capability : CapabilityContract} {task : TaskContract}
    {answer : Except Failure PeerResult} {result : PeerResult} {op : String}
    (htask : task.taskId.val = "interop-task-" ++ op)
    (h : validated sha texts peer capability task answer = .ok result) :
    Lawful sha texts op peer capability result.2 := by
  unfold validated at h
  obtain ⟨result', -, h⟩ := except_bind_ok.mp h
  obtain ⟨u, hvalid, h⟩ := except_bind_ok.mp h
  cases h
  exact validateResult_lawful htask hvalid

/-! ## What a phase has behind it -/

/-- The policy has decided for this peer and capability, in this call. -/
def Decided (h : List GatewayEvent) (i : Nat) (a : InvokeCall) (peer : TrustEntry) : Prop :=
  ∃ e ∈ h, e.thread = i ∧ e.call = .invoke a ∧ e.label = .authorize peer a.capability

/-- The provenance of what a phase knows. -/
def Phase.Provenance (sha : Sha256) (texts : Texts) (ports : Ports) (h : List GatewayEvent) (i : Nat) :
    Phase → Prop
  | .authorised a peer => Decided h i a peer
  | .requested a peer _ => Authorised h a.operationId peer a.capability
  | .claimed a peer _ => Authorised h a.operationId peer a.capability
  | .answered a peer _ _ answer => Authorised h a.operationId peer a.capability ∧
    ∀ result, answer = .ok result → Lawful sha texts a.operationId peer a.capability result.2
  | .settled a peer _ answer => Authorised h a.operationId peer a.capability ∧
    ∀ result, answer = .ok result → Lawful sha texts a.operationId peer a.capability result.2
  | .reading a _ => ∃ peer capability, Authorised h a.operationId peer capability
  | .observed a _ result => (∃ peer capability, Authorised h a.operationId peer capability) ∧
    (result.1.state = .completed ∨ result.1.state = .failed → ∃ e ∈ h, Answers ports e a result)
  | .reconciled a result => (∃ peer capability, Authorised h a.operationId peer capability) ∧
    ∃ e ∈ h, Answers ports e a result
  | _ => True

theorem Authorised.mono {h more : List GatewayEvent} {op : String} {peer : TrustEntry}
    {capability : CapabilityContract} (hauthorised : Authorised h op peer capability) :
    Authorised (h ++ more) op peer capability := by
  obtain ⟨pre, authorise, mid, request, post, a, rfl, hrest⟩ := hauthorised
  refine ⟨pre, authorise, mid, request, post ++ more, a, ?_, hrest⟩
  simp only [List.append_assoc, List.cons_append]

theorem Phase.Provenance.mono {h more : List GatewayEvent} {i : Nat} {φ : Phase}
    (hφ : φ.Provenance sha texts ports h i) : φ.Provenance sha texts ports (h ++ more) i := by
  cases φ with
  | authorised a peer =>
    obtain ⟨e, he, hrest⟩ := hφ
    exact ⟨e, List.mem_append_left _ he, hrest⟩
  | requested a peer p => exact Authorised.mono hφ
  | claimed a peer p => exact Authorised.mono hφ
  | answered a peer p task answer => exact ⟨Authorised.mono hφ.1, hφ.2⟩
  | settled a peer task answer => exact ⟨Authorised.mono hφ.1, hφ.2⟩
  | reading a p =>
    obtain ⟨peer, capability, hauthorised⟩ := hφ
    exact ⟨peer, capability, hauthorised.mono⟩
  | observed a p result =>
    obtain ⟨⟨peer, capability, hauthorised⟩, hanswered⟩ := hφ
    refine ⟨⟨peer, capability, hauthorised.mono⟩, fun hconclusive => ?_⟩
    obtain ⟨e, he, hanswers⟩ := hanswered hconclusive
    exact ⟨e, List.mem_append_left _ he, hanswers⟩
  | reconciled a result =>
    obtain ⟨⟨peer, capability, hauthorised⟩, e, he, hanswers⟩ := hφ
    exact ⟨⟨peer, capability, hauthorised.mono⟩, e, List.mem_append_left _ he, hanswers⟩
  | free => exact trivial
  | holding => exact trivial
  | closing => exact trivial

/-- Every recorded operation was authorised, and every phase has its provenance. -/
structure Sourced (sha : Sha256) (texts : Texts) (ports : Ports) (h : List GatewayEvent) (s : State)
    (phases : Nat → Option (GatewayCall × Phase)) : Prop where
  versioned : Versioned s
  caller : ∀ i call φ, phases i = some (call, φ) → φ.Of call
  authorised : ∀ op, s.projections op ≠ none → ∃ peer capability, Authorised h op peer capability
  provenance : ∀ i call φ, phases i = some (call, φ) → φ.Positive ∧ φ.Provenance sha texts ports h i

/-- A request that is recorded right after the decision. -/
theorem Decided.authorised {h : List GatewayEvent} {s s' : State} {i : Nat} {a : InvokeCall}
    {peer : TrustEntry} {task : TaskContract} {p : InvocationProjection} {fact : InteroperabilityFact}
    (hdecided : Decided h i a peer) (hrecorded : Recorded sha texts s (a.requestedCall task p) p fact s') :
    Authorised (h ++ [⟨i, .invoke a, .append (a.requestedCall task p), s, s'⟩]) a.operationId peer
      a.capability := by
  obtain ⟨e, he, hthread, hcall, hlabel⟩ := hdecided
  obtain ⟨pre, mid, rfl⟩ := List.append_of_mem he
  obtain ⟨htype, hcommand, -⟩ := buildFact_fields hrecorded.built
  exact ⟨pre, e, mid, _, [], a, rfl, hthread, hcall, rfl,
    hlabel, _, fact, rfl, rfl, rfl, hrecorded.new,
    (hrecorded.facts a.operationId).trans (if_pos rfl), htype, hcommand⟩

section Steps

variable {h : List GatewayEvent} {s s' : State} {phases : Nat → Option (GatewayCall × Phase)}
  {i : Nat} {call : GatewayCall} {φ φ' : Phase} {label : GatewayStep}

/-- The provenance of the phase after a step. -/
theorem Sourced.next (hJ : Sourced sha texts ports h s phases) (hi : phases i = some (call, φ))
    (hstep : Advance sha texts ports φ label s s' φ') :
    φ'.Provenance sha texts ports (h ++ [⟨i, call, label, s, s'⟩]) i := by
  have hof := hJ.caller i call φ hi
  have hold := (hJ.provenance i call φ hi).2
  have hlast : ∀ e : GatewayEvent, e ∈ h ++ [e] := fun e => List.mem_append_right _ List.mem_cons_self
  have hstill : φ.Provenance sha texts ports (h ++ [⟨i, call, label, s, s'⟩]) i := hold.mono
  cases hstep with
  | plain hlabel hsame => exact hstill
  | authorise a peer hlabel hsame => exact ⟨_, hlast _, rfl, Eq.symm hof, hlabel⟩
  | hold operationId p hofs hfree hread => exact trivial
  | read a p hread =>
    obtain ⟨peer, capability, hauthorised⟩ := hJ.authorised a.operationId (by rw [hread]; exact Option.some_ne_none p)
    exact ⟨peer, capability, hauthorised.mono⟩
  | request a peer task p r hstate hversion hpeer hfence hoperation hrun =>
    rcases append_cases rfl hrun with ⟨e, rfl, rfl⟩ | ⟨fact, current, -, -, -, -, hcurrent, hnext⟩ |
      ⟨fact, rfl, hrecorded⟩
    · exact trivial
    · have hpos := (hJ.versioned _).2 current hcurrent
      omega
    · have hcall : call = .invoke a := hof
      rw [hcall]
      exact Decided.authorised hold hrecorded
  | claim a peer p now r hrun =>
    cases r with
    | ok fact => exact hstill
    | error e => exact trivial
  | call a peer p task htask hsame => exact ⟨hstill, fun result hresult => validated_lawful htask hresult⟩
  | conclude a peer p task answer c r hc hrun =>
    cases r with
    | ok fact => exact hstill
    | error e => exact trivial
  | cancelRequest a p now r hopen hrun => exact trivial
  | cancelled a p status now r hversion hrun => exact trivial
  | observe a p peer task result hanswer hsame =>
    exact ⟨hstill, fun hconclusive => ⟨_, hlast _, hof, ⟨peer, task, rfl, hanswer⟩, hconclusive⟩⟩
  | unobserved a p peer task hsame => exact trivial
  | reconcile a p result d now r hopen hconclusive hrun =>
    cases r with
    | ok fact => exact ⟨hstill.1, hstill.2 hconclusive⟩
    | error e => exact trivial

theorem Sourced.step (hJ : Sourced sha texts ports h s phases) (hi : phases i = some (call, φ))
    (hstep : Advance sha texts ports φ label s s' φ') :
    Sourced sha texts ports (h ++ [⟨i, call, label, s, s'⟩]) s'
      (Function.update phases i (some (call, φ'))) := by
  have hpositive := (hJ.provenance i call φ hi).1
  constructor
  · exact hJ.versioned.step hstep
  · intro j cj φj hj
    rw [Function.update_apply] at hj
    split at hj
    · cases hj
      exact hstep.of (hJ.caller i call φ hi)
    · exact hJ.caller j cj φj hj
  · intro op hsome
    by_cases hnone : s.projections op = none
    · obtain ⟨a, peer, task, p, fact, rfl, rfl, rfl, rfl, hrecorded⟩ :=
        hstep.first hJ.versioned hpositive hnone hsome
      exact ⟨peer, a.capability, hJ.next hi hstep⟩
    · obtain ⟨peer, capability, hauthorised⟩ := hJ.authorised op hnone
      exact ⟨peer, capability, hauthorised.mono⟩
  · intro j cj φj hj
    rw [Function.update_apply] at hj
    split at hj
    · rename_i hji
      cases hj
      rw [hji]
      exact ⟨hstep.positive hJ.versioned hpositive, hJ.next hi hstep⟩
    · obtain ⟨hpos, hprovenance⟩ := hJ.provenance j cj φj hj
      exact ⟨hpos, hprovenance.mono⟩

end Steps

/-! ## Every interleaving -/

theorem Sourced.start {h : List GatewayEvent} {s : State} {phases : Nat → Option (GatewayCall × Phase)}
    {i : Nat} (hJ : Sourced sha texts ports h s phases) {entry : Option (GatewayCall × Phase)}
    (hentry : ∀ call φ, entry = some (call, φ) → φ = .free call) :
    Sourced sha texts ports h s (Function.update phases i entry) := by
  refine ⟨hJ.versioned, fun j cj φj hj => ?_, hJ.authorised, fun j cj φj hj => ?_⟩
  · rw [Function.update_apply] at hj
    split at hj
    · rw [hentry cj φj hj]
      exact rfl
    · exact hJ.caller j cj φj hj
  · rw [Function.update_apply] at hj
    split at hj
    · rw [hentry cj φj hj]
      exact ⟨trivial, trivial⟩
    · exact hJ.provenance j cj φj hj

theorem sourced_kept : Chronicled (Advance sha texts ports) Phase.free (fun _ => True)
    (fun _ _ => True) (Sourced sha texts ports) where
  start := by
    intro h s phases i call _ hJ _
    refine hJ.start fun call' φ hentry => ?_
    cases hentry
    rfl
  turn := fun h s phases i call φ label s' φ' hJ hi hstep _ => hJ.step hi hstep
  crash := fun h s phases i _ hJ => hJ.start fun call φ hentry => by cases hentry

theorem lawful_nil (op : String) (peer : TrustEntry) (capability : CapabilityContract) :
    Lawful sha texts op peer capability [] where
  count := Nat.zero_le _
  task := fun _ ha => absurd ha List.not_mem_nil
  producer := fun _ ha => absurd ha List.not_mem_nil
  card := fun _ _ ha => absurd ha List.not_mem_nil
  capability := fun _ ha => absurd ha List.not_mem_nil
  size := ⟨[], .nil, Nat.zero_le _⟩

/-- The call of a thread, and what it has returned. -/
def returned (pool : GatewayPool) (i : Nat) : Option (GatewayCall × InvocationResult) :=
  match pool.threads i with
  | some ⟨call, .done (.ok r)⟩ => some (call, r)
  | _ => none

theorem returned_thread {pool : GatewayPool} {i : Nat} {α : Type}
    {f : GatewayCall × InvocationResult → α} {a : α} (h : (returned pool i).map f = some a) :
    ∃ t r, pool.threads i = some t ∧ t.rest = .done (.ok r) ∧ f (t.call, r) = a := by
  unfold returned at h
  split at h
  · rename_i call r hthread
    exact ⟨_, r, hthread, rfl, Option.some.inj h⟩
  · cases h

theorem sample_reconciled : (returned (gatewayRun .constant sampleTexts samplePorts sampleMoves) 1).map
    (fun x => x.2.artifacts.length) = some 0 := by
  simp only [gatewayRun, program_eq, invoke, reconcile, cancel, cancelCurrent, invokeNew, claimAndCall,
    conclude, replay, appendFact, append, buildFact, InvokeCall.newTask, InvokeCall.newProjection,
    taskFromProjection, validated, validateResult]
  rw [digestValue_eq, parseIdentifier_eq, rejectRawLedgerPayload_eq]
  decide +kernel

/-! ## An artifact of another task -/

def strayPart : MessagePart where
  partId := code "part"
  kind := .text
  mediaType := "text/plain"
  text := some "done"
  data := none
  resourceRef := none
  contentDigest := sampleDigest
  redacted := false

/-- A report that the peer wrote for another operation. -/
def strayArtifact : ArtifactContract where
  artifactId := code "artifact"
  taskId := code "interop-task-other"
  kind := .statusReport
  parts := [strayPart]
  citations := []
  producerPeerId := code "peer"
  cardDigest := sampleDigest
  capabilityDigest := sampleDigest
  artifactDigest := sampleDigest
  createdAt := ⟨0, 0⟩

/-- The peer answers the reconciliation with it. -/
def strayPorts : Ports :=
  { samplePorts with reconcile := fun _ _ _ _ => .ok (sampleStatus .completed, [strayArtifact]) }

theorem stray_returned : (returned (gatewayRun .constant sampleTexts strayPorts sampleMoves) 1).map
    (fun x => (x.1.operationId, x.2.artifacts.map (·.taskId.val))) =
      some ("operation", ["interop-task-other"]) := by
  simp only [gatewayRun, program_eq, invoke, reconcile, cancel, cancelCurrent, invokeNew, claimAndCall,
    conclude, replay, appendFact, append, buildFact, InvokeCall.newTask, InvokeCall.newProjection,
    taskFromProjection, validated, validateResult]
  rw [digestValue_eq, parseIdentifier_eq, rejectRawLedgerPayload_eq]
  decide +kernel

end Interop

end Aegis
