/-
  EVERY CALL OF THE PEER LEAVES A SETTLED OPERATION -- when nothing overtakes its conclusion.

  `invoke` fixes the version of its conclusion before it calls the peer: version 3, right after the claim.
  `cancel` accepts a projection that is CLAIMED, so it may record version 3 first; the conclusion is stale
  then, and no other operation takes a CLAIMED projection.  Nor does the conclusion go through when the
  ledger cannot build its fact, or the result of the peer has no digest.

  `Calm` is the condition on one step that excludes these.  The invariant of calm runs: a CLAIMED
  operation has a call IN FLIGHT -- claimed or answered -- which alone holds its current projection; and
  whoever has been answered has concluded, or is still in flight.
-/
import Mathlib
import Aegis.Interop.Evaluation
import Aegis.Interop.Facts
import Aegis.Interop.Invocations

namespace Aegis

namespace Interop

open Threads

variable {sha : Sha256} {texts : Texts} {ports : Ports}

/-! ## Statements -/

/-- The states from which nothing is lost: terminal ones, and the one that `reconcile` accepts. -/
def settledStates : List InvocationState := [.succeeded, .failed, .ambiguous, .cancelled, .reconciled]

def cancelTypes : List InteroperabilityFactType := [.taskCancelRequested, .taskCancelled]

def outcomeTypes : List InteroperabilityFactType :=
  [.invocationSucceeded, .invocationFailed, .invocationAmbiguous]

/-- The fact that an answer is to be recorded as. -/
def outcomeType : Except Failure PeerResult → InteroperabilityFactType
  | .ok _ => .invocationSucceeded
  | .error e => if e.kind ∈ ambiguousKinds then .invocationAmbiguous else .invocationFailed

/-- What `invoke` takes the peer's answer for. -/
def answerAt (sha : Sha256) (texts : Texts) (ports : Ports) (a : InvokeCall) (peer : TrustEntry)
    (task : TaskContract) (tick : Nat) : Except Failure PeerResult :=
  validated sha texts peer a.capability task (ports.invoke peer task a.message a.timeoutSeconds tick)

/-- The append is recorded as the next version of an operation that is claimed. -/
def Overtakes (sha : Sha256) (texts : Texts) (s : State) (c : AppendCall) : Prop :=
  s.commands c.commandRef = none ∧ (∃ fact, buildFact sha texts c (s.facts c.operationId) = .ok fact) ∧
    ∃ p current, c.projection = some p ∧ s.projections c.operationId = some current ∧
      current.state = .claimed ∧ p.version = current.version + 1

/-- The command of the append is an identifier and a new one, and the clock reads UTC. -/
structure Recordable (texts : Texts) (s : State) (c : AppendCall) : Prop where
  command : isIdentifier c.commandRef = true
  new : s.commands c.commandRef = none
  clock : c.recordedAt.offset = 0
  time : validateUntrustedText texts c.recordedAt.jsonText = .ok ()

/-- A step after which an outcome is not lost. -/
structure Calm (sha : Sha256) (texts : Texts) (ports : Ports) (e : GatewayEvent) : Prop where
  uncancelled : ∀ c, e.label = .append c → c.factType ∈ cancelTypes → ¬Overtakes sha texts e.before c
  recordable : ∀ c, e.label = .append c → c.factType ∈ outcomeTypes → Recordable texts e.before c
  digestible : ∀ a peer task result, e.call = .invoke a → e.label = .transportInvoke peer task →
    answerAt sha texts ports a peer task e.before.tick = .ok result →
    ∃ d, digestValue sha texts (resultDocument result) = .ok d

/-- The peer was called for the operation at this step, and answered so. -/
def Answered (sha : Sha256) (texts : Texts) (ports : Ports) (op : String) (e : GatewayEvent)
    (answer : Except Failure PeerResult) : Prop :=
  ∃ a peer task, e.call = .invoke a ∧ e.label = .transportInvoke peer task ∧ a.operationId = op ∧
    answer = answerAt sha texts ports a peer task e.before.tick

/-- The operation is settled, and every answer of the peer is in the ledger. -/
structure Settled (sha : Sha256) (texts : Texts) (ports : Ports) (h : List GatewayEvent) (s : State)
    (op : String) : Prop where
  state : ∃ p, s.projections op = some p ∧ p.state ∈ settledStates
  outcome : ∀ e ∈ h, ∀ answer, Answered sha texts ports op e answer →
    ∃ fact ∈ s.facts op, fact.factType = outcomeType answer

/-! ## The conclusion goes through -/

/-- The fact of a new command in UTC is built. -/
theorem buildFact_ok (htexts : texts.Lawful) {s : State} {c : AppendCall}
    {facts : List InteroperabilityFact} (hoperation : isIdentifier c.operationId = true)
    (hid : isIdentifier ("interop-fact-" ++ c.operationId ++ "-" ++ toString (facts.length + 1)) = true)
    (hpeer : isIdentifier c.peerId = true) (hpayload : Flat texts c.payload)
    (hshort : c.payload.length ≤ 32) (hfew : facts.length < 128) (hc : Recordable texts s c) :
    ∃ fact, buildFact sha texts c facts = .ok fact := by
  have hutc : c.recordedAt.utc = c.recordedAt := by
    show ({ c.recordedAt with offset := 0 } : Datetime) = _
    rw [← hc.clock]
  have hdigest := @factMaterial_ok sha _ htexts _ (previousDigest facts) _ _ hoperation hid hc.command hpeer
    (hpayload.normalize (by omega)) (hpayload.bound htexts (by omega)) hc.time
  unfold buildFact
  dsimp only
  rw [hutc, hdigest, parseIdentifier_of hid, parseIdentifier_of hoperation,
    parseIdentifier_of hc.command, parseIdentifier_of hpeer]
  show ∃ fact, (if 128 < facts.length + 1 then _ else if 32 < c.payload.length then _ else _) = _
  rw [if_neg (by omega), if_neg (by omega)]
  exact ⟨_, if_neg (not_not.mpr rfl)⟩

/-- What a conclusion is an append of. -/
theorem Concludes.fields {a : InvokeCall} {claimed : InvocationProjection}
    {answer : Except Failure PeerResult} {c : AppendCall} (hc : Concludes sha texts a claimed answer c) :
    c.operationId = a.operationId ∧ c.peerId = a.peerId ∧ c.factType = outcomeType answer ∧
      c.factType ∈ outcomeTypes ∧
      ∃ p, c.projection = some p ∧ p.version = 3 ∧ p.state ∈ settledStates := by
  cases hc with
  | ambiguous e now he =>
    have htype : InteroperabilityFactType.invocationAmbiguous ∈ outcomeTypes := by decide
    have hstate : InvocationState.ambiguous ∈ settledStates := by decide
    exact ⟨rfl, rfl, (if_pos he).symm, htype, _, rfl, rfl, hstate⟩
  | failed e now he =>
    have htype : InteroperabilityFactType.invocationFailed ∈ outcomeTypes := by decide
    have hstate : InvocationState.failed ∈ settledStates := by decide
    exact ⟨rfl, rfl, (if_neg he).symm, htype, _, rfl, rfl, hstate⟩
  | succeeded result d now hd =>
    have htype : InteroperabilityFactType.invocationSucceeded ∈ outcomeTypes := by decide
    have hstate : InvocationState.succeeded ∈ settledStates := by decide
    exact ⟨rfl, rfl, rfl, htype, _, rfl, rfl, hstate⟩

/-- Its payload is flat. -/
theorem Concludes.payload (htexts : texts.Lawful) {a : InvokeCall} {claimed : InvocationProjection}
    {answer : Except Failure PeerResult} {c : AppendCall} (hc : Concludes sha texts a claimed answer c)
    (hfence : isIdentifier a.fenceToken = true) :
    Flat texts c.payload ∧ c.payload.length ≤ 32 ∧ ∀ f ∈ c.payload, rawKey f.1 = false := by
  have hcode : ∀ s : String, isIdentifier s = true → Scalar texts (.str s) :=
    fun s hs => scalar_identifier htexts hs
  have hdigest : ∀ d : Digest, Scalar texts (.str d.val) := scalar_digest htexts
  have hnil : ∀ P : String × Json → Prop, ∀ f ∈ ([] : List (String × Json)), P f := fun P f hf => by cases hf
  cases hc with
  | ambiguous e now he =>
    refine ⟨⟨show 3 ≤ 128 by omega, ?_⟩, show 3 ≤ 32 by omega, ?_⟩
    · simp only [InvokeCall.ambiguousCall, List.forall_mem_cons]
      exact ⟨⟨by decide, hcode _ (by decide)⟩, ⟨by decide, hcode _ hfence⟩, ⟨by decide, hdigest _⟩, hnil _⟩
    · simp only [InvokeCall.ambiguousCall, List.forall_mem_cons]
      exact ⟨by decide +kernel, by decide +kernel, by decide +kernel, hnil _⟩
  | failed e now he =>
    refine ⟨⟨show 2 ≤ 128 by omega, ?_⟩, show 2 ≤ 32 by omega, ?_⟩
    · simp only [InvokeCall.failedCall, List.forall_mem_cons]
      exact ⟨⟨by decide, hcode _ (by decide)⟩, ⟨by decide, hdigest _⟩, hnil _⟩
    · simp only [InvokeCall.failedCall, List.forall_mem_cons]
      exact ⟨by decide +kernel, by decide +kernel, hnil _⟩
  | succeeded result d now hd =>
    refine ⟨⟨show 3 ≤ 128 by omega, ?_⟩, show 3 ≤ 32 by omega, ?_⟩
    · simp only [InvokeCall.succeededCall, resultPayload, List.forall_mem_cons]
      exact ⟨⟨by decide, trivial⟩, ⟨by decide, hdigest _⟩, ⟨by decide, hdigest _⟩, hnil _⟩
    · simp only [InvokeCall.succeededCall, resultPayload, List.forall_mem_cons]
      exact ⟨by decide +kernel, by decide +kernel, by decide +kernel, hnil _⟩

/-- The third fact has an identifier wherever there is a fence token. -/
theorem isIdentifier_third {a : InvokeCall} (hfence : isIdentifier a.fenceToken = true)
    (hoperation : isIdentifier a.operationId = true) :
    isIdentifier ("interop-fact-" ++ a.operationId ++ "-" ++ toString 3) = true := by
  have hthree : toString 3 = "3" := by decide
  have hfact : "interop-fact-".toList.length = 13 := by decide
  have htoken : "interop-fence-".toList.length = 14 := by decide
  simp only [isIdentifier, isReference, InvokeCall.fenceToken, String.toList_append, List.length_append,
    List.all_append, Bool.and_eq_true, decide_eq_true_eq, hthree, hfact, htoken] at hfence hoperation ⊢
  refine ⟨⟨by omega, ?_⟩, ⟨⟨by decide, hoperation.2⟩, by decide⟩, by decide⟩
  have hone : "-1".toList.length = 2 := by decide
  have hdash : "-".toList.length = 1 := by decide
  have hdigit : "3".toList.length = 1 := by decide
  omega

/-- **The conclusion of a claimed operation is recorded**, if it is recordable. -/
theorem Concludes.recorded (htexts : texts.Lawful) {s s' : State} {a : InvokeCall}
    {claimed : InvocationProjection} {answer : Except Failure PeerResult} {c : AppendCall}
    {r : Except Failure InteroperabilityFact} (hc : Concludes sha texts a claimed answer c)
    (hpeer : isIdentifier a.peerId = true) (hfence : isIdentifier a.fenceToken = true)
    (hoperation : isIdentifier a.operationId = true) (hs : Versioned s)
    {current : InvocationProjection} (hcurrent : s.projections a.operationId = some current)
    (htwo : current.version = 2) (hok : Recordable texts s c) (hrun : append sha texts c s = (r, s')) :
    ∃ p fact, r = .ok fact ∧ p.state ∈ settledStates ∧ Recorded sha texts s c p fact s' := by
  obtain ⟨hop, hpeerId, -, -, p, hp, hthree, hsettled⟩ := hc.fields
  obtain ⟨hflat, hshort, hkeys⟩ := hc.payload htexts hfence
  have hlength : (s.facts c.operationId).length = 2 := by
    rw [(hs c.operationId).1, hop, hcurrent, Option.elim_some, htwo]
  have hnext : s.nextVersion c.operationId = 3 := by
    rw [State.nextVersion, hop, hcurrent, Option.elim_some, htwo]
  obtain ⟨fact, hfact⟩ := @buildFact_ok sha _ htexts _ _ (s.facts c.operationId)
    (by rw [hop]; exact hoperation) (by rw [hlength, hop]; exact isIdentifier_third hfence hoperation)
    (by rw [hpeerId]; exact hpeer) hflat hshort (by omega) hok
  have hdigest := @digestValue_ok sha _ _ (hflat.normalize (by omega))
    (hflat.bound htexts (by omega))
  have hraw : ∀ f ∈ c.payload, rawKey f.1 = false ∧ boundJson texts 0 f.2 = .ok () :=
    fun f hf => ⟨hkeys f hf, (hflat.2 f hf).2.bound (by omega)⟩
  have hrecords := append_records (rejectRaw_iff.mpr hraw) hdigest hok.new
    hfact fun p' hp' => by rw [hp] at hp'; cases hp'; rw [hthree, hnext]
  rw [hrun] at hrecords
  cases hrecords
  exact ⟨p, fact, rfl, hsettled, hp, hok.new, hfact, by rw [hthree, hnext], _, rfl⟩

/-! ## Calls in flight -/

/-- The operation a call has claimed and not concluded, with the projection it claimed. -/
def Phase.flight : Phase → Option (InvokeCall × InvocationProjection)
  | .claimed a _ p => some (a, p)
  | .answered a _ p _ _ => some (a, p)
  | _ => none

/-- The projection that a call has read. -/
def Phase.snapshot : Phase → Option (String × InvocationProjection)
  | .holding operationId p => some (operationId, p)
  | .reading a p => some (a.operationId, p)
  | .observed a p _ => some (a.operationId, p)
  | _ => none

/-- The texts of the projection are those of the call, so these are identifiers. -/
structure Names (a : InvokeCall) (p : InvocationProjection) : Prop where
  peer : p.peerId.val = a.peerId
  fence : p.fenceToken.val = a.fenceToken
  operation : p.operationId.val = a.operationId

def Phase.Named : Phase → Prop
  | .requested a _ p => Names a p
  | .claimed a _ p => Names a p
  | .answered a _ p _ _ => Names a p
  | _ => True

/-- The invariant of calm runs. -/
structure Settling (sha : Sha256) (texts : Texts) (ports : Ports) (h : List GatewayEvent) (s : State)
    (phases : Nat → Option (GatewayCall × Phase)) : Prop where
  owned : Owned h s phases
  named : ∀ i call φ, phases i = some (call, φ) → φ.Named
  flying : ∀ i call φ a p, phases i = some (call, φ) → φ.flight = some (a, p) →
    s.projections a.operationId = some p ∧ p.state = .claimed ∧ p.version = 2 ∧ φ.Pending sha texts
  alone : ∀ i j ci cj φi φj ai aj pi pj, phases i = some (ci, φi) → phases j = some (cj, φj) →
    φi.flight = some (ai, pi) → φj.flight = some (aj, pj) → ai.operationId = aj.operationId → i = j
  carried : ∀ op p, s.projections op = some p → p.state = .claimed →
    ∃ i call φ a, phases i = some (call, φ) ∧ φ.flight = some (a, p) ∧ a.operationId = op
  seen : ∀ i call φ op p, phases i = some (call, φ) → φ.snapshot = some (op, p) →
    ∃ current, s.projections op = some current ∧ p.version ≤ current.version ∧
      (p.version = current.version → p = current)
  reached : ∀ op, 0 < invocations op h →
    ∃ p, s.projections op = some p ∧ (p.state = .claimed ∨ p.state ∈ settledStates)
  outcome : ∀ op, ∀ e ∈ h, ∀ answer, Answered sha texts ports op e answer →
    (∃ a peer p task, phases e.thread = some (.invoke a, .answered a peer p task answer) ∧
      a.operationId = op) ∨ ∃ fact ∈ s.facts op, fact.factType = outcomeType answer

theorem not_claimed {state : InvocationState} (h : state ∈ settledStates) : state ≠ .claimed := by
  rintro rfl
  exact absurd h (by decide)

theorem update_cases {phases : Nat → Option (GatewayCall × Phase)} {i j : Nat}
    {x y : GatewayCall × Phase} (h : Function.update phases i (some x) j = some y) :
    (j = i ∧ x = y) ∨ (j ≠ i ∧ phases j = some y) := by
  rw [Function.update_apply] at h
  split at h
  · exact .inl ⟨‹_›, Option.some.inj h⟩
  · exact .inr ⟨‹_›, h⟩

section Steps

variable {h : List GatewayEvent} {s s' : State} {phases : Nat → Option (GatewayCall × Phase)}
  {i : Nat} {call : GatewayCall} {φ φ' : Phase} {label : GatewayStep}

/-- A step that leaves the ledger alone, and the flight of its call. -/
theorem Settling.same (hJ : Settling sha texts ports h s phases) (hi : phases i = some (call, φ))
    (hstep : Advance sha texts ports φ label s s' φ') (hsame : Same s s') (hnamed : φ'.Named)
    (hsnapshot : ∀ op p, φ'.snapshot = some (op, p) → φ.snapshot = some (op, p) ∨ s.projections op = some p)
    (hflight : φ'.flight = φ.flight) (hpending : φ'.flight ≠ none → φ'.Pending sha texts)
    (hkeep : ∀ a peer p task answer, φ = .answered a peer p task answer → φ' = φ)
    (hcalls : ∀ op, invokes op ⟨i, call, label, s, s'⟩ = true →
      ∃ a p, φ.flight = some (a, p) ∧ a.operationId = op)
    (hanswers : ∀ op answer, Answered sha texts ports op ⟨i, call, label, s, s'⟩ answer →
      ∃ a peer p task, call = .invoke a ∧ φ' = .answered a peer p task answer ∧ a.operationId = op) :
    Settling sha texts ports (h ++ [⟨i, call, label, s, s'⟩]) s'
      (Function.update phases i (some (call, φ'))) := by
  -- whoever is in flight afterwards was so before, with the same projection
  have hback : ∀ j cj φj a p, Function.update phases i (some (call, φ')) j = some (cj, φj) →
      φj.flight = some (a, p) → ∃ c φ, phases j = some (c, φ) ∧ φ.flight = some (a, p) := by
    intro j cj φj a p hj hfly
    rcases update_cases hj with ⟨rfl, hx⟩ | ⟨-, hj⟩
    · cases hx
      exact ⟨call, φ, hi, hflight ▸ hfly⟩
    · exact ⟨cj, φj, hj, hfly⟩
  constructor
  · exact hJ.owned.step hi hstep
  · intro j cj φj hj
    rcases update_cases hj with ⟨-, hx⟩ | ⟨-, hj⟩
    · cases hx
      exact hnamed
    · exact hJ.named j cj φj hj
  · intro j cj φj a p hj hfly
    rw [hsame.projections]
    rcases update_cases hj with ⟨-, hx⟩ | ⟨-, hj⟩
    · cases hx
      obtain ⟨hread, hstate, hversion, -⟩ := hJ.flying i call φ a p hi (hflight ▸ hfly)
      refine ⟨hread, hstate, hversion, hpending ?_⟩
      rw [hfly]
      exact Option.some_ne_none _
    · exact hJ.flying j cj φj a p hj hfly
  · intro j k cj ck φj φk aj ak pj pk hj hk hfj hfk hop
    obtain ⟨cj', φj', hj', hfj'⟩ := hback j cj φj aj pj hj hfj
    obtain ⟨ck', φk', hk', hfk'⟩ := hback k ck φk ak pk hk hfk
    exact hJ.alone j k cj' ck' φj' φk' aj ak pj pk hj' hk' hfj' hfk' hop
  · intro op p hread hclaimed
    rw [hsame.projections] at hread
    obtain ⟨j, cj, φj, a, hj, hfly, hop⟩ := hJ.carried op p hread hclaimed
    by_cases hji : j = i
    · subst hji
      rw [hi] at hj
      cases hj
      exact ⟨j, call, φ', a, Function.update_self .., hflight.trans hfly, hop⟩
    · exact ⟨j, cj, φj, a, (Function.update_of_ne hji ..).trans hj, hfly, hop⟩
  · intro j cj φj op p hj hsnap
    rw [hsame.projections]
    rcases update_cases hj with ⟨-, hx⟩ | ⟨-, hj⟩
    · cases hx
      rcases hsnapshot op p hsnap with hold | hread
      · exact hJ.seen i call φ op p hi hold
      · exact ⟨p, hread, le_refl _, fun _ => rfl⟩
    · exact hJ.seen j cj φj op p hj hsnap
  · intro op hinvoked
    rw [hsame.projections]
    rw [invocations_concat] at hinvoked
    split at hinvoked
    · rename_i hcall
      obtain ⟨a, p, hfly, rfl⟩ := hcalls op hcall
      obtain ⟨hread, hstate, -⟩ := hJ.flying i call φ a p hi hfly
      exact ⟨p, hread, .inl hstate⟩
    · exact hJ.reached op hinvoked
  · intro op e he answer hanswered
    rw [hsame.facts]
    rcases List.mem_append.mp he with hold | hnew
    · rcases hJ.outcome op e hold answer hanswered with ⟨a, peer, p, task, hthread, hop⟩ | hfact
      · refine .inl ⟨a, peer, p, task, ?_, hop⟩
        rw [Function.update_apply]
        split
        · rename_i hei
          rw [hei, hi] at hthread
          cases hthread
          rw [hkeep a peer p task answer rfl]
        · exact hthread
      · exact .inr hfact
    · rw [List.mem_singleton.mp hnew] at hanswered ⊢
      obtain ⟨a, peer, p, task, rfl, rfl, hop⟩ := hanswers op answer hanswered
      exact .inl ⟨a, peer, p, task, Function.update_self .., hop⟩

/-- A step that records a fact of an operation that nobody else has in flight. -/
theorem Settling.recorded {c : AppendCall} {p : InvocationProjection} {fact : InteroperabilityFact}
    (hJ : Settling sha texts ports h s phases) (hi : phases i = some (call, φ))
    (hstep : Advance sha texts ports φ (.append c) s s' φ')
    (hrecorded : Recorded sha texts s c p fact s')
    (hown : ∀ a q, φ.flight = some (a, q) → a.operationId = c.operationId)
    (hsole : ∀ j cj φj a q, phases j = some (cj, φj) → φj.flight = some (a, q) →
      a.operationId = c.operationId → j = i)
    (hnamed : φ'.Named) (hsnapshot : φ'.snapshot = none)
    (hnext : (φ'.flight = none ∧ p.state ≠ .claimed) ∨ ∃ a, φ'.flight = some (a, p) ∧
      a.operationId = c.operationId ∧ p.state = .claimed ∧ p.version = 2 ∧ φ'.Pending sha texts)
    (hreached : 0 < invocations c.operationId h → p.state ∈ settledStates)
    (houtcome : ∀ a peer q task answer, φ = .answered a peer q task answer →
      fact.factType = outcomeType answer) :
    Settling sha texts ports (h ++ [⟨i, call, .append c, s, s'⟩]) s'
      (Function.update phases i (some (call, φ'))) := by
  have hcount : ∀ op, invocations op (h ++ [⟨i, call, .append c, s, s'⟩]) = invocations op h :=
    fun op => invocations_other invokes_append
  have hmore : s'.facts c.operationId = s.facts c.operationId ++ [fact] :=
    (hrecorded.facts c.operationId).trans (if_pos rfl)
  constructor
  · exact hJ.owned.step hi hstep
  · intro j cj φj hj
    rcases update_cases hj with ⟨-, hx⟩ | ⟨-, hj⟩
    · cases hx
      exact hnamed
    · exact hJ.named j cj φj hj
  · intro j cj φj a q hj hfly
    rw [hrecorded.projections]
    rcases update_cases hj with ⟨-, hx⟩ | ⟨hji, hj⟩
    · cases hx
      rcases hnext with ⟨hnone, -⟩ | ⟨a', hfly', hop, hstate, hversion, hpending⟩
      · rw [hnone] at hfly
        cases hfly
      · rw [hfly'] at hfly
        cases hfly
        rw [if_pos hop]
        exact ⟨rfl, hstate, hversion, hpending⟩
    · rw [if_neg fun hop => hji (hsole j cj φj a q hj hfly hop)]
      exact hJ.flying j cj φj a q hj hfly
  · intro j k cj ck φj φk aj ak pj pk hj hk hfj hfk hop
    -- the flight of this call, if there is one, is on the operation of the fact
    have hmine : ∀ a q, φ'.flight = some (a, q) → a.operationId = c.operationId := by
      intro a q hfly
      rcases hnext with ⟨hnone, -⟩ | ⟨a', hfly', hop, -⟩
      · rw [hnone] at hfly
        cases hfly
      · rw [hfly'] at hfly
        cases hfly
        exact hop
    rcases update_cases hj with ⟨hji, hx⟩ | ⟨hji, hj⟩
    · cases hx
      rcases update_cases hk with ⟨hki, -⟩ | ⟨hki, hk⟩
      · rw [hji, hki]
      · exact absurd (hsole k ck φk ak pk hk hfk (hop.symm.trans (hmine aj pj hfj))) hki
    · rcases update_cases hk with ⟨hki, hx⟩ | ⟨-, hk⟩
      · cases hx
        exact absurd (hsole j cj φj aj pj hj hfj (hop.trans (hmine ak pk hfk))) hji
      · exact hJ.alone j k cj ck φj φk aj ak pj pk hj hk hfj hfk hop
  · intro op q hread hclaimed
    rw [hrecorded.projections] at hread
    split at hread
    · rename_i hop
      cases hread
      rcases hnext with ⟨-, hother⟩ | ⟨a, hfly, ha, -⟩
      · exact absurd hclaimed hother
      · exact ⟨i, call, φ', a, Function.update_self .., hfly, ha.trans hop.symm⟩
    · rename_i hop
      obtain ⟨j, cj, φj, a, hj, hfly, ha⟩ := hJ.carried op q hread hclaimed
      have hji : j ≠ i := by
        rintro rfl
        rw [hi] at hj
        cases hj
        exact hop (ha.symm.trans (hown a q hfly))
      exact ⟨j, cj, φj, a, (Function.update_of_ne hji ..).trans hj, hfly, ha⟩
  · intro j cj φj op q hj hsnap
    rw [hrecorded.projections]
    rcases update_cases hj with ⟨-, hx⟩ | ⟨-, hj⟩
    · cases hx
      rw [hsnapshot] at hsnap
      cases hsnap
    · obtain ⟨current, hcurrent, hle, heq⟩ := hJ.seen j cj φj op q hj hsnap
      split
      · rename_i hop
        have hversion := hrecorded.version
        rw [State.nextVersion, ← hop, hcurrent, Option.elim_some] at hversion
        exact ⟨p, rfl, by omega, fun hno => by omega⟩
      · exact ⟨current, hcurrent, hle, heq⟩
  · intro op hinvoked
    rw [hrecorded.projections]
    rw [hcount] at hinvoked
    split
    · rename_i hop
      rw [hop] at hinvoked
      exact ⟨p, rfl, .inr (hreached hinvoked)⟩
    · exact hJ.reached op hinvoked
  · intro op e he answer hanswered
    rcases List.mem_append.mp he with hold | hnew
    · rcases hJ.outcome op e hold answer hanswered with ⟨a, peer, q, task, hthread, hop⟩ |
        ⟨known, hmem, htype⟩
      · by_cases hei : e.thread = i
        · rw [hei, hi] at hthread
          cases hthread
          have hopc : op = c.operationId := hop.symm.trans (hown a q rfl)
          refine .inr ⟨fact, ?_, houtcome a peer q task answer rfl⟩
          rw [hopc, hmore]
          exact List.mem_append_right _ List.mem_cons_self
        · exact .inl ⟨a, peer, q, task, (Function.update_of_ne hei ..).trans hthread, hop⟩
      · exact .inr ⟨known, (hstep.grows op).1.subset hmem, htype⟩
    · rw [List.mem_singleton.mp hnew] at hanswered
      obtain ⟨a, peer, task, -, hlabel, -⟩ := hanswered
      cases hlabel

/-- A step of a call that has nothing in flight, before or after. -/
theorem Settling.idle (hJ : Settling sha texts ports h s phases) (hi : phases i = some (call, φ))
    (hstep : Advance sha texts ports φ label s s' φ') (hsame : Same s s')
    (hlabel : label.callsPeer = false) (hnamed : φ'.Named) (hbefore : φ.flight = none)
    (hafter : φ'.flight = none)
    (hsnapshot : ∀ op p, φ'.snapshot = some (op, p) → φ.snapshot = some (op, p) ∨ s.projections op = some p) :
    Settling sha texts ports (h ++ [⟨i, call, label, s, s'⟩]) s'
      (Function.update phases i (some (call, φ'))) := by
  refine hJ.same hi hstep hsame hnamed hsnapshot (hafter.trans hbefore.symm)
    (fun hno => absurd hafter hno) (fun a peer p task answer hφ => ?_) (fun op hcall => ?_)
    fun op answer hanswered => ?_
  · rw [hφ] at hbefore
    cases hbefore
  · rw [invokes_quiet hlabel] at hcall
    cases hcall
  · obtain ⟨a, peer, task, -, rfl, -⟩ := hanswered
    cases hlabel

/-- Whoever ends in `closing` has nothing in flight and holds no projection. -/
theorem Settling.close (hJ : Settling sha texts ports h s phases) (hi : phases i = some (call, φ))
    {c : AppendCall} (hstep : Advance sha texts ports φ (.append c) s s .closing)
    (hbefore : φ.flight = none) :
    Settling sha texts ports (h ++ [⟨i, call, .append c, s, s⟩]) s
      (Function.update phases i (some (call, .closing))) :=
  hJ.idle hi hstep (Same.refl s) rfl trivial hbefore rfl fun _ _ hno => by cases hno

/-- What a cancellation that is recorded finds: no claimed operation. -/
theorem Calm.free {c : AppendCall} {p : InvocationProjection} {fact : InteroperabilityFact}
    (hcalm : Calm sha texts ports ⟨i, call, .append c, s, s'⟩) (htype : c.factType ∈ cancelTypes)
    (hrecorded : Recorded sha texts s c p fact s') {current : InvocationProjection}
    (hcurrent : s.projections c.operationId = some current) : current.state ≠ .claimed := by
  intro hclaimed
  have hversion := hrecorded.version
  rw [State.nextVersion, hcurrent, Option.elim_some] at hversion
  exact hcalm.uncancelled c rfl htype ⟨hrecorded.new, ⟨fact, hrecorded.built⟩, p, current,
    hrecorded.projection, hcurrent, hclaimed, hversion⟩

/-- A claim leaves the invariant as it is: the one fact before it is the request. -/
theorem Settling.claim (hJ : Settling sha texts ports h s phases) {a : InvokeCall} {peer : TrustEntry}
    {p : InvocationProjection} {now : Datetime} (hi : phases i = some (call, .requested a peer p))
    {fact : InteroperabilityFact}
    (hrecorded : Recorded sha texts s (a.claimedCall (p.claim now)) (p.claim now) fact s')
    (hstep : Advance sha texts ports (.requested a peer p) (.append (a.claimedCall (p.claim now))) s s'
      (.claimed a peer (p.claim now))) :
    Settling sha texts ports (h ++ [⟨i, call, .append (a.claimedCall (p.claim now)), s, s'⟩]) s'
      (Function.update phases i (some (call, .claimed a peer (p.claim now)))) := by
  have hnames : Names a p := hJ.named i call _ hi
  have hzero := (hJ.owned.begun a.operationId i call _ hi rfl).2
  refine hJ.recorded hi hstep hrecorded (fun _ _ hno => by cases hno) (fun j cj φj b q hj hfly hop => ?_)
    ⟨hnames.peer, hnames.fence, hnames.operation⟩ rfl (.inr ⟨a, rfl, rfl, rfl, rfl, trivial⟩)
    (fun hinvoked => ?_) fun _ _ _ _ _ hno => by cases hno
  · -- a flight would be at version 2 already
    obtain ⟨hread, -, htwo, -⟩ := hJ.flying j cj φj b q hj hfly
    have hversion := hrecorded.version
    rw [State.nextVersion, ← hop, hread, Option.elim_some, htwo] at hversion
    exact absurd (show 2 = 3 from hversion) (by decide)
  · exact absurd (show 0 < invocations a.operationId h from hinvoked) (by omega)

/-- The peer is called: the call stays in flight, with an answer whose result has a digest. -/
theorem Settling.called (hJ : Settling sha texts ports h s phases) {a : InvokeCall} {peer : TrustEntry}
    {p : InvocationProjection} {task : TaskContract} (hi : phases i = some (call, .claimed a peer p))
    (hsame : Same s s') (hcalm : Calm sha texts ports ⟨i, call, .transportInvoke peer task, s, s'⟩)
    (hstep : Advance sha texts ports (.claimed a peer p) (.transportInvoke peer task) s s'
      (.answered a peer p task (answerAt sha texts ports a peer task s.tick))) :
    Settling sha texts ports (h ++ [⟨i, call, .transportInvoke peer task, s, s'⟩]) s'
      (Function.update phases i
        (some (call, .answered a peer p task (answerAt sha texts ports a peer task s.tick)))) := by
  have hcall : call = .invoke a := hJ.owned.caller i call _ hi
  have hnames : Names a p := hJ.named i call _ hi
  refine hJ.same hi hstep hsame hnames (fun _ _ hno => by cases hno) rfl
    (fun _ result hresult => ?_) (fun _ _ _ _ _ hno => by cases hno) (fun op hinvokes => ?_)
    fun op answer hanswered => ?_
  · exact hcalm.digestible a peer task result hcall rfl hresult
  · subst hcall
    exact ⟨a, p, rfl, of_decide_eq_true hinvokes⟩
  · subst hcall
    obtain ⟨b, peer', task', hb, hlabel, hop, rfl⟩ := hanswered
    cases hb
    cases hlabel
    exact ⟨a, peer, p, task, rfl, rfl, hop⟩

/-- The peer's answer is concluded: nothing has come between. -/
theorem Settling.concluded (htexts : texts.Lawful) (hJ : Settling sha texts ports h s phases)
    {a : InvokeCall} {peer : TrustEntry} {p : InvocationProjection} {task : TaskContract}
    {answer : Except Failure PeerResult} {c : AppendCall} {r : Except Failure InteroperabilityFact}
    (hi : phases i = some (call, .answered a peer p task answer)) (hc : Concludes sha texts a p answer c)
    (hrun : append sha texts c s = (r, s')) (hcalm : Calm sha texts ports ⟨i, call, .append c, s, s'⟩)
    (hstep : Advance sha texts ports (.answered a peer p task answer) (.append c) s s'
      (thenPhase r (.settled a peer task answer))) :
    Settling sha texts ports (h ++ [⟨i, call, .append c, s, s'⟩]) s'
      (Function.update phases i (some (call, thenPhase r (.settled a peer task answer)))) := by
  have hnames : Names a p := hJ.named i call _ hi
  obtain ⟨hread, hstate, htwo, -⟩ := hJ.flying i call _ a p hi rfl
  obtain ⟨hop, -, htype, houtcome, -⟩ := hc.fields
  obtain ⟨q, fact, rfl, hsettled, hrecorded⟩ := hc.recorded htexts (by rw [← hnames.peer]; exact p.peerId.property)
    (by rw [← hnames.fence]; exact p.fenceToken.property)
    (by rw [← hnames.operation]; exact p.operationId.property) hJ.owned.versioned hread htwo
    (hcalm.recordable c rfl houtcome) hrun
  refine hJ.recorded hi hstep hrecorded (fun b q' hfly => ?_) (fun j cj φj b q' hj hfly hb => ?_)
    trivial rfl (.inl ⟨rfl, not_claimed hsettled⟩) (fun _ => hsettled) fun b peer' q' task' answer' hφ => ?_
  · cases hfly
    exact hop.symm
  · exact hJ.alone j i cj call φj _ b a q' p hj hi hfly rfl (hb.trans hop)
  · cases hφ
    exact (buildFact_fields hrecorded.built).1.trans htype

/-- One calm step keeps the invariant. -/
theorem Settling.step (htexts : texts.Lawful) (hJ : Settling sha texts ports h s phases)
    (hi : phases i = some (call, φ)) (hcalm : Calm sha texts ports ⟨i, call, label, s, s'⟩)
    (hstep : Advance sha texts ports φ label s s' φ') :
    Settling sha texts ports (h ++ [⟨i, call, label, s, s'⟩]) s'
      (Function.update phases i (some (call, φ'))) := by
  have hall := hstep
  cases hstep with
  | plain hlabel hsame =>
    have hquiet : label.callsPeer = false := by
      cases label with
      | transportInvoke peer task => cases hlabel
      | _ => rfl
    refine hJ.same hi hall hsame (hJ.named i call φ hi) (fun _ _ => .inl) rfl (fun hfly => ?_)
      (fun _ _ _ _ _ _ => rfl) (fun op hcall => ?_) fun op answer hanswered => ?_
    · obtain ⟨⟨a, p⟩, hfly⟩ := Option.ne_none_iff_exists'.mp hfly
      exact (hJ.flying i call φ a p hi hfly).2.2.2
    · rw [invokes_quiet hquiet] at hcall
      cases hcall
    · obtain ⟨a, peer, task, -, rfl, -⟩ := hanswered
      cases hquiet
  | authorise a peer hlabel hsame =>
    exact hJ.idle hi hall hsame (by rw [hlabel]; rfl) trivial rfl rfl fun _ _ hno => by cases hno
  | hold operationId p hof hfree hread =>
    have hnone : φ.flight = none := by
      by_contra hfly
      obtain ⟨⟨a, q⟩, hfly⟩ := Option.ne_none_iff_exists'.mp hfly
      exact hfree (hJ.flying i call φ a q hi hfly).2.2.2
    refine hJ.idle hi hall (Same.refl s) rfl trivial hnone rfl fun op q hsnap => .inr ?_
    cases hsnap
    exact hread
  | read a p hread =>
    refine hJ.idle hi hall (Same.refl s) rfl trivial rfl rfl fun op q hsnap => .inr ?_
    cases hsnap
    exact hread
  | request a peer task p r hstate hversion hpeer hfence hoperation hrun =>
    rcases append_cases rfl hrun with ⟨e, rfl, rfl⟩ | ⟨fact, current, -, -, -, -, hcurrent, hnext⟩ |
      ⟨fact, rfl, hrecorded⟩
    · exact hJ.close hi hall rfl
    · -- a known command would have to find version 0
      have hpos := (hJ.owned.versioned _).2 current hcurrent
      omega
    · have hnone : s.projections a.operationId = none :=
        hJ.owned.versioned.first (hrecorded.version.symm.trans hversion)
      refine hJ.recorded hi hall hrecorded (fun _ _ hno => by cases hno)
        (fun j cj φj b q hj hfly hop => ?_) ⟨hpeer, hfence, hoperation⟩ rfl
        (.inl ⟨rfl, by rw [hstate]; exact InvocationState.noConfusion⟩) (fun hinvoked => ?_) fun _ _ _ _ _ hno => by cases hno
      · have hread := (hJ.flying j cj φj b q hj hfly).1
        rw [hop] at hread
        exact absurd (hnone.symm.trans hread) (Option.some_ne_none q).symm
      · have hzero := hJ.owned.idle a.operationId hnone
        exact absurd (show 0 < invocations a.operationId h from hinvoked) (by omega)
  | claim a peer p now r hrun =>
    rcases append_cases rfl hrun with ⟨e, rfl, rfl⟩ | ⟨fact, current, -, -, hmem, hcommand, hcurrent, hnext⟩ |
      ⟨fact, rfl, hrecorded⟩
    · exact hJ.close hi hall rfl
    · refine (hJ.owned.claim_new hi hmem hcommand hcurrent ?_).elim
      have htwo : (p.claim now).version = 2 := rfl
      omega
    · exact hJ.claim hi hrecorded hall
  | call a peer p task htask hsame => exact hJ.called hi hsame hcalm hall
  | conclude a peer p task answer c r hc hrun => exact hJ.concluded htexts hi hc hrun hcalm hall
  | cancelRequest a p now r hopen hrun =>
    rcases append_cases rfl hrun with ⟨e, -, rfl⟩ | ⟨fact, current, -, rfl, -⟩ | ⟨fact, -, hrecorded⟩
    · exact hJ.close hi hall rfl
    · exact hJ.close hi hall rfl
    · obtain ⟨current, hcurrent, -, heq⟩ := hJ.seen i call _ a.operationId p hi rfl
      have htype : InteroperabilityFactType.taskCancelRequested ∈ cancelTypes := by decide
      have hfree := hcalm.free htype hrecorded hcurrent
      -- the projection that was read is still the current one
      have hversion : p.version + 1 = s.nextVersion a.operationId := hrecorded.version
      rw [State.nextVersion, hcurrent, Option.elim_some] at hversion
      obtain rfl := heq (by omega)
      refine hJ.recorded hi hall hrecorded (fun _ _ hno => by cases hno)
        (fun j cj φj b q hj hfly hop => ?_) trivial rfl (.inl ⟨rfl, hfree⟩) (fun hinvoked => ?_)
        fun _ _ _ _ _ hno => by cases hno
      · obtain ⟨hread, hclaimed, -⟩ := hJ.flying j cj φj b q hj hfly
        rw [hop] at hread
        exact absurd hclaimed (hcalm.free htype hrecorded hread)
      · obtain ⟨p', hread, hreached⟩ := hJ.reached a.operationId hinvoked
        rw [hcurrent] at hread
        cases hread
        exact hreached.resolve_left hfree
  | cancelled a p status now r hversion hrun =>
    rcases append_cases rfl hrun with ⟨e, -, rfl⟩ | ⟨fact, current, -, rfl, -⟩ | ⟨fact, -, hrecorded⟩
    · exact hJ.close hi hall rfl
    · exact hJ.close hi hall rfl
    · have htype : InteroperabilityFactType.taskCancelled ∈ cancelTypes := by decide
      have hsettled : InvocationState.cancelled ∈ settledStates := by decide
      refine hJ.recorded hi hall hrecorded (fun _ _ hno => by cases hno)
        (fun j cj φj b q hj hfly hop => ?_) trivial rfl (.inl ⟨rfl, InvocationState.noConfusion⟩) (fun _ => hsettled)
        fun _ _ _ _ _ hno => by cases hno
      obtain ⟨hread, hclaimed, -⟩ := hJ.flying j cj φj b q hj hfly
      rw [hop] at hread
      exact absurd hclaimed (hcalm.free htype hrecorded hread)
  | observe a p peer task result hanswer hsame =>
    exact hJ.idle hi hall hsame rfl trivial rfl rfl fun _ _ hsnap => .inl hsnap
  | unobserved a p peer task hsame =>
    exact hJ.idle hi hall hsame rfl trivial rfl rfl fun _ _ hno => by cases hno
  | reconcile a p result d now r hopen hconclusive hrun =>
    rcases append_cases rfl hrun with ⟨e, rfl, rfl⟩ | ⟨fact, current, rfl, rfl, -⟩ | ⟨fact, rfl, hrecorded⟩
    · exact hJ.close hi hall rfl
    · exact hJ.idle hi hall (Same.refl _) rfl trivial rfl rfl fun _ _ hno => by cases hno
    · have hsettled : InvocationState.reconciled ∈ settledStates := by decide
      refine hJ.recorded hi hall hrecorded (fun _ _ hno => by cases hno)
        (fun j cj φj b q hj hfly hop => ?_) trivial rfl (.inl ⟨rfl, InvocationState.noConfusion⟩) (fun _ => hsettled)
        fun _ _ _ _ _ hno => by cases hno
      obtain ⟨current, hcurrent, -, heq⟩ := hJ.seen i call _ a.operationId p hi rfl
      have hversion : p.version + 1 = s.nextVersion a.operationId := hrecorded.version
      rw [State.nextVersion, hcurrent, Option.elim_some] at hversion
      obtain rfl := heq (by omega)
      obtain ⟨hread, hclaimed, -⟩ := hJ.flying j cj φj b q hj hfly
      rw [show b.operationId = a.operationId from hop, hcurrent] at hread
      cases hread
      rw [hopen] at hclaimed
      cases hclaimed

end Steps

/-! ## Every calm interleaving -/

theorem Settling.started {h : List GatewayEvent} {s : State}
    {phases : Nat → Option (GatewayCall × Phase)} {i : Nat} {call : GatewayCall}
    (hJ : Settling sha texts ports h s phases) (hfresh : phases i = none) :
    Settling sha texts ports h s (Function.update phases i (some (call, .free call))) := by
  have hkeep : ∀ j x, phases j = some x → Function.update phases i (some (call, .free call)) j = some x := by
    intro j x hj
    refine (Function.update_of_ne ?_ ..).trans hj
    rintro rfl
    rw [hfresh] at hj
    cases hj
  constructor
  · refine hJ.owned.start fun call' φ hentry => ?_
    cases hentry
    exact ⟨rfl, fun _ hno => hno⟩
  · intro j cj φj hj
    rcases update_cases hj with ⟨-, hx⟩ | ⟨-, hj⟩
    · cases hx
      exact trivial
    · exact hJ.named j cj φj hj
  · intro j cj φj a p hj hfly
    rcases update_cases hj with ⟨-, hx⟩ | ⟨-, hj⟩
    · cases hx
      cases hfly
    · exact hJ.flying j cj φj a p hj hfly
  · intro j k cj ck φj φk aj ak pj pk hj hk hfj hfk hop
    rcases update_cases hj with ⟨-, hx⟩ | ⟨-, hj⟩
    · cases hx
      cases hfj
    · rcases update_cases hk with ⟨-, hx⟩ | ⟨-, hk⟩
      · cases hx
        cases hfk
      · exact hJ.alone j k cj ck φj φk aj ak pj pk hj hk hfj hfk hop
  · intro op p hread hclaimed
    obtain ⟨j, cj, φj, a, hj, hfly⟩ := hJ.carried op p hread hclaimed
    exact ⟨j, cj, φj, a, hkeep j _ hj, hfly⟩
  · intro j cj φj op p hj hsnap
    rcases update_cases hj with ⟨-, hx⟩ | ⟨-, hj⟩
    · cases hx
      cases hsnap
    · exact hJ.seen j cj φj op p hj hsnap
  · exact hJ.reached
  · intro op e he answer hanswered
    rcases hJ.outcome op e he answer hanswered with ⟨a, peer, p, task, hthread, hop⟩ | hfact
    · exact .inl ⟨a, peer, p, task, hkeep _ _ hthread, hop⟩
    · exact .inr hfact

theorem settling_init : Settling sha texts ports [] State.init fun _ => none where
  owned := owned_init
  named := fun _ _ _ hno => absurd hno.symm (Option.some_ne_none _)
  flying := fun _ _ _ _ _ hno => absurd hno.symm (Option.some_ne_none _)
  alone := fun _ _ _ _ _ _ _ _ _ _ hno => absurd hno.symm (Option.some_ne_none _)
  carried := fun _ p hno => absurd (show (none : Option InvocationProjection) = some p from hno)
    (Option.some_ne_none p).symm
  seen := fun _ _ _ _ _ hno => absurd hno.symm (Option.some_ne_none _)
  reached := fun _ hno => absurd (show 0 < 0 from hno) (by omega)
  outcome := fun _ _ hno => absurd hno List.not_mem_nil

/-- **Every call of the peer leaves a settled operation, in every calm run**: whatever the peer answers
    and however invocations, cancellations and reconciliations interleave, once no call is in progress
    the operation is settled, and every answer of the peer is in the ledger. -/
theorem invocations_settle (sha : Sha256) (texts : Texts) (ports : Ports) (htexts : texts.Lawful)
    (moves : List (Move GatewayCall)) (halive : ∀ m ∈ moves, ∀ i, m ≠ .crash i)
    (hcalm : ∀ e ∈ gatewayEvents sha texts ports moves, Calm sha texts ports e)
    (hquiet : (gatewayRun sha texts ports moves).Quiet) (op : String)
    (hinvoked : 0 < invocations op (gatewayEvents sha texts ports moves)) :
    Settled sha texts ports (gatewayEvents sha texts ports moves)
      (gatewayRun sha texts ports moves).shared op := by
  have hkept : Chronicled (Advance sha texts ports) Phase.free (fun m => ∀ i, m ≠ .crash i)
      (fun _ e => Calm sha texts ports e) (Settling sha texts ports) := {
    start := fun h s phases i call _ hJ hfresh => hJ.started hfresh
    turn := fun h s phases i call φ label s' φ' hJ hi hstep hgood => hJ.step htexts hi hgood hstep
    crash := fun h s phases i hno _ => absurd rfl (hno i) }
  obtain ⟨phases, hphased, hJ⟩ := hkept.run follows_program moves (phased_start State.init)
    settling_init halive fun pre e post hevents => hcalm e (by rw [gatewayEvents, hevents]; simp)
  have hJ : Settling sha texts ports (gatewayEvents sha texts ports moves)
    (gatewayRun sha texts ports moves).shared phases := hJ
  -- a thread that has ended is not in flight
  have hlanded : ∀ i call φ, phases i = some (call, φ) → φ.flight = none := by
    intro i call φ hi
    have hat := hphased i
    cases hthread : (gatewayRun sha texts ports moves).threads i with
    | none =>
      rw [show ((Pool.start State.init).run (GatewayCall.program sha texts ports) moves).threads i = none
        from hthread, show phases i = some (call, φ) from hi] at hat
      cases hat
    | some t =>
      rw [show ((Pool.start State.init).run (GatewayCall.program sha texts ports) moves).threads i = some t
        from hthread] at hat
      obtain ⟨φ', hφ', hfollows⟩ := hat
      rw [hi] at hφ'
      cases hφ'
      obtain ⟨r, hr⟩ := not_forall_not.mp (hquiet i t hthread)
      rw [hr] at hfollows
      by_contra hfly
      obtain ⟨⟨a, p⟩, hfly⟩ := Option.ne_none_iff_exists'.mp hfly
      exact (show Ends sha texts r φ from hfollows).landed (hJ.flying i t.call φ a p hi hfly).2.2.2
  constructor
  · obtain ⟨p, hread, hclaimed | hsettled⟩ := hJ.reached op hinvoked
    · obtain ⟨i, call, φ, a, hi, hfly, -⟩ := hJ.carried op p hread hclaimed
      rw [hlanded i call φ hi] at hfly
      cases hfly
    · exact ⟨p, hread, hsettled⟩
  · intro e he answer hanswered
    rcases hJ.outcome op e he answer hanswered with ⟨a, peer, p, task, hthread, -⟩ | hfact
    · cases hlanded _ _ _ hthread
    · exact hfact

/-- A check of one step that is enough for it to be calm. -/
def calmStep (sha : Sha256) (texts : Texts) (ports : Ports) (e : GatewayEvent) : Bool :=
  match e.label with
  | .append c => c.factType ∉ cancelTypes && (c.factType ∉ outcomeTypes ||
      isIdentifier c.commandRef && (e.before.commands c.commandRef).isNone &&
        c.recordedAt.offset = 0 && validateUntrustedText texts c.recordedAt.jsonText = .ok ())
  | .transportInvoke peer task =>
    match e.call with
    | .invoke a => (answerAt sha texts ports a peer task e.before.tick).toOption.isNone
    | _ => true
  | _ => true

theorem calm_of_check {e : GatewayEvent} (h : calmStep sha texts ports e = true) :
    Calm sha texts ports e := by
  unfold calmStep at h
  constructor
  · intro c hlabel htype
    rw [hlabel] at h
    simp only [Bool.and_eq_true, decide_eq_true_eq] at h
    exact absurd htype h.1
  · intro c hlabel htype
    rw [hlabel] at h
    simp only [Bool.and_eq_true, Bool.or_eq_true, decide_eq_true_eq, Option.isNone_iff_eq_none] at h
    obtain ⟨⟨⟨hcommand, hnew⟩, hclock⟩, htime⟩ := h.2.resolve_left (not_not.mpr htype)
    exact ⟨hcommand, hnew, hclock, htime⟩
  · intro a peer task result hcall hlabel hresult
    rw [hlabel] at h
    dsimp only at h
    rw [hcall] at h
    dsimp only at h
    rw [hresult] at h
    cases h

/-- The first call alone: its outcome is ambiguous. -/
def ambiguousMoves : List (Move GatewayCall) :=
  .start 0 (.invoke sampleInvoke) :: List.replicate 14 (.turn 0)

theorem sample_calm :
    (gatewayEvents .constant sampleTexts samplePorts ambiguousMoves).all
        (calmStep .constant sampleTexts samplePorts) = true ∧
      (gatewayRun .constant sampleTexts samplePorts ambiguousMoves).ended 0 = true ∧
      invocations "operation" (gatewayEvents .constant sampleTexts samplePorts ambiguousMoves) = 1 := by
  simp only [gatewayRun, gatewayEvents, program_eq, invoke, reconcile, cancel, cancelCurrent, invokeNew, claimAndCall,
    conclude, replay, appendFact, append, buildFact, InvokeCall.newTask, InvokeCall.newProjection,
    taskFromProjection, validated, validateResult]
  rw [digestValue_eq, parseIdentifier_eq, rejectRawLedgerPayload_eq]
  decide +kernel

theorem invocations_settle_sample : Settled .constant sampleTexts samplePorts
    (gatewayEvents .constant sampleTexts samplePorts ambiguousMoves)
    (gatewayRun .constant sampleTexts samplePorts ambiguousMoves).shared "operation" := by
  obtain ⟨hcalm, hended, hinvoked⟩ := sample_calm
  refine invocations_settle .constant sampleTexts samplePorts (fun _ _ => rfl) ambiguousMoves ?_
    (fun e he => calm_of_check (List.all_eq_true.mp hcalm e he)) ?_ "operation" (by rw [hinvoked]; decide)
  · intro m hm i
    rcases List.mem_cons.mp hm with rfl | hm
    · exact nofun
    · rw [List.eq_of_mem_replicate hm]
      exact nofun
  · refine Pool.quiet_of_ended 1 (fun i call hmem => ?_) fun i hi => ?_
    · rcases List.mem_cons.mp hmem with hstart | hturn
      · cases hstart
        decide
      · cases List.eq_of_mem_replicate hturn
    · obtain rfl : i = 0 := by omega
      exact hended

/-! ## An outcome that is lost -/

/-- A peer that completes its task, and does not confirm a cancellation. -/
def lostPorts : Ports :=
  { samplePorts with
    invoke := fun _ _ _ _ _ => .ok (sampleStatus .completed, [])
    cancel := fun _ _ _ _ => .error ⟨.timeoutError, "timeout"⟩ }

def sampleCancel : CancelCall := ⟨samplePrincipal, "operation", "cancellation", 30⟩

/-- The cancellation runs between the claim and the call of the peer. -/
def lostMoves : List (Move GatewayCall) :=
  .start 0 (.invoke sampleInvoke) :: List.replicate 10 (.turn 0) ++
    .start 1 (.cancel sampleCancel) :: List.replicate 5 (.turn 1) ++ List.replicate 4 (.turn 0)

theorem lost_claimed :
    (gatewayRun .constant sampleTexts lostPorts lostMoves).ended 0 = true ∧
      (gatewayRun .constant sampleTexts lostPorts lostMoves).ended 1 = true ∧
      invocations "operation" (gatewayEvents .constant sampleTexts lostPorts lostMoves) = 1 ∧
      ((gatewayRun .constant sampleTexts lostPorts lostMoves).shared.projections "operation").map (·.state) =
        some .claimed := by
  simp only [gatewayRun, gatewayEvents, program_eq, invoke, reconcile, cancel, cancelCurrent, invokeNew, claimAndCall,
    conclude, replay, appendFact, append, buildFact, InvokeCall.newTask, InvokeCall.newProjection,
    taskFromProjection, validated, validateResult]
  rw [digestValue_eq, parseIdentifier_eq, rejectRawLedgerPayload_eq]
  decide +kernel

/-- The peer completed the task, no call is in progress, and the operation is CLAIMED for good. -/
theorem completed_outcome_lost :
    (∀ m ∈ lostMoves, ∀ i, m ≠ .crash i) ∧
      (gatewayRun .constant sampleTexts lostPorts lostMoves).Quiet ∧
      0 < invocations "operation" (gatewayEvents .constant sampleTexts lostPorts lostMoves) ∧
      ¬Settled .constant sampleTexts lostPorts
        (gatewayEvents .constant sampleTexts lostPorts lostMoves)
        (gatewayRun .constant sampleTexts lostPorts lostMoves).shared "operation" := by
  obtain ⟨hfirst, hsecond, hinvoked, hstate⟩ := lost_claimed
  have hmoves : ∀ m ∈ lostMoves, m = .start 0 (.invoke sampleInvoke) ∨ m = .start 1 (.cancel sampleCancel) ∨
      m = .turn 0 ∨ m = .turn 1 := by
    intro m hm
    simp only [lostMoves, List.cons_append, List.mem_cons, List.mem_append, List.mem_replicate] at hm
    grind
  refine ⟨fun m hm i => ?_, ?_, by rw [hinvoked]; decide, fun hsettled => ?_⟩
  · rcases hmoves m hm with rfl | rfl | rfl | rfl
    · exact nofun
    · exact nofun
    · exact nofun
    · exact nofun
  · refine Pool.quiet_of_ended 2 (fun i call hmem => ?_) fun i hi => ?_
    · rcases hmoves _ hmem with hm | hm | hm | hm
      · cases hm
        decide
      · cases hm
        decide
      · cases hm
      · cases hm
    · rcases (by omega : i = 0 ∨ i = 1) with rfl | rfl
      · exact hfirst
      · exact hsecond
  · obtain ⟨p, hread, hin⟩ := hsettled.state
    rw [hread] at hstate
    exact not_claimed hin (show p.state = .claimed from Option.some.inj hstate)

end Interop

end Aegis
