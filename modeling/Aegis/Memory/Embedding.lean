/-
  THE EMBEDDING GATEWAY.

  `ControlledEmbeddingGateway.embed` admits a call, asks the provider, and checks what it answers.  Calls of
  several threads overlap while their providers work, so a run is a sequence of STARTS, each up to the call
  of the provider, and of FINISHES, each of a call that has started, in any order.  A start reads its clock
  and enters the gateway at once.

  A start passes four gates in turn: a free slot, a closed circuit, a window of the last minute with room,
  and a budget of calls.  Only the third is the tenant's rate limit, and only a start that passes all four is
  recorded in the window.
-/
import Mathlib
import Aegis.Memory.Records
import Aegis.Lib.Frames
import Aegis.Lib.Machine
import Aegis.Lib.Window

namespace Aegis

namespace Memory

namespace Embedding

/-! ## Configuration and state -/

/-- The arguments of the constructor, as it validates them. -/
structure Config where
  maximumConcurrency : Nat
  maximumCalls : Nat
  rateLimit : Nat
  circuitThreshold : Nat
  circuitSeconds : Nat
  concurrency_ok : 1 ≤ maximumConcurrency ∧ maximumConcurrency ≤ 256
  calls_ok : 1 ≤ maximumCalls ∧ maximumCalls ≤ 1000000
  rate_ok : 1 ≤ rateLimit ∧ rateLimit ≤ 100000
  circuit_ok : 1 ≤ circuitThreshold ∧ circuitThreshold ≤ 100 ∧ 1 ≤ circuitSeconds ∧ circuitSeconds ≤ 3600

/-- What the provider answers: the vectors, and what binds them to a request. -/
structure EmbeddingAnswer extends EmbeddingResult where
  requestDigest : Digest
  fenceToken : Identifier

/-- A call that has started: its provider is at work. -/
structure Started where
  request : EmbeddingRequest
  admittedAt : Datetime

/-- The fields of the gateway.  A circuit has the key `f"{tenant_id}\x00{spec.digest}"`. -/
structure State where
  available : Nat
  remaining : Nat
  rateWindows : Identifier → List Datetime
  circuitFailures : Identifier × Digest → Nat
  circuitOpened : Identifier × Digest → Option Datetime
  started : List Started

abbrev Action : Type → Type := Exec Error State

/-- A new gateway. -/
def State.new (config : Config) : State :=
  { available := config.maximumConcurrency, remaining := config.maximumCalls, rateWindows := fun _ => [],
    circuitFailures := fun _ => 0, circuitOpened := fun _ => none, started := [] }

/-- `timedelta(minutes=1)`, in microseconds. -/
def minute : Int := 60 * 1000000

section

variable (sha : Sha256) (config : Config)

/-! ## Starts -/

def circuitKey (request : EmbeddingRequest) : Identifier × Digest :=
  (request.tenantId, request.spec.digest sha)

/-- The circuit of a request is open: it opened less than `circuitSeconds` ago. -/
def CircuitOpen (s : State) (request : EmbeddingRequest) (admittedAt : Datetime) : Prop :=
  ∃ opened ∈ s.circuitOpened (circuitKey sha request),
    admittedAt.instant - opened.instant < config.circuitSeconds * 1000000

instance (s : State) (request : EmbeddingRequest) (admittedAt : Datetime) :
    Decidable (CircuitOpen sha config s request admittedAt) := by
  unfold CircuitOpen
  cases s.circuitOpened (circuitKey sha request) with
  | none => exact .isFalse fun ⟨_, h, _⟩ => by cases h
  | some opened =>
    exact decidable_of_iff (admittedAt.instant - opened.instant < config.circuitSeconds * 1000000)
      ⟨fun h => ⟨opened, rfl, h⟩, fun ⟨_, h, hopen⟩ => by cases h; exact hopen⟩

/-- A circuit that was opened long enough ago is closed. -/
def closeCircuit (request : EmbeddingRequest) (s : State) : State :=
  if (s.circuitOpened (circuitKey sha request)).isSome then
    { s with
      circuitOpened := Function.update s.circuitOpened (circuitKey sha request) none
      circuitFailures := Function.update s.circuitFailures (circuitKey sha request) 0 }
  else s

def concurrencyExhausted : Error := ⟨.policyDenied, "embedding concurrency exhausted"⟩

def circuitIsOpen : Error := ⟨.policyDenied, "embedding circuit is open"⟩

def rateExhausted : Error := ⟨.policyDenied, "embedding rate limit exhausted"⟩

def budgetExhausted : Error := ⟨.policyDenied, "embedding budget exhausted"⟩

/-- The critical section of `embed` before the provider is called. -/
def admitRequest (request : EmbeddingRequest) (admittedAt : Datetime) : Action Unit := do
  let s ← Exec.read
  if CircuitOpen sha config s request admittedAt then Exec.raise circuitIsOpen
  else do
    Exec.modify (closeCircuit sha request)
    let window := (s.rateWindows request.tenantId).dropWhile fun t =>
      decide (t.instant ≤ admittedAt.instant - minute)
    Exec.modify fun s => { s with rateWindows := Function.update s.rateWindows request.tenantId window }
    if config.rateLimit ≤ window.length then Exec.raise rateExhausted
    else if s.remaining = 0 then Exec.raise budgetExhausted
    else Exec.modify fun s => { s with
      rateWindows := Function.update s.rateWindows request.tenantId (window ++ [admittedAt])
      remaining := s.remaining - 1 }

def acquire (s : State) : State := { s with available := s.available - 1 }

def release (s : State) : State := { s with available := s.available + 1 }

/-- `embed`, up to the call of the provider. -/
def start (request : EmbeddingRequest) (admittedAt : Datetime) : Action Unit := do
  let s ← Exec.read
  if s.available = 0 then Exec.raise concurrencyExhausted
  else do
    Exec.modify acquire
    let outcome ← Exec.reify (admitRequest sha config request admittedAt)
    match outcome with
    | .ok () => Exec.modify fun s => { s with started := s.started ++ [⟨request, admittedAt⟩] }
    | .error e => do
      Exec.modify release
      Exec.raise e

/-! ## Finishes -/

/-- `except (IntegrityFailure, PolicyDenied, ValueError)`; a `ValidationError` is a `ValueError`. -/
def counted (e : Error) : Bool :=
  decide (e.kind = .integrityFailure ∨ e.kind = .policyDenied ∨ e.kind = .valueError ∨
    e.kind = .validationError)

/-- A failure of the provider counts against the circuit, which opens at the threshold. -/
def countFailure (request : EmbeddingRequest) (time : Datetime) (s : State) : State :=
  let failures := s.circuitFailures (circuitKey sha request) + 1
  { s with
    circuitFailures := Function.update s.circuitFailures (circuitKey sha request) failures
    circuitOpened := if config.circuitThreshold ≤ failures
      then Function.update s.circuitOpened (circuitKey sha request) (some time) else s.circuitOpened }

/-- The chunk of an identifier in `{chunk.chunk_id: chunk}`: the last one. -/
def expected (request : EmbeddingRequest) (chunkId : Identifier) : Option MemoryChunk :=
  request.chunks.reverse.find? fun c => c.chunkId = chunkId

/-- The vector is one of a chunk of the request. -/
def Expected (request : EmbeddingRequest) (v : EmbeddingVector) : Prop :=
  ∃ c ∈ expected request v.chunkId, v.contentDigest = c.contentDigest ∧ v.dimensions = request.spec.dimensions

instance (request : EmbeddingRequest) (v : EmbeddingVector) : Decidable (Expected request v) := by
  unfold Expected
  cases expected request v.chunkId with
  | none => exact .isFalse fun ⟨_, h, _⟩ => by cases h
  | some c =>
    exact decidable_of_iff (v.contentDigest = c.contentDigest ∧ v.dimensions = request.spec.dimensions)
      ⟨fun h => ⟨c, rfl, h⟩, fun ⟨_, h, hc⟩ => by cases h; exact hc⟩

/-- What `embed` does with the answer.  `exceeded elapsed timeout` is
    `elapsed.total_seconds() > timeout_seconds`, a comparison of floats. -/
def settle (exceeded : Int → FloatText → Bool) (call : Started) (answer : Except Error EmbeddingAnswer)
    (time : Datetime) : Action EmbeddingAnswer :=
  match answer with
  | .error e => do
    Exec.modify fun s => if counted e = true then countFailure sha config call.request time s else s
    Exec.raise e
  | .ok result => do
    Exec.require
      (exceeded (time.instant - call.admittedAt.instant) call.request.spec.timeoutSeconds = false)
      ⟨.integrityFailure, "embedding provider exceeded timeout"⟩
    Exec.require (result.vectors.length = (call.request.chunks.map fun c => c.chunkId).dedup.length ∧
        result.fenceToken = call.request.fenceToken ∧ result.requestDigest = call.request.requestDigest)
      ⟨.integrityFailure, "embedding provider returned an invalid binding"⟩
    Exec.require (∀ v ∈ result.vectors, Expected call.request v)
      ⟨.integrityFailure, "embedding provider returned invalid vectors"⟩
    Exec.modify fun s => { s with
      circuitFailures := Function.update s.circuitFailures (circuitKey sha call.request) 0
      circuitOpened := Function.update s.circuitOpened (circuitKey sha call.request) none }
    pure result

/-- The rest of `embed`, for the call at an index of those that have started. -/
def finish (exceeded : Int → FloatText → Bool) (index : Nat) (answer : Except Error EmbeddingAnswer)
    (time : Datetime) : Action (Option EmbeddingAnswer) := do
  let s ← Exec.read
  match s.started[index]? with
  | none => pure none
  | some call => do
    let outcome ← Exec.reify (settle sha config exceeded call answer time)
    Exec.modify fun s => release { s with started := s.started.eraseIdx index }
    Exec.lift (outcome.map some)

/-! ## Runs -/

/-- What a thread does next, at a time its clock shows. -/
inductive Op where
  | start (request : EmbeddingRequest) (time : Datetime)
  | finish (index : Nat) (answer : Except Error EmbeddingAnswer) (time : Datetime)

/-- When a start is; a finish is not one. -/
def Op.startTime : Op → Option Datetime
  | .start _ time => some time
  | .finish .. => none

def step (exceeded : Int → FloatText → Bool) (s : State) : Op → Except Error (Option EmbeddingAnswer) × State
  | .start request time => ((start sha config request time s).1.map fun _ => none,
      (start sha config request time s).2)
  | .finish index answer time => finish sha config exceeded index answer time s

/-! ## Which calls reach the window -/

/-- A start gets to the window: there is a free slot, and its circuit is closed. -/
def ReachesWindow (s : State) (request : EmbeddingRequest) (time : Datetime) : Prop :=
  s.available ≠ 0 ∧ ¬CircuitOpen sha config s request time

instance (s : State) (request : EmbeddingRequest) (time : Datetime) :
    Decidable (ReachesWindow sha config s request time) := instDecidableAnd

/-- What became of a start at the window. -/
def verdict (result : Except Error (Option EmbeddingAnswer)) : Window.Verdict :=
  match result with
  | .ok _ => .admitted
  | .error e => if e = rateExhausted then .refused else .stopped

theorem verdict_refused : verdict (.error rateExhausted) = .refused := by
  unfold verdict
  exact if_pos rfl

theorem verdict_stopped {e : Error} (h : e ≠ rateExhausted) : verdict (.error e) = .stopped := by
  unfold verdict
  exact if_neg h


variable (exceeded : Int → FloatText → Bool)

theorem closeCircuit_rateWindows (request : EmbeddingRequest) (s : State) :
    (closeCircuit sha request s).rateWindows = s.rateWindows := by
  unfold closeCircuit
  split <;> rfl

/-- A start whose circuit is closed enters the window of its tenant. -/
theorem admit_enter {s : State} {request : EmbeddingRequest} {time : Datetime}
    (hclosed : ¬CircuitOpen sha config s request time) :
    let entered := Window.enter Datetime.instant config.rateLimit minute (s.rateWindows request.tenantId)
      time (decide (s.remaining ≠ 0))
    verdict ((admitRequest sha config request time s).1.map fun _ => none) = entered.1 ∧
      (admitRequest sha config request time s).2.rateWindows =
        Function.update s.rateWindows request.tenantId entered.2 := by
  intro entered
  generalize hkept : Window.trim Datetime.instant (time.instant - minute)
    (s.rateWindows request.tenantId) = kept
  have hrun : admitRequest sha config request time s =
      (if config.rateLimit ≤ kept.length then Exec.raise rateExhausted
      else if s.remaining = 0 then Exec.raise budgetExhausted
      else Exec.modify fun s => { s with
        rateWindows := Function.update s.rateWindows request.tenantId (kept ++ [time])
        remaining := s.remaining - 1 })
        { closeCircuit sha request s with
          rateWindows := Function.update (closeCircuit sha request s).rateWindows request.tenantId kept } := by
    rw [← hkept]
    show (if CircuitOpen sha config s request time then _ else _ : Action Unit) s = _
    rw [if_neg hclosed]
    rfl
  have hentered : entered = if config.rateLimit ≤ kept.length then (.refused, kept)
      else if decide (s.remaining ≠ 0) = true then (.admitted, kept ++ [time]) else (.stopped, kept) := by
    rw [← hkept]
    rfl
  rw [hrun, hentered, closeCircuit_rateWindows]
  by_cases hfull : config.rateLimit ≤ kept.length
  · rw [if_pos hfull, if_pos hfull]
    exact ⟨verdict_refused, rfl⟩
  · rw [if_neg hfull, if_neg hfull]
    by_cases hbudget : s.remaining = 0
    · rw [if_pos hbudget, if_neg (by simpa using hbudget)]
      exact ⟨verdict_stopped (by decide), rfl⟩
    · rw [if_neg hbudget, if_pos (by simpa using hbudget)]
      exact ⟨rfl, Function.update_idem _ _ _⟩

/-- What `start` does with a free slot. -/
theorem start_admit {s : State} (hslot : s.available ≠ 0) (request : EmbeddingRequest) (time : Datetime) :
    (start sha config request time s).1 = (admitRequest sha config request time (acquire s)).1 ∧
      (start sha config request time s).2.rateWindows =
        (admitRequest sha config request time (acquire s)).2.rateWindows := by
  have hrun : start sha config request time s =
      (match (admitRequest sha config request time (acquire s)).1 with
        | .ok () => Exec.modify fun s => { s with started := s.started ++ [⟨request, time⟩] }
        | .error e => do
          Exec.modify release
          Exec.raise e : Action Unit) (admitRequest sha config request time (acquire s)).2 := by
    show (if s.available = 0 then _ else _ : Action Unit) s = _
    rw [if_neg hslot]
    rfl
  rw [hrun]
  cases (admitRequest sha config request time (acquire s)).1 with
  | ok u => exact ⟨rfl, rfl⟩
  | error e => exact ⟨rfl, rfl⟩

/-- **A start that gets to the window makes one visit of it.** -/
theorem start_visit {s : State} {request : EmbeddingRequest} {time : Datetime}
    (hreaches : ReachesWindow sha config s request time) :
    (verdict (step sha config exceeded s (.start request time)).1,
        (step sha config exceeded s (.start request time)).2.rateWindows) =
      Window.visit Datetime.instant config.rateLimit minute s.rateWindows
        ⟨request.tenantId, time, decide (s.remaining ≠ 0)⟩ := by
  obtain ⟨hresult, hwindows⟩ := start_admit sha config hreaches.1 request time
  obtain ⟨hverdict, hupdate⟩ := admit_enter sha config (s := acquire s) hreaches.2
  refine Prod.ext ?_ ?_
  · show verdict ((start sha config request time s).1.map fun _ => none) = _
    rw [hresult]
    exact hverdict
  · exact hwindows.trans hupdate

/-- A start that does not get there leaves the windows alone, and is not refused by one. -/
theorem start_stopped {s : State} {request : EmbeddingRequest} {time : Datetime}
    (hstopped : ¬ReachesWindow sha config s request time) :
    verdict (step sha config exceeded s (.start request time)).1 = .stopped ∧
      (step sha config exceeded s (.start request time)).2.rateWindows = s.rateWindows := by
  by_cases hslot : s.available = 0
  · have hrun : start sha config request time s = (.error concurrencyExhausted, s) := by
      show (if s.available = 0 then _ else _ : Action Unit) s = _
      rw [if_pos hslot]
      rfl
    show verdict ((start sha config request time s).1.map fun _ => none) = _ ∧ _
    rw [hrun]
    exact ⟨verdict_stopped (by decide), by rw [step, hrun]⟩
  · have hopen : CircuitOpen sha config (acquire s) request time := by
      by_contra hclosed
      exact hstopped ⟨hslot, hclosed⟩
    have hrun : admitRequest sha config request time (acquire s) = (.error circuitIsOpen, acquire s) := by
      show (if CircuitOpen sha config (acquire s) request time then _ else _ : Action Unit) _ = _
      rw [if_pos hopen]
      rfl
    obtain ⟨hresult, hwindows⟩ := start_admit sha config hslot request time
    rw [hrun] at hresult hwindows
    refine ⟨?_, hwindows⟩
    show verdict ((start sha config request time s).1.map fun _ => none) = _
    rw [hresult]
    exact verdict_stopped (by decide)

theorem settle_leaves (call : Started) (answer : Except Error EmbeddingAnswer) (time : Datetime) :
    Exec.Leaves State.rateWindows (settle sha config exceeded call answer time) := by
  cases answer with
  | error e =>
    refine Exec.leaves_bind (Exec.leaves_modify fun s => ?_) fun _ => Exec.leaves_raise e
    split <;> rfl
  | ok result =>
    refine Exec.leaves_bind (Exec.leaves_require _ _) fun _ => ?_
    refine Exec.leaves_bind (Exec.leaves_require _ _) fun _ => ?_
    refine Exec.leaves_bind (Exec.leaves_require _ _) fun _ => ?_
    exact Exec.leaves_bind (Exec.leaves_modify fun _ => rfl) fun _ => Exec.leaves_pure result

/-- **A finish leaves the windows alone.** -/
theorem finish_leaves (index : Nat) (answer : Except Error EmbeddingAnswer) (time : Datetime) :
    Exec.Leaves State.rateWindows (finish sha config exceeded index answer time) := by
  refine Exec.leaves_bind Exec.leaves_read fun s => ?_
  cases s.started[index]? with
  | none => exact Exec.leaves_pure none
  | some call =>
    refine Exec.leaves_bind (Exec.leaves_reify (settle_leaves sha config exceeded call answer time)) fun outcome => ?_
    exact Exec.leaves_bind (Exec.leaves_modify fun _ => rfl) fun _ => Exec.leaves_lift _

end

end Embedding

end Memory

end Aegis
