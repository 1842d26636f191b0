/-
  THE LAWS OF THE MEMORY LEDGER, for any sequence of appends and stored records.

  `append` of the lifecycle is called with identifiers; here is the ledger as ANYONE may call it
  (`appendCall`): any texts, any version.  On identifiers the two are one (`append_eq_call`).  The writer
  digests material that it lists by hand, the reducer the dump of the model; they are the same document
  (`callFact_eq`).

  The ledger is a `FactBook` whose fold needs the record of the memory.  A record is stored once and the
  facts come after it, so storing one never changes how existing facts are folded (`Laws.refold`).
-/
import Mathlib
import Aegis.Lib.FactBook
import Aegis.Memory.Holds

namespace Aegis

namespace Memory

variable {sha : Sha256} {ports : Ports}

/-! ## Appends by anyone -/

/-- What `append` is asked. -/
structure AppendCall where
  tenantId : String
  memoryId : String
  expectedVersion : Int
  factType : MemoryFactType
  commandId : String
  actorRef : String
  recordedAt : Datetime
  payload : Fields

def AppendCall.key (c : AppendCall) : String × String := (c.tenantId, c.memoryId)

def AppendCall.command (c : AppendCall) : String × String := (c.tenantId, c.commandId)

def AppendCall.text (c : AppendCall) : String := fingerprintText c.factType c.memoryId c.payload

/-- The material that the writer digests. -/
def material (sha : Sha256) (c : AppendCall) (sequence : Nat) (previous : Digest) : Json :=
  .obj [("schema_version", .int 1), ("tenant_id", .str c.tenantId), ("memory_id", .str c.memoryId),
    ("sequence", .int sequence),
    ("fact_id", .str (stableId sha "memory-fact"
      [c.tenantId, c.memoryId, sequence.repr, c.commandId] 32)),
    ("fact_type", .str c.factType.value), ("command_id", .str c.commandId),
    ("actor_ref", .str c.actorRef), ("recorded_at", .str c.recordedAt.jsonText),
    ("payload", c.payload.sorted.toJson), ("previous_digest", .str previous.val)]

/-- The fact of a call, validated, with the digest of the material. -/
def callFact (sha : Sha256) (ports : Ports) (c : AppendCall) (version : Nat) (previous : Digest) :
    Except Error MemoryFact := do
  let tenantId ← Identifier.parse "MemoryFact.tenant_id" c.tenantId
  let memoryId ← Identifier.parse "MemoryFact.memory_id" c.memoryId
  let commandId ← Identifier.parse "MemoryFact.command_id" c.commandId
  let actor ← Identifier.parse "MemoryFact.actor_ref" c.actorRef
  if hp : c.payload.sorted.entries.length ≤ 32 then
    if 16384 < ports.reprBytes c.payload.sorted then
      .error ⟨.validationError, "memory fact payload exceeds the immutable bound"⟩
    else if ∃ k ∈ sensitive, k ∈ c.payload.sorted then
      .error ⟨.validationError, "memory fact payload contains prohibited sensitive fields"⟩
    else
      .ok { tenantId, memoryId, sequence := version + 1,
            factId := stableIdentifier sha "memory-fact"
              [c.tenantId, c.memoryId, (version + 1).repr, c.commandId] 32,
            factType := c.factType, commandId, actorRef := actor, recordedAt := c.recordedAt,
            payload := c.payload.sorted, previousDigest := previous,
            factDigest := canonicalDigest sha (material sha c (version + 1) previous),
            sequence_ok := Nat.succ_pos _, payload_ok := hp }
  else .error (validationError "MemoryFact.payload")

/-- `InMemoryMemoryLedger.append`, whoever calls it. -/
def appendCall (sha : Sha256) (ports : Ports) (c : AppendCall) : Action MemoryProjection := do
  let s ← Exec.read
  match s.records c.key with
  | none => Exec.raise ⟨.integrityFailure, "memory record is missing"⟩
  | some record =>
    match s.commands c.command with
    | some existing => do
      Exec.require (existing = sha.hexdigest c.text)
        ⟨.idempotencyConflict, "memory command replay changed"⟩
      match s.projections c.key with
      | none => Exec.raise ⟨.keyError, "projection"⟩
      | some projection => pure projection
    | none => do
      let version := (s.projections c.key).elim 0 (·.version)
      Exec.require ((version : Int) = c.expectedVersion)
        ⟨.concurrencyConflict, "memory aggregate version changed"⟩
      let fact ← Exec.lift (callFact sha ports c version
        ((s.projections c.key).elim zeroHash (·.lastFactDigest)))
      let projection ← Exec.lift (reduceMemory sha (s.projections c.key) fact record)
      Exec.modify fun s => s.record c.key c.command (sha.hexdigest c.text) fact projection
      pure projection

/-- `InMemoryMemoryLedger.rebuild`. -/
def rebuild (sha : Sha256) (key : String × String) : Action MemoryProjection := do
  let s ← Exec.read
  match s.records key with
  | none => Exec.raise ⟨.integrityFailure, "cannot rebuild unknown memory"⟩
  | some record => do
    let projection ← Exec.lift ((s.facts key).foldlM
      (fun current fact => (reduceMemory sha current fact record).map some) none)
    match projection with
    | none => Exec.raise ⟨.integrityFailure, "cannot rebuild memory without facts"⟩
    | some projection => do
      Exec.modify fun s => { s with projections := Function.update s.projections key (some projection) }
      pure projection

/-! ## The ledger is a fact book -/

/-- The three tables that an append writes. -/
def State.book (s : State) :
    FactBook.Book (String × String) (String × String) Digest MemoryFact MemoryProjection :=
  ⟨s.facts, s.commands, s.projections⟩

def State.withBook (s : State)
    (b : FactBook.Book (String × String) (String × String) Digest MemoryFact MemoryProjection) :
    State :=
  { s with facts := b.facts, commands := b.commands, projections := b.projections }

/-- Facts of memories, as a fact book has them: each is folded with the record of its memory. -/
def factKind (sha : Sha256) (records : String × String → Option MemoryRecord) :
    FactBook.Kind (String × String) (String × String) Digest MemoryFact MemoryProjection Digest String
      Error where
  sequence := MemoryFact.sequence
  previous := MemoryFact.previousDigest
  digest := MemoryFact.factDigest
  start := zeroHash
  recompute fact := canonicalDigest sha fact.modelDump
  command key fact := (key.1, fact.commandId.val)
  content key fact := fingerprintText fact.factType key.2 fact.payload
  entry _ text := sha.hexdigest text
  reduce key current fact :=
    match records key with
    | none => .error ⟨.integrityFailure, "cannot rebuild unknown memory"⟩
    | some record => reduceMemory sha current fact record

theorem factKind_reduce {records : String × String → Option MemoryRecord} {key : String × String}
    {record : MemoryRecord} (h : records key = some record) (current : Option MemoryProjection)
    (fact : MemoryFact) :
    (factKind sha records).reduce key current fact = reduceMemory sha current fact record := by
  show (match records key with
    | none => Except.error _
    | some record => reduceMemory sha current fact record) = _
  rw [h]

/-- What a fold leaves: the number and the digest of the fact. -/
theorem reduceMemory_ok {current : Option MemoryProjection} {fact : MemoryFact}
    {record : MemoryRecord} {p : MemoryProjection} (h : reduceMemory sha current fact record = .ok p) :
    p.version = fact.sequence ∧ p.lastFactDigest = fact.factDigest := by
  unfold reduceMemory at h
  split at h
  · cases h
  · split at h
    · cases h
    · obtain ⟨progress, -, h⟩ := except_bind_ok.mp h
      rw [← Except.ok.inj h]
      exact ⟨rfl, rfl⟩

/-- A projection counts the facts and has the digest of the last one. -/
theorem Laws.head {s : State} (h : FactBook.Laws (factKind sha s.records) s.book)
    (key : String × String) :
    (s.projections key).elim 0 (·.version) = (s.facts key).length ∧
      (s.projections key).elim zeroHash (·.lastFactDigest) =
        HashChain.lastDigest MemoryFact.factDigest zeroHash (s.facts key) := by
  rcases h.folded key with ⟨hnil, hnone⟩ | ⟨before, last, current, p, hfacts, hreduce, hp⟩
  · have hnil' : s.facts key = [] := hnil
    have hnone' : s.projections key = none := hnone
    rw [hnil', hnone']
    exact ⟨rfl, rfl⟩
  · have hfacts' : s.facts key = before ++ [last] := hfacts
    have hp' : s.projections key = some p := hp
    have hnumbered : (s.facts key).map MemoryFact.sequence =
        (List.range (s.facts key).length).map (· + 1) := h.numbered key
    have hlast : last.sequence = before.length + 1 := by
      rw [hfacts', List.map_append, List.length_append, List.length_singleton, List.range_succ,
        List.map_append] at hnumbered
      exact (List.cons.inj (List.append_inj' hnumbered rfl).2).1
    have hreduced : p.version = last.sequence ∧ p.lastFactDigest = last.factDigest := by
      have hreduce' : (match s.records key with
        | none => Except.error _
        | some record => reduceMemory sha current last record) = Except.ok p := hreduce
      cases hrecord : s.records key with
      | none =>
        rw [hrecord] at hreduce'
        cases hreduce'
      | some record =>
        rw [hrecord] at hreduce'
        exact reduceMemory_ok hreduce'
    rw [hfacts', hp', HashChain.lastDigest, List.getLast?_concat, List.length_append]
    exact ⟨hreduced.1.trans hlast, hreduced.2⟩

/-- A memory without a record has no facts. -/
theorem Laws.recorded {s : State} (h : FactBook.Laws (factKind sha s.records) s.book)
    {key : String × String} (hnone : s.records key = none) : s.facts key = [] := by
  rcases h.folded key with ⟨hnil, -⟩ | ⟨before, last, current, p, -, hreduce, -⟩
  · exact hnil
  · have hreduce' : (match s.records key with
      | none => Except.error _
      | some record => reduceMemory sha current last record) = Except.ok p := hreduce
    rw [hnone] at hreduce'
    cases hreduce'

theorem callFact_ok {c : AppendCall} {version : Nat} {previous : Digest} {fact : MemoryFact}
    (h : callFact sha ports c version previous = .ok fact) :
    fact.sequence = version + 1 ∧ fact.previousDigest = previous ∧
      fact.factDigest = canonicalDigest sha fact.modelDump ∧ fact.factType = c.factType ∧
      fact.commandId.val = c.commandId ∧ fact.payload = c.payload.sorted := by
  unfold callFact at h
  obtain ⟨tenantId, htenant, h⟩ := except_bind_ok.mp h
  obtain ⟨memoryId, hmemory, h⟩ := except_bind_ok.mp h
  obtain ⟨commandId, hcommand, h⟩ := except_bind_ok.mp h
  obtain ⟨actor, hactor, h⟩ := except_bind_ok.mp h
  have htenant := Identifier.parse_ok htenant
  have hmemory := Identifier.parse_ok hmemory
  have hcommand := Identifier.parse_ok hcommand
  have hactor := Identifier.parse_ok hactor
  split at h
  · split at h
    · cases h
    · split at h
      · cases h
      · rw [← Except.ok.inj h]
        refine ⟨rfl, rfl, ?_, rfl, hcommand, rfl⟩
        show canonicalDigest sha (material sha c _ _) = canonicalDigest sha (MemoryFact.modelDump _)
        simp only [material, MemoryFact.modelDump, stableIdentifier, htenant, hmemory, hcommand, hactor]
  · cases h

/-- **An append answers its command**, and writes the book alone. -/
theorem appendCall_answer {s : State} (h : FactBook.Laws (factKind sha s.records) s.book)
    (c : AppendCall) : ∃ out, appendCall sha ports c s = (out.1, s.withBook out.2) ∧
      FactBook.Answer (factKind sha s.records) s.book c.key c.command c.text out := by
  have hrun : Exec.Sat (appendCall sha ports c) s
      (fun p s' => ∃ b, s' = s.withBook b ∧
        FactBook.Answer (factKind sha s.records) s.book c.key c.command c.text (.ok p, b))
      (fun e s' => ∃ b, s' = s.withBook b ∧
        FactBook.Answer (factKind sha s.records) s.book c.key c.command c.text (.error e, b)) := by
    have hrefused : (s.commands c.command = some (sha.hexdigest c.text) →
        s.projections c.key = none) → ∀ e, ∃ b, s = s.withBook b ∧
          FactBook.Answer (factKind sha s.records) s.book c.key c.command c.text (.error e, b) :=
      fun hother e => ⟨s.book, rfl, .refused e hother⟩
    unfold appendCall
    rw [Exec.sat_bind, Exec.sat_read]
    cases hrecord : s.records c.key with
    | none =>
      refine hrefused (fun _ => ?_) _
      rcases h.folded c.key with ⟨-, hnone⟩ | ⟨before, last, -, -, hfacts, -⟩
      · exact hnone
      · have hnil : s.facts c.key = before ++ [last] := hfacts
        rw [Laws.recorded h hrecord] at hnil
        exact absurd hnil (by simp)
    | some record =>
      cases hknown : s.commands c.command with
      | some prior =>
        refine Exec.Sat.check (fun hne => hrefused (fun hsame => ?_) _) (fun heq => ?_)
        · rw [hknown] at hsame
          exact absurd (Option.some.inj hsame) hne
        · cases hp : s.projections c.key with
          | none => exact hrefused (fun _ => hp) _
          | some p =>
            have hentry : s.commands c.command = some (sha.hexdigest c.text) := by rw [hknown, heq]
            exact ⟨s.book, rfl, .replayed p hentry hp⟩
      | none =>
        have hfails := hrefused (fun hsame => by rw [hknown] at hsame; cases hsame)
        refine Exec.Sat.check (fun _ => hfails _) (fun _ => ?_)
        refine Exec.Sat.attempt (fun e _ => hfails e) (fun fact hfact => ?_)
        refine Exec.Sat.attempt (fun e _ => hfails e) (fun p hp => ?_)
        obtain ⟨hsequence, hprevious, hdigest, htype, hcommand, hpayload⟩ := callFact_ok hfact
        obtain ⟨hversion, hlast⟩ := Laws.head h c.key
        refine ⟨s.book.record c.key c.command (sha.hexdigest c.text) fact p, rfl,
          .recorded fact p ⟨hknown, hsequence.trans (congrArg (· + 1) hversion),
            hprevious.trans hlast, hdigest, congrArg (Prod.mk c.tenantId) hcommand, ?_, ?_⟩⟩
        · show fingerprintText fact.factType c.memoryId fact.payload = c.text
          rw [htype, hpayload, AppendCall.text, fingerprintText_sorted]
        · exact (factKind_reduce hrecord _ _).trans hp
  have hout := hrun.outcome (P := fun r s' => ∃ b, s' = s.withBook b ∧
    FactBook.Answer (factKind sha s.records) s.book c.key c.command c.text (r, b))
  obtain ⟨b, hb, hanswer⟩ := hout
  exact ⟨((appendCall sha ports c s).1, b), Prod.ext rfl hb, hanswer⟩

/-- A memory whose projection is stored is rebuilt to it, and nothing changes. -/
theorem rebuild_stored {s : State} (h : FactBook.Laws (factKind sha s.records) s.book)
    {key : String × String} {p : MemoryProjection} (hp : s.projections key = some p) :
    rebuild sha key s = (.ok p, s) := by
  cases hrecord : s.records key with
  | none =>
    rcases h.folded key with ⟨-, hnone⟩ | ⟨before, last, -, -, hfacts, -⟩
    · have hnone' : s.projections key = none := hnone
      rw [hnone'] at hp
      cases hp
    · have hnil : s.facts key = before ++ [last] := hfacts
      rw [Laws.recorded h hrecord] at hnil
      exact absurd hnil (by simp)
  | some record =>
    have hreplay : (s.facts key).foldlM
        (fun current fact => (reduceMemory sha current fact record).map some) none = .ok (some p) := by
      have hfold : (factKind sha s.records).replay key (s.facts key) = .ok (some p) := h.rebuilt hp
      unfold FactBook.Kind.replay at hfold
      simp only [factKind_reduce hrecord] at hfold
      exact hfold
    have hsame : Function.update s.projections key (some p) = s.projections := by
      rw [← hp, Function.update_eq_self]
    unfold rebuild
    show Exec.andThen Exec.read _ s = _
    unfold Exec.andThen Exec.read
    simp only [hrecord, hreplay]
    show (Except.ok p, { s with projections := Function.update s.projections key (some p) }) = _
    rw [hsame]

/-! ## Sequences of calls -/

inductive LedgerOp where
  | putRecord (record : MemoryRecord)
  | append (call : AppendCall)

/-- One call: the projection of an append, or nothing. -/
def ledgerStep (sha : Sha256) (ports : Ports) (s : State) :
    LedgerOp → Except Error (Option MemoryProjection) × State
  | .putRecord record => ((putRecord record s).1.map fun _ => none, (putRecord record s).2)
  | .append c => ((appendCall sha ports c s).1.map some, (appendCall sha ports c s).2)

def ledgerRun (sha : Sha256) (ports : Ports) (ops : List LedgerOp) : State :=
  Machine.final (ledgerStep sha ports) State.start ops

abbrev LedgerEntry := Machine.Entry State LedgerOp (Except Error (Option MemoryProjection))

def ledgerHistory (sha : Sha256) (ports : Ports) (ops : List LedgerOp) : List LedgerEntry :=
  Machine.trace (ledgerStep sha ports) State.start ops

/-- A stored record: the one before it stays, and nothing else changes. -/
theorem putRecord_stored (s : State) (record : MemoryRecord) :
    (putRecord record s).2 = s ∨ (s.records record.key = none ∧ (putRecord record s).1 = .ok () ∧
      (putRecord record s).2 =
        { s with records := Function.update s.records record.key (some record) }) := by
  have hrun : Exec.Sat (putRecord record) s
      (fun _ s' => s' = s ∨ (s.records record.key = none ∧
        s' = { s with records := Function.update s.records record.key (some record) }))
      (fun _ s' => s' = s) := by
    unfold putRecord
    rw [Exec.sat_bind, Exec.sat_read]
    cases hrecord : s.records record.key with
    | some existing =>
      rw [Exec.sat_require]
      exact ⟨fun _ => .inl rfl, fun _ => rfl⟩
    | none => exact .inr ⟨rfl, rfl⟩
  rcases hresult : putRecord record s with ⟨result, s'⟩
  cases result with
  | error e => exact .inl (hrun.error hresult)
  | ok u =>
    rcases hrun.ok hresult with hsame | ⟨hnone, hnew⟩
    · exact .inl hsame
    · exact .inr ⟨hnone, rfl, hnew⟩

/-- The laws, with the records as they are. -/
def LedgerLaws (sha : Sha256) (s : State) : Prop :=
  FactBook.Laws (factKind sha s.records) s.book

theorem ledgerLaws_start : LedgerLaws sha State.start :=
  (FactBook.Laws.empty : FactBook.Laws (factKind sha State.start.records) .empty)

/-- A new record keeps the laws. -/
theorem LedgerLaws.stored {s : State} (h : LedgerLaws sha s) {record : MemoryRecord}
    (hnone : s.records record.key = none) :
    LedgerLaws sha { s with records := Function.update s.records record.key (some record) } := by
  refine FactBook.Laws.refold (K := factKind sha s.records) h rfl (fun key hfacts => ?_)
  -- facts come after their record, so the new record is not of this memory
  have hne : key ≠ record.key := by
    rintro rfl
    exact hfacts (Laws.recorded h hnone)
  have hkept : Function.update s.records record.key (some record) key = s.records key :=
    Function.update_of_ne hne _ _
  funext current fact
  show (match Function.update s.records record.key (some record) key with
    | none => _
    | some r => reduceMemory sha current fact r) = _
  rw [hkept]
  rfl

/-- **Every call keeps the laws**, whether or not it succeeds. -/
theorem LedgerLaws.step {s : State} (h : LedgerLaws sha s) (op : LedgerOp) :
    LedgerLaws sha (ledgerStep sha ports s op).2 := by
  cases op with
  | append c =>
    obtain ⟨out, hout, hanswer⟩ := @appendCall_answer _ ports _ h c
    show LedgerLaws sha (appendCall sha ports c s).2
    rw [hout]
    exact h.answered hanswer
  | putRecord record =>
    show LedgerLaws sha (putRecord record s).2
    rcases putRecord_stored s record with hsame | ⟨hnone, -, hnew⟩
    · rw [hsame]
      exact h
    · rw [hnew]
      exact h.stored hnone

theorem ledgerRun_laws (ops : List LedgerOp) : LedgerLaws sha (ledgerRun sha ports ops) :=
  Machine.run_invariant_all (I := fun s => LedgerLaws sha s) (fun _ op h => LedgerLaws.step h op) _
    ledgerLaws_start ops

/-- The contents of the facts are contents that were asked. -/
theorem ledgerRun_asked {A : String → Prop} {ops : List LedgerOp}
    (hA : ∀ c, LedgerOp.append c ∈ ops → A c.text) :
    FactBook.Asked (factKind sha (ledgerRun sha ports ops).records) (fun _ text => A text)
      (ledgerRun sha ports ops).book := by
  have hrun : LedgerLaws sha (ledgerRun sha ports ops) ∧ ∀ key,
      ∀ fact ∈ (ledgerRun sha ports ops).facts key,
        A (fingerprintText fact.factType key.2 fact.payload) := by
    refine Machine.run_invariant (C := fun _ op => ∀ c, op = .append c → A c.text)
      (I := fun s => LedgerLaws sha s ∧ ∀ key, ∀ fact ∈ s.facts key,
        A (fingerprintText fact.factType key.2 fact.payload)) (fun s op h hop => ?_) ops _
      ⟨ledgerLaws_start, fun _ _ hfact => absurd hfact List.not_mem_nil⟩ (fun e he => ?_)
    · refine ⟨LedgerLaws.step h.1 op, ?_⟩
      cases op with
      | append c =>
        obtain ⟨out, hout, hanswer⟩ := @appendCall_answer _ ports _ h.1 c
        have hbefore : FactBook.Asked (factKind sha s.records) (fun _ text => A text) s.book := h.2
        have hasked := hbefore.answered (hop c rfl) hanswer
        show ∀ key, ∀ fact ∈ (appendCall sha ports c s).2.facts key, _
        rw [hout]
        exact hasked
      | putRecord record =>
        show ∀ key, ∀ fact ∈ (putRecord record s).2.facts key, _
        rcases putRecord_stored s record with hsame | ⟨-, -, hnew⟩
        · rw [hsame]
          exact h.2
        · rw [hnew]
          exact h.2
    · intro c hop
      obtain ⟨xs, ys, hops, -⟩ := Machine.trace_mem he
      refine hA c ?_
      rw [hops, hop]
      exact List.mem_append_right _ List.mem_cons_self
  exact hrun.2

/-! ## What a call answers -/

/-- The command is repeated, with the content it had. -/
def SameContent (c : AppendCall) (memoryId : String) (fact : MemoryFact) : Prop :=
  memoryId = c.memoryId ∧ fact.factType = c.factType ∧ fact.payload.toJson.Same c.payload.toJson

/-- What an append answers to a command that a fact has already. -/
structure RepeatLaw (e : LedgerEntry) (c : AppendCall) : Prop where
  same : ∀ memoryId, ∀ fact ∈ e.before.facts (c.tenantId, memoryId),
    fact.commandId.val = c.commandId → SameContent c memoryId fact →
    ∃ p, e.before.projections c.key = some p ∧ e.result = .ok (some p) ∧ e.after = e.before
  other : ∀ memoryId, ∀ fact ∈ e.before.facts (c.tenantId, memoryId),
    fact.commandId.val = c.commandId → ¬SameContent c memoryId fact →
    ∃ error, e.result = .error error ∧ e.after = e.before

theorem sorted_same {payload payload' : Fields} (h : payload.toJson.Same payload'.toJson) :
    payload.sorted.toJson.Same payload'.sorted.toJson := by
  have h₁ : sortKeys payload.sorted.toJson = sortKeys payload.toJson := Fields.toJson_sorted payload
  have h₂ : sortKeys payload'.sorted.toJson = sortKeys payload'.toJson := Fields.toJson_sorted payload'
  have h₃ : sortKeys payload.toJson = sortKeys payload'.toJson := h
  show sortKeys payload.sorted.toJson = sortKeys payload'.sorted.toJson
  rw [h₁, h₂, h₃]

theorem same_of_sorted {payload payload' : Fields}
    (h : payload.sorted.toJson.Same payload'.sorted.toJson) : payload.toJson.Same payload'.toJson := by
  have h₁ : sortKeys payload.sorted.toJson = sortKeys payload.toJson := Fields.toJson_sorted payload
  have h₂ : sortKeys payload'.sorted.toJson = sortKeys payload'.toJson := Fields.toJson_sorted payload'
  have h₃ : sortKeys payload.sorted.toJson = sortKeys payload'.sorted.toJson := h
  show sortKeys payload.toJson = sortKeys payload'.toJson
  rw [← h₁, ← h₂, h₃]

/-- **Repeated commands.** -/
theorem repeatLaw_of_history {ops : List LedgerOp}
    (hfree : sha.CollisionFree {x | ∃ c, LedgerOp.append c ∈ ops ∧ x = c.text}) {e : LedgerEntry}
    (he : e ∈ ledgerHistory sha ports ops) {c : AppendCall} (hop : e.op = .append c) :
    RepeatLaw e c := by
  obtain ⟨xs, ys, hops, hentry⟩ := Machine.trace_mem he
  rw [hop] at hops hentry
  have hbefore : e.before = ledgerRun sha ports xs := congrArg Machine.Entry.before hentry
  have hlaws : LedgerLaws sha e.before := hbefore ▸ ledgerRun_laws xs
  have hasked := @ledgerRun_asked sha ports (fun text => ∃ c, LedgerOp.append c ∈ ops ∧ text = c.text) xs
    (fun c' hc' => ⟨c', by rw [hops]; simp [hc'], rfl⟩)
  rw [← hbefore] at hasked
  obtain ⟨out, hout, hanswer⟩ := @appendCall_answer _ ports _ hlaws c
  have hresult : e.result = out.1.map some ∧ e.after = e.before.withBook out.2 := by
    rw [hbefore] at hout ⊢
    rw [hentry]
    exact ⟨congrArg (fun r => r.1.map some) hout, congrArg Prod.snd hout⟩
  constructor
  · rintro memoryId fact hfact hcommand ⟨rfl, htype, hpayload⟩
    obtain ⟨p, hp, rfl⟩ := hlaws.answer_same (show fact ∈ e.before.book.facts c.key from hfact)
      (congrArg (Prod.mk c.tenantId) hcommand)
      (by
        show fingerprintText fact.factType c.memoryId fact.payload = c.text
        rw [htype, AppendCall.text]
        refine canonicalJson_inj.mpr ?_
        have hsorted : sortKeys fact.payload.sorted.toJson = sortKeys c.payload.sorted.toJson :=
          sorted_same hpayload
        show sortKeys (.obj [_, _, _]) = sortKeys (.obj [_, _, _])
        simp only [sortKeys, sortKeysFields, hsorted]) hanswer
    exact ⟨p, hp, hresult.1, hresult.2⟩
  · intro memoryId fact hfact hcommand hother
    obtain ⟨error, rfl⟩ := hlaws.answer_other
      (show fact ∈ e.before.book.facts (c.tenantId, memoryId) from hfact)
      (congrArg (Prod.mk c.tenantId) hcommand)
      (by
        intro hsame
        -- one digest, so one text
        have htext := hfree.hexdigest (hasked (c.tenantId, memoryId) fact hfact)
          ⟨c, by rw [hops]; simp, rfl⟩ hsame
        obtain ⟨htype, hmemory, hpayload⟩ := fingerprintText_inj htext
        exact hother ⟨hmemory, htype, same_of_sorted hpayload⟩) hanswer
    exact ⟨error, hresult.1, hresult.2⟩

/-- A failing call changes nothing. -/
theorem failed_call {ops : List LedgerOp} {e : LedgerEntry} (he : e ∈ ledgerHistory sha ports ops)
    {error : Error} (herror : e.result = .error error) : e.after = e.before := by
  obtain ⟨xs, ys, -, hentry⟩ := Machine.trace_mem he
  have hbefore : e.before = ledgerRun sha ports xs := congrArg Machine.Entry.before hentry
  have hlaws : LedgerLaws sha e.before := hbefore ▸ ledgerRun_laws xs
  have hstep : e.result = (ledgerStep sha ports e.before e.op).1 ∧
      e.after = (ledgerStep sha ports e.before e.op).2 := by
    rw [hbefore]
    exact ⟨congrArg Machine.Entry.result hentry, congrArg Machine.Entry.after hentry⟩
  rw [hstep.1] at herror
  rw [hstep.2]
  cases hop : e.op with
  | append c =>
    rw [hop] at herror
    obtain ⟨out, hout, hanswer⟩ := @appendCall_answer _ ports _ hlaws c
    have hresult : out.1.map some = .error error := by
      rw [← herror]
      exact (congrArg (fun r => r.1.map some) hout).symm
    show (appendCall sha ports c e.before).2 = _
    rw [hout]
    have hfailed : ∃ e', out.1 = .error e' := by
      cases h : out.1 with
      | ok p =>
        rw [h] at hresult
        cases hresult
      | error e' => exact ⟨e', rfl⟩
    obtain ⟨e', he'⟩ := hfailed
    rw [hanswer.error he']
    rfl
  | putRecord record =>
    rw [hop] at herror
    show (putRecord record e.before).2 = _
    rcases putRecord_stored e.before record with hsame | ⟨-, hok, -⟩
    · exact hsame
    · have hresult : ((putRecord record e.before).1.map fun _ => (none : Option MemoryProjection)) =
          .error error := herror
      rw [hok] at hresult
      cases hresult

end Memory

end Aegis
