/-
  WHAT A CALL OF THE MEMORY SERVICE MAY DO, said once.

  A call goes along a path of EVENTS: the clock or a port is asked, a record is stored, the index
  changes, a blob is erased, a fact is recorded.  A recorded fact is always the next of its memory under
  a command id that was new; and it is about a legal hold only in a `set_legal_hold` call, which then
  fixes its type, its command and its payload (`Records`).
-/
import Mathlib
import Aegis.Lib.Events
import Aegis.Memory.Lifecycle

namespace Aegis

namespace Memory

open Exec (Path Sat Traced)

variable {sha : Sha256} {ports : Ports}

/-! ## Events -/

inductive Event where
  | tick
  | putRecord (record : MemoryRecord)
  | items (items : AList (fun _ : String × String => IndexedChunk))
  | erase (blob : ErasableBlobReference)
  | record (key command : String × String) (fingerprint : Digest) (fact : MemoryFact)
    (projection : MemoryProjection)

def Event.apply : Event → State → State
  | .tick, s => { s with tick := s.tick + 1 }
  | .putRecord r, s => { s with records := Function.update s.records r.key (some r) }
  | .items xs, s => { s with items := xs }
  | .erase blob, s => { s with tick := s.tick + 1, erased := s.erased ++ [blob] }
  | .record key command fingerprint fact projection, s =>
    s.record key command fingerprint fact projection

/-- The command id of a hold. -/
def holdCommand (sha : Sha256) (key : String × String) (holdRef : String) (applied : Bool) :
    String :=
  stableId sha "memory-command" [key.1, key.2, holdSuffix holdRef applied] 32

/-- The facts a call records: those about a hold are its own. -/
def Records (sha : Sha256) (op : Op) (key : String × String) (factType : MemoryFactType)
    (commandId : String) (payload : Fields) : Prop :=
  (∀ applied, factType ≠ holdType applied) ∨
    ∃ holdRef applied actorRef, op = .setLegalHold key.1 key.2 holdRef applied actorRef ∧
      factType = holdType applied ∧ commandId = holdCommand sha key holdRef applied ∧
      payload = holdPayload sha holdRef

/-- The fact is the next one of its memory, under a new command. -/
structure Recorded (sha : Sha256) (t : State) (key : String × String) (factType : MemoryFactType)
    (commandId : String) (payload : Fields) (fact : MemoryFact) (p : MemoryProjection) : Prop where
  fresh : t.commands (key.1, commandId) = none
  factType : fact.factType = factType
  command : fact.commandId.val = commandId
  payload : fact.payload = payload.sorted
  reduced : ∃ record, t.records key = some record ∧
    reduceMemory sha (t.projections key) fact record = .ok p

inductive May (sha : Sha256) (op : Op) (t : State) : Event → Prop
  | tick : May sha op t .tick
  | putRecord (record : MemoryRecord) (evidence : NormalizedEvidence) (actorRef : String)
    (acceptance : MemoryAcceptance) (spec : EmbeddingSpec)
    (hop : op = .ingest record evidence actorRef acceptance spec)
    (hnew : t.records record.key = none) : May sha op t (.putRecord record)
  | items (items : AList (fun _ : String × String => IndexedChunk)) : May sha op t (.items items)
  | erase (blob : ErasableBlobReference) : May sha op t (.erase blob)
  | record (key : String × String) (factType : MemoryFactType) (commandId : String)
    (payload : Fields) (fact : MemoryFact) (p : MemoryProjection)
    (hrecords : Records sha op key factType commandId payload)
    (hrecorded : Recorded sha t key factType commandId payload fact p) :
    May sha op t (.record key (key.1, commandId)
      (sha.hexdigest (fingerprintText factType key.2 payload)) fact p)

/-- An action of a call goes along its events. -/
abbrev Goes (sha : Sha256) (op : Op) {α : Type} (x : Action α) (t : State)
    (P : α → State → Prop) : Prop := Traced Event.apply (May sha op) x t P

/-! ## Appending -/

theorem buildFact_ok {tenantId memoryId : Identifier} {version : Nat} {previous : Digest}
    {factType : MemoryFactType} {commandId : Identifier} {actorRef : String} {time : Datetime}
    {payload : Fields} {fact : MemoryFact}
    (h : buildFact sha ports tenantId memoryId version previous factType commandId actorRef time
      payload = .ok fact) :
    fact.factType = factType ∧ fact.commandId = commandId ∧ fact.payload = payload.sorted := by
  unfold buildFact at h
  obtain ⟨actor, -, h⟩ := except_bind_ok.mp h
  split at h
  · split at h
    · cases h
    · split at h
      · cases h
      · rw [← Except.ok.inj h]
        exact ⟨rfl, rfl, rfl⟩
  · cases h

/-- How an append returns: a known command with the same fingerprint, or a new fact. -/
inductive Appended (sha : Sha256) (t : State) (key : String × String) (factType : MemoryFactType)
    (commandId : String) (payload : Fields) (p : MemoryProjection) : State → Prop
  | replayed (hknown : t.commands (key.1, commandId)
      = some (sha.hexdigest (fingerprintText factType key.2 payload)))
    (hprojection : t.projections key = some p) :
    Appended sha t key factType commandId payload p t
  | recorded (fact : MemoryFact) (hrecorded : Recorded sha t key factType commandId payload fact p) :
    Appended sha t key factType commandId payload p (t.record key (key.1, commandId)
      (sha.hexdigest (fingerprintText factType key.2 payload)) fact p)

/-- An append that raises changes nothing. -/
theorem ledger_append_sat {t : State} {tenantId memoryId : Identifier} {expected : Nat}
    {factType : MemoryFactType} {commandId : Identifier} {actorRef : String} {time : Datetime}
    {payload : Fields} :
    Sat (append sha ports tenantId memoryId expected factType commandId actorRef time payload) t
      (fun p t' => Appended sha t (tenantId.val, memoryId.val) factType commandId.val payload p t')
      (fun _ t' => t' = t) := by
  show Sat (Exec.read >>= _) t _ _
  rw [Exec.sat_bind, Exec.sat_read]
  dsimp only
  cases hrecord : t.records (tenantId.val, memoryId.val) with
  | none => exact (Exec.sat_raise _).mpr rfl
  | some record =>
    cases hknown : t.commands (tenantId.val, commandId.val) with
    | some existing =>
      refine Sat.check (fun _ => rfl) (fun hsame => ?_)
      cases hprojection : t.projections (tenantId.val, memoryId.val) with
      | none => exact (Exec.sat_raise _).mpr rfl
      | some p =>
        refine (Exec.sat_pure p).mpr (.replayed ?_ hprojection)
        rw [← hsame]
        exact hknown
    | none =>
      refine Sat.check (fun _ => rfl) (fun _ => ?_)
      refine Sat.attempt (fun _ _ => rfl) (fun fact hfact => ?_)
      refine Sat.attempt (fun _ _ => rfl) (fun p hp => ?_)
      rw [Exec.sat_bind, Exec.sat_modify, Exec.sat_pure]
      obtain ⟨htype, hcommand, hpayload⟩ := buildFact_ok hfact
      exact .recorded fact ⟨hknown, htype, congrArg Subtype.val hcommand, hpayload, record, hrecord, hp⟩

/-- A payload that a fact may carry. -/
structure PayloadOk (ports : Ports) (payload : Fields) : Prop where
  entries : payload.sorted.entries.length ≤ 32
  bytes : ports.reprBytes payload.sorted ≤ 16384
  plain : ∀ k ∈ sensitive, k ∉ payload.sorted

/-- A fact is built from a valid actor and payload, and it follows what it was built after. -/
theorem buildFact_total (sha : Sha256) (record : MemoryRecord) (current : Option MemoryProjection)
    (factType : MemoryFactType) (commandId : Identifier) {actorRef : String} (time : Datetime)
    {payload : Fields} (hactor : isIdentifier actorRef = true) (hpayload : PayloadOk ports payload) :
    ∃ fact, buildFact sha ports record.tenantId record.memoryId (current.elim 0 (·.version))
      (current.elim zeroHash (·.lastFactDigest)) factType commandId actorRef time payload = .ok fact ∧
        chained sha current fact record := by
  unfold buildFact
  rw [Identifier.parse, dif_pos hactor]
  dsimp only [bind, Except.bind]
  rw [dif_pos hpayload.entries, if_neg (Nat.not_lt.mpr hpayload.bytes), if_neg (by
      rintro ⟨k, hk, hmem⟩
      exact hpayload.plain k hk hmem)]
  exact ⟨_, rfl, rfl, rfl, rfl, rfl, rfl⟩

theorem reduceMemory_total {current : Option MemoryProjection} {fact : MemoryFact}
    {record : MemoryRecord} (hchained : chained sha current fact record)
    (hstart : current = none → fact.factType = .candidateProposed) {progress : Progress}
    (hprogress : (current.elim Progress.start (·.toProgress)).advance fact.factType fact.payload
      = .ok progress) :
    ∃ p, reduceMemory sha current fact record = .ok p := by
  unfold reduceMemory
  rw [if_neg (not_not.mpr hchained), if_neg (by
    rintro ⟨hnone, htype⟩
    exact htype (hstart (Option.isNone_iff_eq_none.mp hnone))), hprogress]
  exact ⟨_, rfl⟩

def State.ticked (s : State) : State := { s with tick := s.tick + 1 }

theorem appendFact_sat {t : State} {record : MemoryRecord} {expected : Nat}
    {factType : MemoryFactType} {suffix actorRef : String} {payload : Fields} :
    Sat (appendFact sha ports record expected factType suffix actorRef payload) t
      (fun p t' => Appended sha t.ticked record.key factType (commandIdOf sha record suffix).val
        payload p t')
      (fun _ t' => t' = t.ticked) := by
  have hnow : Sat (now ports) t (fun _ t' => t' = t.ticked) (fun _ _ => False) := rfl
  show Sat (now ports >>= _) t _ _
  refine Sat.call hnow (fun _ _ h => h.elim) ?_
  rintro time t' rfl
  exact ledger_append_sat

/-- A new command at the current version, whose fact the lifecycle accepts, is recorded. -/
theorem appendFact_recorded {t : State} {record : MemoryRecord} {factType : MemoryFactType}
    {suffix actorRef : String} {payload : Fields} {progress : Progress}
    (hrecord : t.records record.key = some record)
    (hfresh : t.commands (record.tenantId.val, (commandIdOf sha record suffix).val) = none)
    (hactor : isIdentifier actorRef = true) (hpayload : PayloadOk ports payload)
    (hstart : t.projections record.key = none → factType = .candidateProposed)
    (hprogress : ((t.projections record.key).elim Progress.start (·.toProgress)).advance factType
      payload.sorted = .ok progress) :
    Sat (appendFact sha ports record ((t.projections record.key).elim 0 (·.version)) factType suffix
        actorRef payload) t
      (fun p t' => ∃ fact, Recorded sha t.ticked record.key factType
        (commandIdOf sha record suffix).val payload fact p ∧
          t' = t.ticked.record record.key (record.tenantId.val, (commandIdOf sha record suffix).val)
            (sha.hexdigest (fingerprintText factType record.memoryId.val payload)) fact p)
      (fun _ _ => False) := by
  have hnow : Sat (now ports) t (fun _ t' => t' = t.ticked) (fun _ _ => False) := rfl
  show Sat (now ports >>= _) t _ _
  refine Sat.call hnow (fun _ _ h => h.elim) ?_
  rintro time t' rfl
  obtain ⟨fact, hbuilt, hchained⟩ := buildFact_total sha record (t.projections record.key) factType
    (commandIdOf sha record suffix) time hactor hpayload
  obtain ⟨htype, hcommand, hsorted⟩ := buildFact_ok hbuilt
  rw [← htype, ← hsorted] at hprogress
  obtain ⟨p, hreduced⟩ := reduceMemory_total hchained (fun h => htype.trans (hstart h)) hprogress
  show Sat (Exec.read >>= _) t.ticked _ _
  rw [Exec.sat_bind, Exec.sat_read]
  dsimp only
  rw [show t.ticked.records (record.tenantId.val, record.memoryId.val) = some record from hrecord]
  dsimp only
  rw [show t.ticked.commands (record.tenantId.val, (commandIdOf sha record suffix).val) = none
    from hfresh]
  refine Sat.check (fun h => absurd rfl h) (fun _ => ?_)
  refine Sat.attempt (fun e he => ?_) (fun fact' hfact' => ?_)
  · cases hbuilt.symm.trans he
  · obtain rfl := Except.ok.inj (hbuilt.symm.trans hfact')
    refine Sat.attempt (fun e he => ?_) (fun p' hp' => ?_)
    · cases hreduced.symm.trans he
    · rw [Exec.sat_bind, Exec.sat_modify, Exec.sat_pure]
      exact ⟨fact, ⟨hfresh, htype, congrArg Subtype.val hcommand, hsorted, record, hrecord, hp'⟩, rfl⟩

section Methods

variable {op : Op} {t : State}

theorem now_goes : Goes sha op (now ports) t (fun _ _ => True) := by
  refine Traced.reading (Traced.write Event.tick rfl May.tick ?_)
  exact Traced.ret trivial

/-- An append goes along its events when the call may record its fact. -/
theorem appendFact_path {record : MemoryRecord} {expected : Nat} {factType : MemoryFactType}
    {suffix actorRef : String} {payload : Fields}
    (hrecords : Records sha op record.key factType (commandIdOf sha record suffix).val payload) :
    Goes sha op (appendFact sha ports record expected factType suffix actorRef payload) t
      (fun p t' => Appended sha t.ticked record.key factType (commandIdOf sha record suffix).val
        payload p t') := by
  have htick : Path Event.apply (May sha op) t t.ticked := Path.single Event.tick May.tick
  refine appendFact_sat.mono ?_ ?_
  · intro p t' happended
    refine ⟨?_, happended⟩
    cases happended with
    | replayed => exact htick
    | recorded fact hrecorded =>
      exact htick.trans (Path.single (Event.record _ _ _ _ _) (May.record _ _ _ _ _ _ hrecords hrecorded))
  · rintro e t' rfl
    exact htick

/-- The facts that are not about holds may be recorded by every call. -/
theorem appendFact_goes {record : MemoryRecord} {expected : Nat} {factType : MemoryFactType}
    {suffix actorRef : String} {payload : Fields}
    (htype : ∀ applied, factType ≠ holdType applied := by decide) :
    Goes sha op (appendFact sha ports record expected factType suffix actorRef payload) t
      (fun _ _ => True) :=
  (appendFact_path (.inl htype)).weaken (fun _ _ _ => trivial)

theorem requireMemory_goes {tenantId memoryId noRecord noProjection : String} :
    Goes sha op (requireMemory tenantId memoryId noRecord noProjection) t
      (fun r t' => t' = t ∧ t.records (tenantId, memoryId) = some r.1 ∧
        t.projections (tenantId, memoryId) = some r.2) := by
  refine Traced.reading ?_
  cases hrecord : t.records (tenantId, memoryId) with
  | none => exact Traced.raised _
  | some record =>
    cases hprojection : t.projections (tenantId, memoryId) with
    | none => exact Traced.raised _
    | some projection => exact Traced.ret ⟨rfl, rfl, rfl⟩

theorem lift_goes {α : Type} (r : Except Error α) : Goes sha op (Exec.lift r) t (fun _ _ => True) := by
  cases r with
  | ok a => exact Traced.ret trivial
  | error e => exact Traced.raised e

theorem putRecord_goes {record : MemoryRecord} {evidence : NormalizedEvidence} {actorRef : String}
    {acceptance : MemoryAcceptance} {spec : EmbeddingSpec}
    (hop : op = .ingest record evidence actorRef acceptance spec) :
    Goes sha op (putRecord record) t (fun _ _ => True) := by
  refine Traced.reading ?_
  cases hrecord : t.records record.key with
  | some existing => exact Traced.checked (fun _ => trivial)
  | none =>
    exact Traced.wrote (Event.putRecord record) rfl
      (May.putRecord record evidence actorRef acceptance spec hop hrecord) trivial

theorem index_goes {item : IndexedChunk} : Goes sha op (index item) t (fun _ _ => True) :=
  Traced.check (fun _ => Traced.wrote (Event.items _) (by rfl) (May.items _) trivial)

theorem purge_goes {tenantId memoryId : String} :
    Goes sha op (purge tenantId memoryId) t (fun _ _ => True) := by
  refine Traced.reading (Traced.write (Event.items _) (by rfl) (May.items _) ?_)
  exact Traced.ret trivial

theorem callEmbedder_goes {request : EmbeddingRequest} :
    Goes sha op (callEmbedder ports request) t (fun _ _ => True) :=
  Traced.reading (Traced.write Event.tick rfl May.tick (lift_goes _))

theorem callEraser_goes {blob : ErasableBlobReference} :
    Goes sha op (callEraser ports blob) t (fun _ _ => True) :=
  Traced.reading (Traced.write (Event.erase blob) rfl (May.erase blob) (lift_goes _))

theorem forEach_goes {α : Type} {as : List α} {body : α → Action Unit}
    (h : ∀ a t', Goes sha op (body a) t' (fun _ _ => True)) :
    Goes sha op (Exec.forEach as body) t (fun _ _ => True) := by
  induction as generalizing t with
  | nil => exact Traced.ret trivial
  | cons a as ih => exact (h a t).bind (fun _ _ _ => ih)

theorem indexChunk_goes {record : MemoryRecord} {vectors : List EmbeddingVector}
    {indexedAt : Datetime} {chunk : MemoryChunk} :
    Goes sha op (indexChunk record vectors indexedAt chunk) t (fun _ _ => True) := by
  unfold indexChunk
  split
  · exact Traced.raised _
  · exact index_goes

/-! ## The methods -/

theorem ingestAccepted_goes {record : MemoryRecord} {evidence : NormalizedEvidence}
    {actorRef : String} {spec : EmbeddingSpec} {accepted : MemoryProjection} :
    Goes sha op (ingestAccepted sha ports record evidence actorRef spec accepted) t
      (fun _ _ => True) := by
  refine Traced.bind appendFact_goes (fun scanning _ _ => ?_)
  refine Traced.bind appendFact_goes (fun scanned _ _ => ?_)
  refine Traced.bind appendFact_goes (fun chunking _ _ => ?_)
  refine (lift_goes _).bind (fun chunks _ _ => ?_)
  refine Traced.bind appendFact_goes (fun chunked _ _ => ?_)
  refine (lift_goes _).bind (fun request _ _ => ?_)
  refine Traced.bind appendFact_goes (fun embedding _ _ => ?_)
  refine callEmbedder_goes.bind (fun result _ _ => ?_)
  refine Traced.bind appendFact_goes (fun embedded _ _ => ?_)
  refine Traced.bind appendFact_goes (fun indexing _ _ => ?_)
  refine now_goes.bind (fun indexedAt _ _ => ?_)
  refine (forEach_goes (fun _ _ => indexChunk_goes)).bind (fun _ _ _ => ?_)
  exact appendFact_goes

theorem ingest_goes {record : MemoryRecord} {evidence : NormalizedEvidence} {actorRef : String}
    {acceptance : MemoryAcceptance} {spec : EmbeddingSpec} :
    Goes sha (.ingest record evidence actorRef acceptance spec)
      (ingest sha ports record evidence actorRef acceptance spec) t (fun _ _ => True) := by
  refine Traced.check (fun _ => Traced.check (fun _ => ?_))
  refine (putRecord_goes rfl).bind (fun _ _ _ => ?_)
  refine Traced.bind appendFact_goes (fun proposed _ _ => ?_)
  split
  · exact appendFact_goes
  · refine Traced.check (fun _ => ?_)
    exact Traced.bind appendFact_goes (fun accepted _ _ => ingestAccepted_goes)

theorem rebuiltItems_goes {record : MemoryRecord} {vectors : List EmbeddingVector}
    {chunks : List MemoryChunk} :
    Goes sha op (rebuiltItems ports record vectors chunks) t (fun _ _ => True) := by
  induction chunks generalizing t with
  | nil => exact Traced.ret trivial
  | cons chunk chunks ih =>
    unfold rebuiltItems
    split
    · exact Traced.raised _
    · refine now_goes.bind (fun indexedAt _ _ => ?_)
      exact ih.bind (fun rest _ _ => Traced.ret trivial)

/-- The fact that a rebuild is asked for is not about a hold. -/
example : ∀ applied, MemoryFactType.rebuildRequested ≠ holdType applied := by decide +kernel

theorem runRebuild_goes {record : MemoryRecord} {projection : MemoryProjection}
    {rebuildId actorRef : String} {spec : EmbeddingSpec} {chunks : List MemoryChunk}
    {request : EmbeddingRequest} :
    Goes sha op (runRebuild sha ports record projection rebuildId actorRef spec chunks request) t
      (fun _ _ => True) := by
  refine Traced.bind appendFact_goes (fun requested _ _ => ?_)
  refine callEmbedder_goes.bind (fun result _ _ => Traced.check (fun _ => ?_))
  refine rebuiltItems_goes.bind (fun indexed _ _ => ?_)
  refine purge_goes.bind (fun _ _ _ => ?_)
  refine (forEach_goes (fun _ _ => index_goes)).bind (fun _ _ _ => ?_)
  exact appendFact_goes

theorem rebuildDerived_goes {tenantId memoryId rebuildId : String} {evidence : NormalizedEvidence}
    {actorRef : String} {spec : EmbeddingSpec} :
    Goes sha op (rebuildDerived sha ports tenantId memoryId rebuildId evidence actorRef spec) t
      (fun _ _ => True) := by
  refine requireMemory_goes.bind (fun r t' _ => Traced.check (fun _ => ?_))
  refine (lift_goes _).bind (fun chunks _ _ => Traced.reading (Traced.check (fun _ => ?_)))
  refine (lift_goes _).bind (fun request _ _ => Traced.check (fun _ => ?_))
  split
  · exact Traced.ret trivial
  · exact runRebuild_goes

theorem tombstoneAndErase_goes {tenantId memoryId actorRef reasonCode : String} :
    Goes sha op (tombstoneAndErase sha ports tenantId memoryId actorRef reasonCode) t
      (fun _ _ => True) := by
  refine requireMemory_goes.bind (fun r t' _ => Traced.check (fun _ => ?_))
  refine Traced.bind appendFact_goes (fun tombstoned _ _ => ?_)
  refine purge_goes.bind (fun purged _ _ => ?_)
  refine Traced.bind appendFact_goes (fun cleared _ _ => ?_)
  refine callEraser_goes.bind (fun _ _ _ => ?_)
  exact appendFact_goes

theorem supersedeOne_goes {replacement : MemoryRecord} {actorRef : String} {memoryId : Identifier} :
    Goes sha op (supersedeOne sha ports replacement actorRef memoryId) t (fun _ _ => True) := by
  refine requireMemory_goes.bind (fun r t' _ => Traced.check (fun _ => ?_))
  refine Traced.bind appendFact_goes (fun superseded _ _ => ?_)
  exact purge_goes.bind (fun _ _ _ => Traced.ret trivial)

theorem supersedeEach_goes {replacement : MemoryRecord} {actorRef : String}
    {memoryIds : List Identifier} :
    Goes sha op (supersedeEach sha ports replacement actorRef memoryIds) t (fun _ _ => True) := by
  induction memoryIds generalizing t with
  | nil => exact Traced.ret trivial
  | cons memoryId rest ih =>
    refine supersedeOne_goes.bind (fun projection _ _ => ?_)
    exact ih.bind (fun projections _ _ => Traced.ret trivial)

end Methods

/-- Every record is stored under its own key. -/
def RecordsKeyed (s : State) : Prop := ∀ key r, s.records key = some r → r.key = key

/-- `set_legal_hold` is one append. -/
theorem setLegalHold_goes {s : State} (hkeyed : RecordsKeyed s)
    {tenantId memoryId holdRef : String} {applied : Bool} {actorRef : String} :
    Goes sha (.setLegalHold tenantId memoryId holdRef applied actorRef)
      (setLegalHold sha ports tenantId memoryId holdRef applied actorRef) s (fun p s' =>
        Appended sha s.ticked (tenantId, memoryId) (holdType applied)
          (holdCommand sha (tenantId, memoryId) holdRef applied) (holdPayload sha holdRef) p s') := by
  refine requireMemory_goes.bind ?_
  rintro ⟨record, projection⟩ t ⟨rfl, hrecord, -⟩
  obtain ⟨rfl, rfl⟩ := Prod.mk.inj (hkeyed _ _ hrecord)
  exact appendFact_path (.inr ⟨holdRef, applied, actorRef, rfl, rfl, rfl, rfl⟩)

/-- **What a call may do.**  However it ends, it has gone along its events. -/
theorem step_path (sha : Sha256) (ports : Ports) {s : State} (hkeyed : RecordsKeyed s) (op : Op) :
    Path Event.apply (May sha op) s (step sha ports s op).2 := by
  have hbody : Goes sha op (op.body sha ports) s (fun _ _ => True) := by
    cases op with
    | ingest => exact ingest_goes.bind (fun _ _ _ => Traced.ret trivial)
    | rebuildDerived => exact rebuildDerived_goes.bind (fun _ _ _ => Traced.ret trivial)
    | tombstoneAndErase => exact tombstoneAndErase_goes.bind (fun _ _ _ => Traced.ret trivial)
    | supersede => exact Traced.check (fun _ => supersedeEach_goes)
    | setLegalHold => exact (setLegalHold_goes hkeyed).bind (fun _ _ _ => Traced.ret trivial)
  exact hbody.path

end Memory

end Aegis
