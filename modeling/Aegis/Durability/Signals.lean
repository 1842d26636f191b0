/-
  FRESH SIGNALS.

  A signal whose run admits it and whose command id was not used in the tenant ought to be accepted.  What
  can still stop it is an id: the event and the outbox message of a signal get ids derived from the run and
  the command id, and so do the events of transitions and the message that starts a run.

  In every reachable store a fresh signal is accepted EXACTLY when both ids are free (`signalAccepted_iff`):
  its drafts always fit their bounds, and one event for a run whose status admits it can always be appended.
  The ids are free after every run of calls that leave derived ids to the ledger, unless the command id is
  `temporal-start`, the part the ledger uses itself.
-/
import Mathlib
import Aegis.Durability.CommandLaws
import Aegis.Durability.Cursors

namespace Aegis

namespace Durability

variable {sha : Sha256} {s : Store}

/-! ## Payloads of identifiers -/

theorem length_dumpStr_identifier (i : Identifier) : (dumpStr i.val).length ≤ 130 := by
  have hlength : i.val.toList.length ≤ 128 := by
    have h := i.property
    simp only [isIdentifier, isReference, Bool.and_eq_true, decide_eq_true_eq] at h
    exact h.1.2
  rw [CursorCodec.dumpStr_plain (CursorCodec.identifier_plain i), List.length_cons, List.length_append,
    List.length_singleton]
  omega

/-- The members of a payload of identifiers. -/
def identifierMembers (items : List (String × Identifier)) : List (String × Json) :=
  items.map fun i => (i.1, .str i.2.val)

theorem fieldsWidth_identifiers {items : List (String × Identifier)}
    (hkeys : ∀ i ∈ items, (dumpStr i.1).length ≤ 60) :
    fieldsWidth (identifierMembers items) ≤ items.length * 192 := by
  induction items with
  | nil => exact Nat.zero_le _
  | cons i items ih =>
    have hrest := ih fun j hj => hkeys j (List.mem_cons_of_mem _ hj)
    have hkey := hkeys i List.mem_cons_self
    have hvalue := length_dumpStr_identifier i.2
    have hdump : (dump (.str i.2.val)).length = (dumpStr i.2.val).length := by rw [dump]
    simp only [fieldsWidth, identifierMembers, List.map_cons, List.sum_cons, List.length_cons,
      hdump] at hrest ⊢
    omega

/-- A payload of a few identifiers is far below the bounds of a delivery and of an event. -/
theorem payload_fits (payload : Fields) (items : List (String × Identifier))
    (hentries : payload.toJson = .obj (identifierMembers items))
    (hlength : payload.entries.length = items.length) (hitems : items ≠ [] ∧ items.length ≤ 4)
    (hkeys : ∀ i ∈ items, (dumpStr i.1).length ≤ 60) :
    payload.sorted.entries.length ≤ 4 ∧ payload.sorted.size ≤ 1000 := by
  have hwidth := fieldsWidth_identifiers hkeys
  have hne : identifierMembers items ≠ [] := by
    intro hnil
    exact hitems.1 (List.map_eq_nil_iff.mp hnil)
  rw [Fields.length_sorted, Fields.size_sorted, hlength, Fields.size, length_canonicalChars, hentries,
    length_dump_obj hne]
  omega

theorem InboxDraft.make_fits (messageId source messageType : Identifier) {payload : Fields}
    (h : payload.sorted.entries.length ≤ 4 ∧ payload.sorted.size ≤ 1000) :
    ∃ m, InboxDraft.make messageId source messageType payload = .ok m :=
  ⟨_, dif_pos ⟨le_trans h.1 (by decide), le_trans h.2 (by decide)⟩⟩

theorem OutboxDraft.make_fits (messageId destination messageType : Identifier) (availableAt : Datetime)
    {payload : Fields} (h : payload.sorted.entries.length ≤ 4 ∧ payload.sorted.size ≤ 1000) :
    ∃ m, OutboxDraft.make messageId destination messageType availableAt payload = .ok m :=
  ⟨_, dif_pos ⟨le_trans h.1 (by decide), le_trans h.2 (by decide)⟩⟩

theorem EventDraft.make_fits (eventId eventType actorRef correlationRef : Identifier)
    (occurredAt : Datetime) (causationRef : Option Identifier) {payload : Fields}
    (h : payload.sorted.entries.length ≤ 4 ∧ payload.sorted.size ≤ 1000) :
    ∃ d, EventDraft.make eventId eventType occurredAt actorRef correlationRef causationRef 1 payload
      = .ok d := by
  unfold EventDraft.make
  rw [dif_pos (by decide)]
  exact ⟨_, dif_pos ⟨le_trans h.1 (by decide), le_trans h.2 (by decide)⟩⟩

/-- The drafts of a signal are always valid. -/
theorem signalDrafts_total (sha : Sha256) (identity : IdentityContext) (command : SignalCommand)
    (current : RunView) (availableAt occurredAt : Datetime) :
    ∃ drafts, signalDrafts sha identity command current availableAt occurredAt = .ok drafts := by
  have hkeys : (dumpStr "actor_ref").length ≤ 60 ∧ (dumpStr "command_id").length ≤ 60 ∧
      (dumpStr "command_ref").length ≤ 60 ∧ (dumpStr "run_id").length ≤ 60 ∧
      (dumpStr "workflow_id").length ≤ 60 := by decide +kernel
  obtain ⟨hactor, hcommand, href, hrun, hworkflow⟩ := hkeys
  obtain ⟨inbox, hinbox⟩ := InboxDraft.make_fits command.commandId ⟨"api", by decide⟩
    command.commandType.messageType
    (payload_fits (Fields.of [("actor_ref", .str (actorRef sha identity).val),
        ("command_id", .str command.commandId.val), ("run_id", .str command.runId.val)])
      [("run_id", command.runId), ("command_id", command.commandId), ("actor_ref", actorRef sha identity)]
      rfl rfl (by simp) (by simp [hrun, hcommand, hactor]))
  obtain ⟨outbox, houtbox⟩ := OutboxDraft.make_fits (signalMessageId sha command) ⟨"temporal", by decide⟩
    command.commandType.eventType availableAt
    (payload_fits (Fields.of [("command_ref", .str command.commandId.val),
        ("run_id", .str command.runId.val), ("workflow_id", .str current.workflowId.val)])
      [("workflow_id", current.workflowId), ("run_id", command.runId), ("command_ref", command.commandId)]
      rfl rfl (by simp) (by simp [hrun, href, hworkflow]))
  obtain ⟨draft, hdraft⟩ := EventDraft.make_fits
    (transitionEventId sha command.runId.val command.commandType.eventType.val command.commandId.val)
    command.commandType.eventType (actorRef sha identity) current.requestRef occurredAt
    (some command.commandId)
    (payload_fits (Fields.of [("command_ref", .str command.commandId.val),
        ("run_id", .str command.runId.val)])
      [("run_id", command.runId), ("command_ref", command.commandId)] rfl rfl (by simp)
      (by simp [hrun, href]))
  refine ⟨(inbox, outbox, draft), ?_⟩
  unfold signalDrafts
  exact except_bind_ok.mpr ⟨inbox, hinbox, except_bind_ok.mpr ⟨outbox, houtbox,
    except_bind_ok.mpr ⟨draft, hdraft, rfl⟩⟩⟩

/-! ## One event for a run always fits -/

/-- The version of a run is the sequence of its last event. -/
theorem run_version (hinv : LedgerInvariant sha s) {t r : String} {current : RunView}
    (hrun : s.runs (t, r) = some current) :
    (s.aggregateHead t "investigation" r).sequence = current.version := by
  have hfold := hinv.runs t r
  rw [hrun] at hfold
  rcases List.eq_nil_or_concat (runEvents (s.events t) r) with hnil | ⟨init, last, hlast⟩
  · rw [hnil] at hfold
    cases hfold
  · rw [List.concat_eq_append] at hlast
    rw [hlast, foldRun_append] at hfold
    obtain ⟨before, -, hfold⟩ := except_bind_ok.mp hfold
    obtain ⟨run, hreduce, hfold⟩ := except_bind_ok.mp hfold
    cases hfold
    rw [hinv.aggregateHead, aggregateHeadOf, ← runEvents_eq_aggregateEvents, hlast,
      List.getLast?_concat, (reduceRun_position hreduce).1]
    rfl

/-- The status of a run admits an event type. -/
def StatusAdmits (current : RunView) (eventType : String) : Prop :=
  ∃ status, eventStatus (some current) eventType = some status ∧
    validateRunTransition current.status status = .ok ()

theorem reduceRun_admits {current : RunView} (event : ApplicationEvent)
    (hadmits : StatusAdmits current event.eventType.val)
    (hcode : ∃ code, eventFailureCode event.payload = .ok code)
    (hsequence : event.aggregateSequence = current.version + 1) :
    ∃ run, reduceRun (some current) event = .ok run := by
  obtain ⟨status, hstatus, hvalid⟩ := hadmits
  obtain ⟨code, hcode⟩ := hcode
  unfold reduceRun
  simp only [hstatus]
  rw [hcode]
  show ∃ run, (if event.aggregateSequence ≠ current.version + 1 then _ else _) = Except.ok run
  rw [if_neg (not_not.mpr hsequence), hvalid]
  exact ⟨_, rfl⟩

/-- **An event of a run is appended** when its ids are new and the status of the run admits it. -/
theorem appended_event (draft : EventDraft) (outbox : List OutboxDraft) (inbox : List InboxDraft)
    (hinv : LedgerInvariant sha s) {tenant run : Identifier} {current : RunView}
    (hrun : s.runs (tenant.val, run.val) = some current)
    (hadmits : StatusAdmits current draft.eventType.val)
    (hcode : ∃ code, eventFailureCode draft.payload = .ok code)
    (hevent : (tenant.val, draft.eventId.val) ∉ s.eventIds)
    (hout : (outbox.map (·.messageId.val)).Nodup ∧
      ∀ m ∈ outbox, (tenant.val, Direction.outbox, m.messageId.val) ∉ s.deliveries)
    (hin : (inbox.map (·.messageId.val)).Nodup ∧
      ∀ m ∈ inbox, (tenant.val, Direction.inbox, m.messageId.val) ∉ s.deliveries) :
    ∃ e projected s', Appended sha tenant.val "investigation" run.val current.version [draft] outbox
      inbox s [e] e projected s' := by
  have hversion := run_version hinv hrun
  have hbuild : ∃ e, buildEvent sha tenant.val "investigation" run.val
      (s.aggregateHead tenant.val "investigation" run.val).sequence (s.tenantHead tenant.val).cursor
      (s.aggregateHead tenant.val "investigation" run.val).recordHash
      (s.tenantHead tenant.val).recordHash draft = .ok e :=
    ⟨_, except_bind_ok.mpr ⟨tenant, Identifier.parse_val _ tenant, except_bind_ok.mpr
      ⟨_, Identifier.parse_val _ ⟨"investigation", by decide⟩, except_bind_ok.mpr
        ⟨run, Identifier.parse_val _ run, rfl⟩⟩⟩⟩
  obtain ⟨e, hbuild⟩ := hbuild
  obtain ⟨htenant, hkey, hsequence, -, -, -, hrecords, -⟩ := buildEvent_ok hbuild
  obtain ⟨-, htype, -, -, -, -, -, hpayload⟩ := hrecords
  obtain ⟨hkind, hid⟩ := Prod.mk.inj hkey
  obtain ⟨next, hreduce⟩ := reduceRun_admits e (by rw [htype]; exact hadmits)
    (by rw [hpayload]; exact hcode) (by rw [hsequence, hversion])
  have hproject : projectEvents s.runs (fun _ => none) [e]
      = .ok (Function.update (fun _ => none) (tenant.val, run.val) (some next)) := by
    rw [projectEvents, if_neg (not_not.mpr hkind)]
    refine except_bind_ok.mpr ⟨next, ?_, by rw [htenant, hid]; rfl⟩
    rw [htenant, hid, hrun]
    exact hreduce
  refine ⟨e, _, _, by rw [hversion], List.nodup_singleton _, ?_, hout.1, hout.2, hin.1, hin.2, ?_,
    hproject, rfl, rfl⟩
  · intro d hd
    obtain rfl := List.mem_singleton.mp hd
    exact hevent
  · rw [buildEvents, hbuild]
    rfl

/-- An append that fits does not raise. -/
theorem appendLocked_fits {t ty id : String} {expectedVersion : Int} {drafts : List EventDraft}
    {outbox : List OutboxDraft} {inbox : List InboxDraft} {appended : List ApplicationEvent}
    {last : ApplicationEvent} {projected : String × String → Option RunView} {s' : Store}
    (h : Appended sha t ty id expectedVersion drafts outbox inbox s appended last projected s') :
    Exec.Sat (appendLocked sha t ty id expectedVersion drafts outbox inbox) s
      (fun result after => result = appended ∧ after = s') (fun _ _ => False) := by
  unfold appendLocked
  rw [Exec.sat_bind, Exec.sat_read]
  refine Exec.Sat.check (fun hno => hno h.version) fun _ => ?_
  refine Exec.Sat.check (fun hno => hno h.nodup) fun _ => ?_
  refine Exec.Sat.check (fun hno => hno h.fresh) fun _ => ?_
  refine Exec.Sat.check (fun hno => hno h.outbox_nodup) fun _ => ?_
  refine Exec.Sat.check (fun hno => hno h.outbox_fresh) fun _ => ?_
  refine Exec.Sat.check (fun hno => hno h.inbox_nodup) fun _ => ?_
  refine Exec.Sat.check (fun hno => hno h.inbox_fresh) fun _ => ?_
  refine Exec.Sat.attempt (fun e he => by rw [h.built] at he; cases he) fun appended' hbuilt => ?_
  rw [h.built] at hbuilt
  cases hbuilt
  refine Exec.Sat.attempt (fun e he => by rw [h.project] at he; cases he) fun projected' hproject => ?_
  rw [h.project] at hproject
  cases hproject
  simp only [h.is_last]
  rw [Exec.sat_bind, Exec.sat_modify, Exec.sat_pure]
  exact ⟨rfl, h.store.symm⟩

/-! ## A fresh signal -/

/-- A signal that must be accepted: the run is there and its status admits the command, the command id
    was not used in the tenant, and there is room for a resume. -/
structure FreshSignal (identity : IdentityContext) (command : SignalCommand) (s : Store)
    (current : RunView) : Prop where
  at_run : s.runs (identity.tenantId.val, command.runId.val) = some current
  admits : StatusAdmits current command.commandType.eventType.val
  unused : (identity.tenantId.val, Direction.inbox, command.commandId.val) ∉ s.deliveries
  bounded : command.commandType = .resume →
    resumeCount s.deliveries identity.tenantId.val command.runId.val < maxResumeCommands

/-- The id of the event of a signal. -/
def signalEventId (sha : Sha256) (command : SignalCommand) : Identifier :=
  transitionEventId sha command.runId.val command.commandType.eventType.val command.commandId.val

/-- `accept_signal` succeeds and appends one event, one outbox message and one inbox record. -/
def SignalAccepted (sha : Sha256) (identity : IdentityContext) (command : SignalCommand)
    (availableAt occurredAt : Datetime) (s : Store) : Prop :=
  ∃ run event message record s',
    acceptSignal sha identity command availableAt occurredAt s = (.ok run, s') ∧
    s'.events = Function.update s.events identity.tenantId.val
      (s.events identity.tenantId.val ++ [event]) ∧
    message.direction = .outbox ∧ record.direction = .inbox ∧
    s'.deliveries = (s.deliveries.insert (identity.tenantId.val, .outbox, message.messageId.val)
      message).insert (identity.tenantId.val, .inbox, command.commandId.val) record ∧
    (identity.tenantId.val, Direction.outbox, message.messageId.val) ∉ s.deliveries ∧
    (identity.tenantId.val, Direction.inbox, command.commandId.val) ∉ s.deliveries

/-- Neither the event nor the message of the signal has an id that the ledger of the tenant holds. -/
def SignalIdsFree (sha : Sha256) (identity : IdentityContext) (command : SignalCommand) (s : Store) :
    Prop :=
  (identity.tenantId.val, (signalEventId sha command).val) ∉ s.eventIds ∧
    (identity.tenantId.val, Direction.outbox, (signalMessageId sha command).val) ∉ s.deliveries

section Fresh

variable {identity : IdentityContext} {command : SignalCommand} {availableAt occurredAt : Datetime}
  {current : RunView}

/-- The ids in the drafts of a signal. -/
theorem signalDrafts_ids {drafts : InboxDraft × OutboxDraft × EventDraft}
    (h : signalDrafts sha identity command current availableAt occurredAt = .ok drafts) :
    drafts.1.messageId = command.commandId ∧ drafts.2.1.messageId = signalMessageId sha command ∧
      drafts.2.2.eventId = signalEventId sha command ∧
      drafts.2.2.payload.lookup "failure_code" = none := by
  unfold signalDrafts at h
  obtain ⟨inbox, hinbox, h⟩ := except_bind_ok.mp h
  obtain ⟨message, hmessage, h⟩ := except_bind_ok.mp h
  obtain ⟨draft, hdraft, h⟩ := except_bind_ok.mp h
  obtain rfl := Except.ok.inj h
  obtain ⟨hid, -, -, -⟩ := InboxDraft.make_ok hinbox
  obtain ⟨hmid, -, -, -, -⟩ := OutboxDraft.make_ok hmessage
  obtain ⟨heid, -, -, -, -, -, -, hpayload⟩ := EventDraft.make_ok hdraft
  refine ⟨hid, hmid, heid, ?_⟩
  rw [hpayload]
  simp [Fields.of, -AList.insert_empty]

/-- A new signal writes one event and two delivery records, under ids that were free. -/
theorem NewSignal.accepted (hinv : LedgerInvariant sha s)
    {drafts : InboxDraft × OutboxDraft × EventDraft} {appended : List ApplicationEvent}
    {last : ApplicationEvent} {projected : String × String → Option RunView} {run : RunView} {s' : Store}
    (h : NewSignal sha identity command availableAt occurredAt s current drafts appended last projected
      run s')
    (hcall : acceptSignal sha identity command availableAt occurredAt s = (.ok run, s')) :
    SignalAccepted sha identity command availableAt occurredAt s ∧ SignalIdsFree sha identity command s := by
  obtain ⟨hid, hmid, heid, -⟩ := signalDrafts_ids h.drafts_ok
  obtain ⟨run', -, hevents, -, -⟩ := h.append.single hinv
  have ht : last.tenantId = identity.tenantId :=
    Subtype.ext (h.append.tenant hinv last (List.mem_of_getLast? h.append.is_last))
  have hout := h.append.outbox_fresh drafts.2.1 List.mem_cons_self
  have hin := h.append.inbox_fresh drafts.1 List.mem_cons_self
  have hevent := h.append.fresh drafts.2.2 List.mem_cons_self
  have hdeliveries : s'.deliveries = (s.deliveries.insert
      (identity.tenantId.val, .outbox, drafts.2.1.messageId.val)
      (outboxRecord identity.tenantId drafts.2.1)).insert
      (identity.tenantId.val, .inbox, command.commandId.val)
      (inboxRecord identity.tenantId last.occurredAt drafts.1) := by
    rw [h.append.store, ← ht, ← hid]
    rfl
  rw [hid] at hin
  rw [heid] at hevent
  refine ⟨⟨run, last, outboxRecord identity.tenantId drafts.2.1,
    inboxRecord identity.tenantId last.occurredAt drafts.1, s', hcall, hevents, rfl, rfl, hdeliveries,
    hout, hin⟩, hevent, ?_⟩
  rw [← hmid]
  exact hout

/-- **A fresh signal with free ids is accepted.** -/
theorem acceptSignal_fresh (availableAt occurredAt : Datetime) (hinv : LedgerInvariant sha s) (hfresh : FreshSignal identity command s current)
    (hfree : SignalIdsFree sha identity command s) :
    Exec.Sat (acceptSignal sha identity command availableAt occurredAt) s (fun _ _ => True)
      (fun _ _ => False) := by
  have hlookup : s.deliveries.lookup (identity.tenantId.val, .inbox, command.commandId.val) = none :=
    AList.lookup_eq_none.mpr hfresh.unused
  obtain ⟨drafts, hdrafts⟩ := signalDrafts_total sha identity command current availableAt occurredAt
  obtain ⟨hid, hmid, heid, hcode⟩ := signalDrafts_ids hdrafts
  obtain ⟨-, -, htype, -⟩ := signalDrafts_ok hdrafts
  obtain ⟨e, projected, s', happended⟩ := appended_event drafts.2.2 [drafts.2.1] [drafts.1] hinv
    hfresh.at_run (by rw [htype]; exact hfresh.admits)
    ⟨none, by rw [eventFailureCode, hcode]⟩ (by rw [heid]; exact hfree.1)
    ⟨List.nodup_singleton _, by
      intro m hm
      obtain rfl := List.mem_singleton.mp hm
      rw [hmid]; exact hfree.2⟩
    ⟨List.nodup_singleton _, by
      intro m hm
      obtain rfl := List.mem_singleton.mp hm
      rw [hid]; exact hfresh.unused⟩
  obtain ⟨run, hrun⟩ := happended.run_some hinv
  unfold acceptSignal
  rw [Exec.sat_bind, Exec.sat_read]
  simp only [hfresh.at_run, hlookup]
  refine Exec.Sat.check (fun hno => hno hfresh.bounded) fun _ => ?_
  refine Exec.Sat.attempt (fun e he => by rw [hdrafts] at he; cases he) fun drafts' hdrafts' => ?_
  rw [hdrafts] at hdrafts'
  cases hdrafts'
  refine Exec.Sat.call (appendLocked_fits happended) (fun _ _ h => h) ?_
  rintro _ _ ⟨-, rfl⟩
  exact runAt_sat hrun trivial

/-- **Acceptance, exactly.**  A fresh signal is accepted when its ids are free, and only then. -/
theorem signalAccepted_iff (hinv : LedgerInvariant sha s)
    (hfresh : FreshSignal identity command s current) :
    SignalAccepted sha identity command availableAt occurredAt s ↔ SignalIdsFree sha identity command s := by
  have hnew : ∀ run s', acceptSignal sha identity command availableAt occurredAt s = (.ok run, s') →
      SignalAccepted sha identity command availableAt occurredAt s ∧
        SignalIdsFree sha identity command s := by
    intro run s' hcall
    rcases (acceptSignal_sat hinv identity command availableAt occurredAt).ok hcall with
      ⟨⟨_, existing, -, hexisting, -⟩, -⟩ | ⟨_, drafts, appended, last, projected, hnew⟩
    · -- a replay is of a used command id
      refine absurd ?_ hfresh.unused
      rw [← AList.lookup_isSome, hexisting]
      rfl
    · exact hnew.accepted hinv hcall
  constructor
  · rintro ⟨run, _, _, _, s', hcall, -⟩
    exact (hnew run s' hcall).2
  · intro hfree
    have hok := acceptSignal_fresh availableAt occurredAt hinv hfresh hfree
    cases hcall : acceptSignal sha identity command availableAt occurredAt s with
    | mk result s' =>
      cases result with
      | ok run => exact (hnew run s' hcall).1
      | error e => exact False.elim (hok.error hcall)

end Fresh

/-! ## Where the ids of signals come from -/

/-- `kind:` starts the id, as it starts the ids that `stable_id` derives. -/
def Derived (kind : String) (id : Identifier) : Prop := (kind ++ ":").toList <+: id.val.toList

/-- A call that leaves the derived ids to the ledger.  An append brings no derived ids of its own, and a
    transition is not recorded under the type of a command. -/
def Op.keepsNamespace : Op → Prop
  | .append _ _ _ _ drafts outbox _ =>
    (∀ d ∈ drafts, ¬Derived "event" d.eventId) ∧ ∀ m ∈ outbox, ¬Derived "outbox" m.messageId
  | .recordTransition _ _ eventType _ _ _ _ _ _ => ∀ k : CommandType, eventType ≠ k.eventType.val
  | _ => True

theorem derived_stableIdentifier (kind : String) (parts : List String) (length : Nat)
    (hkind : isReference 60 kind = true) : Derived kind (stableIdentifier sha kind parts length hkind) := by
  unfold Derived
  exact ⟨_, String.toList_append.symm⟩

/-- What a call adds to the ids of the ledger. -/
structure Adds (s s' : Store) (t : String) (eventIds messageIds commandIds : List String) : Prop where
  events : ∀ u id, (u, id) ∈ s'.eventIds ↔ (u, id) ∈ s.eventIds ∨ (u = t ∧ id ∈ eventIds)
  messages : ∀ u id, (u, Direction.outbox, id) ∈ s'.deliveries ↔
    (u, Direction.outbox, id) ∈ s.deliveries ∨ (u = t ∧ id ∈ messageIds)
  commands : ∀ u id, (u, Direction.inbox, id) ∈ s'.deliveries ↔
    (u, Direction.inbox, id) ∈ s.deliveries ∨ (u = t ∧ id ∈ commandIds)

theorem exists_key {μ : Type} {ms : List μ} {f : μ → String} {t u i : String} {direction : Direction} :
    (∃ m ∈ ms, ((t, direction, f m) : DeliveryKey) = (u, direction, i)) ↔ u = t ∧ i ∈ ms.map f := by
  rw [List.mem_map]
  constructor
  · rintro ⟨m, hm, heq⟩
    cases heq
    exact ⟨rfl, m, hm, rfl⟩
  · rintro ⟨rfl, m, hm, rfl⟩
    exact ⟨m, hm, rfl⟩

theorem Appended.adds {t ty id : String} {expectedVersion : Int} {drafts : List EventDraft}
    {outbox : List OutboxDraft} {inbox : List InboxDraft} {appended : List ApplicationEvent}
    {last : ApplicationEvent} {projected : String × String → Option RunView} {s' : Store}
    (hinv : LedgerInvariant sha s)
    (h : Appended sha t ty id expectedVersion drafts outbox inbox s appended last projected s') :
    Adds s s' t (drafts.map (·.eventId.val)) (outbox.map (·.messageId.val))
      (inbox.map (·.messageId.val)) := by
  obtain ⟨-, -, hrecords⟩ := h.chain hinv
  have hids : appended.map (·.eventId.val) = drafts.map (·.eventId.val) := by
    clear h
    induction hrecords with
    | nil => rfl
    | cons hrec _ ih => rw [List.map_cons, List.map_cons, ih, hrec.1]
  have ht : last.tenantId.val = t := h.tenant hinv last (List.mem_of_getLast? h.is_last)
  have hdeliveries : s'.deliveries
      = insertDeliveries s.deliveries last.tenantId last.occurredAt outbox inbox := by
    rw [h.store]; rfl
  refine ⟨fun u i => ?_, fun u i => ?_, fun u i => ?_⟩
  · have hevents : s'.eventIds = s.eventIds ∪ (appended.map fun e => (t, e.eventId.val)).toFinset := by
      rw [h.store]; rfl
    rw [hevents, Finset.mem_union, List.mem_toFinset, ← hids]
    simp only [List.mem_map, Prod.mk.injEq]
    refine or_congr_right ⟨?_, ?_⟩
    · rintro ⟨e, he, rfl, rfl⟩
      exact ⟨rfl, e, he, rfl⟩
    · rintro ⟨rfl, e, he, rfl⟩
      exact ⟨e, he, rfl, rfl⟩
  · rw [hdeliveries, insertDeliveries, Table.mem_insertAll, Table.mem_insertAll, ht]
    have hno : ¬∃ m ∈ inbox, ((t, Direction.inbox, m.messageId.val) : DeliveryKey) = (u, .outbox, i) := by
      rintro ⟨m, -, heq⟩
      cases (Prod.mk.inj (Prod.mk.inj heq).2).1
    rw [or_iff_left hno, exists_key]
  · rw [hdeliveries, insertDeliveries, Table.mem_insertAll, Table.mem_insertAll, ht]
    have hno : ¬∃ m ∈ outbox, ((t, Direction.outbox, m.messageId.val) : DeliveryKey) = (u, .inbox, i) := by
      rintro ⟨m, -, heq⟩
      cases (Prod.mk.inj (Prod.mk.inj heq).2).1
    rw [or_iff_left hno, exists_key]

/-- The signals whose ids are among the added ones were accepted by the call itself. -/
structure InNamespace (sha : Sha256) (texts : Set String) (eventIds messageIds commandIds : List String) :
    Prop where
  events : ∀ command : SignalCommand,
    joinParts [command.runId.val, command.commandType.eventType.val, command.commandId.val] ∈ texts →
    (signalEventId sha command).val ∈ eventIds → command.commandId.val ∈ commandIds
  messages : ∀ command : SignalCommand, joinParts [command.runId.val, command.commandId.val] ∈ texts →
    command.commandId.val ≠ "temporal-start" → (signalMessageId sha command).val ∈ messageIds →
    command.commandId.val ∈ commandIds

section Steps

variable {texts : Set String}

theorem inNamespace_nil : InNamespace sha texts [] [] [] :=
  ⟨fun _ _ h => absurd h List.not_mem_nil, fun _ _ _ h => absurd h List.not_mem_nil⟩

/-- The parts of a derived event id, when it is the id of a signal. -/
theorem parts_of_signalEvent (hfree : sha.CollisionFree texts) {command : SignalCommand}
    (parts : List String) (hnul : ∀ p ∈ parts, NulFree p) (hne : parts ≠ []) (htext : joinParts parts ∈ texts)
    (hcommand : joinParts [command.runId.val, command.commandType.eventType.val, command.commandId.val]
      ∈ texts)
    (h : (signalEventId sha command).val = stableId sha "event" parts 32) :
    [command.runId.val, command.commandType.eventType.val, command.commandId.val] = parts := by
  refine stableId_inj hfree (by decide) ?_ hnul (by simp) hne hcommand htext h
  intro p hp
  simp only [List.mem_cons, List.not_mem_nil, or_false] at hp
  rcases hp with rfl | rfl | rfl
  · exact command.runId.nulFree
  · exact command.commandType.eventType.nulFree
  · exact command.commandId.nulFree

/-- The parts of a derived message id, when it is the id of a signal. -/
theorem parts_of_signalMessage (hfree : sha.CollisionFree texts) {command : SignalCommand} {r : Identifier}
    {c : String} (hnul : NulFree c) (htext : joinParts [r.val, c] ∈ texts)
    (hcommand : joinParts [command.runId.val, command.commandId.val] ∈ texts)
    (h : (signalMessageId sha command).val = stableId sha "outbox" [r.val, c] 32) :
    command.commandId.val = c := by
  have hparts : [command.runId.val, command.commandId.val] = [r.val, c] := by
    refine stableId_inj hfree (by decide) ?_ ?_ (by simp) (by simp) hcommand htext h
    · intro p hp
      rcases List.mem_pair.mp hp with rfl | rfl
      · exact command.runId.nulFree
      · exact command.commandId.nulFree
    · intro p hp
      rcases List.mem_pair.mp hp with rfl | rfl
      · exact r.nulFree
      · exact hnul
  exact (List.cons.inj (List.cons.inj hparts).2).1

/-- An id of a signal is derived. -/
theorem derived_signalEvent (command : SignalCommand) : Derived "event" (signalEventId sha command) :=
  derived_stableIdentifier "event" _ 32 (by decide)

theorem derived_signalMessage (command : SignalCommand) : Derived "outbox" (signalMessageId sha command) :=
  derived_stableIdentifier "outbox" _ 32 (by decide)

/-- A batch without derived ids. -/
theorem inNamespace_append {drafts : List EventDraft} {outbox : List OutboxDraft} {inbox : List InboxDraft}
    (hdrafts : ∀ d ∈ drafts, ¬Derived "event" d.eventId)
    (houtbox : ∀ m ∈ outbox, ¬Derived "outbox" m.messageId) :
    InNamespace sha texts (drafts.map (·.eventId.val)) (outbox.map (·.messageId.val))
      (inbox.map (·.messageId.val)) := by
  constructor
  · intro command _ hmem
    obtain ⟨d, hd, heq⟩ := List.mem_map.mp hmem
    refine absurd ?_ (hdrafts d hd)
    rw [Subtype.ext heq]
    exact derived_signalEvent command
  · intro command _ _ hmem
    obtain ⟨m, hm, heq⟩ := List.mem_map.mp hmem
    refine absurd ?_ (houtbox m hm)
    rw [Subtype.ext heq]
    exact derived_signalMessage command

/-- The ids of a legacy import start with another kind. -/
theorem legacyDrafts_ids {t id actor correlation : String}
    {upcast : LegacyEvent → Except Error (String × Fields)} {legacy : List LegacyEvent} :
    ∀ {index : Nat} {drafts : List EventDraft},
    legacyDrafts sha t id actor correlation upcast index legacy = .ok drafts →
    ∀ d ∈ drafts, ¬Derived "event" d.eventId := by
  induction legacy with
  | nil =>
    intro index drafts h d hd
    cases h
    exact absurd hd List.not_mem_nil
  | cons item items ih =>
    intro index drafts h
    rw [legacyDrafts] at h
    obtain ⟨⟨eventType, payload⟩, -, h⟩ := except_bind_ok.mp h
    obtain ⟨kind, -, h⟩ := except_bind_ok.mp h
    obtain ⟨actorId, -, h⟩ := except_bind_ok.mp h
    obtain ⟨correlationId, -, h⟩ := except_bind_ok.mp h
    obtain ⟨draft, hdraft, h⟩ := except_bind_ok.mp h
    obtain ⟨rest, hrest, h⟩ := except_bind_ok.mp h
    cases h
    intro d hd
    rcases List.mem_cons.mp hd with rfl | hd
    · rw [(EventDraft.make_ok hdraft).1]
      rintro ⟨tail, htail⟩
      have hother : Derived "legacy-event" (stableIdentifier sha "legacy-event"
          [t, id, index.repr, item.eventType.val] 32) := derived_stableIdentifier _ _ _ _
      obtain ⟨tail', htail'⟩ := hother
      -- one id starts with `e`, the other with `l`
      rw [← htail'] at htail
      have hhead : some 'e' = some 'l' := congrArg List.head? htail
      exact absurd hhead (by decide)
    · exact ih hrest d hd

/-- A run that is there has an identifier. -/
theorem run_identifier (hinv : LedgerInvariant sha s) {t r : String} {current : RunView}
    (hrun : s.runs (t, r) = some current) : ∃ i : Identifier, i.val = r := by
  have hfold := hinv.runs t r
  rw [hrun] at hfold
  cases hevents : runEvents (s.events t) r with
  | nil => rw [hevents] at hfold; cases hfold
  | cons e rest =>
    have hmem : e ∈ runEvents (s.events t) r := by rw [hevents]; exact List.mem_cons_self
    have hkey := (List.mem_filter.mp hmem).2
    simp only [Bool.and_eq_true, beq_iff_eq] at hkey
    exact ⟨e.aggregateId, hkey.2⟩

theorem inNamespace_run (hfree : sha.CollisionFree texts) {identity : IdentityContext}
    {request : InvestigationRequest} {waitForSignal : Bool} {traceRef : String} {now : Datetime}
    {drafts : EventDraft × OutboxDraft}
    (hdrafts : runDrafts sha identity request waitForSignal traceRef now = .ok drafts)
    (htexts : ∀ x ∈ (Op.acceptRun identity request waitForSignal now).stableTexts sha, x ∈ texts) :
    InNamespace sha texts [drafts.1.eventId.val] [drafts.2.messageId.val] [] := by
  unfold runDrafts at hdrafts
  obtain ⟨draft, hdraft, h⟩ := except_bind_ok.mp hdrafts
  obtain ⟨message, hmessage, h⟩ := except_bind_ok.mp h
  obtain rfl := Except.ok.inj h
  have heid := (EventDraft.make_ok hdraft).1
  have hmid := (OutboxDraft.make_ok hmessage).1
  constructor
  · intro command hcommand hmem
    rw [List.mem_singleton, heid] at hmem
    have hparts := parts_of_signalEvent hfree [(runIdOf sha identity request).val, "requested"]
      (by
        intro p hp
        rcases List.mem_pair.mp hp with rfl | rfl
        · exact (runIdOf sha identity request).nulFree
        · exact Identifier.nulFree ⟨"requested", by decide⟩)
      (by simp) (htexts _ (by simp [Op.stableTexts])) hcommand hmem
    exact absurd (congrArg List.length hparts) (by simp)
  · intro command hcommand hother hmem
    rw [List.mem_singleton, hmid] at hmem
    have hsame := parts_of_signalMessage hfree (Identifier.nulFree ⟨"temporal-start", by decide⟩)
      (htexts _ (by simp [Op.stableTexts])) hcommand hmem
    exact absurd hsame hother

theorem inNamespace_transition (hfree : sha.CollisionFree texts) {r : Identifier}
    {eventType operationId actor request : String} {failureCode : Option String}
    {attributes : Option Fields} {now : Datetime} {draft : EventDraft}
    (hdraft : transitionDraft sha r.val eventType operationId actor request failureCode attributes now
      = .ok draft) (hother : ∀ k : CommandType, eventType ≠ k.eventType.val)
    (htext : joinParts [r.val, eventType, operationId] ∈ texts) :
    InNamespace sha texts [draft.eventId.val] [] [] := by
  refine ⟨fun command hcommand hmem => ?_, fun _ _ _ h => absurd h List.not_mem_nil⟩
  unfold transitionDraft at hdraft
  obtain ⟨kind, hkind, h⟩ := except_bind_ok.mp hdraft
  obtain ⟨actorId, -, h⟩ := except_bind_ok.mp h
  obtain ⟨requestId, -, h⟩ := except_bind_ok.mp h
  obtain ⟨operation, hoperation, h⟩ := except_bind_ok.mp h
  obtain rfl := Identifier.parse_ok hkind
  obtain rfl := Identifier.parse_ok hoperation
  rw [List.mem_singleton, (EventDraft.make_ok h).1] at hmem
  have hparts := parts_of_signalEvent hfree [r.val, kind.val, operation.val]
    (by
      intro p hp
      simp only [List.mem_cons, List.not_mem_nil, or_false] at hp
      rcases hp with rfl | rfl | rfl
      · exact r.nulFree
      · exact kind.nulFree
      · exact operation.nulFree)
    (by simp) htext hcommand hmem
  have htype := (List.cons.inj (List.cons.inj hparts).2).1
  exact absurd htype.symm (hother command.commandType)

theorem inNamespace_signal (hfree : sha.CollisionFree texts) {identity : IdentityContext}
    {command : SignalCommand} {availableAt occurredAt : Datetime} {current : RunView}
    {drafts : InboxDraft × OutboxDraft × EventDraft}
    (hdrafts : signalDrafts sha identity command current availableAt occurredAt = .ok drafts)
    (htexts : ∀ x ∈ (Op.acceptSignal identity command availableAt occurredAt).stableTexts sha, x ∈ texts) :
    InNamespace sha texts [drafts.2.2.eventId.val] [drafts.2.1.messageId.val]
      [drafts.1.messageId.val] := by
  obtain ⟨hid, hmid, heid, -⟩ := signalDrafts_ids hdrafts
  rw [hid, hmid, heid]
  constructor
  · intro command' hcommand hmem
    rw [List.mem_singleton] at hmem
    have hparts := parts_of_signalEvent hfree
      [command.runId.val, command.commandType.eventType.val, command.commandId.val]
      (by
        intro p hp
        simp only [List.mem_cons, List.not_mem_nil, or_false] at hp
        rcases hp with rfl | rfl | rfl
        · exact command.runId.nulFree
        · exact command.commandType.eventType.nulFree
        · exact command.commandId.nulFree)
      (by simp) (htexts _ (by simp [Op.stableTexts])) hcommand hmem
    rw [(List.cons.inj (List.cons.inj (List.cons.inj hparts).2).2).1]
    exact List.mem_singleton_self _
  · intro command' hcommand _ hmem
    rw [List.mem_singleton] at hmem
    rw [parts_of_signalMessage hfree command.commandId.nulFree (htexts _ (by simp [Op.stableTexts]))
      hcommand hmem]
    exact List.mem_singleton_self _

/-- A call that accepts nothing adds no ids. -/
theorem Quiet.adds {s' : Store} (hinv : LedgerInvariant sha s) (hinv' : LedgerInvariant sha s')
    (h : Quiet s s') (t : String) : Adds s s' t [] [] [] := by
  have hsame : ∀ k : DeliveryKey, k ∈ s'.deliveries ↔ k ∈ s.deliveries := by
    intro k
    rw [← AList.lookup_isSome, ← AList.lookup_isSome, h.lookup_isSome]
  refine ⟨fun u id => ?_, fun u id => ?_, fun u id => ?_⟩
  · rw [hinv'.eventIds, hinv.eventIds, h.events]
    simp
  · rw [hsame]
    simp
  · rw [hsame]
    simp

/-- **What one call adds to the ids.**  It adds ids of signals only for signals it accepts. -/
theorem step_adds (hfree : sha.CollisionFree texts) (hinv : StoreInvariant sha s) {op : Op}
    (hop : op.keepsNamespace) (htexts : ∀ x ∈ op.stableTexts sha, x ∈ texts) :
    ∃ t eventIds messageIds commandIds,
      Adds s (step sha s op).2 t eventIds messageIds commandIds ∧
        InNamespace sha texts eventIds messageIds commandIds := by
  have hinv' := step_invariant sha s op hinv
  have hquiet : Quiet s (step sha s op).2 → ∃ t eventIds messageIds commandIds,
      Adds s (step sha s op).2 t eventIds messageIds commandIds ∧
        InNamespace sha texts eventIds messageIds commandIds := fun h =>
    ⟨"", [], [], [], h.adds hinv.ledger hinv'.ledger "", inNamespace_nil⟩
  have hcommand : op.isCommandCall → ∃ t eventIds messageIds commandIds,
      Adds s (step sha s op).2 t eventIds messageIds commandIds ∧
        InNamespace sha texts eventIds messageIds commandIds := by
    intro hcall
    have hstep := step_command hinv hcall
    generalize (step sha s op).1 = result at hstep
    generalize (step sha s op).2 = s' at hstep hquiet ⊢
    cases hstep with
    | quiet _ _ _ h => exact hquiet h
    | request identity request waitForSignal now traceRef drafts appended last projected run _ h =>
      have hadds := h.append.adds (withIdempotency_keeps hinv.ledger identity request waitForSignal)
      exact ⟨_, _, _, _, ⟨hadds.events, hadds.messages, hadds.commands⟩,
        inNamespace_run hfree h.drafts_ok htexts⟩
    | transition t runId eventType operationId actor ref failureCode attributes now current draft
        appended last projected run _ h =>
      obtain ⟨r, rfl⟩ := run_identifier hinv.ledger h.at_run
      exact ⟨_, _, _, _, h.append.adds hinv.ledger, inNamespace_transition hfree h.draft_ok hop
        (htexts _ (by simp [Op.stableTexts]))⟩
    | signal identity command availableAt occurredAt current drafts appended last projected run _ h =>
      exact ⟨_, _, _, _, h.append.adds hinv.ledger, inNamespace_signal hfree h.drafts_ok htexts⟩
  have hsat : ∀ {Q : Result → Store → Prop}, Exec.Sat (op.body sha) s Q (fun _ s' => s' = s) →
      (∀ result s', Q result s' → ∃ t eventIds messageIds commandIds,
        Adds s s' t eventIds messageIds commandIds ∧
          InNamespace sha texts eventIds messageIds commandIds) →
      ∃ t eventIds messageIds commandIds, Adds s (step sha s op).2 t eventIds messageIds commandIds ∧
        InNamespace sha texts eventIds messageIds commandIds := by
    intro Q h hQ
    refine Exec.Sat.state (x := op.body sha) (s := s) (I := fun s' => ∃ t eventIds messageIds commandIds,
      Adds s s' t eventIds messageIds commandIds ∧
        InNamespace sha texts eventIds messageIds commandIds) (h.mono hQ ?_)
    rintro _ s' rfl
    exact ⟨"", [], [], [], (Quiet.refl _).adds hinv.ledger hinv.ledger "", inNamespace_nil⟩
  cases op with
  | append t ty id v drafts outbox inbox =>
    refine hsat (Exec.Sat.call (append_sat sha t ty id v drafts outbox inbox s) (fun _ _ h => h)
      (P := fun _ s' => ∃ appended last projected, Appended sha t ty id v drafts outbox inbox s appended
        last projected s') ?_) ?_
    · rintro appended s' ⟨last, projected, h⟩
      exact ⟨appended, last, projected, h⟩
    · rintro _ s' ⟨appended, last, projected, h⟩
      exact ⟨_, _, _, _, h.adds hinv.ledger, inNamespace_append hop.1 hop.2⟩
  | replayLegacy t id actor correlation legacy upcast =>
    refine hsat (Exec.Sat.call (replayLegacy_sat sha t id actor correlation legacy upcast s)
      (fun _ _ h => h) (P := fun _ s' => ∃ appended drafts last projected,
        legacyDrafts sha t id actor correlation upcast 1 legacy = .ok drafts ∧
        Appended sha t "investigation" id 0 drafts [] [] s appended last projected s') ?_) ?_
    · rintro appended s' ⟨drafts, last, projected, hdrafts, h⟩
      exact ⟨appended, drafts, last, projected, hdrafts, h⟩
    · rintro _ s' ⟨appended, drafts, last, projected, hdrafts, h⟩
      exact ⟨_, _, _, _, h.adds hinv.ledger, inNamespace_append (legacyDrafts_ids hdrafts)
        fun m hm => absurd hm List.not_mem_nil⟩
  | recordTransition t runId eventType operationId actor request failureCode attributes now =>
    refine hsat (Exec.Sat.call (recordTransition_sat hinv.ledger t runId eventType operationId actor
      request failureCode attributes now) (fun _ _ h => h)
      (P := fun _ s' => s' = s ∨ ∃ run current draft appended last projected,
        NewTransition sha t runId eventType operationId actor request failureCode attributes now s
          current draft appended last projected run s') ?_) ?_
    · rintro run s' (h | ⟨current, draft, appended, last, projected, h⟩)
      · exact .inl h
      · exact .inr ⟨run, current, draft, appended, last, projected, h⟩
    · rintro _ s' (rfl | ⟨run, current, draft, appended, last, projected, h⟩)
      · exact ⟨"", [], [], [], (Quiet.refl _).adds hinv.ledger hinv.ledger "", inNamespace_nil⟩
      · obtain ⟨r, rfl⟩ := run_identifier hinv.ledger h.at_run
        exact ⟨_, _, _, _, h.append.adds hinv.ledger, inNamespace_transition hfree h.draft_ok hop
          (htexts _ (by simp [Op.stableTexts]))⟩
  | _ => exact hcommand trivial

/-! ## Every run -/

/-- A signal whose ids are in the ledger has its inbox record there. -/
structure SignalsRecorded (sha : Sha256) (texts : Set String) (s : Store) : Prop where
  events : ∀ (t : String) (command : SignalCommand),
    joinParts [command.runId.val, command.commandType.eventType.val, command.commandId.val] ∈ texts →
    (t, (signalEventId sha command).val) ∈ s.eventIds →
    (t, Direction.inbox, command.commandId.val) ∈ s.deliveries
  messages : ∀ (t : String) (command : SignalCommand),
    joinParts [command.runId.val, command.commandId.val] ∈ texts →
    command.commandId.val ≠ "temporal-start" →
    (t, Direction.outbox, (signalMessageId sha command).val) ∈ s.deliveries →
    (t, Direction.inbox, command.commandId.val) ∈ s.deliveries

theorem signalsRecorded_empty : SignalsRecorded sha texts Store.empty :=
  ⟨fun _ _ _ h => absurd h (Finset.notMem_empty _), fun _ _ _ _ h => absurd h (AList.notMem_empty _)⟩

theorem SignalsRecorded.adds {s' : Store} (hs : SignalsRecorded sha texts s) {t : String}
    {eventIds messageIds commandIds : List String} (h : Adds s s' t eventIds messageIds commandIds)
    (hids : InNamespace sha texts eventIds messageIds commandIds) : SignalsRecorded sha texts s' := by
  constructor
  · intro u command htext hmem
    rw [h.commands]
    rcases (h.events _ _).mp hmem with hold | ⟨rfl, hnew⟩
    · exact .inl (hs.events u command htext hold)
    · exact .inr ⟨rfl, hids.events command htext hnew⟩
  · intro u command htext hother hmem
    rw [h.commands]
    rcases (h.messages _ _).mp hmem with hold | ⟨rfl, hnew⟩
    · exact .inl (hs.messages u command htext hother hold)
    · exact .inr ⟨rfl, hids.messages command htext hother hnew⟩

theorem signalsRecorded_run (hfree : sha.CollisionFree texts) (ops : List Op)
    (hops : ∀ op ∈ ops, op.keepsNamespace) (htexts : stableTexts sha ops ⊆ texts) :
    SignalsRecorded sha texts (run sha ops) := by
  suffices h : StoreInvariant sha (run sha ops) ∧ SignalsRecorded sha texts (run sha ops) from h.2
  refine Machine.run_invariant (I := fun s => StoreInvariant sha s ∧ SignalsRecorded sha texts s)
    (C := fun _ op => op.keepsNamespace ∧ ∀ x ∈ op.stableTexts sha, x ∈ texts) ?_ ops Store.empty
    ⟨storeInvariant_empty sha, signalsRecorded_empty⟩ ?_
  · rintro s op ⟨hinv, hs⟩ ⟨hop, hmem⟩
    obtain ⟨t, eventIds, messageIds, commandIds, hadds, hids⟩ := step_adds hfree hinv hop hmem
    exact ⟨step_invariant sha s op hinv, hs.adds hadds hids⟩
  · intro e he
    have hop := history_op he
    exact ⟨hops e.op hop, fun x hx => htexts ⟨e.op, hop, hx⟩⟩

end Steps

/-- **Fresh signals.**  In every reachable store a fresh signal is accepted exactly when its two ids are
    free; and they are free after every run of calls that leave the derived ids to the ledger, for every
    command id other than `temporal-start`. -/
theorem fresh_signal_accepted (sha : Sha256) (ops : List Op) (identity : IdentityContext)
    (command : SignalCommand) (availableAt occurredAt : Datetime) (current : RunView)
    (hfresh : FreshSignal identity command (run sha ops) current) :
    (SignalAccepted sha identity command availableAt occurredAt (run sha ops) ↔
      SignalIdsFree sha identity command (run sha ops)) ∧
    ((∀ op ∈ ops, op.keepsNamespace) → command.commandId.val ≠ "temporal-start" →
      sha.CollisionFree
        (stableTexts sha (ops ++ [.acceptSignal identity command availableAt occurredAt])) →
      SignalAccepted sha identity command availableAt occurredAt (run sha ops)) := by
  have hiff : SignalAccepted sha identity command availableAt occurredAt (run sha ops) ↔
      SignalIdsFree sha identity command (run sha ops) :=
    signalAccepted_iff (ledgerInvariant_run sha ops) hfresh
  refine ⟨hiff, fun hops hother hfree => hiff.mpr ?_⟩
  have hsub : stableTexts sha ops
      ⊆ stableTexts sha (ops ++ [.acceptSignal identity command availableAt occurredAt]) := by
    rintro x ⟨op, hop, hx⟩
    exact ⟨op, List.mem_append_left _ hop, hx⟩
  have hown : ∀ x ∈ (Op.acceptSignal identity command availableAt occurredAt).stableTexts sha,
      x ∈ stableTexts sha (ops ++ [.acceptSignal identity command availableAt occurredAt]) :=
    fun x hx => ⟨_, List.mem_append_right _ (List.mem_singleton_self _), hx⟩
  have hrecorded := signalsRecorded_run hfree ops hops hsub
  constructor
  · intro hmem
    exact hfresh.unused (hrecorded.events _ command (hown _ (by simp [Op.stableTexts])) hmem)
  · intro hmem
    exact hfresh.unused (hrecorded.messages _ command (hown _ (by simp [Op.stableTexts])) hother hmem)

/-! ## A cancel of a run that was just accepted -/

def cancelOf (commandId : Identifier) : SignalCommand :=
  { commandId, runId := commandRunId, commandType := .cancel }

def cancelOp (commandId : Identifier) : Op := .acceptSignal caller (cancelOf commandId) ⟨0, 0⟩ ⟨0, 0⟩

def startId : Identifier := ⟨"temporal-start", by decide⟩

def firstId : Identifier := ⟨"c", computed⟩

/-- A hash that tells the texts of the samples apart. -/
def signalHash : Sha256 :=
  Sha256.table (commandTexts ++ [joinParts [commandRunId.val, "investigation.cancel_requested", "c"],
    joinParts [commandRunId.val, "investigation.cancel_requested", "temporal-start"]])

theorem signalHash_collisionFree {commandId : Identifier} (hid : commandId = startId ∨ commandId = firstId) :
    signalHash.CollisionFree (stableTexts signalHash ([acceptOp] ++ [cancelOp commandId])) := by
  refine Sha256.table_collisionFree (by decide) (requestText checkoutRequest false) ?_
  have hrun : runIdOf signalHash caller checkoutRequest = commandRunId := Subtype.ext (by decide +kernel)
  rintro x ⟨op, hop, hx⟩
  simp only [List.singleton_append, List.mem_cons, List.not_mem_nil, or_false] at hop
  rcases hop with rfl | rfl
  · simp only [acceptOp, Op.stableTexts, hrun, List.mem_cons, List.not_mem_nil, or_false] at hx
    rcases hx with rfl | rfl | rfl | rfl | rfl
    · exact .inr rfl
    · exact .inl (by decide +kernel)
    · exact .inl (by decide +kernel)
    · exact .inl (by decide +kernel)
    · exact .inl (by decide +kernel)
  · simp only [cancelOp, cancelOf, Op.stableTexts, List.mem_cons, List.not_mem_nil, or_false] at hx
    rcases hid with rfl | rfl
    · rcases hx with rfl | rfl
      · exact .inl (by decide +kernel)
      · exact .inl (by decide +kernel)
    · rcases hx with rfl | rfl
      · exact .inl (by decide +kernel)
      · exact .inl (by decide +kernel)

/-- A cancel of the accepted run is fresh. -/
theorem cancel_fresh {commandId : Identifier} (hid : commandId = startId ∨ commandId = firstId) :
    ∃ current, FreshSignal caller (cancelOf commandId) (run signalHash [acceptOp]) current := by
  have hrun : ((run signalHash [acceptOp]).runs ("t", commandRunId.val)).any
      (fun current => decide (current.status = .queued)) = true := by decide +kernel
  have hinbox : ("t", Direction.inbox, "temporal-start") ∉ (run signalHash [acceptOp]).deliveries ∧
      ("t", Direction.inbox, "c") ∉ (run signalHash [acceptOp]).deliveries := by decide +kernel
  obtain ⟨current, hcurrent, hqueued⟩ := (Option.any_eq_true _ _).mp hrun
  have hkey : (caller.tenantId.val, (cancelOf commandId).runId.val) = ("t", commandRunId.val) := rfl
  rw [← hkey] at hcurrent
  have hadmits : StatusAdmits current (cancelOf commandId).commandType.eventType.val := by
    refine ⟨.cancelRequested, rfl, ?_⟩
    rw [of_decide_eq_true hqueued]
    rfl
  have hunused : (caller.tenantId.val, Direction.inbox, (cancelOf commandId).commandId.val) ∉
      (run signalHash [acceptOp]).deliveries := by
    rcases hid with rfl | rfl
    · exact hinbox.1
    · exact hinbox.2
  exact ⟨current, hcurrent, hadmits, hunused, fun h => (by cases h)⟩

theorem fresh_signal_accepted_sample :
    SignalAccepted signalHash caller (cancelOf firstId) ⟨0, 0⟩ ⟨0, 0⟩ (run signalHash [acceptOp]) := by
  obtain ⟨current, hfresh⟩ := cancel_fresh (.inr rfl)
  have hother : firstId.val ≠ "temporal-start" := by decide
  refine (fresh_signal_accepted signalHash [acceptOp] caller (cancelOf firstId) ⟨0, 0⟩ ⟨0, 0⟩ current
    hfresh).2 ?_ hother (signalHash_collisionFree (.inr rfl))
  intro op hop
  obtain rfl := List.mem_singleton.mp hop
  trivial

/-- **A fresh signal that is refused.**  The message that starts the workflow of a run has the id that a
    signal with the command id `temporal-start` derives for its own. -/
theorem temporal_start_refused :
    (∃ current, FreshSignal caller (cancelOf startId) (run signalHash [acceptOp]) current) ∧
    signalHash.CollisionFree (stableTexts signalHash ([acceptOp] ++ [cancelOp startId])) ∧
    (acceptSignal signalHash caller (cancelOf startId) ⟨0, 0⟩ ⟨0, 0⟩ (run signalHash [acceptOp])).1
      = .error ⟨.idempotencyConflict, "outbox message already exists"⟩ ∧
    ¬SignalAccepted signalHash caller (cancelOf startId) ⟨0, 0⟩ ⟨0, 0⟩ (run signalHash [acceptOp]) := by
  have herror : (acceptSignal signalHash caller (cancelOf startId) ⟨0, 0⟩ ⟨0, 0⟩
      (run signalHash [acceptOp])).1 = .error ⟨.idempotencyConflict, "outbox message already exists"⟩ := by
    decide +kernel
  refine ⟨cancel_fresh (.inl rfl), signalHash_collisionFree (.inl rfl), herror, ?_⟩
  rintro ⟨run, _, _, _, s', hcall, -⟩
  rw [hcall] at herror
  cases herror

end Durability

end Aegis
