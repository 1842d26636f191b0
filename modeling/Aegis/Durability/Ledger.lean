/-
  THE LEDGER INVARIANT.

  In every state the store can reach, by any operations, successful or not:
    1. the events of a tenant carry the cursors 1, 2, ..., n;
    2. the events of one aggregate carry the sequences 1, 2, ..., k;
    3. event ids are unique within the tenant;
    4. each record hash is the hash of the event's material with the hashes of the two events
       before it, in its aggregate and in its tenant;
    5. the heads are the last events;
    6. the runs are the fold of `reduceRun` over their events, so a rebuild changes nothing.

  Everything about one tenant's list is said by ONE predicate, `Chain`: every event EXTENDS the list
  before it (`Extends`).  `buildEvents` is the only producer of events and extends the list one draft
  at a time (`buildEvents_chain`); `projectEvents` is the only incremental projection and agrees with
  the fold from scratch on every key (`projectEvents_fold`).
-/
import Mathlib
import Aegis.Durability.Operations

namespace Aegis

namespace Durability

/-! ## Heads and chains -/

/-- The events of an aggregate, in order. -/
def aggregateEvents (events : List ApplicationEvent) (key : String × String) :
    List ApplicationEvent :=
  events.filter fun e => decide (e.aggregate = key)

def ApplicationEvent.asTenantHead (e : ApplicationEvent) : TenantHead :=
  { cursor := e.tenantCursor, recordHash := e.recordHash }

def ApplicationEvent.asAggregateHead (e : ApplicationEvent) : AggregateHead :=
  { sequence := e.aggregateSequence, recordHash := e.recordHash }

/-- The head of a tenant with these events. -/
def tenantHeadOf (events : List ApplicationEvent) : TenantHead :=
  (events.getLast?.map (·.asTenantHead)).getD {}

/-- The head of an aggregate in a tenant with these events. -/
def aggregateHeadOf (events : List ApplicationEvent) (key : String × String) : AggregateHead :=
  ((aggregateEvents events key).getLast?.map (·.asAggregateHead)).getD {}

/-- The event holds the fields of the draft. -/
def ApplicationEvent.Records (e : ApplicationEvent) (d : EventDraft) : Prop :=
  e.eventId = d.eventId ∧ e.eventType = d.eventType ∧ e.occurredAt = d.occurredAt ∧
    e.actorRef = d.actorRef ∧ e.correlationRef = d.correlationRef ∧
    e.causationRef = d.causationRef ∧ e.schemaVersion = d.schemaVersion ∧ e.payload = d.payload

/-- The hash of the material of a draft at the place of an event. -/
def sealOf (sha : Sha256) (e : ApplicationEvent) (d : EventDraft)
    (aggregatePreviousHash tenantPreviousHash : Digest) : Digest :=
  sha.hexdigest (eventMaterial e.tenantId.val e.aggregateType.val e.aggregateId.val
    e.aggregateSequence e.tenantCursor d aggregatePreviousHash tenantPreviousHash)

/-- `e` continues the events `pre` on both chains. -/
structure Extends (sha : Sha256) (pre : List ApplicationEvent) (e : ApplicationEvent) : Prop where
  sequence : e.aggregateSequence = (aggregateHeadOf pre e.aggregate).sequence + 1
  cursor : e.tenantCursor = (tenantHeadOf pre).cursor + 1
  fresh : e.eventId.val ∉ pre.map (·.eventId.val)
  aggregatePrevious : e.aggregatePreviousHash = (aggregateHeadOf pre e.aggregate).recordHash
  tenantPrevious : e.tenantPreviousHash = (tenantHeadOf pre).recordHash
  sealed : ∃ d, e.Records d ∧
    e.recordHash = sealOf sha e d e.aggregatePreviousHash e.tenantPreviousHash

/-- The events of tenant `t`: each extends the ones before it. -/
def Chain (sha : Sha256) (t : String) (events : List ApplicationEvent) : Prop :=
  ∀ pre e post, events = pre ++ e :: post → e.tenantId.val = t ∧ Extends sha pre e

theorem chain_nil (sha : Sha256) (t : String) : Chain sha t [] := by
  intro pre e post h
  exact absurd h.symm (by simp)

theorem chain_snoc {sha : Sha256} {t : String} {events : List ApplicationEvent}
    {e : ApplicationEvent} (hchain : Chain sha t events) (ht : e.tenantId.val = t)
    (he : Extends sha events e) : Chain sha t (events ++ [e]) := by
  intro pre e' post h
  -- the split is at the new event or inside the old list
  rcases List.eq_nil_or_concat post with rfl | ⟨post', last, rfl⟩
  · obtain ⟨rfl, heq⟩ := List.append_inj' h rfl
    obtain ⟨rfl, -⟩ := List.cons.inj heq
    exact ⟨ht, he⟩
  · rw [List.concat_eq_append, ← List.cons_append, ← List.append_assoc] at h
    obtain ⟨hinit, -⟩ := List.append_inj' h rfl
    exact hchain pre e' post' hinit

theorem Chain.init {sha : Sha256} {t : String} {events rest : List ApplicationEvent}
    (h : Chain sha t (events ++ rest)) : Chain sha t events := by
  intro pre e post hsplit
  refine h pre e (post ++ rest) ?_
  rw [hsplit, List.append_assoc, List.cons_append]

/-- Induction on a chain from the front, one event added at the end. -/
theorem Chain.induction {sha : Sha256} {t : String} {P : List ApplicationEvent → Prop}
    (hnil : P []) (hsnoc : ∀ events e, Chain sha t events → Extends sha events e →
      e.tenantId.val = t → P events → P (events ++ [e])) :
    ∀ events, Chain sha t events → P events := by
  intro events
  induction events using List.reverseRecOn with
  | nil => intro _; exact hnil
  | append_singleton events e ih =>
    intro hchain
    obtain ⟨ht, he⟩ := hchain events e [] rfl
    exact hsnoc events e hchain.init he ht (ih hchain.init)

@[simp] theorem tenantHeadOf_concat (events : List ApplicationEvent) (e : ApplicationEvent) :
    tenantHeadOf (events ++ [e]) = e.asTenantHead := by
  simp [tenantHeadOf]

theorem aggregateEvents_concat_self (events : List ApplicationEvent) (e : ApplicationEvent) :
    aggregateEvents (events ++ [e]) e.aggregate = aggregateEvents events e.aggregate ++ [e] := by
  simp [aggregateEvents]

theorem aggregateEvents_concat_ne (events : List ApplicationEvent) {e : ApplicationEvent}
    {key : String × String} (h : e.aggregate ≠ key) :
    aggregateEvents (events ++ [e]) key = aggregateEvents events key := by
  simp [aggregateEvents, h]

theorem aggregateHeadOf_concat_self (events : List ApplicationEvent) (e : ApplicationEvent) :
    aggregateHeadOf (events ++ [e]) e.aggregate = e.asAggregateHead := by
  simp [aggregateHeadOf, aggregateEvents_concat_self]

/-! ## What a chain says of its positions -/

/-- The head of a chain of `n` events is at cursor `n`. -/
theorem Chain.head_cursor {sha : Sha256} {t : String} {events : List ApplicationEvent}
    (h : Chain sha t events) : (tenantHeadOf events).cursor = events.length := by
  refine Chain.induction (P := fun events => (tenantHeadOf events).cursor = events.length)
    rfl ?_ events h
  intro events e _ he _ ih
  rw [tenantHeadOf_concat, List.length_append]
  show e.tenantCursor = events.length + 1
  rw [he.cursor, ih]

theorem Chain.cursors {sha : Sha256} {t : String} {events : List ApplicationEvent}
    (h : Chain sha t events) : events.map (·.tenantCursor) = List.range' 1 events.length := by
  refine Chain.induction (P := fun events => events.map (·.tenantCursor)
    = List.range' 1 events.length) rfl ?_ events h
  intro events e hchain he _ ih
  rw [List.map_append, ih, List.length_append]
  show List.range' 1 events.length ++ [e.tenantCursor] = List.range' 1 (events.length + 1)
  rw [he.cursor, hchain.head_cursor, List.range'_concat, Nat.one_mul, Nat.add_comm 1]

/-- The head of an aggregate of `n` events is at sequence `n`. -/
theorem Chain.head_sequence {sha : Sha256} {t : String} {events : List ApplicationEvent}
    (h : Chain sha t events) (key : String × String) :
    (aggregateHeadOf events key).sequence = (aggregateEvents events key).length := by
  refine Chain.induction (P := fun events => (aggregateHeadOf events key).sequence
    = (aggregateEvents events key).length) rfl ?_ events h
  intro events e _ he _ ih
  by_cases hkey : e.aggregate = key
  · subst hkey
    rw [aggregateHeadOf_concat_self, aggregateEvents_concat_self, List.length_append]
    show e.aggregateSequence = _ + 1
    rw [he.sequence, ih]
  · rw [aggregateHeadOf, aggregateEvents_concat_ne events hkey]
    exact ih

theorem Chain.sequences {sha : Sha256} {t : String} {events : List ApplicationEvent}
    (h : Chain sha t events) (key : String × String) :
    (aggregateEvents events key).map (·.aggregateSequence)
      = List.range' 1 (aggregateEvents events key).length := by
  refine Chain.induction (P := fun events => (aggregateEvents events key).map (·.aggregateSequence)
    = List.range' 1 (aggregateEvents events key).length) rfl ?_ events h
  intro events e hchain he _ ih
  by_cases hkey : e.aggregate = key
  · subst hkey
    rw [aggregateEvents_concat_self, List.map_append, ih, List.length_append]
    show List.range' 1 _ ++ [e.aggregateSequence] = List.range' 1 (_ + 1)
    rw [he.sequence, hchain.head_sequence, List.range'_concat, Nat.one_mul, Nat.add_comm 1]
  · rw [aggregateEvents_concat_ne events hkey]
    exact ih

theorem Chain.eventIds_nodup {sha : Sha256} {t : String} {events : List ApplicationEvent}
    (h : Chain sha t events) : (events.map (·.eventId.val)).Nodup := by
  refine Chain.induction (P := fun events => (events.map (·.eventId.val)).Nodup)
    List.nodup_nil ?_ events h
  intro events e _ he _ hnodup
  rw [List.map_append, List.nodup_append]
  refine ⟨hnodup, List.nodup_singleton _, ?_⟩
  rintro x hx y hy rfl
  rw [List.map_singleton, List.mem_singleton] at hy
  rw [hy] at hx
  exact he.fresh hx

theorem Chain.tenant {sha : Sha256} {t : String} {events : List ApplicationEvent}
    (h : Chain sha t events) {e : ApplicationEvent} (he : e ∈ events) : e.tenantId.val = t := by
  obtain ⟨pre, post, hsplit⟩ := List.append_of_mem he
  exact (h pre e post hsplit).1

/-! ## A batch extends the chain -/

theorem buildEvent_ok {sha : Sha256} {t ty id : String} {sequence cursor : Nat} {ap tp : Digest}
    {draft : EventDraft} {e : ApplicationEvent}
    (h : buildEvent sha t ty id sequence cursor ap tp draft = .ok e) :
    e.tenantId.val = t ∧ e.aggregate = (ty, id) ∧ e.aggregateSequence = sequence + 1 ∧
      e.tenantCursor = cursor + 1 ∧ e.aggregatePreviousHash = ap ∧ e.tenantPreviousHash = tp ∧
      e.Records draft ∧ e.recordHash = sealOf sha e draft ap tp := by
  unfold buildEvent at h
  obtain ⟨tenant, htenant, h⟩ := except_bind_ok.mp h
  obtain ⟨kind, hkind, h⟩ := except_bind_ok.mp h
  obtain ⟨aggregate, haggregate, h⟩ := except_bind_ok.mp h
  have ht := Identifier.parse_ok htenant
  have hk := Identifier.parse_ok hkind
  have ha := Identifier.parse_ok haggregate
  rw [← Except.ok.inj h]
  refine ⟨ht, Prod.ext hk ha, rfl, rfl, rfl, rfl, ⟨rfl, rfl, rfl, rfl, rfl, rfl, rfl, rfl⟩, ?_⟩
  simp only [sealOf, ht, hk, ha]

theorem buildEvents_cons {sha : Sha256} {t ty id : String} {sequence cursor : Nat} {ap tp : Digest}
    {draft : EventDraft} {drafts : List EventDraft} {events : List ApplicationEvent}
    (h : buildEvents sha t ty id sequence cursor ap tp (draft :: drafts) = .ok events) :
    ∃ e rest, buildEvent sha t ty id sequence cursor ap tp draft = .ok e ∧
      buildEvents sha t ty id (sequence + 1) (cursor + 1) e.recordHash e.recordHash drafts = .ok rest ∧
      events = e :: rest := by
  rw [buildEvents] at h
  obtain ⟨e, he, h⟩ := except_bind_ok.mp h
  obtain ⟨rest, hrest, h⟩ := except_bind_ok.mp h
  exact ⟨e, rest, he, hrest, (Except.ok.inj h).symm⟩

/-- **A batch built from the heads of a chain extends the chain.**  Induction on the drafts; the
    chain before each draft is the old chain with the events built so far. -/
theorem buildEvents_chain {sha : Sha256} {t ty id : String} :
    ∀ (drafts : List EventDraft) (pre events : List ApplicationEvent), Chain sha t pre →
    (drafts.map (·.eventId.val)).Nodup →
    (∀ d ∈ drafts, d.eventId.val ∉ pre.map (·.eventId.val)) →
    buildEvents sha t ty id (aggregateHeadOf pre (ty, id)).sequence (tenantHeadOf pre).cursor
      (aggregateHeadOf pre (ty, id)).recordHash (tenantHeadOf pre).recordHash drafts = .ok events →
    Chain sha t (pre ++ events) ∧ (∀ e ∈ events, e.aggregate = (ty, id)) ∧
      List.Forall₂ ApplicationEvent.Records events drafts := by
  intro drafts
  induction drafts with
  | nil =>
    intro pre events hchain _ _ h
    rw [buildEvents] at h
    rw [← Except.ok.inj h, List.append_nil]
    exact ⟨hchain, by simp, List.Forall₂.nil⟩
  | cons draft drafts ih =>
    intro pre events hchain hnodup hfresh h
    obtain ⟨e, rest, hbuild, hrest, rfl⟩ := buildEvents_cons h
    obtain ⟨ht, hkey, hseq, hcur, hap, htp, hrec, hseal⟩ := buildEvent_ok hbuild
    have hext : Extends sha pre e := by
      refine ⟨by rw [hseq, hkey], hcur, ?_, by rw [hap, hkey], htp, draft, hrec, ?_⟩
      · rw [hrec.1]; exact hfresh draft List.mem_cons_self
      · rw [hseal, hap, htp]
    have hchain' := chain_snoc hchain ht hext
    have hhead : aggregateHeadOf (pre ++ [e]) (ty, id) = e.asAggregateHead := by
      rw [← hkey]; exact aggregateHeadOf_concat_self pre e
    simp only [List.map_cons, List.nodup_cons] at hnodup
    obtain ⟨hall, hkeys, hrecs⟩ := ih (pre ++ [e]) rest hchain' hnodup.2 (by
      intro d hd hmem
      rw [List.map_append, List.mem_append] at hmem
      rcases hmem with hmem | hmem
      · exact hfresh d (List.mem_cons_of_mem _ hd) hmem
      · rw [List.map_singleton, List.mem_singleton, hrec.1] at hmem
        exact hnodup.1 (List.mem_map.mpr ⟨d, hd, hmem⟩))
      (by
        rw [hhead, tenantHeadOf_concat]
        show buildEvents sha t ty id e.aggregateSequence e.tenantCursor e.recordHash e.recordHash
          drafts = .ok rest
        rw [hseq, hcur]; exact hrest)
    refine ⟨by rw [List.append_assoc] at hall; exact hall, ?_, List.Forall₂.cons hrec hrecs⟩
    intro e' he'
    rcases List.mem_cons.mp he' with rfl | he'
    · exact hkey
    · exact hkeys e' he'

/-- A field the events of a batch take from their drafts. -/
theorem records_map {α : Type} {f : ApplicationEvent → α} {g : EventDraft → α}
    (hfield : ∀ e d, ApplicationEvent.Records e d → f e = g d) {events : List ApplicationEvent}
    {drafts : List EventDraft} (h : List.Forall₂ ApplicationEvent.Records events drafts) :
    events.map f = drafts.map g := by
  induction h with
  | nil => rfl
  | cons hrec _ ih => rw [List.map_cons, List.map_cons, hfield _ _ hrec, ih]

/-! ## The projection is a fold -/

theorem foldRun_append (projection : Option RunView) (xs ys : List ApplicationEvent) :
    foldRun projection (xs ++ ys) = foldRun projection xs >>= fun p => foldRun p ys := by
  induction xs generalizing projection with
  | nil => rfl
  | cons e xs ih =>
    show (reduceRun projection e >>= fun run => foldRun (some run) (xs ++ ys)) = _
    simp only [ih, foldRun, bind_assoc]

/-- A fold over at least one event ends in a run. -/
theorem foldRun_some : ∀ (events : List ApplicationEvent) {projection result : Option RunView},
    events ≠ [] → foldRun projection events = .ok result → ∃ run, result = some run
  | [], _, _, hne, _ => absurd rfl hne
  | [e], projection, result, _, h => by
      obtain ⟨run, -, h⟩ := except_bind_ok.mp h
      exact ⟨run, (Except.ok.inj h).symm⟩
  | e :: e' :: events, projection, result, _, h => by
      obtain ⟨run, -, h⟩ := except_bind_ok.mp h
      exact foldRun_some (e' :: events) (by simp) h

/-- The event belongs to run `r` of tenant `t`. -/
def isEventOf (t r : String) (e : ApplicationEvent) : Bool :=
  e.tenantId.val == t && (e.aggregateType.val == "investigation" && e.aggregateId.val == r)

/-- **The incremental projection is the fold, on every key at once.**  Induction on the appended
    events; an event moves one key and leaves the others. -/
theorem projectEvents_fold {runs : String × String → Option RunView} (t r : String) :
    ∀ (events : List ApplicationEvent) (projected projected' : String × String → Option RunView),
    projectEvents runs projected events = .ok projected' →
    foldRun ((projected (t, r)).orElse fun _ => runs (t, r)) (events.filter (isEventOf t r))
      = .ok ((projected' (t, r)).orElse fun _ => runs (t, r)) := by
  intro events
  induction events with
  | nil =>
    intro projected projected' h
    rw [← Except.ok.inj h]; rfl
  | cons e events ih =>
    intro projected projected' h
    rw [projectEvents] at h
    split at h
    · rename_i hty
      have hno : isEventOf t r e = false := by simp [isEventOf, hty]
      rw [List.filter_cons_of_neg (by simp [hno])]
      exact ih projected projected' h
    · rename_i hty
      obtain ⟨run, hrun, h⟩ := except_bind_ok.mp h
      have hih := ih _ projected' h
      by_cases hkey : (e.tenantId.val, e.aggregateId.val) = (t, r)
      · obtain ⟨ht, hr⟩ := Prod.mk.inj hkey
        have hyes : isEventOf t r e = true := by
          simp only [isEventOf, ht, hr, not_not.mp hty, beq_self_eq_true, Bool.and_self]
        rw [List.filter_cons_of_pos hyes]
        rw [hkey, Function.update_self] at hih
        rw [hkey] at hrun
        show (reduceRun _ e >>= fun run => foldRun (some run) _) = _
        rw [hrun]; exact hih
      · have hno : isEventOf t r e = false := by
          rw [Bool.eq_false_iff]
          intro hyes
          simp only [isEventOf, Bool.and_eq_true, beq_iff_eq] at hyes
          exact hkey (Prod.ext hyes.1 hyes.2.2)
        rw [List.filter_cons_of_neg (by simp [hno])]
        rw [Function.update_of_ne (Ne.symm hkey)] at hih
        exact hih

theorem filter_isEventOf_self {t r : String} {events : List ApplicationEvent}
    (h : ∀ e ∈ events, e.tenantId.val = t) : events.filter (isEventOf t r) = runEvents events r := by
  refine List.filter_congr (fun e he => ?_)
  simp [isEventOf, h e he]

theorem filter_isEventOf_ne {t t' r : String} {events : List ApplicationEvent}
    (h : ∀ e ∈ events, e.tenantId.val = t) (hne : t ≠ t') :
    events.filter (isEventOf t' r) = [] := by
  refine List.filter_eq_nil_iff.mpr (fun e he => ?_)
  simp [isEventOf, h e he, hne]

/-! ## What an append does -/

/-- An append that passed its checks: the batch `appended`, its last event, and the overlay of the
    runs. -/
structure Appended (sha : Sha256) (t ty id : String) (expectedVersion : Int)
    (drafts : List EventDraft) (outbox : List OutboxDraft) (inbox : List InboxDraft) (s : Store)
    (appended : List ApplicationEvent) (last : ApplicationEvent)
    (projected : String × String → Option RunView) (s' : Store) : Prop where
  version : ((s.aggregateHead t ty id).sequence : Int) = expectedVersion
  nodup : (drafts.map (·.eventId.val)).Nodup
  fresh : ∀ d ∈ drafts, (t, d.eventId.val) ∉ s.eventIds
  outbox_nodup : (outbox.map (·.messageId.val)).Nodup
  outbox_fresh : ∀ m ∈ outbox, (t, Direction.outbox, m.messageId.val) ∉ s.deliveries
  inbox_nodup : (inbox.map (·.messageId.val)).Nodup
  inbox_fresh : ∀ m ∈ inbox, (t, Direction.inbox, m.messageId.val) ∉ s.deliveries
  built : buildEvents sha t ty id (s.aggregateHead t ty id).sequence (s.tenantHead t).cursor
    (s.aggregateHead t ty id).recordHash (s.tenantHead t).recordHash drafts = .ok appended
  project : projectEvents s.runs (fun _ => none) appended = .ok projected
  is_last : appended.getLast? = some last
  store : s' = commitAppend t ty id appended last outbox inbox projected s

/-- **An append does everything or nothing.** -/
theorem appendLocked_sat (sha : Sha256) (t ty id : String) (expectedVersion : Int)
    (drafts : List EventDraft) (outbox : List OutboxDraft) (inbox : List InboxDraft) (s : Store) :
    Exec.Sat (appendLocked sha t ty id expectedVersion drafts outbox inbox) s
      (fun appended s' => ∃ last projected, Appended sha t ty id expectedVersion drafts outbox inbox
        s appended last projected s')
      (fun _ s' => s' = s) := by
  unfold appendLocked
  rw [Exec.sat_bind, Exec.sat_read]
  refine Exec.Sat.check (fun _ => rfl) fun hversion => ?_
  refine Exec.Sat.check (fun _ => rfl) fun hnodup => ?_
  refine Exec.Sat.check (fun _ => rfl) fun hfresh => ?_
  refine Exec.Sat.check (fun _ => rfl) fun hout => ?_
  refine Exec.Sat.check (fun _ => rfl) fun houtfresh => ?_
  refine Exec.Sat.check (fun _ => rfl) fun hin => ?_
  refine Exec.Sat.check (fun _ => rfl) fun hinfresh => ?_
  refine Exec.Sat.attempt (fun _ _ => rfl) fun appended hbuilt => ?_
  refine Exec.Sat.attempt (fun _ _ => rfl) fun projected hprojected => ?_
  cases hlast : appended.getLast? with
  | none => exact (Exec.sat_raise _).mpr rfl
  | some last =>
    rw [Exec.sat_bind, Exec.sat_modify, Exec.sat_pure]
    exact ⟨last, projected, hversion, hnodup, hfresh, hout, houtfresh, hin, hinfresh, hbuilt,
      hprojected, hlast, rfl⟩

theorem runEvents_eq_aggregateEvents (events : List ApplicationEvent) (r : String) :
    runEvents events r = aggregateEvents events ("investigation", r) := by
  refine List.filter_congr (fun e _ => ?_)
  rw [Bool.eq_iff_iff]
  simp [ApplicationEvent.aggregate, Prod.ext_iff]

/-! ## The invariant -/

/-- What every reachable store satisfies. -/
structure LedgerInvariant (sha : Sha256) (s : Store) : Prop where
  chain : ∀ t, Chain sha t (s.events t)
  eventIds : ∀ t id, (t, id) ∈ s.eventIds ↔ id ∈ (s.events t).map (·.eventId.val)
  tenantHeads : ∀ t, s.tenantHeads t = (s.events t).getLast?.map (·.asTenantHead)
  aggregateHeads : ∀ t ty id, s.aggregateHeads (t, ty, id)
    = (aggregateEvents (s.events t) (ty, id)).getLast?.map (·.asAggregateHead)
  runs : ∀ t r, foldRun none (runEvents (s.events t) r) = .ok (s.runs (t, r))

theorem LedgerInvariant.tenantHead {sha : Sha256} {s : Store} (h : LedgerInvariant sha s)
    (t : String) : s.tenantHead t = tenantHeadOf (s.events t) := by
  rw [Store.tenantHead, h.tenantHeads, tenantHeadOf]

theorem LedgerInvariant.aggregateHead {sha : Sha256} {s : Store} (h : LedgerInvariant sha s)
    (t ty id : String) : s.aggregateHead t ty id = aggregateHeadOf (s.events t) (ty, id) := by
  rw [Store.aggregateHead, h.aggregateHeads, aggregateHeadOf]

theorem ledgerInvariant_empty (sha : Sha256) : LedgerInvariant sha Store.empty := by
  refine ⟨fun t => chain_nil sha t, fun t id => ?_, fun t => rfl, fun t ty id => rfl,
    fun t r => rfl⟩
  simp [Store.empty]

/-- The invariant looks at the ledger tables only. -/
theorem LedgerInvariant.congr {sha : Sha256} {s s' : Store} (h : LedgerInvariant sha s)
    (hevents : s'.events = s.events) (hids : s'.eventIds = s.eventIds)
    (htenant : s'.tenantHeads = s.tenantHeads) (haggregate : s'.aggregateHeads = s.aggregateHeads)
    (hruns : s'.runs = s.runs) : LedgerInvariant sha s' := by
  refine ⟨?_, ?_, ?_, ?_, ?_⟩
  · rw [hevents]; exact h.chain
  · rw [hevents, hids]; exact h.eventIds
  · rw [hevents, htenant]; exact h.tenantHeads
  · rw [hevents, haggregate]; exact h.aggregateHeads
  · rw [hevents, hruns]; exact h.runs

section AppendKeeps

variable {sha : Sha256} {t ty id : String} {expectedVersion : Int} {drafts : List EventDraft}
  {outbox : List OutboxDraft} {inbox : List InboxDraft} {s s' : Store}
  {appended : List ApplicationEvent} {last : ApplicationEvent}
  {projected : String × String → Option RunView}

/-- The batch continues the tenant's chain and belongs to one aggregate. -/
theorem Appended.chain (hinv : LedgerInvariant sha s)
    (h : Appended sha t ty id expectedVersion drafts outbox inbox s appended last projected s') :
    Chain sha t (s.events t ++ appended) ∧ (∀ e ∈ appended, e.aggregate = (ty, id)) ∧
      List.Forall₂ ApplicationEvent.Records appended drafts := by
  have hbuilt := h.built
  rw [hinv.aggregateHead, hinv.tenantHead] at hbuilt
  refine buildEvents_chain drafts (s.events t) appended (hinv.chain t) h.nodup ?_ hbuilt
  intro d hd hmem
  exact h.fresh d hd ((hinv.eventIds t d.eventId.val).mpr hmem)

theorem Appended.tenant (hinv : LedgerInvariant sha s)
    (h : Appended sha t ty id expectedVersion drafts outbox inbox s appended last projected s') :
    ∀ e ∈ appended, e.tenantId.val = t :=
  fun _ he => (h.chain hinv).1.tenant (List.mem_append_right _ he)

theorem Appended.events
    (h : Appended sha t ty id expectedVersion drafts outbox inbox s appended last projected s') :
    s'.events = Function.update s.events t (s.events t ++ appended) := by
  rw [h.store]; rfl

theorem Appended.runs
    (h : Appended sha t ty id expectedVersion drafts outbox inbox s appended last projected s')
    (key : String × String) : s'.runs key = (projected key).orElse fun _ => s.runs key := by
  rw [h.store]; rfl

/-- **An append keeps the invariant.** -/
theorem Appended.keeps (hinv : LedgerInvariant sha s)
    (h : Appended sha t ty id expectedVersion drafts outbox inbox s appended last projected s') :
    LedgerInvariant sha s' := by
  obtain ⟨hchain, hkeys, hrecords⟩ := h.chain hinv
  obtain ⟨front, rfl⟩ : ∃ front, appended = front ++ [last] :=
    List.getLast?_eq_some_iff.mp h.is_last
  have hlastkey : last.aggregate = (ty, id) := hkeys last (by simp)
  refine ⟨fun u => ?_, fun u i => ?_, fun u => ?_, fun u ty' id' => ?_, fun u r => ?_⟩
  · rw [h.events]
    by_cases hu : u = t
    · subst hu; rw [Function.update_self]; exact hchain
    · rw [Function.update_of_ne hu]; exact hinv.chain u
  · rw [h.events, h.store]
    simp only [commitAppend, Finset.mem_union, List.mem_toFinset, List.mem_map, Prod.mk.injEq]
    by_cases hu : u = t
    · subst hu
      rw [Function.update_self, hinv.eventIds]
      simp only [List.mem_map, List.mem_append, true_and, or_and_right, exists_or]
    · rw [Function.update_of_ne hu, hinv.eventIds]
      simp only [List.mem_map]
      refine ⟨?_, Or.inl⟩
      rintro (h' | ⟨e, -, heq, -⟩)
      · exact h'
      · exact absurd heq.symm hu
  · rw [h.events, h.store]
    show Function.update s.tenantHeads t (some last.asTenantHead) u = _
    by_cases hu : u = t
    · subst hu
      rw [Function.update_self, Function.update_self, ← List.append_assoc,
        List.getLast?_concat]; rfl
    · rw [Function.update_of_ne hu, Function.update_of_ne hu, hinv.tenantHeads]
  · rw [h.events, h.store]
    show Function.update s.aggregateHeads (t, ty, id) (some last.asAggregateHead) (u, ty', id') = _
    by_cases hu : u = t
    · subst hu
      rw [Function.update_self, aggregateEvents, List.filter_append, ← aggregateEvents]
      by_cases hk : (ty, id) = (ty', id')
      · obtain ⟨rfl, rfl⟩ := Prod.mk.inj hk
        rw [Function.update_self, List.filter_append, ← List.append_assoc]
        simp only [hlastkey, decide_true, List.filter_cons_of_pos, List.filter_nil,
          List.getLast?_concat, Option.map_some]
      · have hnone : (front ++ [last]).filter (fun e => decide (e.aggregate = (ty', id'))) = [] := by
          refine List.filter_eq_nil_iff.mpr (fun e he => ?_)
          rw [hkeys e he]; simpa using hk
        rw [hnone, List.append_nil, Function.update_of_ne, hinv.aggregateHeads]
        intro heq
        exact hk (Prod.mk.inj heq).2.symm
    · rw [Function.update_of_ne hu, Function.update_of_ne, hinv.aggregateHeads]
      intro heq
      exact hu (Prod.mk.inj heq).1
  · rw [h.events, h.runs]
    have hfold := projectEvents_fold u r _ _ _ h.project
    by_cases hu : u = t
    · subst hu
      rw [filter_isEventOf_self (h.tenant hinv)] at hfold
      rw [Function.update_self, runEvents, List.filter_append, ← runEvents, ← runEvents,
        foldRun_append, hinv.runs]
      exact hfold
    · rw [filter_isEventOf_ne (h.tenant hinv) (Ne.symm hu)] at hfold
      rw [Function.update_of_ne hu, hinv.runs]
      exact hfold

/-- After an append to a run, the run is there. -/
theorem Appended.run_some (hinv : LedgerInvariant sha s)
    (h : Appended sha t "investigation" id expectedVersion drafts outbox inbox s appended last
      projected s') : ∃ run, s'.runs (t, id) = some run := by
  have hfold := (h.keeps hinv).runs t id
  refine foldRun_some _ ?_ hfold
  rw [h.events, Function.update_self, runEvents, List.filter_append]
  have hmem : last ∈ appended := List.mem_of_getLast? h.is_last
  have hkey := (h.chain hinv).2.1 last hmem
  refine List.append_ne_nil_of_right_ne_nil _ (List.ne_nil_of_mem (a := last) ?_)
  rw [List.mem_filter]
  refine ⟨hmem, ?_⟩
  simp only [ApplicationEvent.aggregate, Prod.mk.injEq] at hkey
  simp [hkey.1, hkey.2]

end AppendKeeps

end Durability

end Aegis
