/-
  WHAT THE VERIFIERS PROVE, and what they refuse.

  Tamper evidence: two lists of events that `verify_integrity` accepts and that end in the same
  record hash are the same history (`verified_agree`).  The hash covers every field, so the only
  freedom left is the UTC offset an instant is written with and the order of payload keys.

  Completeness: the verifiers recompute what the writer wrote.  On a reachable store they fail for
  ONE reason: an event whose schema version is not 1 (`verifyIntegrity_reachable`,
  `verifyRunIntegrity_reachable`).  The writer admits such events, so the ledger can hold what its
  verifiers refuse; `verifiers_accept_iff` says exactly when it does not.
-/
import Mathlib
import Aegis.Lib.HashChain
import Aegis.Durability.Effects

namespace Aegis

namespace Durability

variable {sha : Sha256} {s : Store}

/-! ## The material determines the event -/

/-- Equal up to the UTC offset of the time and the order of payload keys. -/
structure ApplicationEvent.Agree (e e' : ApplicationEvent) : Prop where
  tenantId : e.tenantId = e'.tenantId
  aggregateType : e.aggregateType = e'.aggregateType
  aggregateId : e.aggregateId = e'.aggregateId
  aggregateSequence : e.aggregateSequence = e'.aggregateSequence
  tenantCursor : e.tenantCursor = e'.tenantCursor
  eventId : e.eventId = e'.eventId
  eventType : e.eventType = e'.eventType
  occurredAt : e.occurredAt.instant = e'.occurredAt.instant
  actorRef : e.actorRef = e'.actorRef
  correlationRef : e.correlationRef = e'.correlationRef
  causationRef : e.causationRef = e'.causationRef
  schemaVersion : e.schemaVersion = e'.schemaVersion
  payload : e.payload.toJson.Same e'.payload.toJson
  aggregatePreviousHash : e.aggregatePreviousHash = e'.aggregatePreviousHash
  tenantPreviousHash : e.tenantPreviousHash = e'.tenantPreviousHash
  recordHash : e.recordHash = e'.recordHash

/-- The keys of the material, in order. -/
theorem eventMaterial_keys (a b c d e f g h i j k l m n o p : Json) :
    sortKeys (.obj [("actor_ref", a), ("aggregate_id", b), ("aggregate_previous_hash", c),
      ("aggregate_sequence", d), ("aggregate_type", e), ("causation_ref", f),
      ("correlation_ref", g), ("event_id", h), ("event_type", i), ("occurred_at", j),
      ("payload", k), ("record_schema_version", l), ("schema_version", m), ("tenant_cursor", n),
      ("tenant_id", o), ("tenant_previous_hash", p)])
    = .obj [("actor_ref", sortKeys a), ("aggregate_id", sortKeys b),
      ("aggregate_previous_hash", sortKeys c), ("aggregate_sequence", sortKeys d),
      ("aggregate_type", sortKeys e), ("causation_ref", sortKeys f),
      ("correlation_ref", sortKeys g), ("event_id", sortKeys h), ("event_type", sortKeys i),
      ("occurred_at", sortKeys j), ("payload", sortKeys k), ("record_schema_version", sortKeys l),
      ("schema_version", sortKeys m), ("tenant_cursor", sortKeys n), ("tenant_id", sortKeys o),
      ("tenant_previous_hash", sortKeys p)] := by
  rw [sortKeys_obj (by simp only [List.map_cons, List.map_nil]; decide +kernel)]
  simp only [sortKeysFields]

/-- The material of an event determines every field of it. -/
theorem eventMaterial_inj {t ty id t' ty' id' : String} {sequence cursor sequence' cursor' : Nat}
    {d d' : EventDraft} {ap tp ap' tp' : Digest}
    (h : eventMaterial t ty id sequence cursor d ap tp
      = eventMaterial t' ty' id' sequence' cursor' d' ap' tp') :
    t = t' ∧ ty = ty' ∧ id = id' ∧ sequence = sequence' ∧ cursor = cursor' ∧ ap = ap' ∧ tp = tp' ∧
      d.eventId = d'.eventId ∧ d.eventType = d'.eventType ∧
      d.occurredAt.instant = d'.occurredAt.instant ∧ d.actorRef = d'.actorRef ∧
      d.correlationRef = d'.correlationRef ∧ d.causationRef = d'.causationRef ∧
      d.schemaVersion = d'.schemaVersion ∧ d.payload.toJson.Same d'.payload.toJson := by
  have hsame := canonicalJson_inj.mp h
  rw [Json.Same, eventMaterial_keys, eventMaterial_keys] at hsame
  simp only [Json.obj.injEq, List.cons.injEq, Prod.mk.injEq, true_and, and_true, sortKeys,
    Json.str.injEq, Json.int.injEq, Int.natCast_inj] at hsame
  obtain ⟨hactor, hid, hap, hseq, hty, hcause, hcorr, heid, hety, hat, hpay, hver, hcur, ht, htp⟩ :=
    hsame
  have hcause' : d.causationRef = d'.causationRef := by
    revert hcause
    cases d.causationRef with
    | none => cases d'.causationRef with
      | none => intro _; rfl
      | some r => intro hc; simp [sortKeys] at hc
    | some r => cases d'.causationRef with
      | none => intro hc; simp [sortKeys] at hc
      | some r' =>
        intro hc
        simp only [Option.elim, sortKeys, Json.str.injEq] at hc
        rw [Subtype.ext hc]
  have hutc : d.occurredAt.utc = d'.occurredAt.utc := Datetime.isoformat_inj hat
  have hinstant : d.occurredAt.utc.instant = d'.occurredAt.utc.instant := by rw [hutc]
  exact ⟨ht, hty, hid, hseq, hcur, Subtype.ext hap, Subtype.ext htp, Subtype.ext heid,
    Subtype.ext hety, hinstant, Subtype.ext hactor, Subtype.ext hcorr, hcause', hver, hpay⟩

/-- The material sees neither the UTC offset of the time nor the order of payload keys. -/
theorem eventMaterial_congr {t ty id : String} {sequence cursor : Nat} {d d' : EventDraft}
    {ap tp : Digest} (heid : d.eventId = d'.eventId) (hety : d.eventType = d'.eventType)
    (hat : d.occurredAt.utc = d'.occurredAt.utc) (hactor : d.actorRef = d'.actorRef)
    (hcorr : d.correlationRef = d'.correlationRef) (hcause : d.causationRef = d'.causationRef)
    (hver : d.schemaVersion = d'.schemaVersion) (hpay : d.payload.toJson.Same d'.payload.toJson) :
    eventMaterial t ty id sequence cursor d ap tp = eventMaterial t ty id sequence cursor d' ap tp := by
  refine canonicalJson_inj.mpr ?_
  rw [Json.Same, eventMaterial_keys, eventMaterial_keys, heid, hety, hat, hactor, hcorr, hcause,
    hver, hpay]

/-! ## Tamper evidence -/

/-- The record hash of `e` is the hash of its own fields. -/
def SelfSealed (sha : Sha256) (e : ApplicationEvent) : Prop :=
  ∃ d, e.draft = .ok d ∧
    e.recordHash = sealOf sha e d e.aggregatePreviousHash e.tenantPreviousHash

/-- The text whose hash the record hash of `e` claims to be. -/
def IsMaterialOf (e : ApplicationEvent) (text : String) : Prop :=
  ∃ d, e.draft = .ok d ∧ text = eventMaterial e.tenantId.val e.aggregateType.val e.aggregateId.val
    e.aggregateSequence e.tenantCursor d e.aggregatePreviousHash e.tenantPreviousHash

/-- The texts that verifying two lists of events hashes. -/
def materialsOf (xs ys : List ApplicationEvent) : Set String :=
  { text | ∃ e, (e ∈ xs ∨ e ∈ ys) ∧ IsMaterialOf e text }

/-- Sealed events with one record hash agree. -/
theorem agree_of_recordHash {texts : Set String} (hfree : sha.CollisionFree texts)
    {e e' : ApplicationEvent} (he : SelfSealed sha e) (he' : SelfSealed sha e')
    (hmem : ∀ text, IsMaterialOf e text → text ∈ texts)
    (hmem' : ∀ text, IsMaterialOf e' text → text ∈ texts) (hhash : e.recordHash = e'.recordHash) :
    e.Agree e' ∧ e.tenantPreviousHash = e'.tenantPreviousHash := by
  obtain ⟨d, hd, hseal⟩ := he
  obtain ⟨d', hd', hseal'⟩ := he'
  have htext : eventMaterial e.tenantId.val e.aggregateType.val e.aggregateId.val
      e.aggregateSequence e.tenantCursor d e.aggregatePreviousHash e.tenantPreviousHash
      = eventMaterial e'.tenantId.val e'.aggregateType.val e'.aggregateId.val
      e'.aggregateSequence e'.tenantCursor d' e'.aggregatePreviousHash e'.tenantPreviousHash := by
    refine hfree.hexdigest (hmem _ ⟨d, hd, rfl⟩) (hmem' _ ⟨d', hd', rfl⟩) ?_
    rw [sealOf] at hseal hseal'
    rw [← hseal, ← hseal', hhash]
  obtain ⟨ht, hty, hid, hseq, hcur, hap, htp, heid, hety, hat, hactor, hcorr, hcause, hver, hpay⟩ :=
    eventMaterial_inj htext
  obtain ⟨f1, f2, f3, f4, f5, f6, f7, f8⟩ := EventDraft.make_ok hd
  obtain ⟨g1, g2, g3, g4, g5, g6, g7, g8⟩ := EventDraft.make_ok hd'
  rw [f8, g8] at hpay
  rw [f1, g1] at heid
  rw [f2, g2] at hety
  rw [f3, g3] at hat
  rw [f4, g4] at hactor
  rw [f5, g5] at hcorr
  rw [f6, g6] at hcause
  rw [f7, g7] at hver
  refine ⟨?_, htp⟩
  exact ⟨Subtype.ext ht, Subtype.ext hty, Subtype.ext hid, hseq, hcur, heid, hety, hat, hactor,
    hcorr, hcause, hver, (e.payload.toJson_sorted.symm.trans hpay).trans e'.payload.toJson_sorted,
    hap, htp, hhash⟩

/-- One accepted event: what the checks of the verifier establish. -/
theorem verifyEvents_cons {heads : String × String → Option AggregateHead}
    {tenantHead : TenantHead} {seen : Finset String} {e : ApplicationEvent}
    {events : List ApplicationEvent}
    (h : verifyEvents sha heads tenantHead seen (e :: events) = .ok true) :
    SelfSealed sha e ∧ e.tenantCursor = tenantHead.cursor + 1 ∧
      e.tenantPreviousHash = tenantHead.recordHash ∧
      ∃ heads' seen', verifyEvents sha heads' e.asTenantHead seen' events = .ok true := by
  rw [verifyEvents] at h
  obtain ⟨d, hd, h⟩ := except_bind_ok.mp h
  dsimp only at h
  split at h
  · cases h
  · rename_i hchecks
    push Not at hchecks
    obtain ⟨-, -, -, hcursor, haggregate, htenant, hseal⟩ := hchecks
    rw [← haggregate, ← htenant] at hseal
    exact ⟨⟨d, hd, hseal⟩, hcursor, htenant, _, _, h⟩

/-- What acceptance of a whole list establishes: sealed events, linked along the tenant's chain,
    with consecutive cursors. -/
theorem verifyEvents_linked :
    ∀ (events : List ApplicationEvent) (heads : String × String → Option AggregateHead)
      (tenantHead : TenantHead) (seen : Finset String),
    verifyEvents sha heads tenantHead seen events = .ok true →
    HashChain.Linked (·.tenantPreviousHash) (·.recordHash) tenantHead.recordHash events ∧
      (∀ e ∈ events, SelfSealed sha e) ∧
      ∀ e, events.getLast? = some e → e.tenantCursor = tenantHead.cursor + events.length := by
  intro events
  induction events with
  | nil =>
    intro heads tenantHead seen _
    exact ⟨trivial, by simp, by simp⟩
  | cons e events ih =>
    intro heads tenantHead seen h
    obtain ⟨hseal, hcursor, hprev, heads', seen', hrest⟩ := verifyEvents_cons h
    obtain ⟨hlinked, hsealed, hlast⟩ := ih heads' e.asTenantHead seen' hrest
    refine ⟨⟨hprev, hlinked⟩, ?_, ?_⟩
    · intro e' he'
      rcases List.mem_cons.mp he' with rfl | he'
      · exact hseal
      · exact hsealed e' he'
    · intro e' he'
      rw [List.length_cons]
      cases hev : events.getLast? with
      | none =>
        obtain rfl := List.getLast?_eq_none_iff.mp hev
        obtain rfl : e = e' := by simpa using he'
        simpa using hcursor
      | some last =>
        have hsome : (e :: events).getLast? = some last := by rw [List.getLast?_cons, hev]; rfl
        obtain rfl : last = e' := Option.some.inj (hsome.symm.trans he')
        have hcur := hlast last hev
        simp only [ApplicationEvent.asTenantHead] at hcur
        omega

/-- **Tamper evidence.**  Two lists of events that verification accepts and that end in the same
    record hash have the same length and agree position by position, when no two of the texts
    hashed collide. -/
theorem verified_agree (sha : Sha256) (xs ys : List ApplicationEvent)
    (hfree : sha.CollisionFree (materialsOf xs ys))
    (hx : verifyLedger sha xs = .ok true) (hy : verifyLedger sha ys = .ok true)
    (hlast : xs.getLast?.map (·.recordHash) = ys.getLast?.map (·.recordHash)) :
    List.Forall₂ ApplicationEvent.Agree xs ys := by
  obtain ⟨hlinkx, hsealx, hcurx⟩ := verifyEvents_linked xs _ _ _ hx
  obtain ⟨hlinky, hsealy, hcury⟩ := verifyEvents_linked ys _ _ _ hy
  have hagree : ∀ a ∈ xs, ∀ b ∈ ys, a.recordHash = b.recordHash →
      a.Agree b ∧ a.tenantPreviousHash = b.tenantPreviousHash := by
    intro a ha b hb hab
    exact agree_of_recordHash hfree (hsealx a ha) (hsealy b hb)
      (fun _ ht => ⟨a, Or.inl ha, ht⟩) (fun _ ht => ⟨b, Or.inr hb, ht⟩) hab
  -- the cursor is part of the material, so the last hash fixes the length
  have hlen : xs.length = ys.length := by
    cases hxl : xs.getLast? with
    | none =>
      rw [hxl] at hlast
      have hyl : ys.getLast? = none := by simpa using hlast.symm
      rw [List.getLast?_eq_none_iff.mp hxl, List.getLast?_eq_none_iff.mp hyl]
    | some a =>
      cases hyl : ys.getLast? with
      | none => rw [hxl, hyl] at hlast; simp at hlast
      | some b =>
        rw [hxl, hyl] at hlast
        have hab := (hagree a (List.mem_of_getLast? hxl) b (List.mem_of_getLast? hyl)
          (Option.some.inj hlast)).1.tenantCursor
        have h1 := hcurx a hxl
        have h2 := hcury b hyl
        simp only at h1 h2
        omega
  exact HashChain.linked_agree xs ys hlen hagree hlinkx hlinky hlast

/-- The first event of an aggregate of notes, at the epoch, written with the given UTC offset. -/
def noteEvent (offset : Int) : ApplicationEvent where
  tenantId := ⟨"t", computed⟩
  aggregateType := ⟨"note", computed⟩
  aggregateId := ⟨"n", computed⟩
  aggregateSequence := 1
  tenantCursor := 1
  eventId := ⟨"e", computed⟩
  eventType := ⟨"note.added", computed⟩
  occurredAt := ⟨0, offset⟩
  actorRef := ⟨"a", computed⟩
  correlationRef := ⟨"c", computed⟩
  causationRef := none
  schemaVersion := 1
  payload := ∅
  aggregatePreviousHash := zeroHash
  tenantPreviousHash := zeroHash
  recordHash := Sha256.constant.hexdigest ""
  sequence_ok := le_refl 1
  cursor_ok := le_refl 1
  schema_ok := schema_one

/-- One event written at two offsets: both lists verify, they end in one hash, and they agree. -/
theorem verified_agree_offsets :
    verifyLedger Sha256.constant [noteEvent 0] = .ok true ∧
    verifyLedger Sha256.constant [noteEvent 60] = .ok true ∧
    List.Forall₂ ApplicationEvent.Agree [noteEvent 0] [noteEvent 60] := by
  have hx : verifyLedger Sha256.constant [noteEvent 0] = .ok true := by decide +kernel
  have hy : verifyLedger Sha256.constant [noteEvent 60] = .ok true := by decide +kernel
  refine ⟨hx, hy, verified_agree Sha256.constant _ _ ?_ hx hy rfl⟩
  -- the two events have one material
  have hone : ∀ o o' d d', (noteEvent o).draft = .ok d → (noteEvent o').draft = .ok d' →
      ∀ ap tp, eventMaterial "t" "note" "n" 1 1 d ap tp = eventMaterial "t" "note" "n" 1 1 d' ap tp := by
    intro o o' d d' hd hd' ap tp
    obtain ⟨f1, f2, f3, f4, f5, f6, f7, f8⟩ := EventDraft.make_ok hd
    obtain ⟨g1, g2, g3, g4, g5, g6, g7, g8⟩ := EventDraft.make_ok hd'
    refine eventMaterial_congr (f1.trans g1.symm) (f2.trans g2.symm) (by rw [f3, g3]; rfl)
      (f4.trans g4.symm) (f5.trans g5.symm) (f6.trans g6.symm) (f7.trans g7.symm) ?_
    rw [f8, g8]; rfl
  have hoffset : ∀ e, e ∈ [noteEvent 0] ∨ e ∈ [noteEvent 60] → ∃ o, e = noteEvent o := by
    rintro e (he | he)
    · exact ⟨0, List.mem_singleton.mp he⟩
    · exact ⟨60, List.mem_singleton.mp he⟩
  rintro n - a ⟨e, he, d, hd, rfl⟩ b ⟨e', he', d', hd', rfl⟩ -
  obtain ⟨o, rfl⟩ := hoffset e he
  obtain ⟨o', rfl⟩ := hoffset e' he'
  exact hone o o' d d' hd hd' _ _

/-! ## The verifiers on a chain -/

/-- A stored event can be turned back into a draft with the same material. -/
theorem draft_of_records (sha : Sha256) {e : ApplicationEvent} {d : EventDraft} (h : e.Records d) :
    ∃ d', e.draft = .ok d' ∧ ∀ ap tp, sealOf sha e d' ap tp = sealOf sha e d ap tp := by
  obtain ⟨heid, hety, hat, hactor, hcorr, hcause, hver, hpay⟩ := h
  have hschema : 1 ≤ e.schemaVersion ∧ e.schemaVersion ≤ 1000 := e.schema_ok
  have hpayload : e.payload.sorted.entries.length ≤ 32 ∧ e.payload.sorted.size ≤ maxEventBytes := by
    rw [Fields.length_sorted, Fields.size_sorted, hpay]; exact d.payload_ok
  have hdraft : ∃ d', e.draft = .ok d' := by
    unfold ApplicationEvent.draft EventDraft.make
    rw [dif_pos hschema, dif_pos hpayload]
    exact ⟨_, rfl⟩
  obtain ⟨d', hd'⟩ := hdraft
  obtain ⟨g1, g2, g3, g4, g5, g6, g7, g8⟩ := EventDraft.make_ok hd'
  refine ⟨d', hd', fun ap tp => ?_⟩
  have htext : eventMaterial e.tenantId.val e.aggregateType.val e.aggregateId.val
      e.aggregateSequence e.tenantCursor d' ap tp = eventMaterial e.tenantId.val
      e.aggregateType.val e.aggregateId.val e.aggregateSequence e.tenantCursor d ap tp := by
    refine eventMaterial_congr (g1.trans heid) (g2.trans hety) (by rw [g3, hat]) (g4.trans hactor)
      (g5.trans hcorr) (g6.trans hcause) (g7.trans hver) ?_
    rw [g8, ← hpay]
    exact e.payload.toJson_sorted
  rw [sealOf, sealOf, htext]

theorem aggregateHeadOf_update {pre : List ApplicationEvent} {e : ApplicationEvent}
    {heads : String × String → Option AggregateHead}
    (hheads : ∀ key, (heads key).getD {} = aggregateHeadOf pre key) (key : String × String) :
    (Function.update heads e.aggregate (some e.asAggregateHead) key).getD {}
      = aggregateHeadOf (pre ++ [e]) key := by
  by_cases hkey : key = e.aggregate
  · subst hkey
    rw [Function.update_self, aggregateHeadOf_concat_self]; rfl
  · rw [Function.update_of_ne hkey, hheads, aggregateHeadOf, aggregateHeadOf,
      aggregateEvents_concat_ne pre (Ne.symm hkey)]

/-- On a chain the loop of `verify_integrity` fails only at a schema version.  Induction on the
    events still to come; the loop variables describe the events before them. -/
theorem verifyEvents_chain {t : String} :
    ∀ (rest pre : List ApplicationEvent) (heads : String × String → Option AggregateHead)
      (seen : Finset String), Chain sha t (pre ++ rest) →
    (∀ key, (heads key).getD {} = aggregateHeadOf pre key) →
    (∀ id, id ∈ seen ↔ id ∈ pre.map (·.eventId.val)) →
    verifyEvents sha heads (tenantHeadOf pre) seen rest
      = .ok (rest.all fun e => e.schemaVersion == 1) := by
  intro rest
  induction rest with
  | nil => intro pre heads seen _ _ _; rfl
  | cons e rest ih =>
    intro pre heads seen hchain hheads hseen
    obtain ⟨-, hext⟩ := hchain pre e rest rfl
    obtain ⟨d, hrec, hseal⟩ := hext.sealed
    obtain ⟨d', hd', hmaterial⟩ := draft_of_records sha hrec
    have hexpected : e.recordHash = sealOf sha e d' (aggregateHeadOf pre e.aggregate).recordHash
        (tenantHeadOf pre).recordHash := by
      rw [hmaterial, ← hext.aggregatePrevious, ← hext.tenantPrevious]; exact hseal
    rw [verifyEvents, hd']
    show (if _ then _ else _) = _
    rw [List.all_cons, hheads e.aggregate]
    by_cases hschema : e.schemaVersion = 1
    · rw [if_neg]
      · have hrest := ih (pre ++ [e]) (Function.update heads e.aggregate (some e.asAggregateHead))
          (insert e.eventId.val seen) (by rw [List.append_assoc]; exact hchain)
          (aggregateHeadOf_update hheads) (by
            intro id
            rw [Finset.mem_insert, hseen, List.map_append, List.mem_append, List.map_singleton,
              List.mem_singleton, or_comm])
        rw [tenantHeadOf_concat] at hrest
        rw [hschema, beq_self_eq_true, Bool.true_and]
        exact hrest
      · push Not
        exact ⟨hschema, fun hmem => hext.fresh ((hseen _).mp hmem), hext.sequence, hext.cursor,
          hext.aggregatePrevious, hext.tenantPrevious, hexpected⟩
    · rw [if_pos (Or.inl hschema), beq_eq_false_iff_ne.mpr hschema, Bool.false_and]

/-- **`verify_integrity` on a reachable store**: true unless a schema version is not 1. -/
theorem verifyIntegrity_reachable (hinv : LedgerInvariant sha s) (t : String) :
    verifyIntegrity sha s t = .ok ((s.events t).all fun e => e.schemaVersion == 1) := by
  refine verifyEvents_chain (t := t) (s.events t) [] (fun _ => none) ∅ (hinv.chain t) ?_ ?_
  · intro key; rfl
  · intro id; simp

theorem previousTenantHash_split (pre post : List ApplicationEvent) (e : ApplicationEvent) :
    previousTenantHash (pre ++ e :: post) (pre.length + 1) = (tenantHeadOf pre).recordHash := by
  unfold previousTenantHash
  rcases List.eq_nil_or_concat pre with rfl | ⟨pre, last, rfl⟩
  · rfl
  · rw [List.concat_eq_append, if_neg (by simp), tenantHeadOf_concat, List.length_append]
    have hget : (pre ++ [last] ++ e :: post)[pre.length]? = some last := by
      rw [List.append_assoc, List.getElem?_append_right (le_refl _), Nat.sub_self]; rfl
    show (((pre ++ [last] ++ e :: post)[pre.length + 1 + 1 - 2]?).map _).getD _ = _
    rw [show pre.length + 1 + 1 - 2 = pre.length by omega, hget]; rfl

theorem linkedToNext_chain {t : String} {pre post : List ApplicationEvent} {e : ApplicationEvent}
    (hchain : Chain sha t (pre ++ e :: post)) :
    linkedToNext (pre ++ e :: post) (tenantHeadOf (pre ++ e :: post)) e = true := by
  obtain ⟨-, hext⟩ := hchain pre e post rfl
  have hcursor : e.tenantCursor = pre.length + 1 := by
    rw [hext.cursor]
    have hhead := (Chain.init hchain).head_cursor
    omega
  unfold linkedToNext
  rw [hcursor, List.getElem?_append_right (by omega), show pre.length + 1 - pre.length = 1 by omega]
  cases post with
  | nil =>
    show ((tenantHeadOf (pre ++ [e])).recordHash == e.recordHash) = true
    rw [tenantHeadOf_concat]; exact beq_self_eq_true _
  | cons next post =>
    have hnext := (hchain (pre ++ [e]) next post (by simp)).2.tenantPrevious
    rw [tenantHeadOf_concat] at hnext
    show (next.tenantPreviousHash == e.recordHash) = true
    rw [hnext]; exact beq_self_eq_true _

/-- An event of run `r`, for the filter of the verifier. -/
theorem runEvents_cons_of_key {e : ApplicationEvent} {events : List ApplicationEvent} {r : String}
    (h : e.aggregate = ("investigation", r)) : runEvents (e :: events) r = e :: runEvents events r := by
  obtain ⟨h1, h2⟩ := Prod.mk.inj h
  exact List.filter_cons_of_pos (by simp [h1, h2])

theorem runEvents_cons_of_ne {e : ApplicationEvent} {events : List ApplicationEvent} {r : String}
    (h : e.aggregate ≠ ("investigation", r)) : runEvents (e :: events) r = runEvents events r := by
  refine List.filter_cons_of_neg ?_
  intro hyes
  simp only [Bool.and_eq_true, beq_iff_eq] at hyes
  exact h (Prod.ext hyes.1 hyes.2)

/-- On a chain the loop of `verify_run_integrity` fails only at a schema version.  Induction on the
    tenant's events still to come: the loop variables are the head of the run's aggregate. -/
theorem verifyRunEvents_chain {t r : String} (events : List ApplicationEvent)
    (hchain : Chain sha t events) :
    ∀ (rest pre : List ApplicationEvent), events = pre ++ rest →
    verifyRunEvents sha events (tenantHeadOf events)
        (aggregateHeadOf pre ("investigation", r)).sequence
        (aggregateHeadOf pre ("investigation", r)).recordHash (runEvents rest r)
      = .ok (if (runEvents rest r).all (fun e => e.schemaVersion == 1) = true
          then some ((aggregateHeadOf events ("investigation", r)).sequence,
            (aggregateHeadOf events ("investigation", r)).recordHash) else none) := by
  intro rest
  induction rest with
  | nil =>
    intro pre hsplit
    rw [List.append_nil] at hsplit
    subst hsplit
    rfl
  | cons e rest ih =>
    intro pre hsplit
    have ih' := ih (pre ++ [e]) (by rw [hsplit, List.append_assoc]; rfl)
    obtain ⟨-, hext⟩ := hchain pre e rest hsplit
    by_cases hkey : e.aggregate = ("investigation", r)
    · obtain ⟨d, hrec, hseal⟩ := hext.sealed
      obtain ⟨d', hd', hmaterial⟩ := draft_of_records sha hrec
      have hpre : Chain sha t pre := by
        rw [hsplit] at hchain; exact hchain.init
      have hcursor : e.tenantCursor = pre.length + 1 := by rw [hext.cursor, hpre.head_cursor]
      have hprevious : previousTenantHash events e.tenantCursor = e.tenantPreviousHash := by
        rw [hcursor, hsplit, previousTenantHash_split, hext.tenantPrevious]
      have hlinked : linkedToNext events (tenantHeadOf events) e = true := by
        rw [hsplit]; exact linkedToNext_chain (t := t) (by rw [← hsplit]; exact hchain)
      have haggregate := hext.aggregatePrevious
      have hsequence := hext.sequence
      rw [hkey] at haggregate hsequence
      have hexpected : e.recordHash = sealOf sha e d'
          (aggregateHeadOf pre ("investigation", r)).recordHash e.tenantPreviousHash := by
        rw [hmaterial, ← haggregate]; exact hseal
      have hrange : ¬(e.tenantCursor < 1 ∨ events.length < e.tenantCursor) := by
        rw [hcursor, hsplit, List.length_append, List.length_cons]; omega
      rw [runEvents_cons_of_key hkey, verifyRunEvents, if_neg hrange, hd', hprevious]
      show (if _ then _ else _) = _
      rw [List.all_cons]
      by_cases hschema : e.schemaVersion = 1
      · rw [if_neg, if_neg (by rw [hlinked]; decide), hschema, beq_self_eq_true, Bool.true_and]
        · rw [← hkey, aggregateHeadOf_concat_self, hkey] at ih'
          exact ih'
        · push Not
          exact ⟨hschema, hsequence, haggregate, rfl, hexpected⟩
      · rw [if_pos (Or.inl hschema), beq_eq_false_iff_ne.mpr hschema, Bool.false_and]
        rfl
    · rw [runEvents_cons_of_ne hkey]
      rw [aggregateHeadOf, aggregateEvents_concat_ne pre hkey, ← aggregateHeadOf] at ih'
      exact ih'

/-- **`verify_run_integrity` on a reachable store**, for a run within the bound. -/
theorem verifyRunIntegrity_reachable (hinv : LedgerInvariant sha s) (t r : String)
    {maximumEvents : Int} (hmax : 1 ≤ maximumEvents ∧ maximumEvents ≤ 10000)
    (hsome : runEvents (s.events t) r ≠ [])
    (hbound : (runEvents (s.events t) r).length ≤ maximumEvents) :
    verifyRunIntegrity sha s t r maximumEvents
      = .ok ((runEvents (s.events t) r).all fun e => e.schemaVersion == 1) := by
  have hloop := verifyRunEvents_chain (r := r) (s.events t) (hinv.chain t) (s.events t) [] rfl
  unfold verifyRunIntegrity
  rw [if_neg (by omega), if_neg (by rw [not_or]; exact ⟨hsome, by omega⟩), hinv.tenantHead]
  rw [show aggregateHeadOf [] ("investigation", r) = {} from rfl] at hloop
  simp only at hloop
  rw [hloop]
  by_cases hall : (runEvents (s.events t) r).all (fun e => e.schemaVersion == 1) = true
  · rw [if_pos hall, hall]
    have hhead := hinv.aggregateHeads t "investigation" r
    rw [aggregateHeadOf]
    rw [runEvents_eq_aggregateEvents] at hsome
    cases hlast : (aggregateEvents (s.events t) ("investigation", r)).getLast? with
    | none => exact absurd (List.getLast?_eq_none_iff.mp hlast) hsome
    | some last =>
      rw [hlast] at hhead
      rw [hhead]
      show Except.ok (_ == _ && _ == _) = _
      rw [Option.map_some, Option.getD_some, beq_self_eq_true, beq_self_eq_true, Bool.and_self]
  · rw [if_neg hall, Bool.eq_false_iff.mpr hall]
    rfl

/-! ## When the verifiers accept what the ledger holds -/

/-- Every stored event has schema version 1. -/
def SchemaOne (s : Store) : Prop := ∀ t, ∀ e ∈ s.events t, e.schemaVersion = 1

/-- The verifiers accept the store, and every run can be rebuilt. -/
def VerifiersAccept (sha : Sha256) (s : Store) : Prop :=
  ∀ t, verifyIntegrity sha s t = .ok true ∧
    (∀ r (maximumEvents : Int), 1 ≤ maximumEvents → maximumEvents ≤ 10000 →
      runEvents (s.events t) r ≠ [] → (runEvents (s.events t) r).length ≤ maximumEvents →
      verifyRunIntegrity sha s t r maximumEvents = .ok true) ∧
    ∀ r, runEvents (s.events t) r ≠ [] → ∃ view, (rebuildRun sha t r s).1 = .ok view

/-- A run of a verified tenant can be rebuilt. -/
theorem rebuildRun_ok (hinv : LedgerInvariant sha s) {t r : String}
    (hverified : verifyIntegrity sha s t = .ok true) (hsome : runEvents (s.events t) r ≠ []) :
    ∃ view, (rebuildRun sha t r s).1 = .ok view := by
  obtain ⟨run, hrun⟩ := foldRun_some _ hsome (hinv.runs t r)
  have hfold := hinv.runs t r
  rw [hrun] at hfold
  refine ⟨run, ?_⟩
  simp [rebuildRun, bind, Exec.andThen, Exec.read, Exec.lift, Exec.require, hverified, hsome, hfold,
    Exec.modify, Exec.ret, pure]

theorem verifiersAccept_iff (hinv : LedgerInvariant sha s) :
    VerifiersAccept sha s ↔ SchemaOne s := by
  constructor
  · intro h t e he
    have ht := (h t).1
    rw [verifyIntegrity_reachable hinv] at ht
    have hall := List.all_eq_true.mp (Except.ok.inj ht) e he
    exact beq_iff_eq.mp hall
  · intro h t
    have hall : ∀ events : List ApplicationEvent, (∀ e ∈ events, e ∈ s.events t) →
        (events.all fun e => e.schemaVersion == 1) = true :=
      fun events hsub => List.all_eq_true.mpr fun e he => beq_iff_eq.mpr (h t e (hsub e he))
    have hverified : verifyIntegrity sha s t = .ok true := by
      rw [verifyIntegrity_reachable hinv, hall _ fun _ he => he]
    refine ⟨hverified, fun r maximumEvents hlow hhigh hsome hbound => ?_, fun r hsome =>
      rebuildRun_ok hinv hverified hsome⟩
    rw [verifyRunIntegrity_reachable hinv t r ⟨hlow, hhigh⟩ hsome hbound,
      hall (runEvents (s.events t) r) fun e he => (List.mem_filter.mp he).1]

/-- An append adds events with the schema versions of its drafts. -/
theorem Appended.schemaOne {t ty id : String} {expectedVersion : Int} {drafts : List EventDraft}
    {outbox : List OutboxDraft} {inbox : List InboxDraft} {s' : Store}
    {appended : List ApplicationEvent} {last : ApplicationEvent}
    {projected : String × String → Option RunView} (hinv : LedgerInvariant sha s)
    (h : Appended sha t ty id expectedVersion drafts outbox inbox s appended last projected s') :
    SchemaOne s' ↔ SchemaOne s ∧ ∀ d ∈ drafts, d.schemaVersion = 1 := by
  have hmap : appended.map (·.schemaVersion) = drafts.map (·.schemaVersion) :=
    records_map (fun _ _ hrec => hrec.2.2.2.2.2.2.1) (h.chain hinv).2.2
  have hnew : (∀ e ∈ appended, e.schemaVersion = 1) ↔ ∀ d ∈ drafts, d.schemaVersion = 1 := by
    have hall := congrArg (fun versions : List Nat => ∀ v ∈ versions, v = 1) hmap
    simp only [List.forall_mem_map] at hall
    rw [hall]
  rw [← hnew]
  unfold SchemaOne
  rw [h.events]
  constructor
  · intro hall
    refine ⟨fun u e he => ?_, fun e he => ?_⟩
    · refine hall u e ?_
      by_cases hu : u = t
      · subst hu; rw [Function.update_self]; exact List.mem_append_left _ he
      · rw [Function.update_of_ne hu]; exact he
    · refine hall t e ?_
      rw [Function.update_self]; exact List.mem_append_right _ he
  · rintro ⟨hold, hadded⟩ u e he
    by_cases hu : u = t
    · subst hu
      rw [Function.update_self] at he
      rcases List.mem_append.mp he with he | he
      · exact hold u e he
      · exact hadded e he
    · rw [Function.update_of_ne hu] at he
      exact hold u e he

theorem runDrafts_schema {identity : IdentityContext} {request : InvestigationRequest}
    {waitForSignal : Bool} {traceRef : String} {now : Datetime} {drafts : EventDraft × OutboxDraft}
    (h : runDrafts sha identity request waitForSignal traceRef now = .ok drafts) :
    drafts.1.schemaVersion = 1 := by
  obtain ⟨draft, hdraft, h⟩ := except_bind_ok.mp h
  obtain ⟨outbox, -, h⟩ := except_bind_ok.mp h
  obtain ⟨-, -, -, -, -, -, hver, -⟩ := EventDraft.make_ok hdraft
  rw [← Except.ok.inj h]; exact hver

theorem transitionDraft_schema {runId eventType operationId actor request : String}
    {failureCode : Option String} {attributes : Option Fields} {now : Datetime} {draft : EventDraft}
    (h : transitionDraft sha runId eventType operationId actor request failureCode attributes now
      = .ok draft) : draft.schemaVersion = 1 := by
  obtain ⟨kind, -, h⟩ := except_bind_ok.mp h
  obtain ⟨actor, -, h⟩ := except_bind_ok.mp h
  obtain ⟨request, -, h⟩ := except_bind_ok.mp h
  obtain ⟨operation, -, h⟩ := except_bind_ok.mp h
  obtain ⟨-, -, -, -, -, -, hver, -⟩ := EventDraft.make_ok h
  exact hver

theorem signalDrafts_schema {identity : IdentityContext} {command : SignalCommand}
    {current : RunView} {availableAt occurredAt : Datetime}
    {drafts : InboxDraft × OutboxDraft × EventDraft}
    (h : signalDrafts sha identity command current availableAt occurredAt = .ok drafts) :
    drafts.2.2.schemaVersion = 1 := by
  obtain ⟨inbox, -, h⟩ := except_bind_ok.mp h
  obtain ⟨outbox, -, h⟩ := except_bind_ok.mp h
  obtain ⟨draft, hdraft, h⟩ := except_bind_ok.mp h
  obtain ⟨-, -, -, -, -, -, hver, -⟩ := EventDraft.make_ok hdraft
  rw [← Except.ok.inj h]; exact hver

theorem legacyDrafts_schema {t id actor correlation : String}
    {upcast : LegacyEvent → Except Error (String × Fields)} :
    ∀ (legacy : List LegacyEvent) (index : Nat) (drafts : List EventDraft),
    legacyDrafts sha t id actor correlation upcast index legacy = .ok drafts →
    ∀ d ∈ drafts, d.schemaVersion = 1 := by
  intro legacy
  induction legacy with
  | nil =>
    intro index drafts h
    rw [← Except.ok.inj h]; simp
  | cons item legacy ih =>
    intro index drafts h
    obtain ⟨⟨eventType, payload⟩, -, h⟩ := except_bind_ok.mp h
    obtain ⟨kind, -, h⟩ := except_bind_ok.mp h
    obtain ⟨actor, -, h⟩ := except_bind_ok.mp h
    obtain ⟨correlation, -, h⟩ := except_bind_ok.mp h
    obtain ⟨draft, hdraft, h⟩ := except_bind_ok.mp h
    obtain ⟨rest, hrest, h⟩ := except_bind_ok.mp h
    obtain ⟨-, -, -, -, -, -, hver, -⟩ := EventDraft.make_ok hdraft
    rw [← Except.ok.inj h]
    intro d hd
    rcases List.mem_cons.mp hd with rfl | hd
    · exact hver
    · exact ih (index + 1) rest hrest d hd

/-- The call appended only drafts of schema version 1, or was no accepted append. -/
def appendsSchemaOne (e : Machine.Entry Store Op (Except Error Result)) : Prop :=
  ∀ t ty id expectedVersion drafts outbox inbox result,
    e.op = .append t ty id expectedVersion drafts outbox inbox → e.result = .ok result →
    ∀ d ∈ drafts, d.schemaVersion = 1

/-- One call: the schema versions stay 1 exactly when the call appends nothing else. -/
theorem step_schemaOne (hinv : LedgerInvariant sha s) (op : Op) :
    SchemaOne (step sha s op).2 ↔
      SchemaOne s ∧ appendsSchemaOne (Machine.entry (step sha) s op) := by
  -- a call that is no `append` meets the condition on its own
  have hother : ∀ {I : Prop}, (∀ t ty id v drafts outbox inbox,
      op ≠ .append t ty id v drafts outbox inbox) → (I ↔ SchemaOne s) →
      (I ↔ SchemaOne s ∧ appendsSchemaOne (Machine.entry (step sha) s op)) := by
    intro I hne hI
    rw [hI, iff_self_and]
    intro _ t ty id v drafts outbox inbox result hop
    exact absurd hop (hne t ty id v drafts outbox inbox)
  have hsame : ∀ (e : Error) (s' : Store), s' = s → (SchemaOne s' ↔ SchemaOne s) := by
    rintro _ _ rfl; exact Iff.rfl
  cases op with
  | append t ty id v drafts outbox inbox =>
    have hsat : Exec.Sat ((Op.append t ty id v drafts outbox inbox).body sha) s
        (fun _ s' => SchemaOne s' ↔ SchemaOne s ∧ ∀ d ∈ drafts, d.schemaVersion = 1)
        (fun _ s' => s' = s) := by
      refine Exec.Sat.call (append_sat sha t ty id v drafts outbox inbox s) (fun _ _ h => h) ?_
      rintro appended s' ⟨last, projected, h⟩
      exact h.schemaOne hinv
    rcases hrun : (Op.append t ty id v drafts outbox inbox).body sha s with ⟨result, s'⟩
    have hstep : step sha s (.append t ty id v drafts outbox inbox) = (result, s') := hrun
    have hentry : appendsSchemaOne (Machine.entry (step sha) s
        (.append t ty id v drafts outbox inbox)) ↔
        ∀ r, result = .ok r → ∀ d ∈ drafts, d.schemaVersion = 1 := by
      unfold appendsSchemaOne Machine.entry
      rw [hstep]
      constructor
      · intro h r hr
        exact h t ty id v drafts outbox inbox r rfl hr
      · rintro h t' ty' id' v' drafts' outbox' inbox' r hop hr
        cases hop; exact h r hr
    rw [hentry, hstep]
    cases result with
    | ok r =>
      rw [hsat.ok hrun]
      simp
    | error e =>
      rw [hsat.error hrun]
      simp
  | acceptRun identity request waitForSignal now =>
    refine hother (by intros; simp) ?_
    refine Exec.Sat.state (I := fun s' => SchemaOne s' ↔ SchemaOne s) ?_
    refine Exec.Sat.call (acceptRun_sat hinv identity request waitForSignal now) hsame ?_
    rintro run s' (⟨-, rfl⟩ | ⟨traceRef, drafts, appended, last, projected, h⟩)
    · exact Iff.rfl
    · have happ := h.append.schemaOne (withIdempotency_keeps hinv identity request waitForSignal)
      refine happ.trans ⟨fun hs => hs.1, fun hs => ⟨hs, ?_⟩⟩
      simpa using runDrafts_schema h.drafts_ok
  | acceptSignal identity command availableAt occurredAt =>
    refine hother (by intros; simp) ?_
    refine Exec.Sat.state (I := fun s' => SchemaOne s' ↔ SchemaOne s) ?_
    refine Exec.Sat.call (acceptSignal_sat hinv identity command availableAt occurredAt) hsame ?_
    rintro run s' (⟨-, rfl⟩ | ⟨current, drafts, appended, last, projected, h⟩)
    · exact Iff.rfl
    · refine (h.append.schemaOne hinv).trans ⟨fun hs => hs.1, fun hs => ⟨hs, ?_⟩⟩
      simpa using signalDrafts_schema h.drafts_ok
  | recordTransition t runId eventType operationId actor request failureCode attributes now =>
    refine hother (by intros; simp) ?_
    refine Exec.Sat.state (I := fun s' => SchemaOne s' ↔ SchemaOne s) ?_
    refine Exec.Sat.call (recordTransition_sat hinv t runId eventType operationId actor request
      failureCode attributes now) hsame ?_
    rintro run s' (rfl | ⟨current, draft, appended, last, projected, h⟩)
    · exact Iff.rfl
    · refine (h.append.schemaOne hinv).trans ⟨fun hs => hs.1, fun hs => ⟨hs, ?_⟩⟩
      simpa using transitionDraft_schema h.draft_ok
  | replayLegacy t id actor correlation legacy upcast =>
    refine hother (by intros; simp) ?_
    refine Exec.Sat.state (I := fun s' => SchemaOne s' ↔ SchemaOne s) ?_
    refine Exec.Sat.call (replayLegacy_sat sha t id actor correlation legacy upcast s) hsame ?_
    rintro appended s' ⟨drafts, last, projected, hdrafts, h⟩
    exact (h.schemaOne hinv).trans
      ⟨fun hs => hs.1, fun hs => ⟨hs, legacyDrafts_schema legacy 1 drafts hdrafts⟩⟩
  | claimOutbox t workerRef now claimUntil limit =>
    refine hother (by intros; simp) ?_
    refine Exec.Sat.state (I := fun s' => SchemaOne s' ↔ SchemaOne s) ?_
    refine Exec.Sat.call (claimOutbox_sat sha t workerRef now claimUntil limit s) hsame ?_
    rintro claims s' ⟨-, -, hs'⟩
    rw [hs']; exact Iff.rfl
  | completeOutbox claim =>
    refine hother (by intros; simp) ?_
    refine Exec.Sat.state (I := fun s' => SchemaOne s' ↔ SchemaOne s) ?_
    refine Exec.Sat.call (updateClaim_sat claim .delivered none none s)
      (fun e s' h => hsame e s' h.1) ?_
    rintro _ s' ⟨record, -, -, rfl⟩
    exact Iff.rfl
  | failOutbox claim errorCode retryAt permanent =>
    refine hother (by intros; simp) ?_
    refine Exec.Sat.state (I := fun s' => SchemaOne s' ↔ SchemaOne s) ?_
    refine Exec.Sat.call (updateClaim_sat claim _ (some errorCode) (some retryAt) s)
      (fun e s' h => hsame e s' h.1) ?_
    rintro _ s' ⟨record, -, -, rfl⟩
    exact Iff.rfl
  | rebuildRunProjections t =>
    refine hother (by intros; simp) ?_
    refine Exec.Sat.state (I := fun s' => SchemaOne s' ↔ SchemaOne s) ?_
    refine Exec.Sat.call (rebuildRunProjections_sat hinv t) hsame ?_
    rintro _ s' hs'
    rw [hs']; exact Iff.rfl
  | rebuildRun t r =>
    refine hother (by intros; simp) ?_
    refine Exec.Sat.state (I := fun s' => SchemaOne s' ↔ SchemaOne s) ?_
    refine Exec.Sat.call (rebuildRun_sat hinv t r) hsame ?_
    rintro _ s' rfl
    exact Iff.rfl

/-- **When the verifiers accept what the ledger accepted**: after a run of the store, every tenant
    verifies, every run of at most the bound verifies and every run can be rebuilt, EXACTLY when
    every append the ledger accepted on the way carried schema version 1 only. -/
theorem verifiers_accept_iff (sha : Sha256) (ops : List Op) :
    VerifiersAccept sha (run sha ops) ↔ ∀ e ∈ history sha ops, appendsSchemaOne e := by
  have hboth : LedgerInvariant sha (run sha ops) ∧
      (SchemaOne (run sha ops) ↔ ∀ e ∈ history sha ops, appendsSchemaOne e) := by
    refine Machine.history_induction
      (I := fun h s => LedgerInvariant sha s ∧ (SchemaOne s ↔ ∀ e ∈ h, appendsSchemaOne e))
      ⟨ledgerInvariant_empty sha, by simp [SchemaOne, Store.empty]⟩ ?_ ops
    rintro h s op ⟨hinv, hiff⟩
    refine ⟨step_keeps sha s op hinv, ?_⟩
    rw [step_schemaOne hinv op, hiff]
    simp only [List.mem_append, List.mem_singleton, or_imp, forall_and, forall_eq]
  exact (verifiersAccept_iff hboth.1).trans hboth.2

/-- A draft at the epoch with short references. -/
def shortDraft (eventId eventType : Identifier) (schemaVersion : Nat) (payload : Fields)
    (hs : 1 ≤ schemaVersion ∧ schemaVersion ≤ 1000)
    (hp : payload.entries.length ≤ 32 ∧ payload.size ≤ maxEventBytes) : EventDraft :=
  { eventId, eventType, occurredAt := ⟨0, 0⟩, actorRef := ⟨"a", computed⟩,
    correlationRef := ⟨"c", computed⟩, causationRef := none, schemaVersion, payload,
    schema_ok := hs, payload_ok := hp }

/-- An append that starts run `r` of tenant `t`. -/
def startRunOp : Op :=
  .append "t" "investigation" "r" 0
    [shortDraft ⟨"e1", computed⟩ ⟨"investigation.requested", computed⟩ 1
      (Fields.of [("incident_id", .str "i"), ("request_ref", .str "q"), ("run_id", .str "r"),
        ("workflow_id", .str "w")]) schema_one (rejectedBatch.head (List.cons_ne_nil _ _)).payload_ok] [] []

/-- An append of a note with schema version 2 to another aggregate of `t`. -/
def noteOp : Op :=
  .append "t" "note" "n" 0
    [shortDraft ⟨"e2", computed⟩ ⟨"note.added", computed⟩ 2 ∅ (by decide) payload_empty]
    [] []

/-- The ledger accepts a note with schema version 2; from then on the tenant no longer verifies and
    a run that the note has nothing to do with can no longer be rebuilt. -/
theorem verifiers_refuse_schema_two :
    verifyIntegrity Sha256.constant (run Sha256.constant [startRunOp]) "t" = .ok true ∧
    ((run Sha256.constant [startRunOp, noteOp]).tenantHead "t").cursor = 2 ∧
    verifyIntegrity Sha256.constant (run Sha256.constant [startRunOp, noteOp]) "t" = .ok false ∧
    (rebuildRun Sha256.constant "t" "r" (run Sha256.constant [startRunOp, noteOp])).1
      = .error ⟨.integrityFailure, "ledger integrity verification failed"⟩ ∧
    ¬VerifiersAccept Sha256.constant (run Sha256.constant [startRunOp, noteOp]) := by
  have hfalse : verifyIntegrity Sha256.constant (run Sha256.constant [startRunOp, noteOp]) "t"
      = .ok false := by decide +kernel
  refine ⟨by decide +kernel, by decide +kernel, hfalse, by decide +kernel, fun h => ?_⟩
  have htrue := (h "t").1
  rw [hfalse] at htrue
  cases htrue

end Durability

end Aegis
