/-
  THE ITEMS OF A STORE, and what a collection does with them.

  Only `complete_page` adds items; every other call leaves them alone, or empties the list of a query that
  was not known (`SameItems`).  So a property of the items holds all along a collection, wherever it stops,
  if ingestion prepares a page for it and completing the page keeps it (`Loop`).
-/
import Mathlib
import Aegis.Evidence.Completeness

namespace Aegis

namespace Evidence

open Exec (Sat)
open Steps (Along)

/-! ## Calls that leave the items alone -/

/-- The items are those of before, but for a query that was not known. -/
structure SameItems (s s' : State) : Prop where
  evidence : ∀ key, s'.evidence key = s.evidence key ∨ s.queries key = none ∧ s'.evidence key = []
  known : ∀ key, s.queries key ≠ none → s'.queries key ≠ none

theorem SameItems.refl (s : State) : SameItems s s := ⟨fun _ => .inl rfl, fun _ h => h⟩

section Calls

variable {sha : Sha256} {vault : CursorVault} {s : State}

/-- An append writes events and views only. -/
theorem append_items {t : State} {key : Key} {eventType operationId : String} {occurredAt : Datetime}
    {payload : Fields} (ht : SameItems s t) :
    Sat (append sha key eventType operationId occurredAt payload) t (fun _ s' => SameItems s s')
      (fun _ s' => SameItems s s') := by
  refine (append_sat t).mono ?_ fun _ s' h => by rw [h]; exact ht
  rintro view s' (⟨rfl, -, -⟩ | ⟨e, -, rfl⟩)
  · exact ht
  · exact ⟨ht.evidence, ht.known⟩

theorem viewOf_items {key : Key} : Sat (Exec.lift (viewOf s key)) s (fun _ s' => SameItems s s')
    (fun _ s' => SameItems s s') := by
  rw [Exec.sat_lift]
  exact ⟨fun _ _ => .refl s, fun _ _ => .refl s⟩

theorem request_items {query : EvidenceQuery} {operationId : String} :
    Sat (request sha query operationId) s (fun _ s' => SameItems s s' ∧ s'.queries query.key ≠ none)
      (fun _ s' => SameItems s s') := by
  have hitems : Sat (request sha query operationId) s (fun _ s' => SameItems s s')
      (fun _ s' => SameItems s s') := by
    unfold request
    rw [Exec.sat_bind, Exec.sat_read]
    cases hquery : s.queries query.key with
    | some existing => exact Sat.check (fun _ => .refl s) fun _ => viewOf_items
    | none =>
      dsimp only
      rw [Exec.sat_bind, Exec.sat_modify]
      refine append_items ⟨fun key => ?_, fun key hknown => ?_⟩
      · by_cases hkey : key = query.key
        · rw [hkey]
          exact .inr ⟨hquery, Function.update_self _ _ _⟩
        · exact .inl (Function.update_of_ne hkey _ _)
      · by_cases hkey : key = query.key
        · rw [hkey] at hknown
          exact absurd hquery hknown
        · show Function.update s.queries query.key (some query) key ≠ none
          rwa [Function.update_of_ne hkey]
  exact (hitems.and request_quiet).mono (fun _ _ h => ⟨h.1, h.2.2⟩) fun _ _ h => h.1

theorem beginPage_items {key : Key} {pageNumber : Int} {operationId : String} {cursorRef : Option String}
    {occurredAt : Datetime} : Sat (beginPage sha key pageNumber operationId cursorRef occurredAt) s
      (fun _ s' => SameItems s s') (fun _ s' => SameItems s s') := by
  unfold beginPage
  rw [Exec.sat_bind, Exec.sat_read]
  split
  · exact .refl s
  · refine Sat.check (fun _ => .refl s) fun _ => ?_
    rw [Exec.sat_bind, Exec.sat_modify]
    exact Sat.call (append_items (s := s) ⟨fun _ => .inl rfl, fun _ h => h⟩) (fun _ _ h => h) fun _ _ h => h

theorem completeQuery_items {query : EvidenceQuery} {operationId : String} {bundle : EvidenceBundle}
    {occurredAt : Datetime} : Sat (completeQuery sha query operationId bundle occurredAt) s
      (fun _ s' => SameItems s s') (fun _ s' => SameItems s s') := by
  unfold completeQuery
  rw [Exec.sat_bind, Exec.sat_read]
  split
  · exact Sat.check (fun _ => .refl s) fun _ => viewOf_items
  · rw [Exec.sat_bind, Exec.sat_modify]
    exact append_items ⟨fun _ => .inl rfl, fun _ h => h⟩

theorem failQuery_items {key : Key} {operationId failureCode : String} {status : QueryStatus}
    {occurredAt : Datetime} : Sat (failQuery sha key operationId failureCode status occurredAt) s
      (fun _ s' => SameItems s s') (fun _ s' => SameItems s s') :=
  Sat.check (fun _ => .refl s) fun _ => append_items (.refl s)

theorem cursorValue_items {key : Key} {cursorRef : String} {now : Datetime} :
    Sat (cursorValue vault key cursorRef now) s (fun _ s' => SameItems s s')
      (fun _ s' => SameItems s s') := by
  unfold cursorValue
  rw [Exec.sat_bind, Exec.sat_read]
  split
  · exact .refl s
  · refine Sat.check (fun _ => .refl s) fun _ => Sat.check (fun _ => .refl s) fun _ => ?_
    rw [Exec.sat_lift]
    exact ⟨fun _ _ => .refl s, fun _ _ => .refl s⟩

/-- The items of a page are added to its query, on both ways out, or nothing is. -/
def ItemsAdded (key : Key) (evidence : List NormalizedEvidence) (s s' : State) : Prop :=
  s'.queries = s.queries ∧ (s'.evidence = s.evidence ∨
    s'.evidence = Function.update s.evidence key (s.evidence key ++ newItems (s.evidence key) evidence))

theorem completePage_items {query : EvidenceQuery} {pageNumber : Int} {operationId : String}
    {evidence : List NormalizedEvidence} {nextCursor : Option String} {occurredAt : Datetime} :
    Sat (completePage sha vault query pageNumber operationId evidence nextCursor occurredAt) s
      (fun _ s' => ItemsAdded query.key evidence s s') (fun _ s' => ItemsAdded query.key evidence s s') := by
  unfold completePage
  rw [Exec.sat_bind, Exec.sat_read]
  split
  · exact ⟨rfl, .inl rfl⟩
  · refine Sat.check (fun _ => ⟨rfl, .inl rfl⟩) fun _ => ?_
    rw [Exec.sat_bind, Exec.sat_modify]
    refine Sat.call keepCursor_kept ?_ ?_
    · rintro _ s' ⟨⟨nonces, rfl⟩, -⟩
      exact ⟨rfl, .inr rfl⟩
    · rintro cursor s' ⟨-, nonces, cursors, rfl⟩
      rw [Exec.sat_bind]
      refine (append_sat _).mono ?_ ?_
      · rintro view s'' (⟨rfl, -, -⟩ | ⟨e, -, rfl⟩)
        · exact ⟨rfl, .inr rfl⟩
        · exact ⟨rfl, .inr rfl⟩
      · rintro _ s'' rfl
        exact ⟨rfl, .inr rfl⟩

end Calls

/-! ## The rule for a collection -/

/-- `K` holds between the calls of a collection: `P` is what ingestion says of the items of a page, and the
    page is completed with it. -/
structure Loop {ι : Type} (sha : Sha256) (vault : CursorVault) (ingestPage : IngestPage ι)
    (query : EvidenceQuery) (C : CollectCall → Session ι → Prop) (K : Session ι → Prop)
    (P : List NormalizedEvidence → Session ι → Prop) : Prop where
  idle : ∀ (s : Session ι) (t : State) (ticks : Nat) (fetched : List Fetched), SameItems s.store t → K s →
    K { s with store := t, ticks, fetched }
  ticked : ∀ items (s : Session ι) (ticks : Nat), P items s → P items { s with ticks }
  ingest : ∀ fetched (s : Session ι), K s →
    Along C K (fun r s' => K s' ∧ ∀ items, r = .ok items → P items s')
      (ingestFetched ingestPage query fetched) s
  complete : ∀ items (s : Session ι) (pageNumber : Int) (operationId : String) (nextCursor : Option String)
    (occurredAt : Datetime), K s → P items s →
    C (.store (.completePage query pageNumber operationId items nextCursor occurredAt)) s →
    Sat (completePage sha vault query pageNumber operationId items nextCursor occurredAt) s.store
      (fun _ t => K { s with store := t }) (fun _ t => K { s with store := t })

namespace Loop

variable {ι : Type} {sha : Sha256} {vault : CursorVault} {ingestPage : IngestPage ι} {world : World}
  {query : EvidenceQuery} {C : CollectCall → Session ι → Prop} {K : Session ι → Prop}
  {P : List NormalizedEvidence → Session ι → Prop} {s : Session ι} {α : Type}

/-- Ports and failures of a query keep it. -/
theorem steady (h : Loop sha vault ingestPage query C K P) : Steady K fun s s' => K s → K s' where
  trans _ _ _ h h' hs := h' (h hs)
  keeps _ _ h := h
  ticked s ticks := h.idle s s.store ticks s.fetched (.refl s.store)
  failed _ s _ _ _ _ _ := failQuery_items.mono (fun _ t ht => h.idle s t s.ticks s.fetched ht)
    fun _ t ht => h.idle s t s.ticks s.fetched ht

theorem asked (h : Loop sha vault ingestPage query C K P) {answer : Nat → Except Error α} (hs : K s) :
    Along C K (fun _ s' => K s') (ask answer) s :=
  (h.steady.ask hs).mono fun _ _ h => h hs

/-- A call of the store that leaves the items alone. -/
theorem kept (h : Loop sha vault ingestPage query C K P) {op : StoreOp} {x : Store α}
    (hx : Sat x s.store (fun _ t => SameItems s.store t) (fun _ t => SameItems s.store t)) (hs : K s) :
    Along C K (fun _ s' => K s') (stored op x) s := by
  have hend : ∀ t, SameItems s.store t → K { s with store := t } :=
    fun t ht => h.idle s t s.ticks s.fetched ht hs
  exact along_stored (fun _ => hx) (fun _ t ht => ⟨hend t ht, hend t ht⟩)
    fun _ t ht => ⟨hend t ht, hend t ht⟩

theorem looked (h : Loop sha vault ingestPage query C K P) {x : Store α}
    (hx : Sat x s.store (fun _ t => SameItems s.store t) (fun _ t => SameItems s.store t)) (hs : K s) :
    Along C K (fun _ s' => K s') (look x) s := by
  have hend : ∀ t, SameItems s.store t → K { s with store := t } :=
    fun t ht => h.idle s t s.ticks s.fetched ht hs
  exact along_look hx (fun _ t ht => ⟨hend t ht, hend t ht⟩) fun _ t ht => ⟨hend t ht, hend t ht⟩

/-- A read of the store. -/
theorem reads (h : Loop sha vault ingestPage query C K P) {f : State → α} (hs : K s) :
    Along C K (fun _ s' => K s') (look (do let s ← Exec.read; pure (f s))) s :=
  h.looked (show SameItems s.store s.store from .refl s.store) hs

theorem fetches (h : Loop sha vault ingestPage query C K P) {pageNumber : Int} {cursor : Option String}
    (hs : K s) : Along C K (fun _ s' => K s') (fetch world pageNumber cursor) s := by
  intro _
  dsimp only
  cases world.fetchPage s.ticks pageNumber cursor with
  | ok page =>
    have hend := h.idle s s.store (s.ticks + 1) (s.fetched ++ [⟨pageNumber, cursor, page⟩]) (.refl s.store) hs
    exact ⟨hend, hend⟩
  | error e =>
    have hend := h.idle s s.store (s.ticks + 1) s.fetched (.refl s.store) hs
    exact ⟨hend, hend⟩

/-- **The loop over the pages.** -/
theorem pages (h : Loop sha vault ingestPage query C K P) (remaining : Nat) :
    ∀ (pageNumber : Int) (cursor cursorRef : Option String) (totalRecords totalBytes : Nat) (s : Session ι),
      K s → Along C K (fun _ s' => K s')
        (Evidence.pages sha vault ingestPage world query remaining pageNumber cursor cursorRef totalRecords
          totalBytes) s := by
  induction remaining with
  | zero => exact fun _ _ _ _ _ s hs => hs
  | succ remaining ih =>
    intro pageNumber cursor cursorRef totalRecords totalBytes s hs
    refine (h.steady.requireCurrent hs).bind (fun _ _ h => h hs) fun _ s1 h1 => ?_
    refine (h.asked (h1 hs)).bind (fun _ _ hs2 => hs2) fun cancelled s2 hs2 => ?_
    split
    · exact (h.steady.fail hs2).bind (fun _ _ h => h hs2) fun _ _ h => h hs2
    · refine (h.asked hs2).bind (fun _ _ hs3 => hs3) fun occurredAt s3 hs3 => ?_
      refine (h.kept beginPage_items hs3).bind (fun _ _ hs4 => hs4) fun start s4 hs4 => ?_
      cases start with
      | completed => exact (h.reads hs4).bind (fun _ _ hs5 => hs5) fun _ _ hs5 => hs5
      | started =>
        refine (h.fetches hs4).bind (fun _ _ hs5 => hs5) fun page s5 hs5 => ?_
        refine (h.steady.requireCurrent hs5).bind (fun _ _ h => h hs5) fun _ s6 h6 => ?_
        refine Along.check (fun _ => h6 hs5) fun _ => ?_
        refine (h.ingest _ _ (h6 hs5)).bind (fun _ _ h => h.1) ?_
        rintro items s7 ⟨hs7, hitems⟩
        -- the clock is read before the page is completed
        have htick := h.idle s7 s7.store (s7.ticks + 1) s7.fetched (.refl s7.store) hs7
        have hclock : Along C K (fun _ s' => K s' ∧ P items s') (ask fun n => .ok (world.clock n)) s7 :=
          fun _ => ⟨htick, htick, h.ticked items s7 (s7.ticks + 1) (hitems items rfl)⟩
        refine hclock.bind (fun _ _ h => h.1) ?_
        rintro now s8 ⟨hs8, hitems8⟩
        refine Along.bind (Q := fun _ s' => K s') ?_ (fun _ _ h => h) fun storedCursor s9 hs9 => ?_
        · exact along_stored (fun hC => h.complete _ _ _ _ _ _ hs8 hitems8 hC) (fun _ t ht => ⟨ht, ht⟩)
            fun _ t ht => ⟨ht, ht⟩
        · cases page.nextCursor with
          | none => exact hs9
          | some value =>
            cases storedCursor with
            | none => exact hs9
            | some c =>
              refine (h.asked hs9).bind (fun _ _ hs10 => hs10) fun now' s10 hs10 => ?_
              refine (h.looked cursorValue_items hs10).bind (fun _ _ hs11 => hs11) ?_
              exact fun value' s11 hs11 => ih _ _ _ _ _ _ hs11

theorem pagesFailed (h : Loop sha vault ingestPage query C K P) {e : Error} (hs : K s) :
    Along C K (fun _ s' => K s') (Evidence.pagesFailed sha world query e) s := by
  have hfail : ∀ {code operationId : String} {status : QueryStatus} {t : Session ι}, K t →
      Along C K (fun _ s' => K s') (fail sha world query code status operationId >>= fun _ =>
        (Steps.raise e : Program ι Unit)) t := by
    intro code operationId status t ht
    exact (h.steady.fail ht).bind (fun _ _ h => h ht) fun _ _ h => h ht
  unfold Evidence.pagesFailed
  split
  · exact hfail hs
  · split
    · refine (h.reads hs).bind (fun _ _ hs1 => hs1) fun view s1 hs1 => ?_
      split
      · exact hs1
      · exact hfail hs1
    · exact hs

/-- **A collection**: once its query is known, `K` holds wherever it stops. -/
theorem collect (h : Loop sha vault ingestPage query C K P) {I : Session ι → Prop} (hI : ∀ s, K s → I s)
    (hrequest : ∀ operationId, Sat (request sha query operationId) s.store (fun _ t => K { s with store := t })
      (fun _ t => I { s with store := t })) :
    Along C I (fun _ s' => I s') (Evidence.collect sha vault ingestPage world query) s := by
  unfold Evidence.collect
  refine Along.bind (Q := fun r s' => I s' ∧ ∀ a, r = .ok a → K s') ?_ (fun _ _ h => h.1) ?_
  · refine along_stored (fun _ => hrequest _) (fun a t ht => ?_) fun e t ht => ?_
    · exact ⟨hI _ ht, hI _ ht, fun _ _ => ht⟩
    · exact ⟨ht, ht, fun _ hno => by cases hno⟩
  rintro view s1 ⟨-, hs1⟩
  have hs1 := hs1 view rfl
  refine Along.weaken ?_ hI fun _ s' hs' => hI s' hs'
  split
  · refine (h.reads hs1).bind (fun _ _ hs2 => hs2) fun existing s2 hs2 => ?_
    cases existing with
    | none => exact hs2
    | some existing => exact hs2
  · refine Along.bind (Q := fun _ s' => K s') ?_ (fun _ _ h => h) fun _ s2 hs2 => ?_
    · exact (h.pages _ _ _ _ _ _ _ hs1).catching (fun _ _ h => h) fun e s2 hs2 => h.pagesFailed hs2
    refine (h.reads hs2).bind (fun _ _ hs3 => hs3) fun allEvidence s3 hs3 => ?_
    refine (h.asked hs3).bind (fun _ _ hs4 => hs4) fun createdAt s4 hs4 => ?_
    refine Along.attempt (fun _ _ => hs4) fun bundle _ => ?_
    exact (h.kept completeQuery_items hs4).bind (fun _ _ hs5 => hs5) fun _ _ hs5 => hs5

end Loop

end Evidence

end Aegis
