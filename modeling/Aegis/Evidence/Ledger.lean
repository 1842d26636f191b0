/-
  THE EVENTS OF A QUERY.

  Five operations share one `append`.  Its events are a fact book: numbered, chained and sealed by their
  hashes, each operation and type at most once, and the view of a query is their fold.  What an operation
  writes besides leaves events and views alone, so one lemma about `append` (`append_advances`) carries
  every run (`query_ledgers`).

  A terminal view takes an event only when its operation is called like the event itself, and no operation
  of the collector is.
-/
import Mathlib
import Aegis.Lib.FactBook
import Aegis.Lib.Machine
import Aegis.Evidence.Store

namespace Aegis

namespace Evidence

open Exec (Sat)

/-! ## The book of a store -/

/-- Operation and type of an event, with its query. -/
abbrev Command := Key × String × String

/-- `_reduce_view` with the query of the store. -/
def reduceAt (queries : Key → Option EvidenceQuery) (key : Key) (current : Option EvidenceQueryView)
    (event : EvidenceApplicationEvent) : Except Error EvidenceQueryView :=
  match queries key with
  | none => .error ⟨.keyError, "_queries"⟩
  | some query => reduceView current event query

def eventKind (sha : Sha256) (queries : Key → Option EvidenceQuery) :
    FactBook.Kind Key Command Unit EvidenceApplicationEvent EvidenceQueryView Digest Unit Error where
  sequence := EvidenceApplicationEvent.sequence
  previous := EvidenceApplicationEvent.previousHash
  digest := EvidenceApplicationEvent.recordHash
  start := zeroHash
  recompute := eventHash sha
  command key event := (key, event.operationId.val, event.eventType.val)
  content _ _ := ()
  entry _ _ := ()
  reduce := reduceAt queries

/-- The commands that have an event. -/
def commandIndex (events : Key → List EvidenceApplicationEvent) (command : Command) : Option Unit :=
  if recorded (events command.1) command.2.1 command.2.2 = true then some () else none

def State.book (s : State) : FactBook.Book Key Command Unit EvidenceApplicationEvent EvidenceQueryView :=
  ⟨s.events, commandIndex s.events, s.views⟩

theorem recorded_concat {events : List EvidenceApplicationEvent} {event : EvidenceApplicationEvent}
    {operationId eventType : String} :
    recorded (events ++ [event]) operationId eventType =
      (recorded events operationId eventType ||
        decide (event.operationId.val = operationId ∧ event.eventType.val = eventType)) := by
  unfold recorded
  rw [List.any_append, List.any_cons, List.any_nil, Bool.or_false]

/-- A recorded event is a recorded fact. -/
theorem book_record (s : State) (key : Key) (event : EvidenceApplicationEvent) (view : EvidenceQueryView) :
    (s.record key event view).book =
      s.book.record key (key, event.operationId.val, event.eventType.val) () event view := by
  have hindex : commandIndex (Function.update s.events key (s.events key ++ [event])) =
      Function.update (commandIndex s.events) (key, event.operationId.val, event.eventType.val)
        (some ()) := by
    funext command
    obtain ⟨key', operationId, eventType⟩ := command
    by_cases hcommand : (key', operationId, eventType) = (key, event.operationId.val, event.eventType.val)
    · rw [hcommand, Function.update_self]
      unfold commandIndex
      rw [Function.update_self, recorded_concat, if_pos (by simp)]
    · rw [Function.update_of_ne hcommand]
      unfold commandIndex
      by_cases hkey : key' = key
      · subst hkey
        have hother : ¬(event.operationId.val = operationId ∧ event.eventType.val = eventType) := by
          rintro ⟨rfl, rfl⟩
          exact hcommand rfl
        rw [Function.update_self, recorded_concat, decide_eq_false hother, Bool.or_false]
      · rw [Function.update_of_ne hkey]
  show FactBook.Book.mk _ _ _ = FactBook.Book.mk _ _ _
  rw [show (s.record key event view).events = Function.update s.events key (s.events key ++ [event]) from rfl,
    hindex]
  rfl

/-! ## Counts -/

def isPage (event : EvidenceApplicationEvent) : Bool :=
  decide (event.eventType.val = "evidence.page.completed")

/-- The completed pages among events. -/
def pagesOf (events : List EvidenceApplicationEvent) : List EvidenceApplicationEvent := events.filter isPage

/-- A count of an event; an event of the store has it. -/
def countOf (name : String) (event : EvidenceApplicationEvent) : Nat :=
  (payloadInt event.payload name).toOption.getD 0

/-- The counts of a view are the number and the sums of its completed pages. -/
structure Counts (events : List EvidenceApplicationEvent) (view : EvidenceQueryView) : Prop where
  pages : view.pageCount = (pagesOf events).length
  records : view.recordCount = ((pagesOf events).map (countOf "record_count")).sum
  accepted : view.acceptedCount = ((pagesOf events).map (countOf "accepted_count")).sum
  quarantined : view.quarantinedCount = ((pagesOf events).map (countOf "quarantined_count")).sum

theorem pagesOf_concat (events : List EvidenceApplicationEvent) (event : EvidenceApplicationEvent) :
    pagesOf (events ++ [event]) = if isPage event = true then pagesOf events ++ [event] else pagesOf events := by
  unfold pagesOf
  rw [List.filter_append]
  split
  · rename_i hpage
    rw [List.filter_cons_of_pos hpage, List.filter_nil]
  · rename_i hpage
    rw [List.filter_cons_of_neg hpage, List.filter_nil, List.append_nil]

/-- What one event does to a view. -/
inductive Folded (event : EvidenceApplicationEvent) :
    Option EvidenceQueryView → EvidenceQueryView → Prop
  | requested {view : EvidenceQueryView} (htype : event.eventType.val = "evidence.query.requested")
    (hzero : view.pageCount = 0 ∧ view.recordCount = 0 ∧ view.acceptedCount = 0 ∧
      view.quarantinedCount = 0) : Folded event none view
  | repeated {view : EvidenceQueryView} (hterminal : view.status ∈ terminal)
    (hsame : event.operationId.val = event.eventId.val) : Folded event (some view) view
  | counted {view view' : EvidenceQueryView} (hlive : view.status ∉ terminal) (hpage : isPage event = true)
    (hpages : view'.pageCount = view.pageCount + 1)
    (hrecords : view'.recordCount = view.recordCount + countOf "record_count" event)
    (haccepted : view'.acceptedCount = view.acceptedCount + countOf "accepted_count" event)
    (hquarantined : view'.quarantinedCount = view.quarantinedCount + countOf "quarantined_count" event) :
    Folded event (some view) view'
  | moved {view view' : EvidenceQueryView} (hlive : view.status ∉ terminal) (hpage : isPage event = false)
    (hsame : view'.pageCount = view.pageCount ∧ view'.recordCount = view.recordCount ∧
      view'.acceptedCount = view.acceptedCount ∧ view'.quarantinedCount = view.quarantinedCount) :
    Folded event (some view) view'

theorem countOf_of {event : EvidenceApplicationEvent} {name : String} {n : Nat}
    (h : payloadInt event.payload name = .ok n) : countOf name event = n := by
  unfold countOf
  rw [h]
  rfl

theorem reduceView_folded {current : Option EvidenceQueryView} {event : EvidenceApplicationEvent}
    {query : EvidenceQuery} {view : EvidenceQueryView} (h : reduceView current event query = .ok view) :
    Folded event current view := by
  unfold reduceView at h
  cases current with
  | none =>
    dsimp only at h
    split at h
    · cases h
    · rename_i htype
      rw [← Except.ok.inj h]
      exact .requested (not_not.mp htype) ⟨rfl, rfl, rfl, rfl⟩
  | some old =>
    dsimp only at h
    split at h
    · rename_i hterminal
      split at h
      · rename_i hsame
        rw [← Except.ok.inj h]
        exact .repeated hterminal hsame
      · cases h
    · rename_i hlive
      split at h
      · rename_i htype
        rw [← Except.ok.inj h]
        exact .moved hlive (by unfold isPage; rw [htype]; decide) ⟨rfl, rfl, rfl, rfl⟩
      · split at h
        · rename_i htype
          obtain ⟨records, hrecords, h⟩ := except_bind_ok.mp h
          obtain ⟨accepted, haccepted, h⟩ := except_bind_ok.mp h
          obtain ⟨quarantined, hquarantined, h⟩ := except_bind_ok.mp h
          rw [← Except.ok.inj h]
          refine .counted hlive (by unfold isPage; rw [htype]; decide) rfl ?_ ?_ ?_
          · rw [countOf_of hrecords]
          · rw [countOf_of haccepted]
          · rw [countOf_of hquarantined]
        · rename_i hpage
          have hno : isPage event = false := decide_eq_false hpage
          split at h
          · rw [← Except.ok.inj h]
            exact .moved hlive hno ⟨rfl, rfl, rfl, rfl⟩
          · split at h
            · cases h
            · split at h
              · cases h
              · split at h
                · rw [← Except.ok.inj h]
                  exact .moved hlive hno ⟨rfl, rfl, rfl, rfl⟩
                · cases h

/-- The counts go on. -/
theorem Folded.counts {event : EvidenceApplicationEvent} {current : Option EvidenceQueryView}
    {view : EvidenceQueryView} {events : List EvidenceApplicationEvent} (h : Folded event current view)
    (hform : event.operationId.val ≠ event.eventId.val) (hnone : current = none → events = [])
    (hcounts : ∀ old, current = some old → Counts events old) : Counts (events ++ [event]) view := by
  cases h with
  | requested htype hzero =>
    have hpage : ¬isPage event = true := by
      unfold isPage
      rw [htype]
      decide
    obtain ⟨hp, hr, ha, hq⟩ := hzero
    rw [hnone rfl]
    constructor <;> rw [pagesOf_concat, if_neg hpage] <;> assumption
  | repeated hterminal hsame => exact absurd hsame hform
  | counted hlive hpage hpages hrecords haccepted hquarantined =>
    have hold := hcounts _ rfl
    constructor
    · rw [pagesOf_concat, if_pos hpage, hpages, hold.pages, List.length_append, List.length_singleton]
    · rw [pagesOf_concat, if_pos hpage, hrecords, hold.records, List.map_append, List.sum_append,
        List.map_singleton, List.sum_singleton]
    · rw [pagesOf_concat, if_pos hpage, haccepted, hold.accepted, List.map_append, List.sum_append,
        List.map_singleton, List.sum_singleton]
    · rw [pagesOf_concat, if_pos hpage, hquarantined, hold.quarantined, List.map_append, List.sum_append,
        List.map_singleton, List.sum_singleton]
  | moved hlive hpage hsame =>
    have hold := hcounts _ rfl
    have hpage' : ¬isPage event = true := by
      rw [hpage]
      decide
    constructor
    · rw [pagesOf_concat, if_neg hpage', hsame.1, hold.pages]
    · rw [pagesOf_concat, if_neg hpage', hsame.2.1, hold.records]
    · rw [pagesOf_concat, if_neg hpage', hsame.2.2.1, hold.accepted]
    · rw [pagesOf_concat, if_neg hpage', hsame.2.2.2, hold.quarantined]

/-! ## The laws -/

/-- The events of a store are its book, and events are events of a query. -/
structure Booked (sha : Sha256) (s : State) : Prop where
  book : FactBook.Laws (eventKind sha s.queries) s.book
  known : ∀ key, s.events key ≠ [] → s.queries key ≠ none

/-- **The laws of the events of a store.** -/
structure LedgerLaws (sha : Sha256) (s : State) : Prop extends Booked sha s where
  counted : ∀ key view, s.views key = some view → Counts (s.events key) view

/-- Events and views are those of before, and every query is. -/
structure SameLedger (s s' : State) : Prop where
  queries : s'.queries = s.queries
  events : s'.events = s.events
  views : s'.views = s.views

theorem SameLedger.refl (s : State) : SameLedger s s := ⟨rfl, rfl, rfl⟩

theorem SameLedger.trans {s s' s'' : State} (h : SameLedger s s') (h' : SameLedger s' s'') :
    SameLedger s s'' :=
  ⟨h'.queries.trans h.queries, h'.events.trans h.events, h'.views.trans h.views⟩

theorem SameLedger.booked {sha : Sha256} {s s' : State} (h : SameLedger s s') (hs : Booked sha s) :
    Booked sha s' := by
  have hbook : s'.book = s.book := by
    unfold State.book
    rw [h.events, h.views]
  constructor
  · rw [hbook, h.queries]
    exact hs.book
  · rw [h.events, h.queries]
    exact hs.known

theorem SameLedger.laws {sha : Sha256} {s s' : State} (h : SameLedger s s') (hs : LedgerLaws sha s) :
    LedgerLaws sha s' := by
  refine ⟨h.booked hs.toBooked, ?_⟩
  rw [h.events, h.views]
  exact hs.counted

theorem booked_empty (sha : Sha256) : Booked sha .empty := by
  refine ⟨?_, fun _ hno => absurd rfl hno⟩
  have hbook : State.empty.book = FactBook.Book.empty := by
    unfold State.book
    rw [show commandIndex State.empty.events = fun _ => none from rfl]
    rfl
  rw [hbook]
  exact FactBook.Laws.empty

theorem ledgerLaws_empty (sha : Sha256) : LedgerLaws sha .empty :=
  ⟨booked_empty sha, fun _ _ hview => by cases hview⟩

/-- No view without events. -/
theorem Booked.unviewed {sha : Sha256} {s : State} (h : Booked sha s) {key : Key} :
    s.events key = [] ↔ s.views key = none := by
  rcases h.book.folded key with ⟨hevents, hviews⟩ | ⟨before, last, current, view, hevents, -, hviews⟩
  · exact ⟨fun _ => hviews, fun _ => hevents⟩
  · constructor
    · intro hnil
      have hfacts : s.events key = before ++ [last] := hevents
      rw [hnil] at hfacts
      exact absurd hfacts (by simp)
    · intro hnone
      have hsome : s.views key = some view := hviews
      rw [hnone] at hsome
      cases hsome

/-- The store with a query that it did not know. -/
def State.opened (s : State) (query : EvidenceQuery) : State :=
  { s with
    queries := Function.update s.queries query.key (some query)
    evidence := Function.update s.evidence query.key [] }

/-- An unknown query has no events. -/
theorem Booked.unknown {sha : Sha256} {s : State} (h : Booked sha s) {key : Key}
    (hquery : s.queries key = none) : s.events key = [] := by
  by_contra hevents
  exact h.known key hevents hquery

/-- A new query has no events, so its fold may be another one from now on. -/
theorem Booked.opened {sha : Sha256} {s : State} (h : Booked sha s) {query : EvidenceQuery}
    (hquery : s.queries query.key = none) : Booked sha (s.opened query) := by
  have hnil := h.unknown hquery
  refine ⟨h.book.refold rfl fun key hevents => ?_, fun key hevents => ?_⟩
  · have hkey : key ≠ query.key := by
      rintro rfl
      exact hevents hnil
    show reduceAt (s.opened query).queries key = reduceAt s.queries key
    funext current event
    unfold reduceAt
    rw [show (s.opened query).queries key = s.queries key from Function.update_of_ne hkey _ _]
  · by_cases hkey : key = query.key
    · rw [hkey] at hevents
      exact absurd hnil hevents
    · rw [show (s.opened query).queries key = s.queries key from Function.update_of_ne hkey _ _]
      exact h.known key hevents

/-! ## One append -/

/-- The identifier of the next event of a query, if it is of this type. -/
def eventIdAt (sha : Sha256) (s : State) (key : Key) (eventType : String) : String :=
  stableId sha "event" [key.1, key.2, toString ((s.events key).length + 1), eventType] 32

theorem eventIdAt_head (sha : Sha256) (s : State) (key : Key) (eventType : String) :
    (eventIdAt sha s key eventType).toList.head? = some 'e' := by
  unfold eventIdAt stableId
  rw [String.toList_append, String.toList_append]
  rfl

/-- The events that the store records under this operation and type. -/
structure Records (sha : Sha256) (s : State) (key : Key) (eventType operationId : String)
    (payload : Fields) (event : EvidenceApplicationEvent) (view : EvidenceQueryView) : Prop where
  next : FactBook.Next (eventKind sha s.queries) s.book key (key, operationId, eventType) () event view
  type : event.eventType.val = eventType
  operation : event.operationId.val = operationId
  payload : event.payload = payload.sorted
  eventId : event.eventId.val = eventIdAt sha s key eventType
  named : isIdentifier key.1 = true ∧ isIdentifier key.2 = true ∧ isIdentifier operationId = true

theorem buildEvent_ok {sha : Sha256} {key : Key} {events : List EvidenceApplicationEvent}
    {eventType operationId : String} {occurredAt : Datetime} {payload : Fields}
    {event : EvidenceApplicationEvent}
    (h : buildEvent sha key events eventType operationId occurredAt payload = .ok event) :
    event.sequence = events.length + 1 ∧
      event.previousHash = HashChain.lastDigest EvidenceApplicationEvent.recordHash zeroHash events ∧
      event.recordHash = eventHash sha event ∧ event.eventType.val = eventType ∧
      event.operationId.val = operationId ∧ event.payload = payload.sorted ∧
      event.eventId.val =
        stableId sha "event" [key.1, key.2, toString (events.length + 1), eventType] 32 ∧
      isIdentifier key.1 = true ∧ isIdentifier key.2 = true ∧ isIdentifier operationId = true := by
  unfold buildEvent at h
  obtain ⟨tenantId, htenant, h⟩ := except_bind_ok.mp h
  obtain ⟨queryId, hquery, h⟩ := except_bind_ok.mp h
  obtain ⟨type, htype, h⟩ := except_bind_ok.mp h
  obtain ⟨operation, hoperation, h⟩ := except_bind_ok.mp h
  split at h
  · cases h
  · rw [← Except.ok.inj h]
    have hnamed : ∀ {place text : String} {i : Identifier}, Identifier.parse place text = .ok i →
        isIdentifier text = true := by
      intro place text i hparse
      rw [← Identifier.parse_ok hparse]
      exact i.property
    refine ⟨rfl, rfl, rfl, Identifier.parse_ok htype, Identifier.parse_ok hoperation, rfl, ?_,
      hnamed htenant, hnamed hquery, hnamed hoperation⟩
    rw [← Identifier.parse_ok htype]
    rfl

/-- An event that is appended is recorded by the laws, or it has been recorded. -/
theorem appended_ok {sha : Sha256} {s : State} {key : Key} {eventType operationId : String}
    {occurredAt : Datetime} {payload : Fields} {view : EvidenceQueryView}
    {event : Option EvidenceApplicationEvent}
    (h : appended sha s key eventType operationId occurredAt payload = .ok (view, event)) :
    (event = none ∧ recorded (s.events key) operationId eventType = true ∧ s.views key = some view) ∨
      ∃ e, event = some e ∧ Records sha s key eventType operationId payload e view := by
  unfold appended at h
  split at h
  · rename_i hrecorded
    obtain ⟨view', hview, h⟩ := except_bind_ok.mp h
    obtain ⟨rfl, rfl⟩ := Prod.mk.inj (Except.ok.inj h)
    unfold viewOf at hview
    split at hview
    · cases hview
    · rename_i v hv
      rw [← Except.ok.inj hview]
      exact .inl ⟨rfl, hrecorded, hv⟩
  · rename_i hfresh
    obtain ⟨e, he, h⟩ := except_bind_ok.mp h
    obtain ⟨query, hquery, h⟩ := except_bind_ok.mp h
    obtain ⟨view', hview, h⟩ := except_bind_ok.mp h
    obtain ⟨rfl, rfl⟩ := Prod.mk.inj (Except.ok.inj h)
    obtain ⟨hsequence, hprevious, hsealed, htype, hoperation, hpayload, hid, hnamed⟩ := buildEvent_ok he
    unfold queryOf at hquery
    split at hquery
    · cases hquery
    · rename_i q hq
      obtain rfl := Except.ok.inj hquery
      refine .inr ⟨e, rfl, ⟨?_, hsequence, hprevious, hsealed, ?_, rfl, ?_⟩, htype, hoperation, hpayload,
        hid, hnamed⟩
      · show commandIndex s.events (key, operationId, eventType) = none
        exact if_neg hfresh
      · show (key, e.operationId.val, e.eventType.val) = _
        rw [hoperation, htype]
      · show reduceAt s.queries key (s.views key) e = .ok view'
        unfold reduceAt
        rw [hq]
        exact hview

/-- `append` records one event, or it leaves the store alone. -/
theorem append_sat {sha : Sha256} {key : Key} {eventType operationId : String} {occurredAt : Datetime}
    {payload : Fields} (s : State) :
    Sat (append sha key eventType operationId occurredAt payload) s
      (fun view s' => (s' = s ∧ recorded (s.events key) operationId eventType = true ∧
          s.views key = some view) ∨
        ∃ e, Records sha s key eventType operationId payload e view ∧ s' = s.record key e view)
      (fun _ s' => s' = s) := by
  unfold append
  rw [Exec.sat_bind, Exec.sat_read]
  refine Sat.attempt (fun _ _ => rfl) ?_
  rintro ⟨view, event⟩ h
  rcases appended_ok h with ⟨rfl, hrecorded, hview⟩ | ⟨e, rfl, hrecords⟩
  · exact .inl ⟨rfl, hrecorded, hview⟩
  · exact .inr ⟨e, hrecords, rfl⟩

/-! ## What every call does to the events -/

/-- A terminal query keeps its events and its view. -/
def Frozen (s s' : State) : Prop :=
  ∀ key view, s.views key = some view → view.status ∈ terminal →
    s'.events key = s.events key ∧ s'.views key = some view

/-- A call keeps the laws and what is terminal. -/
structure Advances (sha : Sha256) (s s' : State) : Prop where
  laws : LedgerLaws sha s → LedgerLaws sha s'
  frozen : LedgerLaws sha s → Frozen s s'

theorem SameLedger.advances {sha : Sha256} {s s' : State} (h : SameLedger s s') : Advances sha s s' := by
  refine ⟨h.laws, fun _ key view hview _ => ?_⟩
  rw [h.events, h.views]
  exact ⟨rfl, hview⟩

theorem Advances.trans {sha : Sha256} {s s' s'' : State} (h : Advances sha s s')
    (h' : Advances sha s' s'') : Advances sha s s'' := by
  refine ⟨fun hs => h'.laws (h.laws hs), fun hs key view hview hterminal => ?_⟩
  obtain ⟨hevents, hviews⟩ := h.frozen hs key view hview hterminal
  obtain ⟨hevents', hviews'⟩ := h'.frozen (h.laws hs) key view hviews hterminal
  exact ⟨hevents'.trans hevents, hviews'⟩

/-- The first character of the operations of `EvidenceCollector`. -/
def Collecting (operationId : String) : Prop := operationId.toList.head? ≠ some 'e'

/-- The query of a recorded event, and its fold. -/
theorem Records.reduced {sha : Sha256} {s : State} {key : Key} {eventType operationId : String}
    {payload : Fields} {event : EvidenceApplicationEvent} {view : EvidenceQueryView}
    (h : Records sha s key eventType operationId payload event view) :
    ∃ query, s.queries key = some query ∧ reduceView (s.views key) event query = .ok view := by
  have hreduced : reduceAt s.queries key (s.views key) event = .ok view := h.next.reduced
  unfold reduceAt at hreduced
  split at hreduced
  · cases hreduced
  · rename_i query hquery
    exact ⟨query, hquery, hreduced⟩

theorem Records.booked {sha : Sha256} {s : State} {key : Key} {eventType operationId : String}
    {payload : Fields} {event : EvidenceApplicationEvent} {view : EvidenceQueryView}
    (h : Records sha s key eventType operationId payload event view) (hs : Booked sha s) :
    Booked sha (s.record key event view) := by
  have hcommand : (key, event.operationId.val, event.eventType.val) = (key, operationId, eventType) := by
    rw [h.operation, h.type]
  refine ⟨?_, fun key' hevents => ?_⟩
  · rw [book_record, hcommand]
    exact hs.book.record h.next
  · by_cases hkey : key' = key
    · obtain ⟨query, hquery, -⟩ := h.reduced
      rw [hkey, show (s.record key event view).queries key = some query from hquery]
      exact Option.some_ne_none query
    · have hold : Function.update s.events key (s.events key ++ [event]) key' ≠ [] := hevents
      rw [Function.update_of_ne hkey] at hold
      exact hs.known key' hold

/-- **A recorded event keeps the laws**, and it is an event of a query that was not terminal. -/
theorem Records.advances {sha : Sha256} {s : State} {key : Key} {eventType operationId : String}
    {payload : Fields} {event : EvidenceApplicationEvent} {view : EvidenceQueryView}
    (h : Records sha s key eventType operationId payload event view) (hform : Collecting operationId) :
    Advances sha s (s.record key event view) := by
  have hother : event.operationId.val ≠ event.eventId.val := by
    intro hsame
    have hhead := eventIdAt_head sha s key eventType
    rw [← h.eventId, ← hsame, h.operation] at hhead
    exact hform hhead
  obtain ⟨query, -, hreduced⟩ := h.reduced
  have hfolded := reduceView_folded hreduced
  constructor
  · intro hs
    refine ⟨h.booked hs.toBooked, fun key' view' hview' => ?_⟩
    have hview : Function.update s.views key (some view) key' = some view' := hview'
    show Counts (Function.update s.events key (s.events key ++ [event]) key') view'
    by_cases hkey : key' = key
    · subst hkey
      rw [Function.update_self] at hview ⊢
      rw [← Option.some.inj hview]
      exact hfolded.counts hother (fun hnone => hs.unviewed.mpr hnone) fun old hold => hs.counted _ _ hold
    · rw [Function.update_of_ne hkey] at hview ⊢
      exact hs.counted _ _ hview
  · intro _ key' old hold hterminal
    show Function.update s.events key (s.events key ++ [event]) key' = _ ∧
      Function.update s.views key (some view) key' = _
    by_cases hkey : key' = key
    · -- the view of this query is not terminal
      subst hkey
      rw [hold] at hfolded
      cases hfolded with
      | repeated _ hsame => exact absurd hsame hother
      | counted hlive => exact absurd hterminal hlive
      | moved hlive => exact absurd hterminal hlive
    · rw [Function.update_of_ne hkey, Function.update_of_ne hkey]
      exact ⟨rfl, hold⟩

/-- Every query has an event. -/
def Opened (s : State) : Prop := ∀ key, s.queries key ≠ none → s.events key ≠ []

/-- A call that returns also leaves no query without events. -/
structure Continues (sha : Sha256) (s s' : State) : Prop where
  advances : Advances sha s s'
  opened : Opened s → Opened s'

theorem SameLedger.continues {sha : Sha256} {s s' : State} (h : SameLedger s s') : Continues sha s s' := by
  refine ⟨h.advances, fun hs key hquery => ?_⟩
  rw [h.events]
  exact hs key (h.queries ▸ hquery)

theorem Continues.trans {sha : Sha256} {s s' s'' : State} (h : Continues sha s s')
    (h' : Continues sha s' s'') : Continues sha s s'' :=
  ⟨h.advances.trans h'.advances, fun hs => h'.opened (h.opened hs)⟩

/-- An append keeps the laws; when it returns, the query has an event. -/
theorem append_advances {sha : Sha256} {key : Key} {eventType operationId : String} {occurredAt : Datetime}
    {payload : Fields} (hform : Collecting operationId) (s : State) :
    Sat (append sha key eventType operationId occurredAt payload) s
      (fun _ s' => Advances sha s s' ∧ s'.queries = s.queries ∧ s'.events key ≠ [] ∧
        ∀ key', key' ≠ key → s'.events key' = s.events key')
      (fun _ s' => Advances sha s s') := by
  refine (append_sat s).mono ?_ fun _ s' h => by rw [h]; exact (SameLedger.refl s).advances
  rintro view s' (⟨rfl, hrecorded, -⟩ | ⟨e, hrecords, rfl⟩)
  · refine ⟨(SameLedger.refl _).advances, rfl, fun hnil => ?_, fun _ _ => rfl⟩
    rw [hnil] at hrecorded
    cases hrecorded
  · refine ⟨hrecords.advances hform, rfl, ?_, fun key' hkey => Function.update_of_ne hkey _ _⟩
    show Function.update s.events key (s.events key ++ [e]) key ≠ []
    rw [Function.update_self]
    simp

/-- An append, after writes that leave the events alone. -/
theorem append_continues {sha : Sha256} {key : Key} {eventType operationId : String} {occurredAt : Datetime}
    {payload : Fields} (hform : Collecting operationId) {s t : State} (hsame : SameLedger s t) :
    Sat (append sha key eventType operationId occurredAt payload) t
      (fun _ s' => Continues sha s s') (fun _ s' => Advances sha s s') := by
  refine (append_advances hform t).mono ?_ fun _ s' h => hsame.advances.trans h
  rintro _ s' ⟨hadvances, hqueries, hopened, hothers⟩
  refine hsame.continues.trans ⟨hadvances, fun ht key' hquery => ?_⟩
  by_cases hkey : key' = key
  · rw [hkey]
    exact hopened
  · rw [hothers key' hkey]
    exact ht key' (hqueries ▸ hquery)

/-! ## Rebuilding -/

/-- The fold of `rebuild` over chained and sealed events is that of the view. -/
theorem rebuild_fold {sha : Sha256} {queries : Key → Option EvidenceQuery} {key : Key}
    {query : Except Error EvidenceQuery}
    (hquery : query = match queries key with | none => .error ⟨.keyError, "_queries"⟩ | some q => .ok q)
    (events : List EvidenceApplicationEvent) :
    ∀ (current : Option EvidenceQueryView) (start : Digest),
      HashChain.Linked EvidenceApplicationEvent.previousHash EvidenceApplicationEvent.recordHash start
        events →
      (∀ event ∈ events, event.recordHash = eventHash sha event) →
      events.foldlM (rebuildStep sha query) (current, start) =
        (events.foldlM (fun current event => (reduceAt queries key current event).map some) current).map
          fun view => (view, HashChain.lastDigest EvidenceApplicationEvent.recordHash start events) := by
  induction events with
  | nil =>
    intro current start _ _
    rfl
  | cons event events ih =>
    intro current start hlinked hsealed
    obtain ⟨hprevious, hrest⟩ := hlinked
    have hstep : rebuildStep sha query (current, start) event =
        (reduceAt queries key current event).map fun view => (some view, event.recordHash) := by
      unfold rebuildStep reduceAt
      rw [if_neg (not_not.mpr hprevious), if_neg (not_not.mpr (hsealed event List.mem_cons_self)), hquery]
      cases queries key with
      | none => rfl
      | some q =>
        show ((reduceView current event q).bind fun view => pure (some view, event.recordHash)) =
          (reduceView current event q).map fun view => (some view, event.recordHash)
        cases reduceView current event q <;> rfl
    rw [List.foldlM_cons, List.foldlM_cons, hstep]
    cases hreduce : reduceAt queries key current event with
    | error e => rfl
    | ok view =>
      show List.foldlM (rebuildStep sha query) (some view, event.recordHash) events = _
      rw [ih (some view) event.recordHash hrest fun e he => hsealed e (List.mem_cons_of_mem _ he)]
      have hlast : HashChain.lastDigest EvidenceApplicationEvent.recordHash start (event :: events) =
          HashChain.lastDigest EvidenceApplicationEvent.recordHash event.recordHash events := by
        unfold HashChain.lastDigest
        rw [List.getLast?_cons]
        cases events.getLast? <;> rfl
      rw [hlast]
      rfl

/-- **A query with events is rebuilt as it is.** -/
theorem Booked.rebuild {sha : Sha256} {s : State} (h : Booked sha s) {key : Key}
    (hevents : s.events key ≠ []) :
    ∃ view, s.views key = some view ∧ Evidence.rebuild sha key s = (.ok view, s) := by
  obtain ⟨view, hview⟩ := Option.ne_none_iff_exists'.mp (mt h.unviewed.mpr hevents)
  refine ⟨view, hview, ?_⟩
  have hreplayed : (s.events key).foldlM
      (fun current event => (reduceAt s.queries key current event).map some) none = .ok (some view) :=
    h.book.rebuilt hview
  have hquery : queryOf s key =
      match s.queries key with | none => .error ⟨.keyError, "_queries"⟩ | some q => .ok q := rfl
  have hfold := @rebuild_fold sha _ _ _ hquery (s.events key) none zeroHash (h.book.chained key)
    (h.book.sealed key)
  rw [hreplayed] at hfold
  have hrun : Sat (Evidence.rebuild sha key) s (fun v s' => v = view ∧ s' = s) (fun _ _ => False) := by
    unfold Evidence.rebuild
    rw [Exec.sat_bind, Exec.sat_read]
    refine Sat.check (fun hno => hno hevents) fun _ => ?_
    refine Sat.attempt (fun e he => ?_) fun a ha => ?_
    · rw [hfold] at he
      cases he
    · rw [hfold] at ha
      obtain rfl := Except.ok.inj ha
      refine ⟨rfl, ?_⟩
      show { s with views := Function.update s.views key (some view) } = s
      rw [← hview, Function.update_eq_self]
  have hout := (hrun.mono (fun v s' hv => ⟨congrArg Except.ok hv.1, hv.2⟩) fun _ _ hno => hno.elim).outcome
    (P := fun r s' => r = .ok view ∧ s' = s)
  exact Prod.ext hout.1 hout.2

/-- Rebuilding changes nothing. -/
theorem Booked.rebuild_same {sha : Sha256} {s : State} (h : Booked sha s) (key : Key) :
    Sat (Evidence.rebuild sha key) s (fun _ s' => s' = s) (fun _ s' => s' = s) := by
  by_cases hevents : s.events key = []
  · unfold Evidence.rebuild
    rw [Exec.sat_bind, Exec.sat_read]
    exact Sat.check (fun _ => rfl) fun hno => absurd hevents hno
  · obtain ⟨view, -, hrun⟩ := h.rebuild hevents
    unfold Sat
    rw [hrun]

/-! ## Calls -/

section Calls

variable {sha : Sha256} {vault : CursorVault} {s : State}

/-- What the laws ask of a call that returns, and of one that raises. -/
abbrev Advancing {α : Type} (sha : Sha256) (x : Store α) (s : State) : Prop :=
  Sat x s (fun _ s' => Continues sha s s') (fun _ s' => Advances sha s s')

theorem viewOf_advancing {key : Key} : Advancing sha (Exec.lift (viewOf s key)) s := by
  rw [Advancing, Exec.sat_lift]
  exact ⟨fun _ _ => (SameLedger.refl s).continues, fun _ _ => (SameLedger.refl s).advances⟩

theorem request_advancing {query : EvidenceQuery} {operationId : String} (hform : Collecting operationId)
    (hs : LedgerLaws sha s) : Advancing sha (request sha query operationId) s := by
  unfold Advancing request
  rw [Exec.sat_bind, Exec.sat_read]
  rcases hquery : s.queries query.key with _ | existing
  · dsimp only
    rw [Exec.sat_bind, Exec.sat_modify]
    have ht : Advances sha s (s.opened query) :=
      ⟨fun _ => ⟨hs.toBooked.opened hquery, hs.counted⟩, fun _ key view hview _ => ⟨rfl, hview⟩⟩
    refine (append_advances hform (s.opened query)).mono ?_ fun _ s' h => ht.trans h
    rintro _ s' ⟨hadvances, hqueries, hopened, hothers⟩
    refine ⟨ht.trans hadvances, fun hall key hknown => ?_⟩
    by_cases hkey : key = query.key
    · rw [hkey]
      exact hopened
    · rw [hothers key hkey]
      refine hall key ?_
      rw [hqueries, show (s.opened query).queries key = s.queries key from Function.update_of_ne hkey _ _] at hknown
      exact hknown
  · refine Sat.check (fun _ => (SameLedger.refl s).advances) fun _ => ?_
    exact viewOf_advancing

theorem beginPage_advancing {key : Key} {pageNumber : Int} {operationId : String}
    {cursorRef : Option String} {occurredAt : Datetime} (hform : Collecting operationId) :
    Advancing sha (beginPage sha key pageNumber operationId cursorRef occurredAt) s := by
  unfold Advancing beginPage
  rw [Exec.sat_bind, Exec.sat_read]
  split
  · exact (SameLedger.refl s).continues
  · refine Sat.check (fun _ => (SameLedger.refl s).advances) fun _ => ?_
    rw [Exec.sat_bind, Exec.sat_modify]
    have hsame : SameLedger s { s with
        pageIntents := Function.update s.pageIntents (key, pageNumber) (some operationId) } := ⟨rfl, rfl, rfl⟩
    exact Sat.call (append_continues hform hsame) (fun _ _ h => h) fun _ _ h => h

/-- The cursor is kept apart from the events. -/
theorem keepCursor_same {query : EvidenceQuery} {pageNumber : Int} {nextCursor : Option String}
    {occurredAt : Datetime} : Sat (keepCursor sha vault query pageNumber nextCursor occurredAt) s
      (fun _ s' => SameLedger s s') (fun _ s' => SameLedger s s') := by
  unfold keepCursor
  cases nextCursor with
  | none => exact ⟨rfl, rfl, rfl⟩
  | some value =>
    refine Sat.attempt (fun _ _ => SameLedger.refl s) fun cursor _ => ?_
    rw [Exec.sat_bind, Exec.sat_read, Exec.sat_bind, Exec.sat_modify]
    refine Sat.attempt (fun _ _ => ⟨rfl, rfl, rfl⟩) fun sealedValue _ => ?_
    exact ⟨rfl, rfl, rfl⟩

theorem completePage_advancing {query : EvidenceQuery} {pageNumber : Int} {operationId : String}
    {evidence : List NormalizedEvidence} {nextCursor : Option String} {occurredAt : Datetime}
    (hform : Collecting operationId) :
    Advancing sha (completePage sha vault query pageNumber operationId evidence nextCursor occurredAt) s := by
  unfold Advancing completePage
  rw [Exec.sat_bind, Exec.sat_read]
  split
  · exact (SameLedger.refl s).continues
  · refine Sat.check (fun _ => (SameLedger.refl s).advances) fun _ => ?_
    rw [Exec.sat_bind, Exec.sat_modify]
    have hstored : SameLedger s { s with
        pageResults := Function.update s.pageResults (query.key, pageNumber) true
        evidence := Function.update s.evidence query.key
          (s.evidence query.key ++ newItems (s.evidence query.key) evidence) } := ⟨rfl, rfl, rfl⟩
    refine Sat.call keepCursor_same (fun _ _ h => (hstored.trans h).advances) fun cursor s' h => ?_
    exact Sat.call (append_continues hform (hstored.trans h)) (fun _ _ h => h) fun _ _ h => h

theorem completeQuery_advancing {query : EvidenceQuery} {operationId : String} {bundle : EvidenceBundle}
    {occurredAt : Datetime} (hform : Collecting operationId) :
    Advancing sha (completeQuery sha query operationId bundle occurredAt) s := by
  unfold Advancing completeQuery
  rw [Exec.sat_bind, Exec.sat_read]
  rcases s.bundles query.key with _ | existing
  · dsimp only
    rw [Exec.sat_bind, Exec.sat_modify]
    exact append_continues hform ⟨rfl, rfl, rfl⟩
  · refine Sat.check (fun _ => (SameLedger.refl s).advances) fun _ => ?_
    exact viewOf_advancing

theorem failQuery_advancing {key : Key} {operationId failureCode : String} {status : QueryStatus}
    {occurredAt : Datetime} (hform : Collecting operationId) :
    Advancing sha (failQuery sha key operationId failureCode status occurredAt) s := by
  refine Sat.check (fun _ => (SameLedger.refl s).advances) fun _ => ?_
  exact append_continues hform (SameLedger.refl s)

theorem rebuild_advancing {key : Key} (hs : LedgerLaws sha s) : Advancing sha (rebuild sha key) s := by
  refine (hs.toBooked.rebuild_same key).mono (fun _ s' h => ?_) fun _ s' h => ?_
  · rw [h]
    exact (SameLedger.refl s).continues
  · rw [h]
    exact (SameLedger.refl s).advances

end Calls

/-! ## Runs -/

/-- The operation of a call, if it has one. -/
def StoreOp.operationId : StoreOp → Option String
  | .request _ operationId => some operationId
  | .beginPage _ _ operationId _ _ => some operationId
  | .completePage _ _ operationId _ _ _ => some operationId
  | .completeQuery _ operationId _ _ => some operationId
  | .failQuery _ operationId _ _ _ => some operationId
  | .rebuild _ => none

/-- The forms of the operations of `EvidenceCollector`. -/
inductive CollectorOperation : String → Prop
  | request (queryId : String) : CollectorOperation ("request:" ++ queryId)
  | page (queryId : String) (page : Nat) : CollectorOperation ("page:" ++ queryId ++ ":" ++ toString page)
  | cancel (queryId : String) (page : Nat) :
    CollectorOperation ("cancel:" ++ queryId ++ ":" ++ toString page)
  | complete (queryId : String) : CollectorOperation ("complete:" ++ queryId)
  | reconcile (queryId : String) : CollectorOperation ("reconcile:" ++ queryId)
  | failure (queryId : String) : CollectorOperation ("failure:" ++ queryId)
  | stale (queryId : String) : CollectorOperation ("stale:" ++ queryId)

theorem CollectorOperation.collecting {operationId : String} (h : CollectorOperation operationId) :
    Collecting operationId := by
  have hhead : ∀ (kind rest : String) (c : Char), kind.toList.head? = some c → c ≠ 'e' →
      Collecting (kind ++ rest) := by
    intro kind rest c hkind hc hno
    rw [String.toList_append, List.head?_append, hkind, Option.some_or] at hno
    exact hc (Option.some.inj hno)
  cases h with
  | request q => exact hhead "request:" q 'r' (by decide) (by decide)
  | page q n =>
    rw [String.append_assoc, String.append_assoc]
    exact hhead "page:" _ 'p' (by decide) (by decide)
  | cancel q n =>
    rw [String.append_assoc, String.append_assoc]
    exact hhead "cancel:" _ 'c' (by decide) (by decide)
  | complete q => exact hhead "complete:" q 'c' (by decide) (by decide)
  | reconcile q => exact hhead "reconcile:" q 'r' (by decide) (by decide)
  | failure q => exact hhead "failure:" q 'f' (by decide) (by decide)
  | stale q => exact hhead "stale:" q 's' (by decide) (by decide)

/-- A call with operations of these forms. -/
def StoreOp.Collected (op : StoreOp) : Prop := ∀ id, op.operationId = some id → CollectorOperation id

/-- **One call** keeps the laws and what is terminal. -/
theorem storeStep_advances {sha : Sha256} {vault : CursorVault} {s : State} {op : StoreOp}
    (hform : op.Collected) (hs : LedgerLaws sha s) :
    Advances sha s (storeStep sha vault s op).2 ∧
      ((∃ r, (storeStep sha vault s op).1 = .ok r) → Opened s → Opened (storeStep sha vault s op).2) := by
  have hreturning : ∀ {α : Type} {x : Store α} {f : α → Returned}, Advancing sha x s →
      Advances sha s (returning x f s).2 ∧
        ((∃ r, (returning x f s).1 = .ok r) → Opened s → Opened (returning x f s).2) := by
    intro α x f hx
    have hsat : Sat (returning x f) s
        (fun _ s' => Continues sha s s') (fun _ s' => Advances sha s s') :=
      Sat.call hx (fun _ _ h => h) fun _ _ h => h
    revert hsat
    unfold Sat
    rcases returning x f s with ⟨r, s'⟩
    cases r with
    | ok a => exact fun h => ⟨h.advances, fun _ => h.opened⟩
    | error e => exact fun h => ⟨h, fun hok => by obtain ⟨r, hr⟩ := hok; cases hr⟩
  cases op with
  | request query id => exact hreturning (request_advancing (hform id rfl).collecting hs)
  | beginPage key n id ref at' => exact hreturning (beginPage_advancing (hform id rfl).collecting)
  | completePage query n id items next at' =>
    exact hreturning (completePage_advancing (hform id rfl).collecting)
  | completeQuery query id bundle at' => exact hreturning (completeQuery_advancing (hform id rfl).collecting)
  | failQuery key id code status at' => exact hreturning (failQuery_advancing (hform id rfl).collecting)
  | rebuild key => exact hreturning (rebuild_advancing hs)

/-- The store after calls. -/
def storeRun (sha : Sha256) (vault : CursorVault) (ops : List StoreOp) : State :=
  Machine.final (storeStep sha vault) .empty ops

/-- The history of calls. -/
def storeHistory (sha : Sha256) (vault : CursorVault) (ops : List StoreOp) :
    List (Machine.Entry State StoreOp (Except Error Returned)) :=
  Machine.trace (storeStep sha vault) .empty ops

/-- **The ledger of one query.** -/
structure QueryLedger (sha : Sha256) (s : State) (key : Key) (query : EvidenceQuery) : Prop where
  numbered : (s.events key).map EvidenceApplicationEvent.sequence =
    (List.range (s.events key).length).map (· + 1)
  chained : HashChain.Linked EvidenceApplicationEvent.previousHash EvidenceApplicationEvent.recordHash
    zeroHash (s.events key)
  sealed : ∀ event ∈ s.events key, event.recordHash = eventHash sha event
  folded : (s.events key).foldlM (fun current event => (reduceView current event query).map some) none =
    .ok (s.views key)
  rebuilt : ∃ view, s.views key = some view ∧ rebuild sha key s = (.ok view, s)
  counted : ∀ view, s.views key = some view → Counts (s.events key) view
  once : ((s.events key).map fun event => (event.operationId.val, event.eventType.val)).Nodup

theorem LedgerLaws.query {sha : Sha256} {s : State} (h : LedgerLaws sha s) (hopened : Opened s) {key : Key}
    {query : EvidenceQuery} (hquery : s.queries key = some query) : QueryLedger sha s key query := by
  have hevents : s.events key ≠ [] := by
    refine hopened key ?_
    rw [hquery]
    exact Option.some_ne_none query
  refine ⟨h.book.numbered key, h.book.chained key, h.book.sealed key, ?_, h.rebuild hevents,
    h.counted key, ?_⟩
  · have hreplayed := h.book.replayed key
    unfold FactBook.Kind.replay at hreplayed
    have hreduce : reduceAt s.queries key = fun current event => reduceView current event query := by
      funext current event
      unfold reduceAt
      rw [hquery]
    have hfold : (s.events key).foldlM
        (fun current event => (reduceAt s.queries key current event).map some) none = .ok (s.views key) :=
      hreplayed
    rw [hreduce] at hfold
    exact hfold
  · have hdistinct := h.book.distinct key
    have hmap : ((s.events key).map fun event => (key, event.operationId.val, event.eventType.val)) =
        ((s.events key).map fun event => (event.operationId.val, event.eventType.val)).map (Prod.mk key) := by
      rw [List.map_map]
      rfl
    have hnodup : (((s.events key).map fun event =>
        (event.operationId.val, event.eventType.val)).map (Prod.mk key)).Nodup := hmap ▸ hdistinct
    exact hnodup.of_map

/-- **The events of every query, over every run of calls that return**: they are numbered, chained and
    sealed, the view is their fold and what they count, and a terminal query gets no more of them. -/
theorem query_ledgers (sha : Sha256) (vault : CursorVault) (ops : List StoreOp)
    (hforms : ∀ op ∈ ops, op.Collected)
    (hreturns : ∀ e ∈ storeHistory sha vault ops, ∃ r, e.result = .ok r) :
    (∀ key query, (storeRun sha vault ops).queries key = some query →
      QueryLedger sha (storeRun sha vault ops) key query) ∧
    ∀ e ∈ storeHistory sha vault ops, ∀ key view, e.before.views key = some view →
      view.status ∈ terminal → e.after.events key = e.before.events key := by
  -- every state of the run meets the laws, and its queries have events
  have hrun : ∀ ops : List StoreOp, (∀ op ∈ ops, op.Collected) →
      (∀ e ∈ storeHistory sha vault ops, ∃ r, e.result = .ok r) →
      LedgerLaws sha (storeRun sha vault ops) ∧ Opened (storeRun sha vault ops) := by
    intro ops hforms hreturns
    refine Machine.run_invariant (I := fun s => LedgerLaws sha s ∧ Opened s)
      (C := fun s op => op.Collected ∧ ∃ r, (storeStep sha vault s op).1 = .ok r) ?_ ops .empty
      ⟨ledgerLaws_empty sha, fun _ hno => absurd rfl hno⟩ fun e he => ?_
    · rintro s op ⟨hs, hopened⟩ ⟨hform, hreturn⟩
      have hstep := @storeStep_advances sha vault s op hform hs
      exact ⟨hstep.1.laws hs, hstep.2 hreturn hopened⟩
    · obtain ⟨xs, ys, hops, hentry⟩ := Machine.trace_mem he
      refine ⟨hforms _ (by rw [hops]; simp), ?_⟩
      obtain ⟨r, hr⟩ := hreturns e he
      refine ⟨r, ?_⟩
      rw [hentry] at hr ⊢
      exact hr
  constructor
  · intro key query hquery
    obtain ⟨hlaws, hopened⟩ := hrun ops hforms hreturns
    exact hlaws.query hopened hquery
  · intro e he key view hview hterminal
    obtain ⟨xs, ys, hops, hentry⟩ := Machine.trace_mem he
    have hprefix : LedgerLaws sha (storeRun sha vault xs) := by
      refine (hrun xs (fun op hop => hforms op (by rw [hops]; simp [hop])) fun e' he' => ?_).1
      refine hreturns e' ?_
      rw [hops]
      unfold storeHistory
      rw [Machine.trace_append]
      exact List.mem_append_left _ he'
    have hbefore : e.before = storeRun sha vault xs := by
      rw [hentry]
      rfl
    have hafter : e.after = (storeStep sha vault e.before e.op).2 := by
      rw [hentry]
      rfl
    have hform : e.op.Collected := hforms _ (by rw [hops]; simp)
    rw [hafter]
    rw [← hbefore] at hprefix
    exact ((@storeStep_advances sha vault _ _ hform hprefix).1.frozen hprefix key view hview hterminal).1

/-! ## A query that fails -/

def ident (s : String) (h : isIdentifier s = true := by exact computed) : Identifier := ⟨s, h⟩

def sampleSource : EvidenceSource where
  tenantId := ident "t"
  sourceId := ident "s"
  kind := .github
  trust := .externalUntrusted
  classification := .internal
  region := ident "eu"
  credentialRef := none
  credentialVersion := none
  policyRevision := 1
  allowedResources := ["r"]
  enabled := true
  credential_ok := rfl

def sampleQuery : EvidenceQuery where
  queryId := ident "q"
  tenantId := ident "t"
  incidentId := ident "i"
  runId := ident "run"
  source := sampleSource
  window := ⟨⟨0, 0⟩, ⟨1, 0⟩, by decide⟩
  resource := "r"
  parameters := ∅
  bounds :=
    { maximumPages := 2, maximumRecords := 10, maximumPageBytes := 1024, maximumTotalBytes := 1024,
      requestTimeoutSeconds := ⟨['2', '0', '.', '0'], by decide⟩, pages_ok := by decide,
      records_ok := by decide, covers := by decide }
  createdAt := ⟨0, 0⟩
  source_ok := rfl
  resource_ok := List.mem_singleton.mpr rfl

/-- A vault for worked examples: nothing is hidden, and every nonce is the same. -/
def sampleVault : CursorVault where
  encrypt _ plain _ := plain.data.toList ++ List.replicate 16 0
  decrypt _ cipher _ := some ⟨(cipher.take (cipher.length - 16)).toArray⟩
  nonce _ := List.replicate 12 0

/-- A page without items, then a failure. -/
def failingOps : List StoreOp :=
  [.request sampleQuery "request:q",
   .beginPage sampleQuery.key 1 "page:q:1" none ⟨1, 0⟩,
   .completePage sampleQuery 1 "page:q:1" [] none ⟨2, 0⟩,
   .failQuery sampleQuery.key "failure:q" "connector_result_rejected" .failed ⟨3, 0⟩]

theorem failingOps_collected : ∀ op ∈ failingOps, op.Collected := by
  have hpage : CollectorOperation "page:q:1" := by
    have h := CollectorOperation.page "q" 1
    rwa [show "page:" ++ "q" ++ ":" ++ toString 1 = "page:q:1" by decide] at h
  have hrequest : CollectorOperation "request:q" := .request "q"
  have hfailure : CollectorOperation "failure:q" := .failure "q"
  intro op hop id hid
  simp only [failingOps, List.mem_cons, List.not_mem_nil, or_false] at hop
  rcases hop with rfl | rfl | rfl | rfl
  · exact Option.some.inj hid ▸ hrequest
  · exact Option.some.inj hid ▸ hpage
  · exact Option.some.inj hid ▸ hpage
  · exact Option.some.inj hid ▸ hfailure

theorem failingOps_return : ∀ e ∈ storeHistory Sha256.constant sampleVault failingOps,
    ∃ r, e.result = .ok r := by
  have hall : (storeHistory Sha256.constant sampleVault failingOps).all
      (fun e => e.result.toOption.isSome) = true := by decide +kernel
  intro e he
  have hsome := List.all_eq_true.mp hall e he
  cases hresult : e.result with
  | ok r => exact ⟨r, rfl⟩
  | error error =>
    rw [hresult] at hsome
    cases hsome

theorem query_ledgers_failing :
    QueryLedger Sha256.constant (storeRun Sha256.constant sampleVault failingOps) sampleQuery.key
      sampleQuery := by
  refine (query_ledgers Sha256.constant sampleVault failingOps failingOps_collected
    failingOps_return).1 _ _ ?_
  rfl

end Evidence

end Aegis
