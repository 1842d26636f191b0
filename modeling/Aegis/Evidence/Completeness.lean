/-
  A COMPLETED QUERY IS COMPLETE.

  Between two steps of its collections a query stands in one of three ways (`Standing`): no page is stored;
  the first page is stored and a cursor with it; or the pages are stored to the last one and the cursor is
  gone.  Only the third can be completed.

  Most calls leave all of that alone (`Quiet`).  `completePage` is the one that moves the query on, and a
  FIRST page whose cursor is refused would be taken for a last one -- hence the promise `FirstSealed`.
-/
import Mathlib
import Aegis.Evidence.Collector

namespace Aegis

namespace Evidence

open Exec (Sat)
open Steps (Along)

/-! ## What is complete -/

/-- Pages that follow each other, and the cursor that the last one reported. -/
inductive Chain : List Ingested → Option String → Prop
  | first {page : Ingested} (hnumber : page.pageNumber = 1) (hcursor : page.cursor = none) :
    Chain [page] page.page.nextCursor
  | next {links : List Ingested} {page : Ingested} {cursor : String} (h : Chain links (some cursor))
    (hnumber : page.pageNumber = links.length + 1) (hcursor : page.cursor = some cursor) :
    Chain (links ++ [page]) page.page.nextCursor

/-- The items of pages, less those whose identifiers were stored before. -/
def itemsOf (links : List Ingested) : List NormalizedEvidence :=
  links.foldl (fun items page => items ++ newItems items page.evidence) []

/-- **A complete query**: its pages were fetched one after the other to the last one, they are stored, and
    the bundle has their items. -/
structure Complete {ι : Type} (query : EvidenceQuery) (s : Session ι) (links : List Ingested) : Prop where
  chain : Chain links none
  fetched : ∀ page ∈ links, page.toFetched ∈ s.fetched ∧ page ∈ s.ingested
  stored : ∀ n : Nat, 1 ≤ n → n ≤ links.length → s.store.pageResults (query.key, n) = true
  bundled : ∃ bundle, s.store.bundles query.key = some bundle ∧
    bundle.evidence = byEvidenceId (itemsOf links)

/-- A query is completed. -/
def CompletedAt (s : State) (key : Key) : Prop :=
  ∃ view, s.views key = some view ∧ view.status = .completed

/-- The cursor of a first page is not refused once the page is marked. -/
def FirstSealed {ι : Type} (vault : CursorVault) : CollectCall → Session ι → Prop
  | .store (.completePage _ pageNumber _ _ nextCursor _), s =>
    pageNumber = 1 → ∀ value, nextCursor = some value → Sealable vault s.store pageNumber value
  | _, _ => True

theorem Chain.ne_nil {links : List Ingested} {cursor : Option String} (h : Chain links cursor) :
    links ≠ [] := by
  cases h with
  | first => exact List.cons_ne_nil _ _
  | next => exact List.append_ne_nil_of_right_ne_nil _ (List.cons_ne_nil _ _)

theorem itemsOf_concat (links : List Ingested) (page : Ingested) :
    itemsOf (links ++ [page]) = itemsOf links ++ newItems (itemsOf links) page.evidence := by
  unfold itemsOf
  rw [List.foldl_append]
  rfl

theorem byEvidenceId_twice (evidence : List NormalizedEvidence) :
    byEvidenceId (byEvidenceId evidence) = byEvidenceId evidence := by
  unfold byEvidenceId
  have htotal : Std.Total fun a b : NormalizedEvidence => a.evidenceId.val ≤ b.evidenceId.val :=
    ⟨fun a b => le_total a.evidenceId.val b.evidenceId.val⟩
  have htrans : IsTrans NormalizedEvidence fun a b => a.evidenceId.val ≤ b.evidenceId.val :=
    ⟨fun _ _ _ h h' => le_trans h h'⟩
  exact (List.pairwise_insertionSort _ evidence).insertionSort_eq

/-! ## Calls that leave the pages of a query alone -/

/-- The pages, the items, the cursor and the bundle of a query are those of before, and it is completed only
    if it was. -/
structure Quiet (key : Key) (s s' : State) : Prop where
  results : ∀ n, s'.pageResults (key, n) = s.pageResults (key, n)
  cursors : s'.cursors key = s.cursors key
  bundles : s'.bundles key = s.bundles key
  evidence : s'.evidence key = s.evidence key ∨ s.queries key = none ∧ s'.evidence key = []
  known : s.queries key ≠ none → s'.queries key ≠ none
  completed : CompletedAt s' key ↔ CompletedAt s key

theorem Quiet.refl (key : Key) (s : State) : Quiet key s s :=
  ⟨fun _ => rfl, rfl, rfl, .inl rfl, id, Iff.rfl⟩

/-- Only events and views have changed, and the query is completed only if it was. -/
structure Noted (key : Key) (s s' : State) : Prop where
  same : ∃ events views, s' = { s with events, views }
  completed : CompletedAt s' key ↔ CompletedAt s key

theorem Noted.refl (key : Key) (s : State) : Noted key s s := ⟨⟨s.events, s.views, rfl⟩, Iff.rfl⟩

theorem Noted.quiet {key : Key} {s s' : State} (h : Noted key s s') : Quiet key s s' := by
  obtain ⟨⟨events, views, rfl⟩, hcompleted⟩ := h
  exact ⟨fun _ => rfl, rfl, rfl, .inl rfl, id, hcompleted⟩

/-- A recorded event that is not a completion. -/
theorem Records.noted {sha : Sha256} {s : State} {key key' : Key} {eventType operationId : String}
    {payload : Fields} {event : EvidenceApplicationEvent} {view : EvidenceQueryView}
    (h : Records sha s key' eventType operationId payload event view)
    (htype : eventType ≠ "evidence.query.completed") : Noted key s (s.record key' event view) := by
  refine ⟨⟨_, _, rfl⟩, ?_⟩
  show (∃ v, Function.update s.views key' (some view) key = some v ∧ v.status = .completed) ↔
    CompletedAt s key
  by_cases hkey : key = key'
  · subst hkey
    obtain ⟨query, -, hreduced⟩ := h.reduced
    have htype' : event.eventType.val ≠ "evidence.query.completed" := by rwa [h.type]
    rw [Function.update_self, CompletedAt, ← reduceView_completed hreduced htype']
    constructor
    · rintro ⟨v, hv, hcompleted⟩
      rwa [Option.some.inj hv]
    · exact fun hcompleted => ⟨view, rfl, hcompleted⟩
  · rw [Function.update_of_ne hkey]
    exact Iff.rfl

section Calls

variable {sha : Sha256} {vault : CursorVault} {s : State} {key : Key}

theorem append_noted {key' : Key} {eventType operationId : String} {occurredAt : Datetime}
    {payload : Fields} (htype : eventType ≠ "evidence.query.completed") :
    Sat (append sha key' eventType operationId occurredAt payload) s (fun _ s' => Noted key s s')
      (fun _ s' => s' = s) := by
  refine (append_sat s).mono ?_ fun _ _ h => h
  rintro view s' (⟨rfl, -, -⟩ | ⟨e, hrecords, rfl⟩)
  · exact .refl key s'
  · exact hrecords.noted htype

theorem failQuery_quiet {key' : Key} {operationId failureCode : String} {status : QueryStatus}
    {occurredAt : Datetime} : Sat (failQuery sha key' operationId failureCode status occurredAt) s
      (fun _ s' => Quiet key s s') (fun _ s' => Quiet key s s') := by
  refine Sat.check (fun _ => .refl key s) fun hstatus => ?_
  refine (append_noted ?_).mono (fun _ _ h => h.quiet) fun _ s' h => by rw [h]; exact .refl key s
  revert hstatus
  cases status <;> decide

theorem viewOf_same {key' : Key} : Sat (Exec.lift (viewOf s key')) s (fun _ s' => s' = s)
    (fun _ s' => s' = s) := by
  rw [Exec.sat_lift]
  exact ⟨fun _ _ => rfl, fun _ _ => rfl⟩

/-- A request makes its query known. -/
theorem request_quiet {query : EvidenceQuery} {operationId : String} :
    Sat (request sha query operationId) s
      (fun _ s' => Quiet query.key s s' ∧ s'.queries query.key ≠ none)
      (fun _ s' => Quiet query.key s s') := by
  unfold request
  rw [Exec.sat_bind, Exec.sat_read]
  cases hquery : s.queries query.key with
  | some existing =>
    refine Sat.check (fun _ => .refl _ s) fun _ => viewOf_same.mono ?_ ?_
    · rintro _ s' rfl
      refine ⟨.refl _ s', ?_⟩
      rw [hquery]
      exact Option.some_ne_none existing
    · rintro _ s' rfl
      exact .refl _ s'
  | none =>
    dsimp only
    rw [Exec.sat_bind, Exec.sat_modify]
    have hself : (s.opened query).queries query.key ≠ none := by
      rw [show (s.opened query).queries query.key = some query from Function.update_self _ _ _]
      exact Option.some_ne_none query
    have hempty : (s.opened query).evidence query.key = [] := Function.update_self _ _ _
    refine (@append_noted sha (s.opened query) query.key query.key _ _ _ _ (by decide)).mono ?_ ?_
    · rintro view s' ⟨⟨events, views, rfl⟩, hcompleted⟩
      exact ⟨⟨fun _ => rfl, rfl, rfl, .inr ⟨hquery, hempty⟩, fun _ => hself, hcompleted⟩, hself⟩
    · rintro _ s' rfl
      exact ⟨fun _ => rfl, rfl, rfl, .inr ⟨hquery, hempty⟩, fun _ => hself, Iff.rfl⟩

theorem beginPage_quiet {pageNumber : Int} {operationId : String} {cursorRef : Option String}
    {occurredAt : Datetime} : Sat (beginPage sha key pageNumber operationId cursorRef occurredAt) s
      (fun start s' => Quiet key s s' ∧ (start = .completed ↔ s.pageResults (key, pageNumber) = true))
      (fun _ s' => Quiet key s s') := by
  unfold beginPage
  rw [Exec.sat_bind, Exec.sat_read]
  split
  · rename_i hresult
    exact ⟨.refl key s, fun _ => hresult, fun _ => rfl⟩
  · rename_i hresult
    refine Sat.check (fun _ => .refl key s) fun _ => ?_
    rw [Exec.sat_bind, Exec.sat_modify]
    refine Sat.call (@append_noted sha _ key key _ _ _ _ (by decide)) (fun _ s' h => ?_) fun _ s' h => ?_
    · rw [h]
      exact ⟨fun _ => rfl, rfl, rfl, .inl rfl, id, Iff.rfl⟩
    · obtain ⟨⟨events, views, rfl⟩, hcompleted⟩ := h
      exact ⟨⟨fun _ => rfl, rfl, rfl, .inl rfl, id, hcompleted⟩, fun hno => (by cases hno),
        fun hno => absurd hno hresult⟩

/-! ## A page is completed -/

/-- What a page adds to the store, cursor apart. -/
structure PageStored (key : Key) (pageNumber : Int) (evidence : List NormalizedEvidence) (s s' : State) :
    Prop where
  results : ∀ n, s'.pageResults (key, n) = if n = pageNumber then true else s.pageResults (key, n)
  bundles : s'.bundles key = s.bundles key
  evidence : s'.evidence key = s.evidence key ++ newItems (s.evidence key) evidence
  known : s.queries key ≠ none → s'.queries key ≠ none
  completed : CompletedAt s' key ↔ CompletedAt s key

/-- The cursor of a page: gone with the last one, and otherwise that which was sealed. -/
def CursorKept (vault : CursorVault) (key : Key) (nextCursor : Option String) (s : State) : Prop :=
  match nextCursor with
  | none => s.cursors key = none
  | some value => ∃ cursor sealedValue nonce, s.cursors key = some (cursor, sealedValue) ∧
      vault.seal value key nonce = .ok sealedValue

/-- A refused page has left nothing, or it is stored; then its cursor is kept, or the old one is, and the
    new one could not be sealed. -/
inductive PageRefused (vault : CursorVault) (key : Key) (pageNumber : Int)
    (evidence : List NormalizedEvidence) (nextCursor : Option String) (s s' : State) : Prop
  | untouched (h : s' = s)
  | kept (h : PageStored key pageNumber evidence s s') (hkept : CursorKept vault key nextCursor s')
  | unsealed (h : PageStored key pageNumber evidence s s') (hcursor : s'.cursors key = s.cursors key)
    (value : String) (hvalue : nextCursor = some value) (hno : ¬Sealable vault s pageNumber value)

/-- A cursor is kept, or the old one stays. -/
theorem keepCursor_kept {query : EvidenceQuery} {pageNumber : Int} {nextCursor : Option String}
    {occurredAt : Datetime} : Sat (keepCursor sha vault query pageNumber nextCursor occurredAt) s
      (fun _ s' => CursorKept vault query.key nextCursor s' ∧ ∃ nonces cursors,
        s' = { s with nonces, cursors })
      (fun _ s' => (∃ nonces, s' = { s with nonces }) ∧
        ∃ value, nextCursor = some value ∧ ¬Sealable vault s pageNumber value) := by
  have hjudged := @keepCursor_judged sha vault s query pageNumber nextCursor occurredAt
  have hshape : Sat (keepCursor sha vault query pageNumber nextCursor occurredAt) s
      (fun _ s' => CursorKept vault query.key nextCursor s' ∧ ∃ nonces cursors,
        s' = { s with nonces, cursors })
      (fun _ s' => ∃ nonces, s' = { s with nonces }) := by
    unfold keepCursor
    cases nextCursor with
    | none => exact ⟨Function.update_self _ _ _, s.nonces, _, rfl⟩
    | some value =>
      refine Sat.attempt (fun _ _ => ⟨s.nonces, rfl⟩) fun cursor _ => ?_
      rw [Exec.sat_bind, Exec.sat_read, Exec.sat_bind, Exec.sat_modify]
      refine Sat.attempt (fun _ _ => ⟨s.nonces + 1, rfl⟩) fun sealedValue hseal => ?_
      exact ⟨⟨cursor, sealedValue, _, Function.update_self _ _ _, hseal⟩, s.nonces + 1, _, rfl⟩
  refine (hshape.and hjudged).mono (fun _ s' h => h.1) ?_
  rintro _ s' ⟨hnonces, hunsealable, -⟩
  refine ⟨hnonces, ?_⟩
  obtain ⟨value, hno⟩ := not_forall.mp hunsealable
  obtain ⟨hvalue, hno⟩ := Classical.not_imp.mp hno
  exact ⟨value, hvalue, hno⟩

theorem completePage_stored {query : EvidenceQuery} {pageNumber : Int} {operationId : String}
    {evidence : List NormalizedEvidence} {nextCursor : Option String} {occurredAt : Datetime}
    (hfresh : s.pageResults (query.key, pageNumber) = false) :
    Sat (completePage sha vault query pageNumber operationId evidence nextCursor occurredAt) s
      (fun _ s' => PageStored query.key pageNumber evidence s s' ∧ CursorKept vault query.key nextCursor s')
      (fun _ s' => PageRefused vault query.key pageNumber evidence nextCursor s s') := by
  unfold completePage
  rw [Exec.sat_bind, Exec.sat_read, if_neg (by rw [hfresh]; decide)]
  refine Sat.check (fun _ => .untouched rfl) fun _ => ?_
  rw [Exec.sat_bind, Exec.sat_modify]
  have hstored : ∀ {t : State} {nonces : Nat}
      {cursors : Key → Option (EvidenceCursor × List UInt8)}, t = { s with
        pageResults := Function.update s.pageResults (query.key, pageNumber) true
        evidence := Function.update s.evidence query.key
          (s.evidence query.key ++ newItems (s.evidence query.key) evidence)
        nonces, cursors } → PageStored query.key pageNumber evidence s t := by
    rintro t nonces cursors rfl
    refine ⟨fun n => ?_, rfl, Function.update_self _ _ _, id, Iff.rfl⟩
    show Function.update s.pageResults (query.key, pageNumber) true (query.key, n) = _
    by_cases hn : n = pageNumber
    · rw [hn, Function.update_self, if_pos rfl]
    · rw [Function.update_of_ne (fun hno => hn (Prod.mk.inj hno).2), if_neg hn]
  refine Sat.call keepCursor_kept ?_ ?_
  · rintro _ s' ⟨⟨nonces, rfl⟩, value, hvalue, hunsealable⟩
    exact .unsealed (hstored rfl) rfl value hvalue hunsealable
  · rintro cursor s' ⟨hkept, nonces, cursors, rfl⟩
    have hpage := @hstored _ nonces cursors rfl
    refine Sat.call (@append_noted sha _ query.key query.key _ _ _ _ (by decide)) (fun _ s'' h => ?_) fun _ s'' h => ?_
    · rw [h]
      exact .kept hpage hkept
    · obtain ⟨⟨events, views, rfl⟩, hcompleted⟩ := h
      exact ⟨⟨hpage.results, hpage.bundles, hpage.evidence, hpage.known,
        hcompleted.trans hpage.completed⟩, hkept⟩

/-- A cursor is read as it was sealed. -/
theorem cursorValue_opened {cursorRef : String} {now : Datetime} (hfaithful : vault.Faithful)
    {value : String} (hkept : CursorKept vault key (some value) s) :
    Sat (cursorValue vault key cursorRef now) s (fun value' s' => s' = s ∧ value' = value)
      (fun _ s' => s' = s) := by
  obtain ⟨cursor, sealedValue, nonce, hcursor, hseal⟩ := hkept
  unfold cursorValue
  rw [Exec.sat_bind, Exec.sat_read, hcursor]
  refine Sat.check (fun _ => rfl) fun _ => Sat.check (fun _ => rfl) fun _ => ?_
  rw [Exec.sat_lift]
  exact ⟨fun value' hopen => ⟨rfl, hfaithful.open_seal hseal hopen⟩, fun _ _ => rfl⟩

/-- What the completion of a query without a cursor does to it. -/
structure Bundled (key : Key) (bundle : EvidenceBundle) (s s' : State) : Prop where
  results : ∀ n, s'.pageResults (key, n) = s.pageResults (key, n)
  cursors : s.cursors key = none → s'.cursors key = none
  evidence : s'.evidence key = s.evidence key
  known : s'.queries key = s.queries key
  bundle : ∀ b, s'.bundles key = some b → s.bundles key = some b ∨ b = bundle
  kept : s.bundles key ≠ none → s'.bundles key ≠ none
  completed : CompletedAt s' key → CompletedAt s key ∨ s'.bundles key ≠ none

theorem completeQuery_bundled {query : EvidenceQuery} {operationId : String} {bundle : EvidenceBundle}
    {occurredAt : Datetime} : Sat (completeQuery sha query operationId bundle occurredAt) s
      (fun _ s' => Bundled query.key bundle s s') (fun _ s' => Bundled query.key bundle s s') := by
  have hrefl : Bundled query.key bundle s s := ⟨fun _ => rfl, id, rfl, rfl, fun _ => .inl, id, .inl⟩
  unfold completeQuery
  rw [Exec.sat_bind, Exec.sat_read]
  cases s.bundles query.key with
  | some existing =>
    refine Sat.check (fun _ => hrefl) fun _ => viewOf_same.mono ?_ ?_
    · rintro _ s' rfl
      exact hrefl
    · rintro _ s' rfl
      exact hrefl
  | none =>
    dsimp only
    rw [Exec.sat_bind, Exec.sat_modify]
    have hset : Function.update s.bundles query.key (some bundle) query.key = some bundle :=
      Function.update_self _ _ _
    have hsome : Function.update s.bundles query.key (some bundle) query.key ≠ none := by
      rw [hset]
      exact Option.some_ne_none bundle
    have hcursors : Function.update s.cursors query.key none query.key = none := Function.update_self _ _ _
    have hbundle : ∀ b, Function.update s.bundles query.key (some bundle) query.key = some b →
        s.bundles query.key = some b ∨ b = bundle := by
      intro b hb
      rw [hset] at hb
      exact .inr (Option.some.inj hb).symm
    refine (append_sat _).mono ?_ ?_
    · rintro view s' (⟨rfl, -, -⟩ | ⟨e, -, rfl⟩)
      · exact ⟨fun _ => rfl, fun _ => hcursors, rfl, rfl, hbundle, fun _ => hsome, fun _ => .inr hsome⟩
      · exact ⟨fun _ => rfl, fun _ => hcursors, rfl, rfl, hbundle, fun _ => hsome, fun _ => .inr hsome⟩
    · rintro _ s' rfl
      exact ⟨fun _ => rfl, fun _ => hcursors, rfl, rfl, hbundle, fun _ => hsome, fun _ => .inr hsome⟩

end Calls

/-! ## How a query stands -/

section Standing

variable {ι : Type} {query : EvidenceQuery}

/-- It has no bundle and is not completed. -/
structure Pending (key : Key) (s : State) : Prop where
  bundles : s.bundles key = none
  completed : ¬CompletedAt s key

/-- No page is stored. -/
structure Unstarted (key : Key) (s : State) : Prop extends Pending key s where
  results : ∀ n, s.pageResults (key, n) = false
  evidence : s.evidence key = []
  cursors : s.cursors key = none

/-- The first page is stored, and a cursor. -/
structure Halfway (key : Key) (s : State) : Prop extends Pending key s where
  results : s.pageResults (key, 1) = true
  cursors : s.cursors key ≠ none

/-- The pages are stored, to the last one. -/
structure Whole (query : EvidenceQuery) (links : List Ingested) (s : Session ι) : Prop where
  chain : Chain links none
  fetched : ∀ page ∈ links, page.toFetched ∈ s.fetched ∧ page ∈ s.ingested
  results : ∀ n : Nat, 1 ≤ n → n ≤ links.length → s.store.pageResults (query.key, n) = true
  cursors : s.store.cursors query.key = none
  known : s.store.queries query.key ≠ none
  evidence : s.store.evidence query.key = itemsOf links
  bundle : ∀ b, s.store.bundles query.key = some b → b.evidence = byEvidenceId (itemsOf links)
  completed : CompletedAt s.store query.key → s.store.bundles query.key ≠ none

def Standing (query : EvidenceQuery) (s : Session ι) : Prop :=
  Unstarted query.key s.store ∨ Halfway query.key s.store ∨ ∃ links, Whole query links s

/-- **A completed query is complete.** -/
theorem Standing.complete {s : Session ι} (h : Standing query s) (hcompleted : CompletedAt s.store query.key) :
    ∃ links, Complete query s links := by
  rcases h with h | h | ⟨links, h⟩
  · exact absurd hcompleted h.completed
  · exact absurd hcompleted h.completed
  · obtain ⟨bundle, hbundle⟩ := Option.ne_none_iff_exists'.mp (h.completed hcompleted)
    exact ⟨links, h.chain, h.fetched, h.results, bundle, hbundle, h.bundle bundle hbundle⟩

/-- Between the pages of one collection: these pages are stored, and this is the cursor of the last. -/
structure Walk (query : EvidenceQuery) (links : List Ingested) (cursor : Option String) (s : Session ι) :
    Prop extends Pending query.key s.store where
  known : s.store.queries query.key ≠ none
  fetched : ∀ page ∈ links, page.toFetched ∈ s.fetched ∧ page ∈ s.ingested
  results : ∀ n, s.store.pageResults (query.key, n) = true ↔ 1 ≤ n ∧ n ≤ links.length
  evidence : s.store.evidence query.key = itemsOf links
  place : links = [] ∧ cursor = none ∧ s.store.cursors query.key = none ∨
    Chain links cursor ∧ cursor ≠ none ∧ s.store.cursors query.key ≠ none

/-- The next page of a collection: it walks on, or it begins where an earlier one has been. -/
def Next (query : EvidenceQuery) (pageNumber : Int) (cursor : Option String) (s : Session ι) : Prop :=
  (∃ links, Walk query links cursor s ∧ pageNumber = links.length + 1) ∨
    pageNumber = 1 ∧ (Halfway query.key s.store ∨ ∃ links, Whole query links s)

theorem Walk.standing {links : List Ingested} {cursor : Option String} {s : Session ι}
    (h : Walk query links cursor s) : Standing query s := by
  rcases h.place with ⟨rfl, -, hcursors⟩ | ⟨hchain, -, hcursors⟩
  · refine .inl ⟨h.toPending, fun n => ?_, h.evidence, hcursors⟩
    by_contra hno
    have hn := (h.results n).mp (Bool.not_eq_false _ ▸ hno)
    rw [List.length_nil] at hn
    omega
  · refine .inr (.inl ⟨h.toPending, (h.results 1).mpr ⟨le_rfl, ?_⟩, hcursors⟩)
    have hlength := List.length_pos_of_ne_nil hchain.ne_nil
    omega

theorem Next.standing {pageNumber : Int} {cursor : Option String} {s : Session ι}
    (h : Next query pageNumber cursor s) : Standing query s := by
  rcases h with ⟨links, h, -⟩ | ⟨-, h⟩
  · exact h.standing
  · exact .inr h

/-- A known query that stands somehow begins with its first page. -/
theorem Standing.first {s : Session ι} (h : Standing query s) (hknown : s.store.queries query.key ≠ none) :
    Next query 1 none s := by
  rcases h with h | h
  · refine .inl ⟨[], ⟨h.toPending, hknown, fun _ hno => absurd hno List.not_mem_nil, fun n => ?_,
      h.evidence, .inl ⟨rfl, rfl, h.cursors⟩⟩, rfl⟩
    rw [h.results n, List.length_nil]
    constructor
    · intro hno
      cases hno
    · rintro ⟨h1, h2⟩
      omega
  · exact .inr ⟨rfl, h⟩

/-! ### Calls that leave it alone -/

/-- A quiet call of the store, or a port; what was fetched and ingested stays. -/
structure Still (query : EvidenceQuery) (s s' : Session ι) : Prop where
  store : Quiet query.key s.store s'.store
  fetched : ∀ page ∈ s.fetched, page ∈ s'.fetched
  ingested : ∀ page ∈ s.ingested, page ∈ s'.ingested

variable {s s' : Session ι}

theorem Still.pending (h : Still query s s') (hs : Pending query.key s.store) :
    Pending query.key s'.store :=
  ⟨h.store.bundles.trans hs.bundles, fun hno => hs.completed (h.store.completed.mp hno)⟩

theorem Still.halfway (h : Still query s s') (hs : Halfway query.key s.store) :
    Halfway query.key s'.store :=
  ⟨h.pending hs.toPending, (h.store.results 1).trans hs.results, by
    rw [h.store.cursors]
    exact hs.cursors⟩

theorem Still.evidence (h : Still query s s') (hknown : s.store.queries query.key ≠ none) :
    s'.store.evidence query.key = s.store.evidence query.key :=
  h.store.evidence.resolve_right fun hno => hknown hno.1

theorem Still.whole {links : List Ingested} (h : Still query s s') (hs : Whole query links s) :
    Whole query links s' where
  chain := hs.chain
  fetched page hpage := ⟨h.fetched _ (hs.fetched page hpage).1, h.ingested _ (hs.fetched page hpage).2⟩
  results n h1 hn := (h.store.results n).trans (hs.results n h1 hn)
  cursors := h.store.cursors.trans hs.cursors
  known := h.store.known hs.known
  evidence := (h.evidence hs.known).trans hs.evidence
  bundle b hb := hs.bundle b (h.store.bundles ▸ hb)
  completed hcompleted := by
    rw [h.store.bundles]
    exact hs.completed (h.store.completed.mp hcompleted)

theorem Still.standing (h : Still query s s') (hs : Standing query s) : Standing query s' := by
  rcases hs with hs | hs | ⟨links, hs⟩
  · refine .inl ⟨h.pending hs.toPending, fun n => (h.store.results n).trans (hs.results n), ?_,
      h.store.cursors.trans hs.cursors⟩
    rcases h.store.evidence with hsame | ⟨-, hempty⟩
    · exact hsame.trans hs.evidence
    · exact hempty
  · exact .inr (.inl (h.halfway hs))
  · exact .inr (.inr ⟨links, h.whole hs⟩)

theorem Still.walk {links : List Ingested} {cursor : Option String} (h : Still query s s')
    (hs : Walk query links cursor s) : Walk query links cursor s' where
  toPending := h.pending hs.toPending
  known := h.store.known hs.known
  fetched page hpage := ⟨h.fetched _ (hs.fetched page hpage).1, h.ingested _ (hs.fetched page hpage).2⟩
  results n := by
    rw [h.store.results]
    exact hs.results n
  evidence := (h.evidence hs.known).trans hs.evidence
  place := by
    rw [h.store.cursors]
    exact hs.place

theorem Still.next {pageNumber : Int} {cursor : Option String} (h : Still query s s')
    (hs : Next query pageNumber cursor s) : Next query pageNumber cursor s' := by
  rcases hs with ⟨links, hs, hnumber⟩ | ⟨hnumber, hs | ⟨links, hs⟩⟩
  · exact .inl ⟨links, h.walk hs, hnumber⟩
  · exact .inr ⟨hnumber, .inl (h.halfway hs)⟩
  · exact .inr ⟨hnumber, .inr ⟨links, h.whole hs⟩⟩

end Standing

/-! ## Steps -/

section Steps

variable {ι : Type} {sha : Sha256} {vault : CursorVault} {ingestPage : IngestPage ι} {world : World}
  {query : EvidenceQuery} {s s' s'' : Session ι} {α : Type}

theorem Still.trans (h : Still query s s') (h' : Still query s' s'') : Still query s s'' where
  store :=
    { results := fun n => (h'.store.results n).trans (h.store.results n)
      cursors := h'.store.cursors.trans h.store.cursors
      bundles := h'.store.bundles.trans h.store.bundles
      evidence := by
        rcases h'.store.evidence with hsame | ⟨hunknown, hempty⟩
        · rcases h.store.evidence with hfirst | ⟨hunknown, hempty⟩
          · exact .inl (hsame.trans hfirst)
          · exact .inr ⟨hunknown, hsame.trans hempty⟩
        · refine .inr ⟨?_, hempty⟩
          by_contra hknown
          exact h.store.known hknown hunknown
      known := fun hknown => h'.store.known (h.store.known hknown)
      completed := h'.store.completed.trans h.store.completed }
  fetched := fun page hpage => h'.fetched page (h.fetched page hpage)
  ingested := fun page hpage => h'.ingested page (h.ingested page hpage)

theorem Quiet.still {t : State} (h : Quiet query.key s.store t) : Still query s { s with store := t } :=
  ⟨h, fun _ hpage => hpage, fun _ hpage => hpage⟩

/-- Ports and failures leave the query as it stands. -/
theorem steady : Steady (Standing query) (Still query : Session ι → Session ι → Prop) where
  trans _ _ _ h h' := h.trans h'
  keeps _ _ h hs := h.standing hs
  ticked _ _ := ⟨.refl _ _, fun _ h => h, fun _ h => h⟩
  failed _ _ _ _ _ _ _ := failQuery_quiet.mono (fun _ _ h => Quiet.still h) fun _ _ h => Quiet.still h

/-- A page that is fetched is remembered. -/
theorem fetch_stays {pageNumber : Int} {cursor : Option String} (hs : Standing query s) :
    Along (FirstSealed vault) (Standing query)
      (fun r s' => Still query s s' ∧ ∀ page, r = .ok page → ⟨pageNumber, cursor, page⟩ ∈ s'.fetched)
      (fetch world pageNumber cursor) s := by
  intro _
  dsimp only
  cases world.fetchPage s.ticks pageNumber cursor with
  | ok page =>
    have hstill : Still query s { s with
        ticks := s.ticks + 1, fetched := s.fetched ++ [⟨pageNumber, cursor, page⟩] } :=
      ⟨.refl _ _, fun _ h => List.mem_append_left _ h, fun _ h => h⟩
    refine ⟨hstill.standing hs, hstill, fun page' hpage => ?_⟩
    rw [← Except.ok.inj hpage]
    exact List.mem_append_right _ List.mem_cons_self
  | error e =>
    have hstill : Still query s { s with ticks := s.ticks + 1 } :=
      ⟨.refl _ _, fun _ h => h, fun _ h => h⟩
    exact ⟨hstill.standing hs, hstill, fun page hpage => by cases hpage⟩

/-- So is what ingestion made of it. -/
theorem ingest_stays {fetched : Fetched} (hs : Standing query s) :
    Along (FirstSealed vault) (Standing query)
      (fun r s' => Still query s s' ∧ ∀ evidence, r = .ok evidence → ⟨fetched, evidence⟩ ∈ s'.ingested)
      (ingestFetched ingestPage query fetched) s := by
  intro _
  dsimp only
  rcases ingestPage query fetched.page.records fetched.pageNumber fetched.page.retrievedAt s.index
    with ⟨r, index⟩
  cases r with
  | ok evidence =>
    have hstill : Still query s { s with index, ingested := s.ingested ++ [⟨fetched, evidence⟩] } :=
      ⟨.refl _ _, fun _ h => h, fun _ h => List.mem_append_left _ h⟩
    refine ⟨hstill.standing hs, hstill, fun evidence' hevidence => ?_⟩
    rw [← Except.ok.inj hevidence]
    exact List.mem_append_right _ List.mem_cons_self
  | error e =>
    have hstill : Still query s { s with index } := ⟨.refl _ _, fun _ h => h, fun _ h => h⟩
    exact ⟨hstill.standing hs, hstill, fun evidence hevidence => by cases hevidence⟩

/-! ### A page -/

/-- The last page of a walk makes it whole. -/
theorem Walk.whole {links : List Ingested} {page : Ingested} {cursor : Option String} {t : State}
    (hs : Walk query links cursor s) (hnumber : page.pageNumber = links.length + 1)
    (hcursor : page.cursor = cursor) (hfetched : page.toFetched ∈ s.fetched) (hingested : page ∈ s.ingested)
    (hstored : PageStored query.key page.pageNumber page.evidence s.store t)
    (hlast : page.page.nextCursor = none) (hkept : t.cursors query.key = none) :
    Whole query (links ++ [page]) { s with store := t } where
  chain := by
    rw [← hlast]
    rcases hs.place with ⟨rfl, hnone, -⟩ | ⟨hchain, hsome, -⟩
    · exact .first (by rw [hnumber]; rfl) (hcursor.trans hnone)
    · obtain ⟨value, rfl⟩ := Option.ne_none_iff_exists'.mp hsome
      exact .next hchain hnumber hcursor
  fetched link hlink := by
    rcases List.mem_append.mp hlink with hlink | hlink
    · exact hs.fetched link hlink
    · rw [List.mem_singleton.mp hlink]
      exact ⟨hfetched, hingested⟩
  results n h1 hn := by
    show t.pageResults (query.key, n) = true
    rw [hstored.results]
    split
    · rfl
    · rename_i hother
      rw [List.length_append, List.length_singleton] at hn
      exact (hs.results n).mpr ⟨by omega, by omega⟩
  cursors := hkept
  known := hstored.known hs.known
  evidence := by
    rw [itemsOf_concat, ← hs.evidence]
    exact hstored.evidence
  bundle b hb := by
    have hnone : t.bundles query.key = none := hstored.bundles.trans hs.bundles
    have hsome : t.bundles query.key = some b := hb
    rw [hnone] at hsome
    cases hsome
  completed hcompleted := absurd (hstored.completed.mp hcompleted) hs.completed

/-- Another page goes on with it. -/
theorem Walk.next {links : List Ingested} {page : Ingested} {cursor : Option String} {t : State}
    {value : String} (hs : Walk query links cursor s) (hnumber : page.pageNumber = links.length + 1)
    (hcursor : page.cursor = cursor) (hfetched : page.toFetched ∈ s.fetched) (hingested : page ∈ s.ingested)
    (hstored : PageStored query.key page.pageNumber page.evidence s.store t)
    (hvalue : page.page.nextCursor = some value) (hkept : t.cursors query.key ≠ none) :
    Walk query (links ++ [page]) (some value) { s with store := t } where
  bundles := hstored.bundles.trans hs.bundles
  completed hno := hs.completed (hstored.completed.mp hno)
  known := hstored.known hs.known
  fetched link hlink := by
    rcases List.mem_append.mp hlink with hlink | hlink
    · exact hs.fetched link hlink
    · rw [List.mem_singleton.mp hlink]
      exact ⟨hfetched, hingested⟩
  results n := by
    show t.pageResults (query.key, n) = true ↔ _
    rw [hstored.results, hnumber, List.length_append, List.length_singleton]
    split
    · rename_i hn
      rw [hn]
      exact ⟨fun _ => by omega, fun _ => rfl⟩
    · rename_i hother
      rw [hs.results n]
      omega
  evidence := by
    rw [itemsOf_concat, ← hs.evidence]
    exact hstored.evidence
  place := by
    refine .inr ⟨?_, Option.some_ne_none value, hkept⟩
    rw [← hvalue]
    rcases hs.place with ⟨rfl, hnone, -⟩ | ⟨hchain, hsome, -⟩
    · exact .first (by rw [hnumber]; rfl) (hcursor.trans hnone)
    · obtain ⟨old, rfl⟩ := Option.ne_none_iff_exists'.mp hsome
      exact .next hchain hnumber hcursor

/-- A refused page leaves the query standing, if the cursor of a first one can be sealed. -/
theorem Walk.refused {links : List Ingested} {page : Ingested} {cursor : Option String} {t : State}
    (hs : Walk query links cursor s) (hnumber : page.pageNumber = links.length + 1)
    (hcursor : page.cursor = cursor) (hfetched : page.toFetched ∈ s.fetched) (hingested : page ∈ s.ingested)
    (hsealed : page.pageNumber = 1 → ∀ value, page.page.nextCursor = some value →
      Sealable vault s.store page.pageNumber value)
    (h : PageRefused vault query.key page.pageNumber page.evidence page.page.nextCursor s.store t) :
    Standing query { s with store := t } := by
  cases h with
  | untouched h =>
    rw [h]
    exact hs.standing
  | kept hstored hkept =>
    cases hnext : page.page.nextCursor with
    | none =>
      rw [hnext] at hkept
      exact .inr (.inr ⟨_, hs.whole hnumber hcursor hfetched hingested hstored hnext hkept⟩)
    | some value =>
      rw [hnext] at hkept
      obtain ⟨c, sealedValue, nonce, hstoredCursor, -⟩ := hkept
      refine (hs.next hnumber hcursor hfetched hingested hstored hnext ?_).standing
      rw [hstoredCursor]
      exact Option.some_ne_none _
  | unsealed hstored hsame value hvalue hno =>
    rcases hs.place with ⟨rfl, -, -⟩ | ⟨-, -, hsome⟩
    · -- the first page: its cursor was not refused
      exact absurd (hsealed hnumber value hvalue) hno
    · refine (hs.next hnumber hcursor hfetched hingested hstored hvalue ?_).standing
      rw [hsame]
      exact hsome

/-- What a loop over pages ends in. -/
abbrev Looped (query : EvidenceQuery) (r : Except Error Unit) (s : Session ι) : Prop :=
  Standing query s ∧ ∀ a, r = .ok a → ∃ links, Whole query links s

theorem raised {e : Error} (hs : Standing query s) : Looped query (.error e) s :=
  ⟨hs, fun _ hno => by cases hno⟩

/-- **The loop over the pages** ends with all of them, or raises. -/
theorem pages_looped (hfaithful : vault.Faithful) (remaining : Nat) :
    ∀ (pageNumber : Int) (cursor cursorRef : Option String) (totalRecords totalBytes : Nat)
      (s : Session ι), Next query pageNumber cursor s →
      Along (FirstSealed vault) (Standing query) (Looped query)
        (pages sha vault ingestPage world query remaining pageNumber cursor cursorRef totalRecords
          totalBytes) s := by
  induction remaining with
  | zero => exact fun _ _ _ _ _ s hs => raised hs.standing
  | succ remaining ih =>
    intro pageNumber cursor cursorRef totalRecords totalBytes s hs
    refine (steady.requireCurrent hs.standing).bind (fun _ _ h => raised (h.standing hs.standing))
      fun _ s1 h1 => ?_
    have hs1 := h1.next hs
    refine (steady.ask hs1.standing).bind (fun _ _ h => raised (h.standing hs1.standing))
      fun cancelled s2 h2 => ?_
    have hs2 := h2.next hs1
    split
    · refine (steady.fail hs2.standing).bind (fun _ _ h => raised (h.standing hs2.standing))
        fun _ s3 h3 => ?_
      exact raised (h3.standing hs2.standing)
    · refine (steady.ask hs2.standing).bind (fun _ _ h => raised (h.standing hs2.standing))
        fun occurredAt s3 h3 => ?_
      have hs3 := h3.next hs2
      refine Along.bind (Q := fun r s' => Still query s3 s' ∧ ∀ start, r = .ok start →
        (start = .completed ↔ s3.store.pageResults (query.key, pageNumber) = true)) ?_
        (fun _ _ h => raised (h.1.standing hs3.standing)) ?_
      · refine along_stored (fun _ => beginPage_quiet) (fun start t h => ?_) fun _ t h => ?_
        · refine ⟨(Quiet.still h.1).standing hs3.standing, Quiet.still h.1, fun start' hstart => ?_⟩
          rw [← Except.ok.inj hstart]
          exact h.2
        · exact ⟨(Quiet.still h).standing hs3.standing, Quiet.still h, fun _ hno => by cases hno⟩
      · rintro start s4 ⟨h4, hstart⟩
        have hs4 := h4.next hs3
        have hstart4 := hstart start rfl
        rw [← h4.store.results] at hstart4
        cases start with
        | completed =>
          -- only an earlier collection has completed this page, and it is the first one
          have hdone := hstart4.mp rfl
          have hbefore : Halfway query.key s4.store ∨ ∃ links, Whole query links s4 := by
            rcases hs4 with ⟨links, hwalk, rfl⟩ | ⟨-, h⟩
            · have hn := (hwalk.results _).mp hdone
              omega
            · exact h
          have hlook : Sat (do let s ← Exec.read; pure (s.cursors query.key).isSome : Store Bool) s4.store
              (fun b t => t = s4.store ∧ b = (s4.store.cursors query.key).isSome)
              (fun _ _ => False) := ⟨rfl, rfl⟩
          refine Along.bind (Q := fun r s' => s' = s4 ∧ ∀ b, r = .ok b →
            b = (s4.store.cursors query.key).isSome) ?_ (fun _ _ h => raised (h.1 ▸ hs4.standing)) ?_
          · refine along_look hlook (fun b t h => ?_) fun _ _ hno => hno.elim
            obtain ⟨rfl, rfl⟩ := h
            exact ⟨hs4.standing, rfl, fun b' hb => (Except.ok.inj hb).symm⟩
          · rintro current s5 ⟨rfl, hcurrent⟩
            have hcurrent' := hcurrent current rfl
            show Looped query (if current = false then .ok () else .error _) s5
            split
            · rename_i hnone
              refine ⟨hs4.standing, fun _ _ => ?_⟩
              rcases hbefore with h | h
              · rw [hnone] at hcurrent'
                exact absurd (Option.isSome_eq_false_iff.mp hcurrent'.symm)
                  (by simpa using h.cursors)
              · exact h
            · exact raised hs4.standing
        | started =>
          have hwalk : ∃ links, Walk query links cursor s4 ∧ pageNumber = links.length + 1 := by
            rcases hs4 with h | ⟨rfl, h | ⟨links, h⟩⟩
            · exact h
            · exact absurd (hstart4.mpr h.results) PageStart.noConfusion
            · have hlength := List.length_pos_of_ne_nil h.chain.ne_nil
              exact absurd (hstart4.mpr (h.results 1 le_rfl hlength)) PageStart.noConfusion
          obtain ⟨links, hwalk4, hnumber⟩ := hwalk
          refine (fetch_stays hwalk4.standing).bind (fun _ _ h => raised (h.1.standing hwalk4.standing)) ?_
          rintro page s5 ⟨h5, hfetched⟩
          have hwalk5 := h5.walk hwalk4
          have hfetched5 := hfetched page rfl
          refine (steady.requireCurrent hwalk5.standing).bind
            (fun _ _ h => raised (h.standing hwalk5.standing)) fun _ s6 h6 => ?_
          have hwalk6 := h6.walk hwalk5
          refine Along.check (fun _ => raised hwalk6.standing) fun _ => ?_
          refine (ingest_stays hwalk6.standing).bind (fun _ _ h => raised (h.1.standing hwalk6.standing)) ?_
          rintro evidence s7 ⟨h7, hingested⟩
          refine (steady.ask (h7.standing hwalk6.standing)).bind
            (fun _ _ h => raised (h.standing (h7.standing hwalk6.standing))) fun now s8 h8 => ?_
          have hwalk8 := h8.walk (h7.walk hwalk6)
          let link : Ingested := ⟨⟨pageNumber, cursor, page⟩, evidence⟩
          have hlinkNumber : link.pageNumber = links.length + 1 := hnumber
          have hlinkFetched : link.toFetched ∈ s8.fetched :=
            h8.fetched _ (h7.fetched _ (h6.fetched _ hfetched5))
          have hlinkIngested : link ∈ s8.ingested := h8.ingested _ (hingested evidence rfl)
          have hfresh : s8.store.pageResults (query.key, pageNumber) = false := by
            by_contra hno
            have hn := (hwalk8.results _).mp (Bool.not_eq_false _ ▸ hno)
            omega
          -- the page is completed: the walk goes on with it, or ends
          refine Along.bind (Q := fun r s' => Standing query s' ∧ ∀ a, r = .ok a → ∃ t,
            s' = { s8 with store := t } ∧
            PageStored query.key pageNumber evidence s8.store t ∧
            CursorKept vault query.key page.nextCursor t) ?_ (fun _ _ h => raised h.1) ?_
          · intro hC
            have hsealed : link.pageNumber = 1 → ∀ value, link.page.nextCursor = some value →
                Sealable vault s8.store link.pageNumber value := hC
            refine along_stored (fun _ => completePage_stored hfresh) (fun a t h => ?_) (fun e t h => ?_) hC
            · have hkept : CursorKept vault query.key page.nextCursor t := h.2
              refine ⟨?_, ?_, fun _ _ => ⟨t, rfl, h⟩⟩
              · exact hwalk8.refused hlinkNumber rfl hlinkFetched hlinkIngested hsealed (.kept h.1 h.2)
              · exact hwalk8.refused hlinkNumber rfl hlinkFetched hlinkIngested hsealed (.kept h.1 h.2)
            · have hstanding := hwalk8.refused hlinkNumber rfl hlinkFetched hlinkIngested hsealed h
              exact ⟨hstanding, hstanding, fun _ hno => by cases hno⟩
          · rintro storedCursor s9 ⟨hs9, hstored⟩
            obtain ⟨t, rfl, hpage, hkept⟩ := hstored storedCursor rfl
            cases hnext : page.nextCursor with
            | none =>
              rw [hnext] at hkept
              exact ⟨hs9, fun _ _ => ⟨_, hwalk8.whole hlinkNumber rfl hlinkFetched hlinkIngested
                hpage hnext hkept⟩⟩
            | some value =>
              rw [hnext] at hkept
              have hsome : t.cursors query.key ≠ none := by
                obtain ⟨c, sealedValue, nonce, hcursor, -⟩ := hkept
                rw [hcursor]
                exact Option.some_ne_none _
              have hwalk9 := hwalk8.next hlinkNumber rfl hlinkFetched hlinkIngested hpage hnext
                hsome
              cases storedCursor with
              | none => exact raised hs9
              | some c =>
                refine (steady.ask hs9).bind (fun _ _ h => raised (h.standing hs9)) fun now s10 h10 => ?_
                have hwalk10 := h10.walk hwalk9
                have hkept10 : CursorKept vault query.key (some value) s10.store := by
                  obtain ⟨c', sealedValue, nonce, hcursor, hseal⟩ := hkept
                  exact ⟨c', sealedValue, nonce, h10.store.cursors.trans hcursor, hseal⟩
                refine Along.bind (Q := fun r s' => s' = s10 ∧ ∀ a, r = .ok a → a = value) ?_
                  (fun _ _ h => raised (h.1 ▸ hwalk10.standing)) ?_
                · refine along_look (cursorValue_opened hfaithful hkept10) (fun a t h => ?_) fun e t h => ?_
                  · obtain ⟨rfl, rfl⟩ := h
                    exact ⟨hwalk10.standing, rfl, fun _ ha => (Except.ok.inj ha).symm⟩
                  · subst h
                    exact ⟨hwalk10.standing, rfl, fun _ hno => by cases hno⟩
                · rintro value' s11 ⟨rfl, hvalue⟩
                  rw [hvalue value' rfl]
                  refine ih _ _ _ _ _ _ (.inl ⟨_, hwalk10, ?_⟩)
                  rw [List.length_append, List.length_singleton, hnumber]
                  push_cast
                  rfl

/-- The handler of the loop raises again. -/
theorem pagesFailed_looped {e : Error} (hs : Standing query s) :
    Along (FirstSealed vault) (Standing query) (Looped query) (pagesFailed sha world query e) s := by
  have hfail : ∀ {code operationId : String} {status : QueryStatus} {t : Session ι}, Standing query t →
      Along (FirstSealed vault) (Standing query) (Looped query)
        (fail sha world query code status operationId >>= fun _ => Steps.raise e) t := by
    intro code operationId status t ht
    exact (steady.fail ht).bind (fun _ _ h => raised (h.standing ht)) fun _ _ h => raised (h.standing ht)
  unfold pagesFailed
  split
  · exact hfail hs
  · split
    · have hlook : Sat (do let s ← Exec.read; pure (s.views query.key) : Store (Option EvidenceQueryView))
          s.store (fun _ t => t = s.store) (fun _ _ => False) := rfl
      refine Along.bind (Q := fun _ s' => s' = s) ?_ (fun _ _ h => raised (h ▸ hs)) ?_
      · exact along_look hlook (fun _ t h => by rw [h]; exact ⟨hs, rfl⟩) fun _ _ hno => hno.elim
      · rintro view s1 rfl
        split
        · exact raised hs
        · exact hfail hs
    · exact raised hs

/-- The evidence of a bundle that is built. -/
theorem buildBundle_evidence {bundleId tenantId incidentId runId queryId : Identifier}
    {evidence : List NormalizedEvidence} {createdAt : Datetime} {bundle : EvidenceBundle}
    (h : buildBundle sha bundleId tenantId incidentId runId queryId evidence createdAt = .ok bundle) :
    bundle.evidence = byEvidenceId evidence := by
  unfold buildBundle at h
  dsimp only at h
  split at h
  · cases h
  · split at h
    · cases h
    · rw [← Except.ok.inj h]

/-- The bundle of a whole query has its items. -/
theorem Bundled.whole {links : List Ingested} {bundle : EvidenceBundle} {t : State}
    (h : Bundled query.key bundle s.store t) (hs : Whole query links s)
    (hbundle : bundle.evidence = byEvidenceId (itemsOf links)) : Whole query links { s with store := t } where
  chain := hs.chain
  fetched := hs.fetched
  results n h1 hn := (h.results n).trans (hs.results n h1 hn)
  cursors := h.cursors hs.cursors
  known := by
    show t.queries query.key ≠ none
    rw [h.known]
    exact hs.known
  evidence := h.evidence.trans hs.evidence
  bundle b hb := by
    rcases h.bundle b hb with hold | rfl
    · exact hs.bundle b hold
    · exact hbundle
  completed hcompleted := by
    rcases h.completed hcompleted with hold | hnew
    · exact h.kept (hs.completed hold)
    · exact hnew

/-- **A collection keeps its query standing**, wherever it stops. -/
theorem collect_standing (hfaithful : vault.Faithful) (hs : Standing query s) :
    Along (FirstSealed vault) (Standing query) (fun _ s' => Standing query s')
      (collect sha vault ingestPage world query) s := by
  unfold collect
  refine Along.bind (Q := fun r s' => Standing query s' ∧ ∀ a, r = .ok a →
    s'.store.queries query.key ≠ none) ?_ (fun _ _ h => h.1) ?_
  · refine along_stored (fun _ => request_quiet) (fun a t h => ?_) fun e t h => ?_
    · exact ⟨(Quiet.still h.1).standing hs, (Quiet.still h.1).standing hs, fun _ _ => h.2⟩
    · exact ⟨(Quiet.still h).standing hs, (Quiet.still h).standing hs, fun _ hno => by cases hno⟩
  rintro view s1 ⟨hs1, hknown⟩
  split
  · have hlook : Sat (do let s ← Exec.read; pure (s.bundles query.key) : Store (Option EvidenceBundle))
        s1.store (fun _ t => t = s1.store) (fun _ _ => False) := rfl
    refine Along.bind (Q := fun _ s' => s' = s1) ?_ (fun _ _ h => h ▸ hs1) ?_
    · exact along_look hlook (fun _ t h => by rw [h]; exact ⟨hs1, rfl⟩) fun _ _ hno => hno.elim
    · rintro existing s2 rfl
      cases existing with
      | none => exact hs1
      | some existing => exact hs1
  · refine Along.bind (Q := Looped query) ?_ (fun _ _ h => h.1) ?_
    · refine (pages_looped hfaithful _ _ _ _ _ _ _ (hs1.first (hknown view rfl))).catching
        (fun _ _ h => h) fun e s2 h => ?_
      exact pagesFailed_looped h.1
    rintro _ s2 ⟨hs2, hwhole⟩
    obtain ⟨links, hwhole⟩ := hwhole _ rfl
    have hlook : Sat (do let s ← Exec.read; pure (storedEvidence s query.key) :
        Store (List NormalizedEvidence)) s2.store
        (fun a t => t = s2.store ∧ a = byEvidenceId (itemsOf links)) (fun _ _ => False) := by
      refine ⟨rfl, ?_⟩
      show byEvidenceId (s2.store.evidence query.key) = _
      rw [hwhole.evidence]
    refine Along.bind (Q := fun r s' => s' = s2 ∧ ∀ a, r = .ok a → a = byEvidenceId (itemsOf links)) ?_
      (fun _ _ h => h.1 ▸ hs2) ?_
    · refine along_look hlook (fun a t h => ?_) fun _ _ hno => hno.elim
      rw [h.1]
      exact ⟨hs2, rfl, fun _ ha => (Except.ok.inj ha).symm.trans h.2⟩
    rintro allEvidence s3 ⟨rfl, hevidence⟩
    refine (steady.ask hs2).bind (fun _ _ h => h.standing hs2) fun createdAt s4 h4 => ?_
    have hwhole4 := h4.whole hwhole
    refine Along.attempt (fun _ _ => .inr (.inr ⟨links, hwhole4⟩)) fun bundle hbuild => ?_
    have hbundle : bundle.evidence = byEvidenceId (itemsOf links) := by
      rw [buildBundle_evidence hbuild, hevidence allEvidence rfl, byEvidenceId_twice]
    refine Along.bind (Q := fun _ s' => Standing query s') ?_ (fun _ _ h => h) fun _ _ h => h
    have hend : ∀ t, Bundled query.key bundle s4.store t → Standing query { s4 with store := t } :=
      fun t h => .inr (.inr ⟨links, h.whole hwhole4 hbundle⟩)
    exact along_stored (fun _ => completeQuery_bundled) (fun _ t h => ⟨hend t h, hend t h⟩)
      fun _ t h => ⟨hend t h, hend t h⟩

end Steps

/-! ## Every run of collections -/

/-! ## An empty cursor -/

def samplePage (nextCursor : Option String) (h : nextCursor = none ∨ nextCursor = some "") :
    ConnectorPage where
  queryId := ident "q"
  sourceId := ident "s"
  pageNumber := 1
  records := []
  nextCursor
  responseBytes := 0
  rateLimitRemaining := none
  retrievedAt := ⟨1, 0⟩
  cursor_ok := by
    intro cursor hcursor
    rcases h with rfl | rfl
    · cases hcursor
    · rw [← Option.some.inj hcursor]
      decide
  bytes_ok := by decide

/-- A world without faults, whose connector has one page. -/
def sampleWorld (page : ConnectorPage) : World where
  currentSource _ := .ok (some sampleSource)
  cancelled _ := .ok false
  clock n := ⟨n, 0⟩
  storeClock n := ⟨n, 0⟩
  fetchPage _ _ _ := .ok page

/-- Ingestion of pages without records. -/
def noItems : IngestPage Unit := fun _ _ _ _ => pure []

def sampleCollections (page : ConnectorPage) (n : Nat) : List Collection :=
  List.replicate n ⟨sampleQuery, sampleWorld page, 100⟩

end Evidence

end Aegis
