/-
  EVIDENCE CALLS THAT FAIL.

  Four of the five operations write first and append afterwards, and nothing takes the writes back when the
  event is refused.  `Unfailing` says of a call, by the state it starts in, that its append is not refused
  -- or is not reached.

  So a call is atomic exactly when it is unfailing (`atomic_iff`).  A bundle belongs to a completed query as
  long as every call is.
-/
import Mathlib
import Aegis.Evidence.Ledger

namespace Aegis

namespace Evidence

open Exec (Sat)

/-! ## What a failed call may leave -/

/-- The eight maps of the store are those of before. -/
structure Unchanged (s s' : State) : Prop where
  queries : s'.queries = s.queries
  events : s'.events = s.events
  views : s'.views = s.views
  pageIntents : s'.pageIntents = s.pageIntents
  pageResults : s'.pageResults = s.pageResults
  evidence : s'.evidence = s.evidence
  cursors : s'.cursors = s.cursors
  bundles : s'.bundles = s.bundles

theorem Unchanged.refl (s : State) : Unchanged s s := ⟨rfl, rfl, rfl, rfl, rfl, rfl, rfl, rfl⟩

/-- A call that raises changes nothing. -/
def Atomic (e : Machine.Entry State StoreOp (Except Error Returned)) : Prop :=
  ∀ error, e.result = .error error → Unchanged e.before e.after

/-- An event is taken: it is recorded, or its query is open, or it is an operation of its own name. -/
def Admits (sha : Sha256) (s : State) (key : Key) (eventType operationId : String) : Prop :=
  recorded (s.events key) operationId eventType = true ∨
    isIdentifier operationId = true ∧ ∃ view, s.views key = some view ∧
      (view.status ∈ terminal → operationId = eventIdAt sha s key eventType)

/-- A cursor can be built and sealed. -/
def Sealable (vault : CursorVault) (s : State) (pageNumber : Int) (value : String) : Prop :=
  (1 ≤ pageNumber ∧ pageNumber ≤ 100) ∧ (1 ≤ value.toList.length ∧ value.toList.length ≤ 4096) ∧
    (vault.nonce s.nonces).length = 12

/-- The calls that do not raise after they have written. -/
def Unfailing (sha : Sha256) (vault : CursorVault) (s : State) : StoreOp → Prop
  | .request query operationId => s.queries query.key = none → isIdentifier operationId = true
  | .beginPage key pageNumber operationId _ _ =>
    s.pageResults (key, pageNumber) = true ∨ s.pageIntents (key, pageNumber) ≠ none ∨
      Admits sha s key "evidence.page.requested" operationId
  | .completePage query pageNumber operationId _ nextCursor _ =>
    s.pageResults (query.key, pageNumber) = true ∨
      s.pageIntents (query.key, pageNumber) ≠ some operationId ∨
      (∀ value, nextCursor = some value → Sealable vault s pageNumber value) ∧
        Admits sha s query.key "evidence.page.completed" operationId
  | .completeQuery query operationId _ _ =>
    s.bundles query.key ≠ none ∨ Admits sha s query.key "evidence.query.completed" operationId
  | .failQuery .. => True
  | .rebuild _ => True

/-! ## Events that are taken -/

/-- Views belong to keys of identifiers, and events are a book. -/
structure Sound (sha : Sha256) (s : State) : Prop where
  booked : Booked sha s
  named : ∀ key view, s.views key = some view → isIdentifier key.1 = true ∧ isIdentifier key.2 = true

theorem SameLedger.sound {sha : Sha256} {s s' : State} (h : SameLedger s s') (hs : Sound sha s) :
    Sound sha s' := by
  refine ⟨h.booked hs.booked, ?_⟩
  rw [h.views]
  exact hs.named

theorem Records.sound {sha : Sha256} {s : State} {key : Key} {eventType operationId : String}
    {payload : Fields} {event : EvidenceApplicationEvent} {view : EvidenceQueryView}
    (h : Records sha s key eventType operationId payload event view) (hs : Sound sha s) :
    Sound sha (s.record key event view) := by
  refine ⟨h.booked hs.booked, fun key' view' hview => ?_⟩
  by_cases hkey : key' = key
  · rw [hkey]
    exact ⟨h.named.1, h.named.2.1⟩
  · have hold : Function.update s.views key (some view) key' = some view' := hview
    rw [Function.update_of_ne hkey] at hold
    exact hs.named key' view' hold

/-- Events of this type and payload are taken by every open query, and never first. -/
structure Moving (eventType : String) (payload : Fields) : Prop where
  named : isIdentifier eventType = true
  small : payload.entries.length ≤ 32
  later : eventType ≠ "evidence.query.requested"
  taken : ∀ (view : EvidenceQueryView) (event : EvidenceApplicationEvent) (query : EvidenceQuery),
    view.status ∉ terminal → event.eventType.val = eventType → event.payload = payload.sorted →
    ∃ view', reduceView (some view) event query = .ok view'

theorem parse_identifier {place text : String} (h : isIdentifier text = true) :
    Identifier.parse place text = .ok ⟨text, h⟩ := by
  unfold Identifier.parse
  rw [dif_pos h]

theorem buildEvent_named {sha : Sha256} {key : Key} {events : List EvidenceApplicationEvent}
    {eventType operationId : String} {occurredAt : Datetime} {payload : Fields}
    (hkey : isIdentifier key.1 = true ∧ isIdentifier key.2 = true) (htype : isIdentifier eventType = true)
    (hoperation : isIdentifier operationId = true) (hsmall : payload.entries.length ≤ 32) :
    ∃ event, buildEvent sha key events eventType operationId occurredAt payload = .ok event := by
  unfold buildEvent
  rw [parse_identifier hkey.1, parse_identifier hkey.2, parse_identifier htype, parse_identifier hoperation]
  dsimp only [bind, Except.bind]
  rw [if_neg (Nat.not_lt.mpr hsmall)]
  exact ⟨_, rfl⟩

/-- **An event is appended exactly when it is taken.** -/
theorem appended_iff {sha : Sha256} {s : State} (hs : Sound sha s) {key : Key}
    {eventType operationId : String} {occurredAt : Datetime} {payload : Fields}
    (hmoving : Moving eventType payload) :
    (∃ r, appended sha s key eventType operationId occurredAt payload = .ok r) ↔
      Admits sha s key eventType operationId := by
  constructor
  · rintro ⟨⟨view, event⟩, h⟩
    rcases appended_ok h with ⟨-, hrecorded, -⟩ | ⟨e, -, hrecords⟩
    · exact .inl hrecorded
    · refine .inr ⟨hrecords.named.2.2, ?_⟩
      obtain ⟨query, -, hreduced⟩ := hrecords.reduced
      cases hview : s.views key with
      | none =>
        -- only a request comes first
        rw [hview] at hreduced
        have hfolded := reduceView_folded hreduced
        cases hfolded with
        | requested htype => exact absurd (hrecords.type.symm.trans htype) hmoving.later
      | some old =>
        refine ⟨old, rfl, fun hterminal => ?_⟩
        rw [hview] at hreduced
        have hfolded := reduceView_folded hreduced
        cases hfolded with
        | repeated _ hsame => rw [← hrecords.operation, hsame, hrecords.eventId]
        | counted hlive => exact absurd hterminal hlive
        | moved hlive => exact absurd hterminal hlive
  · rintro (hrecorded | ⟨hoperation, view, hview, hown⟩)
    · have hevents : s.events key ≠ [] := by
        intro hnil
        rw [hnil] at hrecorded
        cases hrecorded
      obtain ⟨view, hview⟩ := Option.ne_none_iff_exists'.mp (mt hs.booked.unviewed.mpr hevents)
      refine ⟨(view, none), ?_⟩
      unfold appended viewOf
      rw [if_pos hrecorded, hview]
      rfl
    · by_cases hrecorded : recorded (s.events key) operationId eventType = true
      · refine ⟨(view, none), ?_⟩
        unfold appended viewOf
        rw [if_pos hrecorded, hview]
        rfl
      · obtain ⟨event, hbuild⟩ := @buildEvent_named sha key (s.events key) eventType operationId occurredAt
          payload (hs.named key view hview) hmoving.named hoperation hmoving.small
        obtain ⟨-, -, -, htype, hoperation', hpayload, hid, -⟩ := buildEvent_ok hbuild
        have hevents : s.events key ≠ [] := by
          rw [Ne, hs.booked.unviewed, hview]
          exact Option.some_ne_none view
        obtain ⟨query, hquery⟩ := Option.ne_none_iff_exists'.mp (hs.booked.known key hevents)
        have hreduced : ∃ view', reduceView (some view) event query = .ok view' := by
          by_cases hterminal : view.status ∈ terminal
          · refine ⟨view, ?_⟩
            unfold reduceView
            dsimp only
            rw [if_pos hterminal, if_pos (hoperation'.trans ((hown hterminal).trans hid.symm))]
          · exact hmoving.taken view event query hterminal htype hpayload
        obtain ⟨view', hview'⟩ := hreduced
        refine ⟨(view', some event), ?_⟩
        unfold appended queryOf
        rw [if_neg hrecorded, hbuild, hquery, hview]
        show (reduceView (some view) event query >>= fun view => pure (view, some event)) = _
        rw [hview']
        rfl

/-- An append returns exactly when its event is taken, and otherwise leaves the store alone. -/
theorem append_judged {sha : Sha256} {s : State} (hs : Sound sha s) {key : Key}
    {eventType operationId : String} {occurredAt : Datetime} {payload : Fields}
    (hmoving : Moving eventType payload) :
    Sat (append sha key eventType operationId occurredAt payload) s
      (fun _ s' => Admits sha s key eventType operationId ∧ Sound sha s')
      (fun _ s' => ¬Admits sha s key eventType operationId ∧ s' = s) := by
  unfold append
  rw [Exec.sat_bind, Exec.sat_read]
  refine Sat.attempt (fun e he => ⟨fun hadmits => ?_, rfl⟩) ?_
  · obtain ⟨r, hr⟩ := (@appended_iff sha s hs key eventType operationId occurredAt payload hmoving).mpr hadmits
    rw [hr] at he
    cases he
  · rintro ⟨view, event⟩ h
    have hadmits := (appended_iff hs hmoving).mp ⟨_, h⟩
    rcases appended_ok h with ⟨rfl, -, -⟩ | ⟨e, rfl, hrecords⟩
    · exact ⟨hadmits, hs⟩
    · exact ⟨hadmits, hrecords.sound hs⟩

/-! ## The events of pages and of completion -/

theorem length_insert_le (d : Fields) (name : String) (value : Json) :
    (d.insert name value).entries.length ≤ d.entries.length + 1 := by
  rw [AList.entries_insert, List.length_cons]
  exact Nat.succ_le_succ (List.kerase_sublist name d.entries).length_le

theorem length_of_le (items : List (String × Json)) : (Fields.of items).entries.length ≤ items.length := by
  have hfold : ∀ (items : List (String × Json)) (d : Fields),
      (items.foldl (fun d i => d.insert i.1 i.2) d).entries.length ≤ d.entries.length + items.length := by
    intro items
    induction items with
    | nil => intro d; exact Nat.le_refl _
    | cons item items ih =>
      intro d
      have hrest := ih (d.insert item.1 item.2)
      have hfirst := length_insert_le d item.1 item.2
      rw [List.foldl_cons, List.length_cons]
      omega
  have h := hfold items ∅
  rwa [show (∅ : Fields).entries.length = 0 from rfl, Nat.zero_add] at h

theorem moving_requested (cursorRef : Option String) (pageNumber : Int) :
    Moving "evidence.page.requested" (beginPayload cursorRef pageNumber) := by
  refine ⟨by decide, (length_of_le _).trans (by simp), by decide, fun view event query hlive htype _ => ?_⟩
  unfold reduceView
  dsimp only
  rw [if_neg hlive, if_pos htype]
  exact ⟨_, rfl⟩

/-- A count of a completed page. -/
theorem payloadInt_page {evidence : List NormalizedEvidence} {present : Bool} {pageNumber : Int}
    {name : String} {n : Nat}
    (h : (pagePayload evidence present pageNumber).lookup name = some (jsonInt n)) :
    payloadInt (pagePayload evidence present pageNumber).sorted name = .ok n := by
  unfold payloadInt
  rw [Fields.lookup_sorted, h]
  rfl

theorem moving_page (evidence : List NormalizedEvidence) (present : Bool) (pageNumber : Int) :
    Moving "evidence.page.completed" (pagePayload evidence present pageNumber) := by
  refine ⟨by decide, (length_of_le _).trans (by simp), by decide,
    fun view event query hlive htype hpayload => ?_⟩
  have hrecords := @payloadInt_page evidence present pageNumber "record_count" evidence.length
    (by simp [pagePayload, Fields.of, -AList.insert_empty])
  have haccepted := @payloadInt_page evidence present pageNumber "accepted_count" (acceptedCount evidence)
    (by simp [pagePayload, Fields.of, -AList.insert_empty])
  have hquarantined := @payloadInt_page evidence present pageNumber "quarantined_count"
    (quarantinedCount evidence) (by simp [pagePayload, Fields.of, -AList.insert_empty])
  unfold reduceView
  dsimp only
  rw [if_neg hlive, htype, if_neg (by decide), if_pos rfl, hpayload, hrecords, haccepted, hquarantined]
  exact ⟨_, rfl⟩

theorem moving_completed (bundle : EvidenceBundle) :
    Moving "evidence.query.completed" (completePayload bundle) := by
  refine ⟨by decide, (length_of_le _).trans (by simp), by decide, fun view event query hlive htype _ => ?_⟩
  unfold reduceView
  dsimp only
  rw [if_neg hlive, htype, if_neg (by decide), if_neg (by decide), if_pos rfl]
  exact ⟨_, rfl⟩

/-! ## Every call -/

section Calls

variable {sha : Sha256} {vault : CursorVault} {s : State}

/-- The rest of a call that started in `s`: if it returns, the call is unfailing, and if it raises, nothing
    has changed exactly when it is. -/
abbrev Judged {α : Type} (sha : Sha256) (s : State) (x : Store α) (t : State) (unfailing : Prop) : Prop :=
  Sat x t (fun _ s' => unfailing ∧ Sound sha s')
    (fun _ s' => (Unchanged s s' ↔ unfailing) ∧ Sound sha s')

/-- A call that stops before it writes. -/
theorem judged_early {unfailing : Prop} (h : unfailing) (hs : Sound sha s) :
    (Unchanged s s ↔ unfailing) ∧ Sound sha s := ⟨⟨fun _ => h, fun _ => .refl s⟩, hs⟩

theorem viewOf_judged {key : Key} {unfailing : Prop} (h : unfailing) (hs : Sound sha s) :
    Judged sha s (Exec.lift (viewOf s key)) s unfailing := by
  rw [Judged, Exec.sat_lift]
  exact ⟨fun _ _ => ⟨h, hs⟩, fun _ _ => judged_early h hs⟩

/-- Writes and then an append: when that is refused, the writes stay. -/
theorem judged_append {t : State} {key : Key} {eventType operationId : String} {occurredAt : Datetime}
    {payload : Fields} {unfailing : Prop} (hmoving : Moving eventType payload) (hsame : SameLedger s t)
    (hwrites : ¬Unchanged s t) (h : Admits sha s key eventType operationId ↔ unfailing) (hs : Sound sha s) :
    Judged sha s (append sha key eventType operationId occurredAt payload) t unfailing := by
  have hadmits : Admits sha t key eventType operationId ↔ unfailing := by
    rw [← h]
    unfold Admits eventIdAt
    rw [hsame.events, hsame.views]
  refine (append_judged (hsame.sound hs) hmoving).mono ?_ ?_
  · rintro _ s' ⟨hadmitted, hs'⟩
    exact ⟨hadmits.mp hadmitted, hs'⟩
  · rintro _ s' ⟨hrefused, rfl⟩
    exact ⟨⟨fun hno => absurd hno hwrites, fun hno => absurd (hadmits.mpr hno) hrefused⟩, hsame.sound hs⟩

theorem beginPage_judged {key : Key} {pageNumber : Int} {operationId : String} {cursorRef : Option String}
    {occurredAt : Datetime} (hs : Sound sha s) :
    Judged sha s (beginPage sha key pageNumber operationId cursorRef occurredAt) s
      (Unfailing sha vault s (.beginPage key pageNumber operationId cursorRef occurredAt)) := by
  unfold Judged beginPage
  rw [Exec.sat_bind, Exec.sat_read]
  split
  · rename_i hresult
    exact ⟨.inl hresult, hs⟩
  · rename_i hresult
    refine Sat.check (fun hintent => judged_early (.inr (.inl hintent)) hs) fun hintent => ?_
    rw [Exec.sat_bind, Exec.sat_modify]
    refine Sat.call (judged_append (s := s) (moving_requested cursorRef pageNumber) ⟨rfl, rfl, rfl⟩ ?_ ?_ hs)
      (fun _ _ h => h) fun _ _ h => h
    · intro hno
      have hkept := congrFun hno.pageIntents (key, pageNumber)
      dsimp only at hkept
      rw [Function.update_self, hintent] at hkept
      cases hkept
    · exact ⟨fun h => .inr (.inr h), fun h => (h.resolve_left hresult).resolve_left (not_not.mpr hintent)⟩

/-- A cursor is kept exactly when it can be sealed. -/
theorem keepCursor_judged {query : EvidenceQuery} {pageNumber : Int} {nextCursor : Option String}
    {occurredAt : Datetime} : Sat (keepCursor sha vault query pageNumber nextCursor occurredAt) s
      (fun _ s' => (∀ value, nextCursor = some value → Sealable vault s pageNumber value) ∧
        SameLedger s s' ∧ s'.pageResults = s.pageResults ∧ s'.bundles = s.bundles)
      (fun _ s' => (¬∀ value, nextCursor = some value → Sealable vault s pageNumber value) ∧
        SameLedger s s' ∧ s'.pageResults = s.pageResults) := by
  unfold keepCursor
  cases nextCursor with
  | none => exact ⟨fun _ hno => (by cases hno), ⟨rfl, rfl, rfl⟩, rfl, rfl⟩
  | some value =>
    refine Sat.attempt (fun _ herror => ⟨fun hall => ?_, .refl s, rfl⟩) fun cursor hcursor => ?_
    · unfold buildCursor at herror
      rw [dif_pos (hall value rfl).1] at herror
      cases herror
    · have hpage : 1 ≤ pageNumber ∧ pageNumber ≤ 100 := by
        unfold buildCursor at hcursor
        split at hcursor
        · assumption
        · cases hcursor
      rw [Exec.sat_bind, Exec.sat_read, Exec.sat_bind, Exec.sat_modify]
      refine Sat.attempt (fun _ herror => ⟨fun hall => ?_, ⟨rfl, rfl, rfl⟩, rfl⟩) fun sealedValue hseal => ?_
      · obtain ⟨-, hlength, hnonce⟩ := hall value rfl
        unfold CursorVault.seal at herror
        rw [if_neg (by omega), if_neg (not_not.mpr hnonce)] at herror
        cases herror
      · refine ⟨fun value' hvalue => ?_, ⟨rfl, rfl, rfl⟩, rfl, rfl⟩
        obtain rfl := Option.some.inj hvalue
        unfold CursorVault.seal at hseal
        split at hseal
        · cases hseal
        · rename_i hlength
          split at hseal
          · cases hseal
          · rename_i hnonce
            exact ⟨hpage, by omega, not_not.mp hnonce⟩

theorem completePage_judged {query : EvidenceQuery} {pageNumber : Int} {operationId : String}
    {evidence : List NormalizedEvidence} {nextCursor : Option String} {occurredAt : Datetime}
    (hs : Sound sha s) :
    Judged sha s (completePage sha vault query pageNumber operationId evidence nextCursor occurredAt) s
      (Unfailing sha vault s (.completePage query pageNumber operationId evidence nextCursor occurredAt)) := by
  unfold Judged completePage
  rw [Exec.sat_bind, Exec.sat_read]
  split
  · rename_i hresult
    exact ⟨.inl hresult, hs⟩
  · rename_i hresult
    refine Sat.check (fun hintent => judged_early (.inr (.inl hintent)) hs) fun hintent => ?_
    rw [Exec.sat_bind, Exec.sat_modify]
    have hwritten : ∀ {t : State},
        t.pageResults = Function.update s.pageResults (query.key, pageNumber) true → ¬Unchanged s t := by
      intro t ht hno
      have hkept := congrFun hno.pageResults (query.key, pageNumber)
      rw [ht, Function.update_self] at hkept
      exact hresult hkept.symm
    have hstop : ∀ {P : Prop}, Unfailing sha vault s
        (.completePage query pageNumber operationId evidence nextCursor occurredAt) →
        ((∀ value, nextCursor = some value → Sealable vault s pageNumber value) →
          Admits sha s query.key "evidence.page.completed" operationId → P) → P :=
      fun h k => by
        obtain ⟨hsealable, hadmits⟩ := (h.resolve_left hresult).resolve_left (not_not.mpr hintent)
        exact k hsealable hadmits
    refine Sat.call keepCursor_judged ?_ ?_
    · rintro _ s' ⟨hunsealable, hsame, hresults⟩
      have hsame' : SameLedger s s' := ⟨hsame.queries, hsame.events, hsame.views⟩
      refine ⟨⟨fun hno => absurd hno (hwritten hresults), fun hno => ?_⟩, hsame'.sound hs⟩
      exact hstop hno fun hsealable _ => absurd hsealable hunsealable
    · rintro cursor s' ⟨hsealable, hsame, hresults, -⟩
      have hsame' : SameLedger s s' := ⟨hsame.queries, hsame.events, hsame.views⟩
      refine Sat.call (judged_append (s := s) (moving_page evidence cursor.isSome pageNumber) hsame'
        (hwritten hresults) ?_ hs) (fun _ _ h => h) fun _ _ h => h
      exact ⟨fun h => .inr (.inr ⟨hsealable, h⟩), fun h => hstop h fun _ hadmits => hadmits⟩

theorem completeQuery_judged {query : EvidenceQuery} {operationId : String} {bundle : EvidenceBundle}
    {occurredAt : Datetime} (hs : Sound sha s) :
    Judged sha s (completeQuery sha query operationId bundle occurredAt) s
      (Unfailing sha vault s (.completeQuery query operationId bundle occurredAt)) := by
  unfold Judged completeQuery
  rw [Exec.sat_bind, Exec.sat_read]
  cases hbundle : s.bundles query.key with
  | none =>
    dsimp only
    rw [Exec.sat_bind, Exec.sat_modify]
    refine judged_append (s := s) (moving_completed bundle) ⟨rfl, rfl, rfl⟩ ?_ ?_ hs
    · intro hno
      have hkept := congrFun hno.bundles query.key
      dsimp only at hkept
      rw [Function.update_self, hbundle] at hkept
      cases hkept
    · exact ⟨fun h => .inr h, fun h => h.resolve_left (not_not.mpr hbundle)⟩
  | some existing =>
    have hknown : Unfailing sha vault s (.completeQuery query operationId bundle occurredAt) :=
      .inl (by rw [hbundle]; exact Option.some_ne_none existing)
    refine Sat.check (fun _ => judged_early hknown hs) fun _ => ?_
    exact viewOf_judged hknown hs

theorem Sound.opened (hs : Sound sha s) {query : EvidenceQuery} (hquery : s.queries query.key = none) :
    Sound sha (s.opened query) := ⟨hs.booked.opened hquery, hs.named⟩

/-- The first event of a query is refused for its operation only. -/
theorem request_judged {query : EvidenceQuery} {operationId : String} (hs : Sound sha s) :
    Judged sha s (request sha query operationId) s (Unfailing sha vault s (.request query operationId)) := by
  unfold Judged request
  rw [Exec.sat_bind, Exec.sat_read]
  cases hquery : s.queries query.key with
  | some existing =>
    have hknown : Unfailing sha vault s (.request query operationId) := fun hno => by
      rw [hquery] at hno
      cases hno
    refine Sat.check (fun _ => judged_early hknown hs) fun _ => ?_
    exact viewOf_judged hknown hs
  | none =>
    dsimp only
    rw [Exec.sat_bind, Exec.sat_modify]
    have hopened := hs.opened hquery
    have hnil : (s.opened query).events query.key = [] := hs.booked.unknown hquery
    have hviews : (s.opened query).views query.key = none := hopened.booked.unviewed.mp hnil
    have hself : (s.opened query).queries query.key = some query := Function.update_self _ _ _
    show Sat (append sha query.key "evidence.query.requested" operationId query.createdAt
      (requestPayload sha query)) (s.opened query) _ _
    unfold append
    rw [Exec.sat_bind, Exec.sat_read]
    refine Sat.attempt (fun e he => ⟨⟨fun hno => ?_, fun hunfailing => ?_⟩, hopened⟩) ?_
    · have hkept := congrFun hno.queries query.key
      rw [hself, hquery] at hkept
      cases hkept
    · -- with an operation that is an identifier, nothing is refused
      have hoperation : isIdentifier operationId = true := hunfailing hquery
      obtain ⟨event, hbuild⟩ := @buildEvent_named sha query.key [] "evidence.query.requested" operationId
        query.createdAt (requestPayload sha query) ⟨query.tenantId.property, query.queryId.property⟩
        (by decide) hoperation ((length_of_le _).trans (by simp))
      obtain ⟨-, -, -, htype, -⟩ := buildEvent_ok hbuild
      have hview : reduceView none event query = .ok (requestedView query event.occurredAt) := by
        unfold reduceView
        dsimp only
        rw [if_neg (not_not.mpr htype)]
      unfold appended queryOf at he
      rw [hnil, if_neg (show ¬recorded [] operationId _ = true from Bool.false_ne_true), hbuild, hself,
        hviews] at he
      have hstep : (reduceView none event query >>= fun view =>
          (pure (view, some event) : Except Error (EvidenceQueryView × Option EvidenceApplicationEvent))) =
          .error e := he
      rw [hview] at hstep
      cases hstep
    · rintro ⟨view, event⟩ h
      rcases appended_ok h with ⟨-, hrecorded, -⟩ | ⟨e, rfl, hrecords⟩
      · rw [hnil] at hrecorded
        cases hrecorded
      · exact ⟨fun _ => hrecords.named.2.2, hrecords.sound hopened⟩

/-- A call that appends at once, or not at all. -/
theorem failQuery_judged {key : Key} {operationId failureCode : String} {status : QueryStatus}
    {occurredAt : Datetime} (hs : Sound sha s) :
    Judged sha s (failQuery sha key operationId failureCode status occurredAt) s True := by
  refine Sat.check (fun _ => judged_early trivial hs) fun _ => ?_
  refine (append_sat s).mono ?_ fun _ s' h => by rw [h]; exact judged_early trivial hs
  rintro view s' (⟨rfl, -, -⟩ | ⟨e, hrecords, rfl⟩)
  · exact ⟨trivial, hs⟩
  · exact ⟨trivial, hrecords.sound hs⟩

/-- **One call.** -/
theorem storeStep_judged (op : StoreOp) (hs : Sound sha s) :
    Judged sha s (storeStep sha vault · op) s (Unfailing sha vault s op) := by
  have hreturning : ∀ {α : Type} {x : Store α} {f : α → Returned} {U : Prop}, Judged sha s x s U →
      Judged sha s (returning x f) s U := fun hx => Sat.call hx (fun _ _ h => h) fun _ _ h => h
  cases op with
  | request query id => exact hreturning (request_judged hs)
  | beginPage key n id ref at' => exact hreturning (beginPage_judged hs)
  | completePage query n id items next at' => exact hreturning (completePage_judged hs)
  | completeQuery query id bundle at' => exact hreturning (completeQuery_judged hs)
  | failQuery key id code status at' => exact hreturning (failQuery_judged hs)
  | rebuild key =>
    refine hreturning ((hs.booked.rebuild_same key).mono ?_ ?_)
    · rintro _ s' rfl
      exact ⟨trivial, hs⟩
    · rintro _ s' rfl
      exact judged_early trivial hs

theorem storeStep_sound (op : StoreOp) (hs : Sound sha s) : Sound sha (storeStep sha vault s op).2 :=
  ((@storeStep_judged sha vault s op hs).mono (fun _ _ h => h.2) fun _ _ h => h.2).state

/-- **A call is atomic exactly when it is unfailing.** -/
theorem atomic_iff (op : StoreOp) (hs : Sound sha s) :
    Atomic (Machine.entry (storeStep sha vault) s op) ↔ Unfailing sha vault s op := by
  have hjudged := @storeStep_judged sha vault s op hs
  unfold Judged Sat at hjudged
  dsimp only at hjudged
  unfold Atomic Machine.entry
  dsimp only
  rcases hrun : storeStep sha vault s op with ⟨r, s'⟩
  rw [hrun] at hjudged
  cases r with
  | ok a => exact ⟨fun _ => hjudged.1, fun _ error hno => by cases hno⟩
  | error e => exact ⟨fun h => hjudged.1.mp (h e rfl), fun h _ _ => hjudged.1.mpr h⟩

end Calls

/-! ## Bundles -/

/-- A query has a bundle exactly when it is completed, and when its completion is recorded. -/
structure Paired (s : State) : Prop where
  completed : ∀ key, s.bundles key ≠ none ↔
    ∃ view, s.views key = some view ∧ view.status = .completed
  recorded : ∀ key operationId, recorded (s.events key) operationId "evidence.query.completed" = true →
    s.bundles key ≠ none

theorem queryEvent_completed {eventType value : String} (hvalue : queryEvent eventType = some value)
    (hstatus : QueryStatus.parse value = some .completed) : eventType = "evidence.query.completed" := by
  have hname : QueryStatus.completed.value = value := by
    have hfound := List.find?_some hstatus
    exact of_decide_eq_true hfound
  unfold queryEvent at hvalue
  split at hvalue
  · rename_i hprefix
    obtain ⟨rest, hrest⟩ := List.isPrefixOf_iff_prefix.mp hprefix
    have htail : String.ofList (eventType.toList.drop 15) = "completed" :=
      (Option.some.inj hvalue).trans hname.symm
    have hdrop : eventType.toList.drop 15 = rest := by
      rw [← hrest, List.drop_left' (by decide)]
    rw [hdrop] at htail
    have hchars : rest = "completed".toList := by
      rw [← htail, String.toList_ofList]
    rw [← String.toList_inj, ← hrest, hchars]
    decide
  · cases hvalue

/-- Only its completion completes a query. -/
theorem reduceView_completed {current : Option EvidenceQueryView} {event : EvidenceApplicationEvent}
    {query : EvidenceQuery} {view : EvidenceQueryView} (h : reduceView current event query = .ok view)
    (htype : event.eventType.val ≠ "evidence.query.completed") :
    view.status = .completed ↔ ∃ old, current = some old ∧ old.status = .completed := by
  unfold reduceView at h
  cases current with
  | none =>
    dsimp only at h
    split at h
    · cases h
    · rw [← Except.ok.inj h]
      exact ⟨fun hno => (by cases hno), fun hno => by obtain ⟨_, hno, -⟩ := hno; cases hno⟩
  | some old =>
    have hopen : old.status ∉ terminal → view.status ≠ .completed →
        (view.status = .completed ↔ ∃ o, some old = some o ∧ o.status = .completed) := by
      intro hlive hview
      refine ⟨fun hno => absurd hno hview, ?_⟩
      rintro ⟨o, ho, hcompleted⟩
      obtain rfl := Option.some.inj ho
      rw [hcompleted] at hlive
      exact absurd (by decide) hlive
    dsimp only at h
    split at h
    · split at h
      · rw [← Except.ok.inj h]
        refine ⟨fun hcompleted => ⟨old, rfl, hcompleted⟩, ?_⟩
        rintro ⟨o, ho, hcompleted⟩
        rwa [Option.some.inj ho]
      · cases h
    · rename_i hlive
      split at h
      · rw [← Except.ok.inj h] at hopen ⊢
        exact hopen hlive QueryStatus.noConfusion
      · split at h
        · obtain ⟨records, -, h⟩ := except_bind_ok.mp h
          obtain ⟨accepted, -, h⟩ := except_bind_ok.mp h
          obtain ⟨quarantined, -, h⟩ := except_bind_ok.mp h
          rw [← Except.ok.inj h] at hopen ⊢
          exact hopen hlive QueryStatus.noConfusion
        · split at h
          · cases h
          · rename_i value hvalue
            split at h
            · cases h
            · rename_i status hstatus
              split at h
              · refine hopen hlive fun hcompleted => htype ?_
                have hcode : status = .completed := by
                  rw [← Except.ok.inj h] at hcompleted
                  exact hcompleted
                rw [hcode] at hstatus
                exact queryEvent_completed hvalue hstatus
              · cases h

/-- A completion of a terminal query is not called like its own event. -/
def Proper (sha : Sha256) (s : State) : StoreOp → Prop
  | .completeQuery query operationId _ _ => ∀ view, s.views query.key = some view →
    view.status ∈ terminal → operationId ≠ eventIdAt sha s query.key "evidence.query.completed"
  | _ => True

theorem paired_empty : Paired .empty := by
  refine ⟨fun key => ⟨fun hno => absurd rfl hno, ?_⟩, fun key operationId hno => by cases hno⟩
  rintro ⟨view, hno, -⟩
  cases hno

/-- Bundles, events and views decide. -/
theorem Paired.same {s s' : State} (h : Paired s) (hbundles : s'.bundles = s.bundles)
    (hsame : SameLedger s s') : Paired s' := by
  refine ⟨?_, ?_⟩
  · rw [hbundles, hsame.views]
    exact h.completed
  · rw [hbundles, hsame.events]
    exact h.recorded

section Bundles

variable {sha : Sha256} {vault : CursorVault} {s : State}

/-- An event that is not a completion leaves bundles and completed queries paired. -/
theorem Records.paired {key : Key} {eventType operationId : String} {payload : Fields}
    {event : EvidenceApplicationEvent} {view : EvidenceQueryView}
    (h : Records sha s key eventType operationId payload event view)
    (htype : eventType ≠ "evidence.query.completed") (hs : Paired s) : Paired (s.record key event view) := by
  have htype' : event.eventType.val ≠ "evidence.query.completed" := by rwa [h.type]
  constructor
  · intro key'
    show s.bundles key' ≠ none ↔
      ∃ v, Function.update s.views key (some view) key' = some v ∧ v.status = .completed
    rw [hs.completed]
    by_cases hkey : key' = key
    · subst hkey
      obtain ⟨query, -, hreduced⟩ := h.reduced
      rw [Function.update_self, ← reduceView_completed hreduced htype']
      exact ⟨fun hcompleted => ⟨view, rfl, hcompleted⟩, fun ⟨v, hv, hcompleted⟩ => by
        rwa [Option.some.inj hv]⟩
    · rw [Function.update_of_ne hkey]
  · intro key' operationId' hrecorded
    have hevents : recorded (Function.update s.events key (s.events key ++ [event]) key') operationId'
        "evidence.query.completed" = true := hrecorded
    by_cases hkey : key' = key
    · subst hkey
      rw [Function.update_self, recorded_concat, decide_eq_false fun hno => htype' hno.2,
        Bool.or_false] at hevents
      exact hs.recorded _ _ hevents
    · rw [Function.update_of_ne hkey] at hevents
      exact hs.recorded _ _ hevents

/-- What is asked of a call that returns. -/
abbrev Pairing {α : Type} (x : Store α) (s : State) : Prop := Sat x s (fun _ s' => Paired s') (fun _ _ => True)

theorem append_pairing {key : Key} {eventType operationId : String} {occurredAt : Datetime}
    {payload : Fields} (htype : eventType ≠ "evidence.query.completed") (hs : Paired s) :
    Pairing (append sha key eventType operationId occurredAt payload) s := by
  refine (append_sat s).mono ?_ fun _ _ _ => trivial
  rintro view s' (⟨rfl, -, -⟩ | ⟨e, hrecords, rfl⟩)
  · exact hs
  · exact hrecords.paired htype hs

theorem viewOf_pairing {key : Key} (hs : Paired s) : Pairing (Exec.lift (viewOf s key)) s := by
  rw [Pairing, Exec.sat_lift]
  exact ⟨fun _ _ => hs, fun _ _ => trivial⟩

/-- **A completion** stores its bundle and completes the query. -/
theorem completeQuery_pairing {query : EvidenceQuery} {operationId : String} {bundle : EvidenceBundle}
    {occurredAt : Datetime} (hproper : Proper sha s (.completeQuery query operationId bundle occurredAt))
    (hs : Paired s) : Pairing (completeQuery sha query operationId bundle occurredAt) s := by
  unfold Pairing completeQuery
  rw [Exec.sat_bind, Exec.sat_read]
  cases hbundle : s.bundles query.key with
  | some existing => exact Sat.check (fun _ => trivial) fun _ => viewOf_pairing hs
  | none =>
    dsimp only
    rw [Exec.sat_bind, Exec.sat_modify]
    refine (append_sat _).mono ?_ fun _ _ _ => trivial
    rintro view s' (⟨rfl, hrecorded, -⟩ | ⟨e, hrecords, rfl⟩)
    · exact absurd hbundle (hs.recorded query.key operationId hrecorded)
    · obtain ⟨q, -, hreduced⟩ := hrecords.reduced
      have hcompleted : view.status = .completed := by
        have hold : reduceView (s.views query.key) e q = .ok view := hreduced
        cases hview : s.views query.key with
        | none =>
          rw [hview] at hold
          cases reduceView_folded hold with
          | requested htype => exact absurd (hrecords.type.symm.trans htype) (by decide)
        | some old =>
          rw [hview] at hold
          by_cases hterminal : old.status ∈ terminal
          · -- only an operation of the name of its event is taken here
            have hother := hproper old hview hterminal
            cases reduceView_folded hold with
            | repeated _ hsame =>
              refine absurd ?_ hother
              rw [← hrecords.operation, hsame, hrecords.eventId]
              rfl
            | counted hlive => exact absurd hterminal hlive
            | moved hlive => exact absurd hterminal hlive
          · unfold reduceView at hold
            dsimp only at hold
            rw [if_neg hterminal, hrecords.type, if_neg (by decide), if_neg (by decide), if_pos rfl] at hold
            rw [← Except.ok.inj hold]
      constructor
      · intro key
        show Function.update s.bundles query.key (some bundle) key ≠ none ↔
          ∃ v, Function.update s.views query.key (some view) key = some v ∧ v.status = .completed
        by_cases hkey : key = query.key
        · subst hkey
          rw [Function.update_self, Function.update_self]
          exact ⟨fun _ => ⟨view, rfl, hcompleted⟩, fun _ => Option.some_ne_none bundle⟩
        · rw [Function.update_of_ne hkey, Function.update_of_ne hkey]
          exact hs.completed key
      · intro key operationId' hrecorded
        show Function.update s.bundles query.key (some bundle) key ≠ none
        by_cases hkey : key = query.key
        · rw [hkey, Function.update_self]
          exact Option.some_ne_none bundle
        · have hevents : recorded (Function.update s.events query.key (s.events query.key ++ [e]) key)
              operationId' "evidence.query.completed" = true := hrecorded
          rw [Function.update_of_ne hkey] at hevents ⊢
          exact hs.recorded key operationId' hevents

/-- **A call that returns** leaves bundles and completed queries paired. -/
theorem storeStep_pairing (op : StoreOp) (hsound : Sound sha s) (hproper : Proper sha s op)
    (hs : Paired s) : Pairing (storeStep sha vault · op) s := by
  have hreturning : ∀ {α : Type} {x : Store α} {f : α → Returned}, Pairing x s →
      Pairing (returning x f) s := fun hx => Sat.call hx (fun _ _ h => h) fun _ _ h => h
  cases op with
  | request query id =>
    refine hreturning ?_
    unfold Pairing request
    rw [Exec.sat_bind, Exec.sat_read]
    split
    · exact Sat.check (fun _ => trivial) fun _ => viewOf_pairing hs
    · rw [Exec.sat_bind, Exec.sat_modify]
      exact append_pairing (by decide) ⟨hs.completed, hs.recorded⟩
  | beginPage key n id ref at' =>
    refine hreturning ?_
    unfold Pairing beginPage
    rw [Exec.sat_bind, Exec.sat_read]
    split
    · exact hs
    · refine Sat.check (fun _ => trivial) fun _ => ?_
      rw [Exec.sat_bind, Exec.sat_modify]
      exact Sat.call (append_pairing (by decide) ⟨hs.completed, hs.recorded⟩) (fun _ _ h => h) fun _ _ h => h
  | completePage query n id items next at' =>
    refine hreturning ?_
    unfold Pairing completePage
    rw [Exec.sat_bind, Exec.sat_read]
    split
    · exact hs
    · refine Sat.check (fun _ => trivial) fun _ => ?_
      rw [Exec.sat_bind, Exec.sat_modify]
      refine Sat.call keepCursor_judged (fun _ _ _ => trivial) ?_
      rintro cursor s' ⟨-, hsame, -, hbundles⟩
      have hpaired : Paired s' := hs.same hbundles ⟨hsame.queries, hsame.events, hsame.views⟩
      exact Sat.call (append_pairing (by decide) hpaired) (fun _ _ h => h) fun _ _ h => h
  | completeQuery query id bundle at' => exact hreturning (completeQuery_pairing hproper hs)
  | failQuery key id code status at' =>
    refine hreturning (Sat.check (fun _ => trivial) fun hstatus => append_pairing ?_ hs)
    revert hstatus
    cases status <;> decide
  | rebuild key =>
    refine hreturning ((hsound.booked.rebuild_same key).mono ?_ fun _ _ _ => trivial)
    rintro _ s' rfl
    exact hs

/-- A call that is unfailing and proper keeps bundles and completed queries paired. -/
theorem storeStep_paired {op : StoreOp} (hsound : Sound sha s) (hunfailing : Unfailing sha vault s op)
    (hproper : Proper sha s op) (hs : Paired s) : Paired (storeStep sha vault s op).2 := by
  have hboth := (@storeStep_pairing sha vault s op hsound hproper hs).and
    (@storeStep_judged sha vault s op hsound)
  refine (hboth.mono (fun _ s' h => h.1) fun _ s' h => ?_).state
  have hsame := h.2.1.mpr hunfailing
  exact hs.same hsame.bundles ⟨hsame.queries, hsame.events, hsame.views⟩

end Bundles

/-- Every state of a run is sound. -/
theorem storeHistory_sound {sha : Sha256} {vault : CursorVault} {ops : List StoreOp}
    {e : Machine.Entry State StoreOp (Except Error Returned)} (he : e ∈ storeHistory sha vault ops) :
    Sound sha e.before ∧ e = Machine.entry (storeStep sha vault) e.before e.op :=
  Machine.trace_before (I := Sound sha) (fun _ op hs => storeStep_sound op hs)
    ⟨booked_empty sha, fun _ _ hno => by cases hno⟩ he

/-- **The calls that change nothing when they raise are the unfailing ones; while all are, the bundles are
    those of the completed queries.** -/
theorem evidence_calls_atomic (sha : Sha256) (vault : CursorVault) (ops : List StoreOp) :
    (∀ e ∈ storeHistory sha vault ops, Atomic e ↔ Unfailing sha vault e.before e.op) ∧
    ((∀ e ∈ storeHistory sha vault ops, Unfailing sha vault e.before e.op ∧ Proper sha e.before e.op) →
      ∀ key, (storeRun sha vault ops).bundles key ≠ none ↔
        ∃ view, (storeRun sha vault ops).views key = some view ∧ view.status = .completed) := by
  constructor
  · intro e he
    obtain ⟨hsound, hentry⟩ := storeHistory_sound he
    rw [hentry]
    exact atomic_iff e.op hsound
  · intro hall
    have hrun : Sound sha (storeRun sha vault ops) ∧ Paired (storeRun sha vault ops) := by
      refine Machine.run_invariant (I := fun s => Sound sha s ∧ Paired s)
        (C := fun s op => Unfailing sha vault s op ∧ Proper sha s op) ?_ ops .empty
        ⟨⟨booked_empty sha, fun _ _ hno => by cases hno⟩, paired_empty⟩ hall
      rintro s op ⟨hsound, hpaired⟩ ⟨hunfailing, hproper⟩
      exact ⟨storeStep_sound op hsound, storeStep_paired hsound hunfailing hproper hpaired⟩
    exact hrun.2.completed

/-! ## A bundle of a failed query -/

def sampleBundle : EvidenceBundle where
  bundleId := ident "b"
  tenantId := ident "t"
  incidentId := ident "i"
  runId := ident "run"
  queryIds := [ident "q"]
  evidence := []
  citations := []
  sourceKinds := []
  createdAt := ⟨4, 0⟩
  bundleDigest := zeroHash

def sampleCompletion : StoreOp := .completeQuery sampleQuery "complete:q" sampleBundle ⟨4, 0⟩

/-- A second caller completes the query that the first one failed: it is refused, and the bundle stays. -/
theorem failed_completion_keeps_bundle :
    ∃ e ∈ storeHistory Sha256.constant sampleVault (failingOps ++ [sampleCompletion]),
      e.op = sampleCompletion ∧ ¬Atomic e ∧
        ∃ view, e.after.views sampleQuery.key = some view ∧ view.status = .failed ∧
          e.after.bundles sampleQuery.key ≠ none := by
  let s := storeRun Sha256.constant sampleVault failingOps
  refine ⟨Machine.entry (storeStep Sha256.constant sampleVault) s sampleCompletion, ?_, rfl, ?_, ?_⟩
  · unfold storeHistory
    rw [Machine.trace_concat]
    exact List.mem_append_right _ List.mem_cons_self
  · intro hatomic
    have hraised : (storeStep Sha256.constant sampleVault s sampleCompletion).1.toOption.isNone = true := by
      decide +kernel
    have hstored : (storeStep Sha256.constant sampleVault s sampleCompletion).2.bundles sampleQuery.key =
        some sampleBundle := by rfl
    have hbefore : s.bundles sampleQuery.key = none := by rfl
    have hsame : ∀ error, (storeStep Sha256.constant sampleVault s sampleCompletion).1 = .error error →
        Unchanged s (storeStep Sha256.constant sampleVault s sampleCompletion).2 := hatomic
    cases hresult : (storeStep Sha256.constant sampleVault s sampleCompletion).1 with
    | ok r =>
      rw [hresult] at hraised
      cases hraised
    | error error =>
      have hbundles := congrFun (hsame error hresult).bundles sampleQuery.key
      rw [hstored, hbefore] at hbundles
      cases hbundles
  · have hstatus : ((storeStep Sha256.constant sampleVault s sampleCompletion).2.views sampleQuery.key).map
        (·.status) = some .failed := by decide +kernel
    obtain ⟨view, hview, hfailed⟩ := Option.map_eq_some_iff.mp hstatus
    refine ⟨view, hview, hfailed, ?_⟩
    rw [show (Machine.entry (storeStep Sha256.constant sampleVault) s sampleCompletion).after.bundles
      sampleQuery.key = some sampleBundle from rfl]
    exact Option.some_ne_none _

/-- A query that is completed at once. -/
def completingOps : List StoreOp := [.request sampleQuery "request:q", sampleCompletion]

theorem completing_paired :
    (storeRun Sha256.constant sampleVault completingOps).bundles sampleQuery.key ≠ none ↔
      ∃ view, (storeRun Sha256.constant sampleVault completingOps).views sampleQuery.key = some view ∧
        view.status = .completed := by
  have hreturned : (storeHistory Sha256.constant sampleVault completingOps).all
      (fun e => e.result.toOption.isSome) = true := by decide +kernel
  refine (evidence_calls_atomic Sha256.constant sampleVault completingOps).2 (fun e he => ⟨?_, ?_⟩) _
  · refine ((evidence_calls_atomic Sha256.constant sampleVault completingOps).1 e he).mp ?_
    intro error herror
    have hok := List.all_eq_true.mp hreturned e he
    rw [herror] at hok
    cases hok
  · obtain ⟨xs, ys, hops, -⟩ := Machine.trace_mem he
    have hop : e.op ∈ completingOps := by rw [hops]; simp
    simp only [completingOps, List.mem_cons, List.not_mem_nil, or_false] at hop
    rcases hop with hop | hop
    · rw [hop]
      trivial
    · rw [hop]
      intro view _ _ hname
      have hhead := eventIdAt_head Sha256.constant e.before sampleQuery.key "evidence.query.completed"
      rw [← hname] at hhead
      exact absurd hhead (by decide)

end Evidence

end Aegis
