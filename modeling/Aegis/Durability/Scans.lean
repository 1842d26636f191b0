/-
  SCANNING A RUN PAGE BY PAGE.

  `activity_artifact` looks for the last event of a type among the events of a run.  It reads pages of at
  most 500 events, starts each page at the tenant's cursor of the last event read, counts what it has read
  and stops at 10,000 events; one more page of a single event then tells whether the run has more.

  The loop is stated for any loop body: over the events of a run of a reachable store it folds the body over
  EXACTLY the events of the run, in order, or raises because there are more than 10,000 (`scanRun_fold`).
  What `activity_artifact` returns is the fold of its own body.
-/
import Mathlib
import Aegis.Durability.Replay

namespace Aegis

namespace Durability

/-- `maximum_events`. -/
def maxScannedEvents : Nat := 10000

def scanExceeded : Error := ⟨.integrityFailure, "activity artifact scan exceeds the event bound"⟩

section

variable {β : Type} (s : Store) (tenantId runId : String) (body : β → ApplicationEvent → β)

/-- The loop of `activity_artifact`; `body` is what it does with one event. -/
def scanLoop (afterCursor scanned : Nat) (latest : β) : Except Error β :=
  if scanned < maxScannedEvents then
    match s.eventPage tenantId (some "investigation") (some runId) afterCursor
        (min 500 (maxScannedEvents - scanned)) with
    | .error error => .error error
    | .ok page =>
      if page.length < min 500 (maxScannedEvents - scanned) then .ok (page.foldl body latest)
      else
        -- `page[-1]`: a full page is not empty
        match page.getLast? with
        | none => .error ⟨.indexError, "tuple index out of range"⟩
        | some last => scanLoop last.tenantCursor (scanned + page.length) (page.foldl body latest)
  else
    match s.eventPage tenantId (some "investigation") (some runId) afterCursor 1 with
    | .error error => .error error
    | .ok page => if page ≠ [] then .error scanExceeded else .ok latest
  termination_by maxScannedEvents - scanned
  decreasing_by omega

/-- The whole scan. -/
def scanRun (start : β) : Except Error β := scanLoop s tenantId runId body 0 0 start

end

/-- The body of the loop: `if event.event_type == event_type: latest = dict(event.payload)`. -/
def latestPayload (eventType : String) (latest : Option Fields) (event : ApplicationEvent) :
    Option Fields :=
  if event.eventType.val = eventType then some event.payload else latest

/-- `activity_artifact`. -/
def activityArtifact (s : Store) (tenantId runId eventType : String) : Except Error (Option Fields) :=
  scanRun s tenantId runId (latestPayload eventType) none

/-! ## Pages of a run -/

section Pages

variable {sha : Sha256} {s : Store} {t r : String}

/-- A page of a run holds the first of its events past the cursor. -/
theorem eventPage_run {cursor limit : Nat} (hlow : 1 ≤ limit) (hhigh : limit ≤ 500) :
    s.eventPage t (some "investigation") (some r) cursor limit
      = .ok ((Pages.after (·.tenantCursor) cursor (runEvents (s.events t) r)).take limit) := by
  unfold Store.eventPage Pages.after runEvents
  rw [if_neg (by omega), List.filter_filter]
  rfl

theorem Chain.run_increasing {events : List ApplicationEvent} (h : Chain sha t events) (r : String) :
    Pages.Increasing (·.tenantCursor) (runEvents events r) :=
  h.increasing.sublist List.filter_sublist

/-- A cursor of a chain is at least one. -/
theorem Chain.run_after_zero {events : List ApplicationEvent} (r : String) :
    Pages.after (·.tenantCursor) 0 (runEvents events r) = runEvents events r :=
  Pages.after_all fun e _ => e.cursor_ok

/-- **One page.**  `left` is what lies past the cursor.  Either it fits the page and the bound and is
    folded, or the scan goes on with what the page left. -/
theorem scanLoop_step {β : Type} (body : β → ApplicationEvent → β)
    (hinc : Pages.Increasing (·.tenantCursor) (runEvents (s.events t) r))
    {cursor scanned : Nat} (latest : β) {left : List ApplicationEvent}
    (hleft : Pages.after (·.tenantCursor) cursor (runEvents (s.events t) r) = left)
    (hgo : scanned < maxScannedEvents) :
    let limit := min 500 (maxScannedEvents - scanned)
    (left.length < limit ∧ scanLoop s t r body cursor scanned latest = .ok (left.foldl body latest)) ∨
    (limit ≤ left.length ∧ ∃ cursor',
      Pages.after (·.tenantCursor) cursor' (runEvents (s.events t) r) = left.drop limit ∧
      scanLoop s t r body cursor scanned latest =
        scanLoop s t r body cursor' (scanned + limit) ((left.take limit).foldl body latest)) := by
  intro limit
  have hpos : 1 ≤ limit := by omega
  rw [scanLoop, if_pos hgo, eventPage_run hpos (by omega), hleft]
  by_cases hshort : left.length < limit
  · left
    refine ⟨hshort, ?_⟩
    have htake : left.take limit = left := List.take_of_length_le (by omega)
    show (if (left.take limit).length < limit then Except.ok ((left.take limit).foldl body latest)
      else _) = _
    rw [htake, if_pos hshort]
  · right
    refine ⟨by omega, ?_⟩
    have hlength : (left.take limit).length = limit := by rw [List.length_take]; omega
    cases hlast : (left.take limit).getLast? with
    | none =>
      rw [List.getLast?_eq_none_iff.mp hlast, List.length_nil] at hlength
      omega
    | some last =>
      refine ⟨last.tenantCursor, ?_, ?_⟩
      · rw [← hleft] at hlast ⊢
        exact Pages.after_page hinc hlast
      · show (if (left.take limit).length < limit then _ else
          match (left.take limit).getLast? with | none => _ | some _ => _) = _
        rw [hlength, if_neg (by omega), hlast]

/-- The loop past the bound: one event more is an error. -/
theorem scanLoop_bound {β : Type} (body : β → ApplicationEvent → β)
    {cursor scanned : Nat} {latest : β} {left : List ApplicationEvent}
    (hleft : Pages.after (·.tenantCursor) cursor (runEvents (s.events t) r) = left)
    (hstop : ¬scanned < maxScannedEvents) :
    scanLoop s t r body cursor scanned latest
      = if left = [] then .ok latest else .error scanExceeded := by
  rw [scanLoop, if_neg hstop, eventPage_run (le_refl 1) (by omega), hleft]
  cases left with
  | nil => rfl
  | cons e rest => rfl

/-- **The scan from any page boundary.**  Induction on what the bound still allows. -/
theorem scanLoop_fold {β : Type} (body : β → ApplicationEvent → β)
    (hinc : Pages.Increasing (·.tenantCursor) (runEvents (s.events t) r)) :
    ∀ (budget cursor scanned : Nat) (latest : β) (left : List ApplicationEvent),
    maxScannedEvents = scanned + budget →
    Pages.after (·.tenantCursor) cursor (runEvents (s.events t) r) = left →
    scanLoop s t r body cursor scanned latest
      = if left.length ≤ budget then .ok (left.foldl body latest) else .error scanExceeded := by
  intro budget
  induction budget using Nat.strong_induction_on with
  | _ budget ih =>
  intro cursor scanned latest left hbudget hleft
  by_cases hgo : scanned < maxScannedEvents
  · rcases scanLoop_step body hinc latest hleft hgo with
      ⟨hshort, hscan⟩ | ⟨hfull, cursor', hnext, hscan⟩
    · rw [hscan, if_pos (by omega)]
    · -- the page is full: the rest is scanned with a smaller budget
      set limit := min 500 (maxScannedEvents - scanned) with hlimit
      rw [hscan, ih (budget - limit) (by omega) cursor' (scanned + limit) _ _ (by omega) hnext,
        ← List.foldl_append, List.take_append_drop, List.length_drop]
      have hiff : left.length - limit ≤ budget - limit ↔ left.length ≤ budget := by omega
      simp only [hiff]
  · rw [scanLoop_bound body hleft hgo]
    have hzero : budget = 0 := by omega
    cases left with
    | nil =>
      have hshort : ([] : List ApplicationEvent).length ≤ budget := Nat.zero_le _
      rw [if_pos rfl, if_pos hshort]; rfl
    | cons e rest =>
      have hlong : ¬(e :: rest).length ≤ budget := by rw [hzero, List.length_cons]; omega
      rw [if_neg (List.cons_ne_nil _ _), if_neg hlong]

/-- Every event of the run is met once and in order, or there are too many. -/
theorem scanRun_fold {β : Type} (body : β → ApplicationEvent → β) (start : β)
    (hinc : Pages.Increasing (·.tenantCursor) (runEvents (s.events t) r)) :
    scanRun s t r body start = if (runEvents (s.events t) r).length ≤ maxScannedEvents
      then .ok ((runEvents (s.events t) r).foldl body start) else .error scanExceeded :=
  scanLoop_fold body hinc maxScannedEvents 0 0 start _ (Nat.zero_add _).symm (Chain.run_after_zero r)

end Pages

/-! ## The artifact of an activity -/

/-- A plain scan: the payload of the last event of a type. -/
def lastPayload (eventType : String) (events : List ApplicationEvent) : Option Fields :=
  ((events.filter fun e => e.eventType.val == eventType).getLast?).map (·.payload)

/-- Folding the body over the events leaves the last payload.  Induction from the end of the list. -/
theorem foldl_latestPayload (eventType : String) (events : List ApplicationEvent) :
    events.foldl (latestPayload eventType) none = lastPayload eventType events := by
  induction events using List.reverseRecOn with
  | nil => rfl
  | append_singleton events event ih =>
    rw [List.foldl_append, ih, List.foldl_cons, List.foldl_nil, latestPayload]
    by_cases htype : event.eventType.val = eventType
    · rw [if_pos htype]
      simp only [lastPayload, List.filter_append, List.filter_cons, List.filter_nil, htype, beq_self_eq_true,
        if_true, List.getLast?_concat, Option.map_some]
    · have hno : (event.eventType.val == eventType) = false := beq_eq_false_iff_ne.mpr htype
      rw [if_neg htype]
      simp only [lastPayload, List.filter_append, List.filter_cons, List.filter_nil, hno, if_false,
        Bool.false_eq_true, List.append_nil]

/-- **The paged scan is the plain scan**, in every reachable store: with at most 10,000 events the artifact
    is the payload of the last event of the type, and with more the scan raises.  Whatever the loop does
    with an event, it does once with each event of the run, in order. -/
theorem activity_artifact_scan (sha : Sha256) (ops : List Op) (t r eventType : String) :
    let events := runEvents ((run sha ops).events t) r
    (activityArtifact (run sha ops) t r eventType = if events.length ≤ maxScannedEvents
      then .ok (lastPayload eventType events) else .error scanExceeded) ∧
    ∀ (β : Type) (body : β → ApplicationEvent → β) (start : β),
      scanRun (run sha ops) t r body start = if events.length ≤ maxScannedEvents
        then .ok (events.foldl body start) else .error scanExceeded := by
  intro events
  have hinc : Pages.Increasing (·.tenantCursor) events :=
    ((ledgerInvariant_run sha ops).chain t).run_increasing r
  refine ⟨?_, fun β body start => scanRun_fold body start hinc⟩
  rw [activityArtifact, scanRun_fold _ _ hinc, foldl_latestPayload]

end Durability

end Aegis
