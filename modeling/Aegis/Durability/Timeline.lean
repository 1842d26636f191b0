/-
  THE TIMELINE OF A RUN.

  `timeline` reads the first 500 events of a run, folds `reduce_run` over them and shows the events past a
  cursor, at most `limit` of them, with a token for the next page when it left some.

  Following the tokens from the start shows every event of the run once and in order, each with the status
  of the run up to it -- but only as far as the one page of 500 events reaches, and only when each text
  under `failure_code` is an identifier: an item is built for every event past the cursor, and an item with
  any other failure code is refused.  `timeline_complete` says that nothing else can go wrong.
-/
import Mathlib
import Aegis.Durability.Cursors
import Aegis.Durability.Scans
import Aegis.Durability.Signals

namespace Aegis

namespace Durability

/-- `TimelineItem`. -/
structure TimelineItem where
  cursor : Nat
  eventType : Identifier
  occurredAt : Datetime
  status : RunStatus
  failureCode : Option Identifier
  cursor_ok : 1 ≤ cursor

/-- `TimelinePage`. -/
structure TimelinePage where
  items : List TimelineItem
  nextCursor : Option String

/-- `failure_code if isinstance(failure_code, str) else None`, as the field of an item takes it. -/
def itemFailureCode (payload : Fields) : Except Error (Option Identifier) :=
  match payload.lookup "failure_code" with
  | some (.str code) => do
    let code ← Identifier.parse "TimelineItem.failure_code" code
    .ok (some code)
  | _ => .ok none

/-- `_timeline_item`. -/
def timelineItem (event : ApplicationEvent) (status : RunStatus) : Except Error TimelineItem := do
  let failureCode ← itemFailureCode event.payload
  .ok { cursor := event.tenantCursor, eventType := event.eventType, occurredAt := event.occurredAt, status,
        failureCode, cursor_ok := event.cursor_ok }

/-- The loop of `timeline`. -/
def projectTimeline (afterCursor : Int) :
    Option RunView → List ApplicationEvent → Except Error (List TimelineItem)
  | _, [] => .ok []
  | projection, event :: events => do
    let run ← reduceRun projection event
    if afterCursor < event.tenantCursor then do
      let item ← timelineItem event run.status
      let rest ← projectTimeline afterCursor (some run) events
      .ok (item :: rest)
    else projectTimeline afterCursor (some run) events

/-- `projected[:limit]`: a negative limit counts from the end. -/
def upTo {α : Type} (items : List α) (limit : Int) : List α :=
  items.take (if 0 ≤ limit then limit.toNat else items.length - limit.natAbs)

/-- `timeline`. -/
def timeline (hmac : Hmac) (codec : CursorCodec) (s : Store) (tenantId runId : String)
    (afterCursor limit : Int) : Except Error TimelinePage := do
  let events ← s.eventPage tenantId (some "investigation") (some runId) 0 500
  let projected ← projectTimeline afterCursor none events
  let visible := upTo projected limit
  .ok { items := visible
        nextCursor :=
          if limit < projected.length then
            visible.getLast?.map fun last => codec.encode hmac tenantId runId last.cursor
          else none }

/-! ## Following the tokens -/

/-- A page at a cursor and the cursor its token decodes to.  A decoded cursor is not negative. -/
def readPage (hmac : Hmac) (codec : CursorCodec) (s : Store) (tenantId runId : String) (limit : Int)
    (cursor : Nat) : Option (List TimelineItem × Option Nat) :=
  match timeline hmac codec s tenantId runId cursor limit with
  | .error _ => none
  | .ok page =>
    match page.nextCursor with
    | none => some (page.items, none)
    | some token =>
      match codec.decode hmac token tenantId runId with
      | .error _ => none
      | .ok cursor => some (page.items, some cursor.toNat)

/-- An item shows an event at a status. -/
def TimelineItem.Shows (item : TimelineItem) (event : ApplicationEvent) (status : RunStatus) : Prop :=
  item.cursor = event.tenantCursor ∧ item.eventType = event.eventType ∧
    item.occurredAt = event.occurredAt ∧ item.status = status

/-- The items show the events, one for one and in order, each with the status that folding `reduce_run`
    from `start` over the events up to it gives. -/
def ShowsFrom (start : Option RunView) (events : List ApplicationEvent) (items : List TimelineItem) : Prop :=
  items.length = events.length ∧
    ∀ (i : Nat) (event : ApplicationEvent) (item : TimelineItem), events[i]? = some event →
      items[i]? = some item → ∃ run, foldRun start (events.take (i + 1)) = .ok (some run) ∧
        item.Shows event run.status

/-- Following the pages from the start ends, and shows every event of the run. -/
def TimelineComplete (hmac : Hmac) (codec : CursorCodec) (s : Store) (tenantId runId : String)
    (limit : Int) : Prop :=
  ∃ items, Pages.Follows (readPage hmac codec s tenantId runId limit) 0 items ∧
    ShowsFrom none (runEvents (s.events tenantId) runId) items

/-- A text under `failure_code` is an identifier. -/
def FailureCodeShown (event : ApplicationEvent) : Prop :=
  ∀ code, event.payload.lookup "failure_code" = some (.str code) → isIdentifier code = true

/-! ## Items -/

theorem itemFailureCode_ok {payload : Fields} :
    (∃ code, itemFailureCode payload = .ok code) ↔
      ∀ code, payload.lookup "failure_code" = some (.str code) → isIdentifier code = true := by
  unfold itemFailureCode
  split
  · rename_i code hcode
    rw [hcode]
    by_cases hid : isIdentifier code = true
    · rw [Identifier.parse, dif_pos hid]
      refine ⟨fun _ code' h => ?_, fun _ => ⟨_, rfl⟩⟩
      cases h; exact hid
    · rw [Identifier.parse, dif_neg hid]
      refine ⟨?_, fun h => absurd (h code rfl) hid⟩
      rintro ⟨code', h⟩; cases h
  · rename_i hother
    exact ⟨fun _ code h => absurd h (hother code), fun _ => ⟨none, rfl⟩⟩

theorem timelineItem_ok {event : ApplicationEvent} {status : RunStatus} :
    (∃ item, timelineItem event status = .ok item) ↔ FailureCodeShown event := by
  rw [FailureCodeShown, ← itemFailureCode_ok]
  constructor
  · rintro ⟨item, h⟩
    obtain ⟨code, hcode, -⟩ := except_bind_ok.mp h
    exact ⟨code, hcode⟩
  · rintro ⟨code, hcode⟩
    exact ⟨_, except_bind_ok.mpr ⟨code, hcode, rfl⟩⟩

theorem timelineItem_shows {event : ApplicationEvent} {status : RunStatus} {item : TimelineItem}
    (h : timelineItem event status = .ok item) : item.Shows event status := by
  obtain ⟨code, -, h⟩ := except_bind_ok.mp h
  cases h
  exact ⟨rfl, rfl, rfl, rfl⟩

/-- The parts of a loop that shows its first event. -/
theorem projectTimeline_cons {start : Option RunView} {event : ApplicationEvent}
    {events : List ApplicationEvent} {items : List TimelineItem} :
    projectTimeline 0 start (event :: events) = .ok items ↔
      ∃ run, reduceRun start event = .ok run ∧ ∃ item, timelineItem event run.status = .ok item ∧
        ∃ rest, projectTimeline 0 (some run) events = .ok rest ∧ items = item :: rest := by
  have hpos : (0 : Int) < event.tenantCursor := by
    have := event.cursor_ok
    omega
  rw [projectTimeline]
  simp only [if_pos hpos]
  constructor
  · intro h
    obtain ⟨run, hrun, h⟩ := except_bind_ok.mp h
    obtain ⟨item, hitem, h⟩ := except_bind_ok.mp h
    obtain ⟨rest, hrest, h⟩ := except_bind_ok.mp h
    exact ⟨run, hrun, item, hitem, rest, hrest, (Except.ok.inj h).symm⟩
  · rintro ⟨run, hrun, item, hitem, rest, hrest, rfl⟩
    rw [hrun]
    show (timelineItem event run.status >>= _) = _
    rw [hitem]
    show (projectTimeline 0 (some run) events >>= _) = _
    rw [hrest]; rfl

/-- The loop succeeds on a run exactly when every failure code can be shown. -/
theorem projectTimeline_ok {events : List ApplicationEvent} :
    ∀ {start result : Option RunView}, foldRun start events = .ok result →
    ((∃ items, projectTimeline 0 start events = .ok items) ↔ ∀ e ∈ events, FailureCodeShown e) := by
  induction events with
  | nil => exact fun _ => ⟨fun _ e he => absurd he List.not_mem_nil, fun _ => ⟨[], rfl⟩⟩
  | cons event events ih =>
    intro start result hfold
    rw [foldRun] at hfold
    obtain ⟨run, hrun, hfold⟩ := except_bind_ok.mp hfold
    have ih := ih hfold
    constructor
    · rintro ⟨items, h⟩ e he
      obtain ⟨run', hrun', item, hitem, rest, hrest, -⟩ := projectTimeline_cons.mp h
      rw [hrun] at hrun'
      cases hrun'
      rcases List.mem_cons.mp he with rfl | he
      · exact timelineItem_ok.mp ⟨item, hitem⟩
      · exact ih.mp ⟨rest, hrest⟩ e he
    · intro hshown
      have hevent : ∃ item, timelineItem event run.status = .ok item :=
        timelineItem_ok.mpr (hshown event List.mem_cons_self)
      obtain ⟨item, hitem⟩ := hevent
      obtain ⟨rest, hrest⟩ := ih.mpr fun e he => hshown e (List.mem_cons_of_mem _ he)
      exact ⟨item :: rest, projectTimeline_cons.mpr ⟨run, hrun, item, hitem, rest, hrest, rfl⟩⟩

/-- What the loop shows. -/
theorem projectTimeline_shows {events : List ApplicationEvent} :
    ∀ {start : Option RunView} {items : List TimelineItem}, projectTimeline 0 start events = .ok items →
    ShowsFrom start events items := by
  induction events with
  | nil =>
    intro start items h
    cases h
    refine ⟨rfl, ?_⟩
    intro i event item hevent
    cases hevent
  | cons event events ih =>
    intro start items h
    obtain ⟨run, hrun, item, hitem, rest, hrest, rfl⟩ := projectTimeline_cons.mp h
    obtain ⟨hlength, hshows⟩ := ih hrest
    refine ⟨by rw [List.length_cons, List.length_cons, hlength], ?_⟩
    intro i event' item' hevent hitem'
    cases i with
    | zero =>
      cases hevent; cases hitem'
      refine ⟨run, ?_, timelineItem_shows hitem⟩
      show (reduceRun start event >>= _) = _
      rw [hrun]; rfl
    | succ i =>
      obtain ⟨run', hfold, hshow⟩ := hshows i event' item' hevent hitem'
      refine ⟨run', ?_, hshow⟩
      rw [List.take_succ_cons, foldRun, hrun]
      exact hfold

/-- The items past a cursor are the items of the whole loop past the cursor. -/
theorem projectTimeline_after {events : List ApplicationEvent} (cursor : Nat) :
    ∀ {start : Option RunView} {items : List TimelineItem}, projectTimeline 0 start events = .ok items →
    projectTimeline cursor start events = .ok (Pages.after (·.cursor) cursor items) := by
  induction events with
  | nil => intro start items h; cases h; rfl
  | cons event events ih =>
    intro start items h
    obtain ⟨run, hrun, item, hitem, rest, hrest, rfl⟩ := projectTimeline_cons.mp h
    have hcursor : item.cursor = event.tenantCursor := (timelineItem_shows hitem).1
    rw [projectTimeline, hrun]
    show (if (cursor : Int) < event.tenantCursor then _ else _) = _
    by_cases hpast : cursor < event.tenantCursor
    · rw [if_pos (by omega), hitem]
      show (projectTimeline cursor (some run) events >>= _) = _
      rw [ih hrest, Pages.after_cons_of_lt (by rw [hcursor]; exact hpast)]
      rfl
    · rw [if_neg (by omega), ih hrest, Pages.after_cons_of_not_lt (by rw [hcursor]; exact hpast)]

/-- The cursors of the items are the cursors of the events. -/
theorem ShowsFrom.cursors {start : Option RunView} {events : List ApplicationEvent}
    {items : List TimelineItem} (h : ShowsFrom start events items) :
    items.map (·.cursor) = events.map (·.tenantCursor) := by
  obtain ⟨hlength, hshows⟩ := h
  refine List.ext_getElem? fun i => ?_
  rw [List.getElem?_map, List.getElem?_map]
  cases hevent : events[i]? with
  | none =>
    rw [List.getElem?_eq_none_iff] at hevent
    rw [List.getElem?_eq_none_iff.mpr (by omega)]; rfl
  | some event =>
    obtain ⟨hi, -⟩ := List.getElem?_eq_some_iff.mp hevent
    have hlt : i < items.length := by omega
    have hitem : items[i]? = some items[i] := List.getElem?_eq_getElem hlt
    obtain ⟨run, -, hcursor, -⟩ := hshows i event _ hevent hitem
    rw [hitem]
    exact congrArg some hcursor

/-! ## Pages of the timeline -/

section

variable {sha : Sha256} {hmac : Hmac} {codec : CursorCodec} {s : Store} {t r : String} {limit : Int}

/-- The one page of events that a timeline reads. -/
theorem timeline_events : s.eventPage t (some "investigation") (some r) 0 500
    = .ok ((runEvents (s.events t) r).take 500) := by
  rw [eventPage_run (by omega) (le_refl _), Chain.run_after_zero]

/-- An event of a run names the tenant and the run. -/
theorem names_of_runEvent (hinv : LedgerInvariant sha s) {e : ApplicationEvent}
    (he : e ∈ runEvents (s.events t) r) : e.tenantId.val = t ∧ e.aggregateId.val = r := by
  obtain ⟨hmem, hof⟩ := List.mem_filter.mp he
  simp only [Bool.and_eq_true, beq_iff_eq] at hof
  exact ⟨(hinv.chain t).tenant hmem, hof.2⟩

/-- The cursor of an event counts the events before it. -/
theorem cursor_le_length (hinv : LedgerInvariant sha s) {e : ApplicationEvent} (he : e ∈ s.events t) :
    e.tenantCursor ≤ (s.events t).length := by
  have hmem : e.tenantCursor ∈ (s.events t).map (·.tenantCursor) := List.mem_map_of_mem he
  rw [(hinv.chain t).cursors, List.mem_range'] at hmem
  obtain ⟨i, hi, hcursor⟩ := hmem
  omega

/-- The event an item shows. -/
theorem ShowsFrom.event_of_item {start : Option RunView} {events : List ApplicationEvent}
    {items : List TimelineItem} (h : ShowsFrom start events items) {item : TimelineItem}
    (hitem : item ∈ items) : ∃ e ∈ events, e.tenantCursor = item.cursor := by
  have hmem : item.cursor ∈ items.map (·.cursor) := List.mem_map_of_mem hitem
  rw [h.cursors, List.mem_map] at hmem
  exact hmem

/-- The token of a page is read back. -/
theorem decode_token (hinv : LedgerInvariant sha s) (hsize : (s.events t).length < 2 ^ 63)
    {items : List TimelineItem} {n : Nat}
    (hshows : ShowsFrom none ((runEvents (s.events t) r).take n) items) {item : TimelineItem}
    (hitem : item ∈ items) :
    codec.decode hmac (codec.encode hmac t r item.cursor) t r = .ok (item.cursor : Int) := by
  obtain ⟨e, he, hcursor⟩ := hshows.event_of_item hitem
  have hrun : e ∈ runEvents (s.events t) r := List.mem_of_mem_take he
  have hle := cursor_le_length hinv (List.mem_filter.mp hrun).1
  obtain ⟨rfl, rfl⟩ := names_of_runEvent hinv hrun
  exact CursorCodec.decode_encode hmac codec (by omega)

/-- **A page of the timeline** is a page of the items of the whole loop. -/
theorem readPage_page (hinv : LedgerInvariant sha s) (hlimit : 1 ≤ limit)
    (hsize : (s.events t).length < 2 ^ 63) {items : List TimelineItem}
    (hitems : projectTimeline 0 none ((runEvents (s.events t) r).take 500) = .ok items) (cursor : Nat) :
    readPage hmac codec s t r limit cursor = some (Pages.page (·.cursor) items limit.toNat cursor) := by
  set left := Pages.after (·.cursor) cursor items with hleft
  have hvisible : upTo left limit = left.take limit.toNat := by rw [upTo, if_pos (by omega)]
  have htimeline : timeline hmac codec s t r cursor limit = .ok
      { items := left.take limit.toNat
        nextCursor := if limit < left.length then
          (left.take limit.toNat).getLast?.map fun last => codec.encode hmac t r last.cursor else none } := by
    rw [timeline, timeline_events]
    show (projectTimeline cursor none ((runEvents (s.events t) r).take 500) >>= _) = _
    rw [projectTimeline_after cursor hitems, ← hvisible]
    rfl
  rw [readPage, htimeline, Pages.page, ← hleft]
  by_cases hmore : limit < left.length
  · have hmore' : limit.toNat < left.length := by omega
    simp only [if_pos hmore, if_pos hmore']
    cases hlast : (left.take limit.toNat).getLast? with
    | none => rfl
    | some last =>
      have hmem : last ∈ items := by
        have htake := List.mem_of_getLast? hlast
        exact (List.mem_filter.mp (List.mem_of_mem_take htake)).1
      simp only [Option.map_some, decode_token hinv hsize (projectTimeline_shows hitems) hmem,
        Int.toNat_natCast]
  · have hmore' : ¬limit.toNat < left.length := by omega
    simp only [if_neg hmore, if_neg hmore']

/-- Following the tokens shows the first 500 events of the run. -/
theorem follows_items (hinv : LedgerInvariant sha s) (hlimit : 1 ≤ limit)
    (hsize : (s.events t).length < 2 ^ 63) {items : List TimelineItem}
    (hitems : projectTimeline 0 none ((runEvents (s.events t) r).take 500) = .ok items) :
    Pages.Follows (readPage hmac codec s t r limit) 0 items := by
  have hcursors := (projectTimeline_shows hitems).cursors
  have hinc : Pages.Increasing (·.cursor) items := by
    have hevents : Pages.Increasing (·.tenantCursor) ((runEvents (s.events t) r).take 500) :=
      ((hinv.chain t).run_increasing r).sublist (List.take_sublist _ _)
    rw [← Pages.increasing_map, ← hcursors] at hevents
    exact Pages.increasing_map.mp hevents
  have hall : Pages.after (·.cursor) 0 items = items := Pages.after_all fun item _ => item.cursor_ok
  have hread : ∀ cursor, readPage hmac codec s t r limit cursor =
      some (Pages.page (·.cursor) items limit.toNat cursor) :=
    fun cursor => readPage_page hinv hlimit hsize hitems cursor
  have hpositive : 1 ≤ limit.toNat := by omega
  have hfollows := Pages.follows_after hinc hpositive hread _ 0 (le_refl _)
  rwa [hall] at hfollows

/-- A page that is read has projected the whole loop. -/
theorem projected_of_follows {items : List TimelineItem}
    (h : Pages.Follows (readPage hmac codec s t r limit) 0 items) :
    ∃ shown, projectTimeline 0 none ((runEvents (s.events t) r).take 500) = .ok shown := by
  have hread : ∃ page, readPage hmac codec s t r limit 0 = some page := by
    cases h with
    | last hread => exact ⟨_, hread⟩
    | next hread _ => exact ⟨_, hread⟩
  obtain ⟨page, hread⟩ := hread
  unfold readPage at hread
  split at hread
  · cases hread
  rename_i page' htimeline
  rw [timeline, timeline_events] at htimeline
  obtain ⟨events, hevents, htimeline⟩ := except_bind_ok.mp htimeline
  cases hevents
  obtain ⟨shown, hshown, -⟩ := except_bind_ok.mp htimeline
  exact ⟨shown, hshown⟩

/-- A timeline is complete exactly when its run fits the page of events and its failure codes are
    identifiers. -/
theorem timelineComplete_iff (hinv : LedgerInvariant sha s) (hlimit : 1 ≤ limit)
    (hsize : (s.events t).length < 2 ^ 63) :
    TimelineComplete hmac codec s t r limit ↔
      (runEvents (s.events t) r).length ≤ 500 ∧ ∀ e ∈ runEvents (s.events t) r, FailureCodeShown e := by
  set events := runEvents (s.events t) r with hevents
  constructor
  · rintro ⟨items, hfollows, hshows⟩
    obtain ⟨shown, hshown⟩ := projected_of_follows hfollows
    have hitems : items = shown := hfollows.unique (follows_items hinv hlimit hsize hshown)
    have hlength : shown.length = (events.take 500).length := (projectTimeline_shows hshown).1
    have hall : shown.length = events.length := by rw [← hitems]; exact hshows.1
    have hbound : events.length ≤ 500 := by
      rw [List.length_take] at hlength
      omega
    refine ⟨hbound, ?_⟩
    rw [← hevents, List.take_of_length_le hbound] at hshown
    exact (projectTimeline_ok (hinv.runs t r)).mp ⟨shown, hshown⟩
  · rintro ⟨hbound, hcodes⟩
    obtain ⟨items, hitems⟩ := (projectTimeline_ok (hinv.runs t r)).mpr hcodes
    refine ⟨items, follows_items hinv hlimit hsize ?_, projectTimeline_shows hitems⟩
    rw [← hevents, List.take_of_length_le hbound]
    exact hitems

end

/-! ## A run of 501 events -/

def letter (i : Nat) : Char := Char.ofNat (97 + i % 26)

/-- Two letters, different for the numbers below 676. -/
def noteId (i : Nat) : Identifier :=
  ⟨String.ofList [letter (i / 26), letter i], by
    have hletter : ∀ i : Fin 26, identifierChar (Char.ofNat (97 + i.val)) = true := by decide
    have h1 := hletter ⟨i / 26 % 26, Nat.mod_lt _ (by decide)⟩
    have h2 := hletter ⟨i % 26, Nat.mod_lt _ (by decide)⟩
    simp only [isIdentifier, isReference, String.toList_ofList, List.all_cons, List.all_nil, letter, h1, h2]
    rfl⟩

theorem letter_inj {i j : Nat} (h : letter i = letter j) : i % 26 = j % 26 := by
  have hletter : ∀ i j : Fin 26, Char.ofNat (97 + i.val) = Char.ofNat (97 + j.val) → i.val = j.val := by
    decide
  exact hletter ⟨i % 26, Nat.mod_lt _ (by decide)⟩ ⟨j % 26, Nat.mod_lt _ (by decide)⟩ h

theorem noteId_ne_first (i : Nat) : (noteId i).val ≠ "e1" := by
  intro h
  have hletter : ∀ i : Fin 26, Char.ofNat (97 + i.val) ≠ '1' := by decide
  have hchars : [letter (i / 26), letter i] = "e1".toList := by
    rw [← h]
    exact (String.toList_ofList).symm
  exact hletter ⟨i % 26, Nat.mod_lt _ (by decide)⟩ (List.cons.inj (List.cons.inj hchars).2).1

theorem noteId_inj {i j : Nat} (hi : i < 676) (hj : j < 676) (h : (noteId i).val = (noteId j).val) :
    i = j := by
  have hchars : [letter (i / 26), letter i] = [letter (j / 26), letter j] := String.ofList_inj.mp h
  obtain ⟨hhigh, hrest⟩ := List.cons.inj hchars
  have h1 := letter_inj hhigh
  have h2 := letter_inj (List.cons.inj hrest).1
  omega

/-- One more event of the run of `startRunOp`. -/
def graphOp (i : Nat) : Op :=
  .append "t" "investigation" "r" (i + 1 : Nat) [shortDraft (noteId i)
    ⟨"investigation.graph_completed", computed⟩ 1 ∅ schema_one payload_empty] [] []

def longOps (n : Nat) : List Op := startRunOp :: (List.range n).map graphOp

theorem reduceRun_next {current run : RunView} {event : ApplicationEvent}
    (h : reduceRun (some current) event = .ok run) :
    eventStatus (some current) event.eventType.val = some run.status ∧ run.version = current.version + 1 := by
  unfold reduceRun at h
  split at h
  · cases h
  · rename_i status hstatus
    obtain ⟨code, -, h⟩ := except_bind_ok.mp h
    dsimp only at h
    split at h
    · cases h
    · rename_i hsequence
      obtain ⟨-, -, h⟩ := except_bind_ok.mp h
      rw [← Except.ok.inj h]
      exact ⟨hstatus, not_not.mp hsequence⟩

/-- The ledger after `n` more events. -/
structure LongRun (s : Store) (n : Nat) : Prop where
  run : ∃ current, s.runs ("t", "r") = some current ∧ current.version = n + 1 ∧
    (current.status = .queued ∨ current.status = .running)
  length : (s.events "t").length = n + 1 ∧ (runEvents (s.events "t") "r").length = n + 1
  ids : ∀ id ∈ (s.events "t").map (·.eventId.val), id = "e1" ∨ ∃ i < n, id = (noteId i).val

theorem LongRun.step {sha : Sha256} {s : Store} {n : Nat} (hinv : LedgerInvariant sha s) (h : LongRun s n)
    (hn : n < 676) : LongRun (Durability.step sha s (graphOp n)).2 (n + 1) := by
  obtain ⟨current, hrun, hversion, hstatus⟩ := h.run
  have hadmits : StatusAdmits current "investigation.graph_completed" := by
    refine ⟨.running, rfl, ?_⟩
    rcases hstatus with hq | hr
    · rw [hq]; rfl
    · rw [hr]; rfl
  set draft := shortDraft (noteId n) ⟨"investigation.graph_completed", by decide⟩ 1 ∅ (by decide)
    (by decide +kernel) with hdraft
  have hfresh : (("t" : String), draft.eventId.val) ∉ s.eventIds := by
    rw [hinv.eventIds]
    intro hmem
    rcases h.ids _ hmem with hfirst | ⟨i, hi, hsame⟩
    · exact noteId_ne_first n hfirst
    · have := noteId_inj hn (by omega) hsame
      omega
  have hkey : s.runs ((⟨"t", by decide⟩ : Identifier).val, (⟨"r", by decide⟩ : Identifier).val)
      = some current := hrun
  obtain ⟨e, projected, s', happended⟩ := appended_event draft [] [] hinv hkey hadmits ⟨none, rfl⟩ hfresh
    ⟨List.nodup_nil, fun m hm => absurd hm List.not_mem_nil⟩
    ⟨List.nodup_nil, fun m hm => absurd hm List.not_mem_nil⟩
  have hstate : (Durability.step sha s (graphOp n)).2 = s' := by
    have happend : Exec.Sat (append sha "t" "investigation" "r" (n + 1 : Nat) [draft] [] []) s
        (fun _ after => after = s') (fun _ after => after = s') := by
      unfold append
      refine Exec.Sat.check (fun hno => absurd ⟨List.cons_ne_nil _ _, Nat.le_add_left 1 31⟩ hno) fun _ => ?_
      rw [← hversion]
      exact (appendLocked_fits happended).mono (fun _ _ h => h.2) (fun _ _ h => False.elim h)
    exact Exec.Sat.state (I := fun after => after = s') (Exec.Sat.call happend (fun _ _ h => h)
      fun _ _ h => h)
  obtain ⟨next, hrecords, hevents, hreduce, hruns⟩ := happended.single hinv
  have hlast : e ∈ s.events "t" ++ [e] := List.mem_append_right _ (List.mem_singleton_self _)
  obtain ⟨hchain, hkeys, -⟩ := happended.chain hinv
  have hown : e.aggregate = ("investigation", "r") := hkeys e (List.mem_singleton_self _)
  have hall : s'.events "t" = s.events "t" ++ [e] := by rw [hevents]; exact Function.update_self _ _ _
  have hrun' : runEvents (s'.events "t") "r" = runEvents (s.events "t") "r" ++ [e] := by
    rw [hall, runEvents, List.filter_append, ← runEvents, ← runEvents, runEvents_cons_of_key hown]
    rfl
  rw [hrun] at hreduce
  obtain ⟨hnext, hsequence⟩ := reduceRun_next hreduce
  obtain ⟨hid, htype, -⟩ := hrecords
  rw [htype] at hnext
  rw [hstate]
  refine ⟨⟨next, by rw [hruns]; exact Function.update_self _ _ _, by omega, .inr ?_⟩, ?_, ?_⟩
  · exact (Option.some.inj hnext).symm
  · rw [hrun', hall, List.length_append, List.length_append, h.length.1, h.length.2]
    exact ⟨rfl, rfl⟩
  · intro id hmem
    rw [hall, List.map_append, List.mem_append] at hmem
    rcases hmem with hold | hnew
    · rcases h.ids id hold with hfirst | ⟨i, hi, hsame⟩
      · exact .inl hfirst
      · exact .inr ⟨i, by omega, hsame⟩
    · rw [List.map_singleton, List.mem_singleton, hid] at hnew
      exact .inr ⟨n, by omega, hnew⟩

/-- The ledger of `longOps`. -/
theorem longRun (n : Nat) (hn : n ≤ 676) : LongRun (run Sha256.constant (longOps n)) n := by
  induction n with
  | zero =>
    have hrun : ((run Sha256.constant (longOps 0)).runs ("t", "r")).any
        (fun current => decide (current.version = 1 ∧ current.status = .queued)) = true := by decide +kernel
    obtain ⟨current, hcurrent, hfirst⟩ := (Option.any_eq_true _ _).mp hrun
    have hfirst := of_decide_eq_true hfirst
    have hids : ((run Sha256.constant (longOps 0)).events "t").map (·.eventId.val) = ["e1"] := by
      decide +kernel
    refine ⟨⟨current, hcurrent, hfirst.1, .inl hfirst.2⟩, by decide +kernel, ?_⟩
    intro id hid
    rw [hids] at hid
    exact .inl (List.mem_singleton.mp hid)
  | succ n ih =>
    have hops : run Sha256.constant (longOps (n + 1))
        = (Durability.step Sha256.constant (run Sha256.constant (longOps n)) (graphOp n)).2 := by
      rw [longOps, List.range_succ, List.map_append, List.map_singleton, ← List.cons_append, ← longOps, run,
        Machine.final_append]
      rfl
    rw [hops]
    exact (ih (by omega)).step (ledgerInvariant_run _ _) (by omega)

open CursorCodec (sampleHmac sampleCodec)

theorem longRun_events {n : Nat} (hn : n ≤ 676) :
    ((run Sha256.constant (longOps n)).events "t").length < 2 ^ 63 := by
  rw [(longRun n hn).length.1]
  omega

/-- **Completeness of the timeline.**  In a reachable store whose ledger of the tenant fits a list, following
    the pages of a run shows every event of it once, in order and at its status, exactly when the run has at
    most 500 events and every failure code in it can be shown. -/
theorem timeline_complete (sha : Sha256) (hmac : Hmac) (codec : CursorCodec) (ops : List Op) (t r : String)
    (limit : Int) (hlimit : 1 ≤ limit) (hsize : ((run sha ops).events t).length < 2 ^ 63) :
    TimelineComplete hmac codec (run sha ops) t r limit ↔
      (runEvents ((run sha ops).events t) r).length ≤ 500 ∧
        ∀ e ∈ runEvents ((run sha ops).events t) r, FailureCodeShown e :=
  timelineComplete_iff (ledgerInvariant_run sha ops) hlimit hsize

/-- The timeline of the run of `startRunOp`. -/
theorem timeline_complete_started :
    TimelineComplete sampleHmac sampleCodec (run Sha256.constant (longOps 0)) "t" "r" 50 := by
  refine (timeline_complete Sha256.constant sampleHmac sampleCodec (longOps 0) "t" "r" 50 (by decide)
    (longRun_events (Nat.zero_le _))).mpr ⟨by rw [(longRun 0 (Nat.zero_le _)).length.2]; decide, ?_⟩
  intro e he code hcode
  have hcodes : ((run Sha256.constant (longOps 0)).events "t").all
      (fun e => (e.payload.lookup "failure_code").isNone) = true := by decide +kernel
  have hnone := List.all_eq_true.mp hcodes e (List.mem_filter.mp he).1
  rw [hcode] at hnone
  cases hnone

/-- **A timeline that is not complete.**  A run of 501 events: the last one is on no page. -/
theorem timeline_incomplete :
    (runEvents ((run Sha256.constant (longOps 500)).events "t") "r").length = 501 ∧
    ¬TimelineComplete sampleHmac sampleCodec (run Sha256.constant (longOps 500)) "t" "r" 50 := by
  have hlength := (longRun 500 (by omega)).length.2
  refine ⟨hlength, fun hcomplete => ?_⟩
  have hbound := ((timelineComplete_iff (ledgerInvariant_run _ _) (by decide)
    (longRun_events (by omega))).mp hcomplete).1
  omega

end Durability

end Aegis
