/-
  RATE LIMITS.

  The model gateway and the embedding gateway keep, for each tenant, a window of the calls they admitted in
  the last minute, and drop old entries only when the tenant calls again.  Both are the sliding windows of
  `Lib.Window`: `_check_rate` is one visit, and `embed` makes one when its circuit is closed; what comes
  after the window there, the budget of calls, may still stop a call that the window let pass.

  So both obey the same laws, over every history in which the clock does not go back (`rates_limited`): a
  call is rejected exactly when the tenant had as many admissions as the limit in the minute before it, and
  no half-open minute holds more.  The calls of other tenants change nothing.
-/
import Mathlib
import Aegis.Lib.Machine
import Aegis.Lib.Window
import Aegis.Memory.Embedding
import Aegis.Model.Costs

namespace Aegis

namespace Model

open Window (Visit Verdict enter visit)
open Machine (Entry)
open Memory (EmbeddingRequest)
open Memory.Embedding (EmbeddingAnswer Op State ReachesWindow rateExhausted verdict)

/-- How many of the times lie in the minute up to a time. -/
def lastMinute (time : Datetime) (times : List Datetime) : Nat :=
  (Window.later Datetime.instant (time.instant - minute) times).length

/-- No half-open minute holds more than `limit` of the times. -/
def MinuteBound (limit : Nat) (times : List Datetime) : Prop :=
  ∀ start : Int,
    times.countP (fun t => decide (start ≤ t.instant ∧ t.instant < start + minute)) ≤ limit ∧
    times.countP (fun t => decide (start < t.instant ∧ t.instant ≤ start + minute)) ≤ limit

theorem minuteBound_of_run {κ : Type} [DecidableEq κ] {limit : Nat}
    {h : List (Visit κ Datetime × Verdict)} {s : κ → List Datetime}
    (hrun : Window.Run Datetime.instant limit minute h s) (horder : Window.InOrder Datetime.instant h)
    (k : κ) : MinuteBound limit (Window.admissions h k) := by
  intro start
  refine ⟨hrun.bounded horder k fun a b ha hb => ?_, hrun.bounded horder k fun a b ha hb => ?_⟩
  · have ha' := of_decide_eq_true ha
    have hb' := of_decide_eq_true hb
    omega
  · have ha' := of_decide_eq_true ha
    have hb' := of_decide_eq_true hb
    omega

/-- The clock does not go back. -/
def InClockOrder (times : List Datetime) : Prop := times.Pairwise fun a b => a.instant ≤ b.instant

/-- The calls of a history are those that were made. -/
theorem ops_trace {σ α ρ : Type} (step : σ → α → ρ × σ) (s : σ) (ops : List α) :
    (Machine.trace step s ops).map Entry.op = ops := by
  induction ops generalizing s with
  | nil => rfl
  | cons a ops ih => exact congrArg (a :: ·) (ih (step s a).2)

/-! ## The model gateway -/

/-- A call of `_check_rate`: the tenant, and the time its clock shows. -/
structure RateCall where
  tenantId : Identifier
  time : Datetime

variable (ports : Ports) (config : Config)

/-- `_check_rate`, and whether it returned. -/
def rateStep (w : World) (call : RateCall) : Bool × World :=
  ((checkRate { ports with clock := fun _ => call.time } config call.tenantId w).1.isOk,
    (checkRate { ports with clock := fun _ => call.time } config call.tenantId w).2)

abbrev RateEntry : Type := Entry World RateCall Bool

def rateHistory (w : World) (calls : List RateCall) : List RateEntry :=
  Machine.trace (rateStep ports config) w calls

/-- When calls of a tenant were admitted. -/
def rateAdmissions (h : List RateEntry) (tenantId : Identifier) : List Datetime :=
  (h.filter fun e => decide (e.op.tenantId = tenantId ∧ e.result = true)).map fun e => e.op.time

/-- The visit that a call is. -/
def RateCall.visit (call : RateCall) : Visit Identifier Datetime := ⟨call.tenantId, call.time, true⟩

def rateVerdict (result : Bool) : Verdict := if result = true then .admitted else .refused

theorem rateVerdict_admitted {result : Bool} : rateVerdict result = .admitted ↔ result = true := by
  cases result <;> decide

theorem rateVerdict_inj {result result' : Bool} (h : rateVerdict result = rateVerdict result') :
    result = result' := by
  cases result <;> cases result' <;> first | rfl | cases h

theorem rateVerdict_refused {result : Bool} : rateVerdict result = .refused ↔ result = false := by
  cases result <;> decide

/-- `_check_rate` decides and records what entering the window does. -/
theorem checkRate_enter (w : World) (tenantId : Identifier) (time : Datetime) :
    ((checkRate { ports with clock := fun _ => time } config tenantId w).1.isOk = true ↔
        (enter Datetime.instant config.rateLimit minute (w.rateWindows tenantId) time true).1 =
          .admitted) ∧
      (checkRate { ports with clock := fun _ => time } config tenantId w).2.rateWindows =
        Function.update w.rateWindows tenantId
          (enter Datetime.instant config.rateLimit minute (w.rateWindows tenantId) time true).2 := by
  generalize hkept : Window.trim Datetime.instant (time.instant - minute) (w.rateWindows tenantId) = kept
  have hrun : checkRate { ports with clock := fun _ => time } config tenantId w =
      (if config.rateLimit ≤ kept.length then raiseInvocation .rateLimited true .notBilled
      else Exec.modify fun w =>
        { w with rateWindows := Function.update w.rateWindows tenantId (kept ++ [time]) })
        { w with
          tick := w.tick + 1
          rateWindows := Function.update w.rateWindows tenantId kept } := by
    rw [← hkept]
    rfl
  rw [hrun, enter, hkept]
  by_cases hfull : config.rateLimit ≤ kept.length
  · rw [if_pos hfull, if_pos hfull]
    exact ⟨⟨fun h => (by cases h), fun h => (by cases h)⟩, rfl⟩
  · rw [if_neg hfull, if_neg hfull, if_pos rfl]
    exact ⟨⟨fun _ => rfl, fun _ => rfl⟩, Function.update_idem _ _ _⟩

theorem enter_proceeds {limit : Nat} {window : List Datetime} {time : Datetime}
    (h : (enter Datetime.instant limit minute window time true).1 ≠ .admitted) :
    (enter Datetime.instant limit minute window time true).1 = .refused := by
  unfold enter at h ⊢
  dsimp only at h ⊢
  split
  · rfl
  · rename_i hroom
    exact absurd rfl (by rwa [if_neg hroom, if_pos rfl] at h)

/-- **`_check_rate` is a visit of the window.** -/
theorem rateStep_visit (w : World) (call : RateCall) :
    (rateVerdict (rateStep ports config w call).1, (rateStep ports config w call).2.rateWindows) =
      visit Datetime.instant config.rateLimit minute w.rateWindows call.visit := by
  obtain ⟨hdecided, hwindows⟩ := checkRate_enter ports config w call.tenantId call.time
  refine Prod.ext ?_ hwindows
  by_cases hadmitted : (rateStep ports config w call).1 = true
  · exact (rateVerdict_admitted.mpr hadmitted).trans (hdecided.mp hadmitted).symm
  · have hrefused := enter_proceeds fun h => hadmitted (hdecided.mpr h)
    exact (rateVerdict_refused.mpr (Bool.eq_false_of_not_eq_true hadmitted)).trans hrefused.symm

/-- The visits of a history. -/
def rateVisits (h : List RateEntry) : List (Visit Identifier Datetime × Verdict) :=
  h.map fun e => (e.op.visit, rateVerdict e.result)

theorem rateVisits_admissions (h : List RateEntry) (tenantId : Identifier) :
    Window.admissions (rateVisits h) tenantId = rateAdmissions h tenantId := by
  rw [Window.admissions, rateVisits, List.filter_map, List.map_map, rateAdmissions]
  refine congrArg (List.map fun e : RateEntry => e.op.time) (List.filter_congr fun e _ => ?_)
  exact decide_eq_decide.mpr (and_congr_right fun _ => rateVerdict_admitted)

/-- A history is a run of the windows. -/
theorem rateHistory_run {w : World} (hw : w.rateWindows = fun _ => []) (calls : List RateCall) :
    Window.Run Datetime.instant config.rateLimit minute (rateVisits (rateHistory ports config w calls))
      (Machine.final (rateStep ports config) w calls).rateWindows := by
  refine Machine.history_induction (I := fun h w => Window.Run Datetime.instant config.rateLimit minute
    (rateVisits h) w.rateWindows) (by rw [hw]; exact .start) (fun h w call ih => ?_) calls
  have hvisit := rateStep_visit ports config w call
  have hsnoc := Window.Run.snoc call.visit ih
  rw [← hvisit] at hsnoc
  rw [rateVisits, List.map_append]
  exact hsnoc

theorem rateVisits_inOrder {w : World} {calls : List RateCall}
    (horder : InClockOrder (calls.map fun call => call.time)) :
    Window.InOrder Datetime.instant (rateVisits (rateHistory ports config w calls)) := by
  have hops := ops_trace (rateStep ports config) w calls
  rw [← hops, InClockOrder, List.map_map, List.pairwise_map] at horder
  exact List.pairwise_map.mpr horder

/-- A call is rejected if and only if its tenant was admitted as often as the limit in the last minute. -/
theorem rate_refused {w : World} (hw : w.rateWindows = fun _ => []) {calls : List RateCall}
    (horder : InClockOrder (calls.map fun call => call.time)) {pre post : List RateEntry} {e : RateEntry}
    (hsplit : rateHistory ports config w calls = pre ++ e :: post) :
    e.result = false ↔ config.rateLimit ≤ lastMinute e.op.time (rateAdmissions pre e.op.tenantId) := by
  have hvisits : rateVisits (rateHistory ports config w calls) =
      rateVisits pre ++ (e.op.visit, rateVerdict e.result) :: rateVisits post := by
    rw [hsplit, rateVisits, List.map_append, List.map_cons, rateVisits, rateVisits]
  have hrefused := (rateHistory_run ports config hw calls).refused_at
    (rateVisits_inOrder ports config horder) hvisits
  rw [rateVisits_admissions] at hrefused
  exact rateVerdict_refused.symm.trans hrefused

/-- The calls of a tenant, with what was decided about them. -/
def rateDecisions (h : List RateEntry) (tenantId : Identifier) : List (Datetime × Bool) :=
  (h.filter fun e => decide (e.op.tenantId = tenantId)).map fun e => (e.op.time, e.result)

theorem rateDecisions_cons (w : World) (call : RateCall) (calls : List RateCall) (tenantId : Identifier) :
    rateDecisions (rateHistory ports config w (call :: calls)) tenantId =
      (if call.tenantId = tenantId then [(call.time, (rateStep ports config w call).1)] else []) ++
        rateDecisions (rateHistory ports config (rateStep ports config w call).2 calls) tenantId := by
  show List.map _ (List.filter _ (Machine.entry (rateStep ports config) w call :: _)) = _
  by_cases hown : call.tenantId = tenantId
  · have hkept : decide ((Machine.entry (rateStep ports config) w call).op.tenantId = tenantId) = true :=
      decide_eq_true hown
    rw [List.filter_cons, if_pos hkept, if_pos hown]
    rfl
  · have hdropped : decide ((Machine.entry (rateStep ports config) w call).op.tenantId = tenantId) = false :=
      decide_eq_false hown
    rw [List.filter_cons, if_neg (by rw [hdropped]; decide), if_neg hown]
    rfl

/-- The calls of other tenants change no decision. -/
theorem rateDecisions_own (tenantId : Identifier) (calls : List RateCall) {w w' : World}
    (hw : w.rateWindows tenantId = w'.rateWindows tenantId) :
    rateDecisions (rateHistory ports config w calls) tenantId =
      rateDecisions (rateHistory ports config w' (calls.filter fun call => call.tenantId = tenantId))
        tenantId := by
  induction calls generalizing w w' with
  | nil => rfl
  | cons call calls ih =>
    have hvisit := rateStep_visit ports config w call
    rw [rateDecisions_cons]
    by_cases hown : call.tenantId = tenantId
    · have hvisit' := rateStep_visit ports config w' call
      obtain ⟨hverdict, hwindow⟩ := Window.visit_same Datetime.instant config.rateLimit minute
        call.visit (show w.rateWindows call.tenantId = w'.rateWindows call.tenantId by rw [hown]; exact hw)
      rw [← hvisit, ← hvisit'] at hverdict hwindow
      have hwindows : (rateStep ports config w call).2.rateWindows tenantId
          = (rateStep ports config w' call).2.rateWindows tenantId := by
        rw [← hown]
        exact hwindow
      rw [List.filter_cons_of_pos (by simpa using hown), rateDecisions_cons, if_pos hown, if_pos hown,
        rateVerdict_inj hverdict, ih hwindows]
    · have hwindow : (rateStep ports config w call).2.rateWindows tenantId = w'.rateWindows tenantId :=
        (congrFun (congrArg Prod.snd hvisit) tenantId).trans ((Window.visit_other hown).trans hw)
      rw [List.filter_cons_of_neg (by simpa using hown), if_neg hown, List.nil_append]
      exact ih hwindow

/-! ## The embedding gateway -/

section

variable (sha : Sha256) (limits : Memory.Embedding.Config) (exceeded : Int → FloatText → Bool)

abbrev EmbedEntry : Type := Entry State Op (Except Error (Option EmbeddingAnswer))

def embedHistory (ops : List Op) : List EmbedEntry :=
  Machine.trace (Memory.Embedding.step sha limits exceeded) (State.new limits) ops

/-- The admission of an entry, when it is a start of the tenant that passed all gates. -/
def embedAdmission (tenantId : Identifier) (e : EmbedEntry) : Option Datetime :=
  match e.op with
  | .start request time => if request.tenantId = tenantId ∧ e.result.isOk = true then some time else none
  | .finish .. => none

/-- When calls of a tenant were admitted. -/
def embedAdmissions (h : List EmbedEntry) (tenantId : Identifier) : List Datetime :=
  h.filterMap (embedAdmission tenantId)

/-- The visit an entry makes: none unless it is a start that gets to the window. -/
def embedVisit (e : EmbedEntry) :
    Option (Visit Identifier Datetime × Verdict) :=
  match e.op with
  | .start request time =>
    if ReachesWindow sha limits e.before request time then
      some (⟨request.tenantId, time, decide (e.before.remaining ≠ 0)⟩, verdict e.result)
    else none
  | .finish .. => none

def embedVisits (h : List EmbedEntry) :
    List (Visit Identifier Datetime × Verdict) := h.filterMap (embedVisit sha limits)

theorem verdict_admitted {result : Except Error (Option EmbeddingAnswer)} :
    verdict result = .admitted ↔ result.isOk = true := by
  cases result with
  | ok answer => exact ⟨fun _ => rfl, fun _ => rfl⟩
  | error e =>
    refine ⟨fun h => ?_, fun h => (by cases h)⟩
    unfold verdict at h
    dsimp only at h
    split at h <;> cases h

theorem verdict_eq_refused {result : Except Error (Option EmbeddingAnswer)} :
    verdict result = .refused ↔ result = .error rateExhausted := by
  cases result with
  | ok answer => exact ⟨fun h => (by cases h), fun h => (by cases h)⟩
  | error e =>
    unfold verdict
    dsimp only
    by_cases he : e = rateExhausted
    · rw [he, if_pos rfl]
      exact ⟨fun _ => rfl, fun _ => rfl⟩
    · rw [if_neg he]
      exact ⟨fun h => (by cases h), fun h => absurd (Except.error.inj h) he⟩

/-- The entry of an operation. -/
abbrev embedEntry (s : State) (op : Op) : EmbedEntry := Machine.entry (Memory.Embedding.step sha limits exceeded) s op

theorem embedVisit_reaches {s : State} {request : EmbeddingRequest} {time : Datetime}
    (h : ReachesWindow sha limits s request time) :
    embedVisit sha limits (embedEntry sha limits exceeded s (.start request time)) =
      some (⟨request.tenantId, time, decide (s.remaining ≠ 0)⟩,
        verdict (Memory.Embedding.step sha limits exceeded s (.start request time)).1) := if_pos h

theorem embedVisit_stopped {s : State} {request : EmbeddingRequest} {time : Datetime}
    (h : ¬ReachesWindow sha limits s request time) :
    embedVisit sha limits (embedEntry sha limits exceeded s (.start request time)) = none := if_neg h

/-- The admission of a visit is the admission of its entry. -/
theorem embedVisit_admission (s : State) (op : Op) (tenantId : Identifier) :
    Window.admissions (embedVisit sha limits (embedEntry sha limits exceeded s op)).toList tenantId =
      (embedAdmission tenantId (embedEntry sha limits exceeded s op)).toList := by
  cases op with
  | finish index answer time => rfl
  | start request time =>
    have hadmission : embedAdmission tenantId (embedEntry sha limits exceeded s (.start request time)) =
        if request.tenantId = tenantId ∧
          (Memory.Embedding.step sha limits exceeded s (.start request time)).1.isOk = true
        then some time else none := rfl
    rw [hadmission]
    by_cases hreaches : ReachesWindow sha limits s request time
    · rw [embedVisit_reaches sha limits exceeded hreaches, Option.toList_some, Window.admissions_single]
      by_cases hok : request.tenantId = tenantId ∧
          (Memory.Embedding.step sha limits exceeded s (.start request time)).1.isOk = true
      · rw [if_pos hok, if_pos ⟨hok.1, verdict_admitted.mpr hok.2⟩]
        rfl
      · rw [if_neg hok, if_neg fun h => hok ⟨h.1, verdict_admitted.mp h.2⟩]
        rfl
    · have hstopped := (Memory.Embedding.start_stopped sha limits exceeded hreaches).1
      rw [embedVisit_stopped sha limits exceeded hreaches, if_neg fun h => ?_]
      · rfl
      · rw [verdict_admitted.mpr h.2] at hstopped
        cases hstopped

theorem filterMap_one {α β : Type} (f : α → Option β) (a : α) : [a].filterMap f = (f a).toList := by
  cases h : f a with
  | none => rw [List.filterMap_cons_none h]; rfl
  | some b => rw [List.filterMap_cons_some h]; rfl

/-- A history is a run of the windows, and its admissions are those of the run. -/
theorem embedHistory_run (ops : List Op) :
    Window.Run Datetime.instant limits.rateLimit minute
        (embedVisits sha limits (embedHistory sha limits exceeded ops))
        (Machine.final (Memory.Embedding.step sha limits exceeded) (State.new limits) ops).rateWindows ∧
      ∀ tenantId, Window.admissions (embedVisits sha limits (embedHistory sha limits exceeded ops)) tenantId =
        embedAdmissions (embedHistory sha limits exceeded ops) tenantId := by
  refine Machine.history_induction (I := fun h s => Window.Run Datetime.instant limits.rateLimit minute
    (embedVisits sha limits h) s.rateWindows ∧ ∀ tenantId,
      Window.admissions (embedVisits sha limits h) tenantId = embedAdmissions h tenantId)
    ⟨.start, fun _ => rfl⟩ (fun h s op ⟨hrun, hadmissions⟩ => ?_) ops
  have hsplit : ∀ e : EmbedEntry, embedVisits sha limits (h ++ [e]) =
      embedVisits sha limits h ++ (embedVisit sha limits e).toList := by
    intro e
    rw [embedVisits, List.filterMap_append, embedVisits, filterMap_one]
  refine ⟨?_, fun tenantId => ?_⟩
  · rw [hsplit]
    cases op with
    | finish index answer time =>
      have hwindows := (Memory.Embedding.finish_leaves sha limits exceeded
        index answer time s).state
      show Window.Run _ _ _ (embedVisits sha limits h ++ []) _
      rw [List.append_nil]
      rw [show (Memory.Embedding.step sha limits exceeded s (.finish index answer time)).2.rateWindows
        = s.rateWindows from hwindows]
      exact hrun
    | start request time =>
      by_cases hreaches : ReachesWindow sha limits s request time
      · have hsnoc := Window.Run.snoc
          (⟨request.tenantId, time, decide (s.remaining ≠ 0)⟩ : Visit Identifier Datetime) hrun
        rw [embedVisit_reaches sha limits exceeded hreaches]
        have hvisit := Memory.Embedding.start_visit sha limits exceeded hreaches
        rw [show Memory.Embedding.minute = minute from rfl] at hvisit
        rw [← hvisit] at hsnoc
        exact hsnoc
      · have hwindows := (Memory.Embedding.start_stopped sha limits exceeded hreaches).2
        rw [embedVisit_stopped sha limits exceeded hreaches, hwindows, Option.toList_none, List.append_nil]
        exact hrun
  · rw [hsplit, Window.admissions_append, hadmissions, embedVisit_admission, embedAdmissions,
      embedAdmissions, List.filterMap_append, filterMap_one]

/-- The visits of a history are among its starts. -/
theorem embedVisits_times (h : List EmbedEntry) :
    ((embedVisits sha limits h).map fun e => e.1.now).Sublist ((h.map Entry.op).filterMap Op.startTime) := by
  induction h with
  | nil => exact List.Sublist.refl _
  | cons e h ih =>
    rw [embedVisits, List.map_cons]
    cases hop : e.op with
    | finish index answer time =>
      rw [List.filterMap_cons_none (by rw [embedVisit, hop]), List.filterMap_cons_none rfl]
      exact ih
    | start request time =>
      rw [List.filterMap_cons_some (f := Op.startTime) rfl]
      by_cases hreaches : ReachesWindow sha limits e.before request time
      · rw [List.filterMap_cons_some (by rw [embedVisit, hop]; exact if_pos hreaches)]
        exact ih.cons_cons time
      · rw [List.filterMap_cons_none (by rw [embedVisit, hop]; exact if_neg hreaches)]
        exact ih.cons time

theorem embedVisits_inOrder {ops : List Op} (horder : InClockOrder (ops.filterMap Op.startTime)) :
    Window.InOrder Datetime.instant (embedVisits sha limits (embedHistory sha limits exceeded ops)) := by
  have htimes := embedVisits_times sha limits (embedHistory sha limits exceeded ops)
  rw [embedHistory, ops_trace] at htimes
  have hordered : InClockOrder ((embedVisits sha limits (embedHistory sha limits exceeded ops)).map
      fun e => e.1.now) := List.Pairwise.sublist htimes horder
  rw [InClockOrder, List.pairwise_map] at hordered
  exact hordered

/-- A start is refused by the window if and only if it gets there and its tenant was admitted as often as
    the limit in the last minute. -/
theorem embed_refused {ops : List Op} (horder : InClockOrder (ops.filterMap Op.startTime))
    {pre post : List EmbedEntry} {e : EmbedEntry}
    (hsplit : embedHistory sha limits exceeded ops = pre ++ e :: post) {request : EmbeddingRequest}
    {time : Datetime} (hop : e.op = .start request time) :
    e.result = .error rateExhausted ↔ ReachesWindow sha limits e.before request time ∧
      limits.rateLimit ≤ lastMinute time (embedAdmissions pre request.tenantId) := by
  obtain ⟨xs, ys, hops, hpre, hentry, -⟩ := Machine.trace_split hsplit
  rw [hop] at hops hentry
  obtain ⟨hrun, hadmissions⟩ := embedHistory_run sha limits exceeded xs
  generalize Machine.final (Memory.Embedding.step sha limits exceeded) (State.new limits) xs = s at *
  rw [hentry]
  show (Memory.Embedding.step sha limits exceeded s (.start request time)).1 = _ ↔
    ReachesWindow sha limits s request time ∧ _
  rw [← verdict_eq_refused]
  by_cases hreaches : ReachesWindow sha limits s request time
  · rw [hops, List.filterMap_append, InClockOrder, List.pairwise_append] at horder
    obtain ⟨hbefore, -, hlast⟩ := horder
    have hnow : ∀ v ∈ embedVisits sha limits (embedHistory sha limits exceeded xs),
        v.1.now.instant ≤ time.instant := by
      intro v hv
      have htimes := embedVisits_times sha limits (embedHistory sha limits exceeded xs)
      rw [embedHistory, ops_trace] at htimes
      refine hlast _ (htimes.subset (List.mem_map_of_mem hv)) time ?_
      exact List.mem_filterMap.mpr ⟨_, List.mem_cons_self, rfl⟩
    have hrefused := hrun.refused_iff (embedVisits_inOrder sha limits exceeded hbefore)
      (v := ⟨request.tenantId, time, decide (s.remaining ≠ 0)⟩) hnow
    rw [hadmissions, ← show Memory.Embedding.minute = minute from rfl] at hrefused
    rw [← Memory.Embedding.start_visit sha limits exceeded hreaches] at hrefused
    rw [hpre]
    exact hrefused.trans ⟨fun h => ⟨hreaches, h⟩, fun h => h.2⟩
  · rw [(Memory.Embedding.start_stopped sha limits exceeded hreaches).1]
    exact ⟨fun h => (by cases h), fun h => absurd h.1 hreaches⟩

/-- What a step of one tenant leaves alone: the windows of the others. -/
theorem embed_other (s : State) {op : Op} {tenantId : Identifier}
    (hother : ∀ request time, op = .start request time → request.tenantId ≠ tenantId) :
    (Memory.Embedding.step sha limits exceeded s op).2.rateWindows tenantId = s.rateWindows tenantId := by
  cases op with
  | finish index answer time =>
    exact congrFun (Memory.Embedding.finish_leaves sha limits exceeded
      index answer time s).state tenantId
  | start request time =>
    by_cases hreaches : ReachesWindow sha limits s request time
    · have hvisit := congrArg Prod.snd (Memory.Embedding.start_visit sha limits exceeded hreaches)
      exact (congrFun hvisit tenantId).trans (Window.visit_other (hother request time rfl))
    · exact congrFun (Memory.Embedding.start_stopped sha limits exceeded hreaches).2 tenantId

end

/-! ## Both gateways -/

/-- **The rate limits of both gateways are sliding windows of a minute.**

    In every sequence of calls with a clock that does not go back: no half-open minute holds more admissions
    of a tenant than the limit; a call is refused by the limit exactly when it gets to the window and as many
    admissions as the limit lie in the minute before it, so refused calls do not count; and the calls of
    other tenants do not change what the window decides. -/
theorem rates_limited (sha : Sha256) :
    (∀ (ports : Ports) (config : Config) (w : World) (calls : List RateCall),
      w.rateWindows = (fun _ => []) → InClockOrder (calls.map fun call => call.time) →
      (∀ tenantId, MinuteBound config.rateLimit
        (rateAdmissions (rateHistory ports config w calls) tenantId)) ∧
      (∀ pre e post, rateHistory ports config w calls = pre ++ e :: post →
        (e.result = false ↔ config.rateLimit ≤ lastMinute e.op.time (rateAdmissions pre e.op.tenantId))) ∧
      ∀ tenantId, rateDecisions (rateHistory ports config w calls) tenantId =
        rateDecisions (rateHistory ports config w (calls.filter fun call => call.tenantId = tenantId))
          tenantId) ∧
    ∀ (limits : Memory.Embedding.Config) (exceeded : Int → FloatText → Bool) (ops : List Op),
      InClockOrder (ops.filterMap Op.startTime) →
      (∀ tenantId, MinuteBound limits.rateLimit
        (embedAdmissions (embedHistory sha limits exceeded ops) tenantId)) ∧
      (∀ pre e post request time, embedHistory sha limits exceeded ops = pre ++ e :: post →
        e.op = .start request time →
        (e.result = .error rateExhausted ↔ ReachesWindow sha limits e.before request time ∧
          limits.rateLimit ≤ lastMinute time (embedAdmissions pre request.tenantId))) ∧
      ∀ (s : State) (op : Op) (tenantId : Identifier),
        (∀ request time, op = .start request time → request.tenantId ≠ tenantId) →
        (Memory.Embedding.step sha limits exceeded s op).2.rateWindows tenantId = s.rateWindows tenantId := by
  refine ⟨fun ports config w calls hw horder => ⟨fun tenantId => ?_, ?_, ?_⟩,
    fun limits exceeded ops horder => ⟨fun tenantId => ?_, ?_, ?_⟩⟩
  · rw [← rateVisits_admissions]
    exact minuteBound_of_run (rateHistory_run ports config hw calls)
      (rateVisits_inOrder ports config horder) tenantId
  · intro pre e post hsplit
    exact rate_refused ports config hw horder hsplit
  · intro tenantId
    exact rateDecisions_own ports config tenantId calls rfl
  · obtain ⟨hrun, hadmissions⟩ := embedHistory_run sha limits exceeded ops
    rw [← hadmissions]
    exact minuteBound_of_run hrun (embedVisits_inOrder sha limits exceeded horder) tenantId
  · intro pre e post request time hsplit hop
    exact embed_refused sha limits exceeded horder hsplit hop
  · intro s op tenantId hother
    exact embed_other sha limits exceeded s hother

def sampleRateCalls : List RateCall :=
  [⟨⟨"tenant", computed⟩, ⟨0, 0⟩⟩, ⟨⟨"tenant", computed⟩, ⟨0, 0⟩⟩]

/-- Two calls of a tenant at one moment. -/
theorem rates_limited_sample :
    MinuteBound sampleConfig.rateLimit (rateAdmissions (rateHistory samplePorts sampleConfig World.start
      sampleRateCalls) ⟨"tenant", by decide⟩) :=
  ((rates_limited .constant).1 samplePorts sampleConfig World.start sampleRateCalls rfl
    (by unfold InClockOrder sampleRateCalls; simp)).1 _

end Model

end Aegis
