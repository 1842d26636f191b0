/-
  THE CIRCUIT BREAKER, over every sequence of calls.

  Two maps hold its state: how often a peer has failed, and since when its circuit is open.  They are
  written in different branches -- the count rises on failures, also while the circuit is open, falls to
  one below the threshold on a probe, and is cleared by a success; the time is set when it is missing.
  What keeps them together is that the count reaches the threshold exactly while there is a time
  (`Paired`): with a high count and no time a peer would be blocked for good.

  The clock gives floats.  Their difference is rounded; all that is used of rounding is that it is
  monotone and exact on zero and on the cooldown.
-/
import Mathlib
import Aegis.Lib.Machine
import Aegis.Interop.Ledger

namespace Aegis

namespace Interop

/-! ## The breaker -/

/-- The arguments of `CircuitBreaker(...)` that it accepts. -/
structure CircuitConfig where
  failureThreshold : Nat
  cooldownSeconds : ℚ
  threshold_ok : 1 ≤ failureThreshold ∧ failureThreshold ≤ 20
  cooldown_ok : 0 < cooldownSeconds ∧ cooldownSeconds ≤ 3600

/-- Rounding to a float, of a difference of floats. -/
structure Rounding (cooldown : ℚ) where
  round : ℚ → ℚ
  mono : Monotone round
  zero : round 0 = 0
  cooldown : round cooldown = cooldown

structure CircuitState where
  failures : String → Nat
  openedAt : String → Option ℚ

def CircuitState.start : CircuitState := ⟨fun _ => 0, fun _ => none⟩

/-- A call, with what the clock would say. -/
inductive CircuitCall where
  | allow (peerId : String) (now : ℚ)
  | record (peerId : String) (success : Bool) (now : ℚ)

def CircuitCall.peerId : CircuitCall → String
  | .allow peerId _ => peerId
  | .record peerId _ _ => peerId

def CircuitCall.now : CircuitCall → ℚ
  | .allow _ now => now
  | .record _ _ now => now

section

variable (config : CircuitConfig) (float : Rounding config.cooldownSeconds)

/-- `allow`. -/
def circuitAllow (peerId : String) (now : ℚ) (s : CircuitState) : Bool × CircuitState :=
  if s.failures peerId < config.failureThreshold then (true, s)
  else if ∃ opened ∈ s.openedAt peerId, config.cooldownSeconds ≤ float.round (now - opened) then
    (true,
      { failures := Function.update s.failures peerId (config.failureThreshold - 1)
        openedAt := Function.update s.openedAt peerId none })
  else (false, s)

/-- `record`. -/
def circuitRecord (peerId : String) (success : Bool) (now : ℚ) (s : CircuitState) : CircuitState :=
  if success = true then
    { failures := Function.update s.failures peerId 0
      openedAt := Function.update s.openedAt peerId none }
  else
    let failures := s.failures peerId + 1
    { failures := Function.update s.failures peerId failures
      openedAt :=
        if config.failureThreshold ≤ failures then
          Function.update s.openedAt peerId (some ((s.openedAt peerId).getD now))
        else s.openedAt }

/-- One call; `record` answers nothing. -/
def circuitStep (s : CircuitState) : CircuitCall → Option Bool × CircuitState
  | .allow peerId now =>
    (some (circuitAllow config float peerId now s).1, (circuitAllow config float peerId now s).2)
  | .record peerId success now => (none, circuitRecord config peerId success now s)

end

abbrev CircuitEntry : Type := Machine.Entry CircuitState CircuitCall (Option Bool)

section

variable {config : CircuitConfig} {float : Rounding config.cooldownSeconds}

/-! ## What a call does -/

/-- What is kept for a peer. -/
def CircuitState.at (s : CircuitState) (peerId : String) : Nat × Option ℚ :=
  (s.failures peerId, s.openedAt peerId)

/-- What a call does to what is kept for its peer, and what it answers. -/
inductive Turns (config : CircuitConfig) (float : Rounding config.cooldownSeconds) :
    CircuitCall → Nat × Option ℚ → Option Bool → Nat × Option ℚ → Prop
  | closed (peerId : String) (now : ℚ) (x : Nat × Option ℚ) (hbelow : x.1 < config.failureThreshold) :
    Turns config float (.allow peerId now) x (some true) x
  | probe (peerId : String) (now : ℚ) (failures : Nat) (opened : ℚ)
    (hhigh : config.failureThreshold ≤ failures)
    (hcooled : config.cooldownSeconds ≤ float.round (now - opened)) :
    Turns config float (.allow peerId now) (failures, some opened) (some true)
      (config.failureThreshold - 1, none)
  | blocked (peerId : String) (now : ℚ) (x : Nat × Option ℚ) (hhigh : config.failureThreshold ≤ x.1)
    (hwarm : ∀ opened ∈ x.2, ¬config.cooldownSeconds ≤ float.round (now - opened)) :
    Turns config float (.allow peerId now) x (some false) x
  | success (peerId : String) (now : ℚ) (x : Nat × Option ℚ) :
    Turns config float (.record peerId true now) x none (0, none)
  | failure (peerId : String) (now : ℚ) (failures : Nat) (opened : Option ℚ)
    (hbelow : failures + 1 < config.failureThreshold) :
    Turns config float (.record peerId false now) (failures, opened) none (failures + 1, opened)
  | opens (peerId : String) (now : ℚ) (failures : Nat) (opened : Option ℚ)
    (hhigh : config.failureThreshold ≤ failures + 1) :
    Turns config float (.record peerId false now) (failures, opened) none
      (failures + 1, some (opened.getD now))

theorem circuitStep_turns (config : CircuitConfig) (float : Rounding config.cooldownSeconds) (s : CircuitState)
    (c : CircuitCall) :
    Turns config float c (s.at c.peerId) (circuitStep config float s c).1
      ((circuitStep config float s c).2.at c.peerId) := by
  cases c with
  | allow peerId now =>
    show Turns config float _ (s.at peerId) (some (circuitAllow config float peerId now s).1)
      ((circuitAllow config float peerId now s).2.at peerId)
    unfold circuitAllow
    by_cases hbelow : s.failures peerId < config.failureThreshold
    · rw [if_pos hbelow]
      exact .closed peerId now _ hbelow
    rw [if_neg hbelow]
    by_cases hcooled : ∃ opened ∈ s.openedAt peerId, config.cooldownSeconds ≤ float.round (now - opened)
    · rw [if_pos hcooled]
      obtain ⟨opened, hopened, hcooled⟩ := hcooled
      unfold CircuitState.at
      dsimp only
      rw [Function.update_self, Function.update_self, show s.openedAt peerId = some opened from hopened]
      exact .probe peerId now _ opened (Nat.le_of_not_lt hbelow) hcooled
    · rw [if_neg hcooled]
      exact .blocked peerId now _ (Nat.le_of_not_lt hbelow) fun opened hopened hle =>
        hcooled ⟨opened, hopened, hle⟩
  | record peerId success now =>
    show Turns config float _ (s.at peerId) none ((circuitRecord config peerId success now s).at peerId)
    unfold circuitRecord
    cases success with
    | true =>
      rw [if_pos rfl]
      unfold CircuitState.at
      dsimp only
      rw [Function.update_self, Function.update_self]
      exact .success peerId now _
    | false =>
      rw [if_neg (by decide)]
      dsimp only
      unfold CircuitState.at
      dsimp only
      rw [Function.update_self]
      by_cases hhigh : config.failureThreshold ≤ s.failures peerId + 1
      · rw [if_pos hhigh, Function.update_self]
        exact .opens peerId now _ _ hhigh
      · rw [if_neg hhigh]
        exact .failure peerId now _ _ (Nat.lt_of_not_le hhigh)

/-- A call leaves the other peers alone. -/
theorem circuitStep_other (s : CircuitState) (c : CircuitCall) {p : String} (hp : p ≠ c.peerId) :
    (circuitStep config float s c).2.at p = s.at p := by
  cases c with
  | allow peerId now =>
    have hp' : p ≠ peerId := hp
    show (circuitAllow config float peerId now s).2.at p = s.at p
    unfold circuitAllow
    split
    · rfl
    split
    · unfold CircuitState.at
      dsimp only
      rw [Function.update_of_ne hp', Function.update_of_ne hp']
    · rfl
  | record peerId success now =>
    have hp' : p ≠ peerId := hp
    show (circuitRecord config peerId success now s).at p = s.at p
    unfold circuitRecord
    split
    · unfold CircuitState.at
      dsimp only
      rw [Function.update_of_ne hp', Function.update_of_ne hp']
    · unfold CircuitState.at
      dsimp only
      rw [Function.update_of_ne hp']
      split
      · rw [Function.update_of_ne hp']
      · rfl

/-- What a call does depends on what is kept for its peer alone. -/
theorem Turns.unique {c : CircuitCall} {x y y' : Nat × Option ℚ} {r r' : Option Bool}
    (h : Turns config float c x r y) (h' : Turns config float c x r' y') : r = r' ∧ y = y' := by
  cases h with
  | closed peerId now x hbelow =>
    cases h' with
    | closed => exact ⟨rfl, rfl⟩
    | probe _ _ failures opened hhigh hcooled => exact absurd hhigh (Nat.not_le.mpr hbelow)
    | blocked _ _ _ hhigh hwarm => exact absurd hhigh (Nat.not_le.mpr hbelow)
  | probe peerId now failures opened hhigh hcooled =>
    cases h' with
    | closed _ _ _ hbelow => exact absurd hhigh (Nat.not_le.mpr hbelow)
    | probe => exact ⟨rfl, rfl⟩
    | blocked _ _ _ _ hwarm => exact absurd hcooled (hwarm opened rfl)
  | blocked peerId now x hhigh hwarm =>
    cases h' with
    | closed _ _ _ hbelow => exact absurd hhigh (Nat.not_le.mpr hbelow)
    | probe _ _ failures opened _ hcooled => exact absurd hcooled (hwarm opened rfl)
    | blocked => exact ⟨rfl, rfl⟩
  | success peerId now x =>
    cases h'
    exact ⟨rfl, rfl⟩
  | failure peerId now failures opened hbelow =>
    cases h' with
    | failure => exact ⟨rfl, rfl⟩
    | opens _ _ _ _ hhigh => exact absurd hhigh (Nat.not_le.mpr hbelow)
  | opens peerId now failures opened hhigh =>
    cases h' with
    | failure _ _ _ _ hbelow => exact absurd hhigh (Nat.not_le.mpr hbelow)
    | opens => exact ⟨rfl, rfl⟩

/-! ## What a run remembers -/

/-- The failures of a peer since its last success. -/
def countFailures (p : String) (n : Nat) : CircuitCall → Nat
  | .allow _ _ => n
  | .record peerId success _ => if peerId = p then (if success = true then 0 else n + 1) else n

def failuresSince (p : String) (calls : List CircuitCall) : Nat := calls.foldl (countFailures p) 0

/-- The circuit of a peer was opened by a failure at the time `opened`, and has been open since. -/
def OpenedSince (p : String) (opened : ℚ) (h : List CircuitEntry) : Prop :=
  ∃ h₁ e h₂, h = h₁ ++ e :: h₂ ∧ e.op = .record p false opened ∧ e.before.openedAt p = none ∧
    ∀ e' ∈ e :: h₂, e'.after.openedAt p = some opened

/-- What ties the two maps to each other and to the history. -/
structure Paired (config : CircuitConfig) (h : List CircuitEntry) (s : CircuitState) : Prop where
  paired : ∀ p, config.failureThreshold ≤ s.failures p ↔ (s.openedAt p).isSome = true
  counted : ∀ p, s.failures p ≤ failuresSince p (h.map (·.op))
  opened : ∀ p t, s.openedAt p = some t → OpenedSince p t h

theorem failuresSince_concat (p : String) (h : List CircuitEntry) (e : CircuitEntry) :
    failuresSince p ((h ++ [e]).map (·.op)) = countFailures p (failuresSince p (h.map (·.op))) e.op := by
  unfold failuresSince
  rw [List.map_append, List.foldl_append]
  rfl

theorem countFailures_other {p : String} {c : CircuitCall} (hp : p ≠ c.peerId) (n : Nat) :
    countFailures p n c = n := by
  cases c with
  | allow peerId now => rfl
  | record peerId success now => exact if_neg fun heq => hp heq.symm

/-- An open circuit stays open until the call that closes it. -/
theorem OpenedSince.concat {p : String} {t : ℚ} {h : List CircuitEntry} {e : CircuitEntry}
    (hopen : OpenedSince p t h) (he : e.after.openedAt p = some t) : OpenedSince p t (h ++ [e]) := by
  obtain ⟨h₁, o, h₂, rfl, hop, hbefore, hafter⟩ := hopen
  refine ⟨h₁, o, h₂ ++ [e], by rw [List.append_assoc, List.cons_append], hop, hbefore, fun e' he' => ?_⟩
  rw [← List.cons_append, List.mem_append, List.mem_singleton] at he'
  rcases he' with he' | rfl
  · exact hafter e' he'
  · exact he

/-- Of a peer that did not call, everything is as before. -/
theorem at_other {s : CircuitState} {c : CircuitCall} {p : String} (hp : p ≠ c.peerId) :
    (circuitStep config float s c).2.failures p = s.failures p ∧
      (circuitStep config float s c).2.openedAt p = s.openedAt p :=
  Prod.mk.inj (circuitStep_other s c hp)

/-- What the invariant says of the peer that called. -/
theorem Turns.paired {c : CircuitCall} {x y : Nat × Option ℚ} {r : Option Bool}
    (h : Turns config float c x r y) (hx : config.failureThreshold ≤ x.1 ↔ x.2.isSome = true) :
    config.failureThreshold ≤ y.1 ↔ y.2.isSome = true := by
  have hpositive := config.threshold_ok.1
  cases h with
  | closed => exact hx
  | blocked => exact hx
  | probe peerId now failures opened hhigh hcooled =>
    refine ⟨fun hle => ?_, fun hno => by cases hno⟩
    have hle' : config.failureThreshold ≤ config.failureThreshold - 1 := hle
    omega
  | success peerId now x =>
    refine ⟨fun hle => ?_, fun hno => by cases hno⟩
    have hle' : config.failureThreshold ≤ 0 := hle
    omega
  | failure peerId now failures opened hbelow =>
    refine ⟨fun hle => absurd hle (Nat.not_le.mpr hbelow), fun hsome => ?_⟩
    have hhigh : config.failureThreshold ≤ failures := hx.mpr hsome
    exact le_trans hhigh (Nat.le_succ failures)
  | opens peerId now failures opened hhigh => exact ⟨fun _ => rfl, fun _ => hhigh⟩

/-- The count never passes the failures since the last success. -/
theorem Turns.counted {c : CircuitCall} {x y : Nat × Option ℚ} {r : Option Bool}
    (h : Turns config float c x r y) {n : Nat} (hn : x.1 ≤ n) : y.1 ≤ countFailures c.peerId n c := by
  cases h with
  | closed => exact hn
  | blocked => exact hn
  | probe peerId now failures opened hhigh hcooled =>
    show config.failureThreshold - 1 ≤ n
    have hn' : failures ≤ n := hn
    omega
  | success peerId now x => exact Nat.zero_le _
  | failure peerId now failures opened hbelow =>
    show failures + 1 ≤ if peerId = peerId then _ else n
    rw [if_pos rfl]
    exact Nat.succ_le_succ hn
  | opens peerId now failures opened hhigh =>
    show failures + 1 ≤ if peerId = peerId then _ else n
    rw [if_pos rfl]
    exact Nat.succ_le_succ hn

/-- A circuit that is open after a call was open before it, or was opened by it. -/
theorem Turns.opened {c : CircuitCall} {x y : Nat × Option ℚ} {r : Option Bool}
    (h : Turns config float c x r y) {t : ℚ} (ht : y.2 = some t) :
    x.2 = some t ∨ (x.2 = none ∧ c = .record c.peerId false t) := by
  cases h with
  | closed => exact .inl ht
  | blocked => exact .inl ht
  | probe => cases ht
  | success => cases ht
  | failure => exact .inl ht
  | opens peerId now failures opened hhigh =>
    have hsome : some (opened.getD now) = some t := ht
    cases opened with
    | none =>
      cases hsome
      exact .inr ⟨rfl, rfl⟩
    | some t' => exact .inl hsome

/-- **The invariant of the breaker.** -/
theorem circuit_paired (config : CircuitConfig) (float : Rounding config.cooldownSeconds)
    (calls : List CircuitCall) :
    Paired config (Machine.trace (circuitStep config float) .start calls)
      (Machine.final (circuitStep config float) .start calls) := by
  refine Machine.history_induction (I := fun h s => Paired config h s) ?_ (fun h s c hI => ?_) calls
  · refine ⟨fun p => ⟨fun hle => ?_, fun hno => by cases hno⟩, fun p => Nat.zero_le _, fun p t ht => by cases ht⟩
    have hpositive := config.threshold_ok.1
    have hle' : config.failureThreshold ≤ 0 := hle
    omega
  have hturns := circuitStep_turns config float s c
  refine ⟨fun p => ?_, fun p => ?_, fun p t ht => ?_⟩
  · by_cases hp : p = c.peerId
    · subst hp
      exact hturns.paired (hI.paired _)
    · rw [(at_other hp).1, (at_other hp).2]
      exact hI.paired p
  · rw [failuresSince_concat]
    by_cases hp : p = c.peerId
    · subst hp
      exact hturns.counted (hI.counted _)
    · rw [(at_other hp).1, show countFailures p _ (Machine.entry _ s c).op = _ from countFailures_other hp _]
      exact hI.counted p
  · by_cases hp : p = c.peerId
    · subst hp
      rcases hturns.opened ht with hsame | ⟨hnone, hop⟩
      · exact (hI.opened _ t hsame).concat ht
      · refine ⟨h, _, [], rfl, hop, hnone, fun e' he' => ?_⟩
        rw [List.mem_singleton.mp he']
        exact ht
    · have hsame : s.openedAt p = some t := (at_other hp).2.symm.trans ht
      exact (hI.opened p t hsame).concat ht

/-! ## The laws -/

/-- A probe: a call that is allowed although the peer has failed too often. -/
structure Probe (config : CircuitConfig) (p : String) (now : ℚ) (e : CircuitEntry) : Prop where
  op : e.op = .allow p now
  high : config.failureThreshold ≤ e.before.failures p
  allowed : e.result = some true

/-- What holds of every run of the breaker. -/
structure CircuitLaws (config : CircuitConfig) (float : Rounding config.cooldownSeconds)
    (calls : List CircuitCall) : Prop where
  paired : ∀ p, config.failureThreshold ≤ (Machine.final (circuitStep config float) .start calls).failures p ↔
    ((Machine.final (circuitStep config float) .start calls).openedAt p).isSome = true
  recovers : ∀ p, ∃ time : ℚ, ∀ now, time ≤ now →
    (circuitAllow config float p now (Machine.final (circuitStep config float) .start calls)).1 = true
  blocked : ∀ pre e post p now,
    Machine.trace (circuitStep config float) .start calls = pre ++ e :: post →
    e.op = .allow p now → e.result = some false →
      config.failureThreshold ≤ failuresSince p (pre.map (·.op)) ∧
      ∃ opened, OpenedSince p opened pre ∧ now - opened < config.cooldownSeconds
  reopens : ∀ pre probe mid e post p now now',
    Machine.trace (circuitStep config float) .start calls = pre ++ probe :: (mid ++ e :: post) →
    Probe config p now probe → (∀ e' ∈ mid, ∀ success time, e'.op ≠ .record p success time) →
    e.op = .record p false now' →
      e.after.failures p = config.failureThreshold ∧ e.after.openedAt p = some now' ∧
      ∃ opened, probe.before.openedAt p = some opened ∧ opened < now'
  others : ∀ e ∈ Machine.trace (circuitStep config float) .start calls, ∀ p, p ≠ e.op.peerId →
    e.after.failures p = e.before.failures p ∧ e.after.openedAt p = e.before.openedAt p
  alone : ∀ p, (Machine.final (circuitStep config float) .start calls).at p =
    (Machine.final (circuitStep config float) .start (calls.filter fun c => c.peerId = p)).at p

/-- A difference that is not positive is not rounded to a cooldown. -/
theorem Rounding.positive {cooldown x : ℚ} (float : Rounding cooldown) (hcooldown : 0 < cooldown)
    (h : cooldown ≤ float.round x) : 0 < x := by
  by_contra hno
  have hle : float.round x ≤ 0 := by
    have hmono := float.mono (not_lt.mp hno)
    rwa [float.zero] at hmono
  exact absurd (le_trans h hle) (not_le.mpr hcooldown)

/-- A difference that reaches the cooldown is rounded to one that does. -/
theorem Rounding.reaches {cooldown x : ℚ} (float : Rounding cooldown) (h : cooldown ≤ x) :
    cooldown ≤ float.round x := by
  have hmono := float.mono h
  rwa [float.cooldown] at hmono

/-- A peer is allowed again once the cooldown is over. -/
theorem allow_recovers {s : CircuitState} {p : String}
    (hpaired : config.failureThreshold ≤ s.failures p ↔ (s.openedAt p).isSome = true) :
    ∃ time : ℚ, ∀ now, time ≤ now → (circuitAllow config float p now s).1 = true := by
  cases hopened : s.openedAt p with
  | none =>
    refine ⟨0, fun now _ => ?_⟩
    have hbelow : s.failures p < config.failureThreshold := by
      by_contra hno
      have hsome := hpaired.mp (Nat.le_of_not_lt hno)
      rw [hopened] at hsome
      cases hsome
    unfold circuitAllow
    rw [if_pos hbelow]
  | some opened =>
    refine ⟨opened + config.cooldownSeconds, fun now hnow => ?_⟩
    have hcooled : config.cooldownSeconds ≤ float.round (now - opened) := float.reaches (by linarith)
    unfold circuitAllow
    split
    · rfl
    rw [if_pos ⟨opened, hopened, hcooled⟩]

/-- A peer whose calls record nothing stays below the threshold once it is there. -/
theorem at_unrecorded {p : String} {n : Nat} (hbelow : n < config.failureThreshold) {s : CircuitState}
    (hs : s.at p = (n, none)) (calls : List CircuitCall)
    (hcalls : ∀ c ∈ calls, ∀ success time, c ≠ .record p success time) :
    (Machine.final (circuitStep config float) s calls).at p = (n, none) := by
  induction calls generalizing s with
  | nil => exact hs
  | cons c calls ih =>
    refine ih ?_ fun c' hc' => hcalls c' (List.mem_cons_of_mem _ hc')
    by_cases hp : p = c.peerId
    · have hno := hcalls c List.mem_cons_self
      cases c with
      | record peerId success now => exact absurd rfl (hp ▸ hno success now)
      | allow peerId now =>
        obtain rfl : p = peerId := hp
        show (circuitAllow config float p now s).2.at p = _
        unfold circuitAllow
        rw [if_pos (by rw [show s.failures p = n from congrArg Prod.fst hs]; exact hbelow)]
        exact hs
    · rw [circuitStep_other s c hp]
      exact hs

/-- What is kept for a peer follows from its own calls. -/
theorem final_alone (p : String) (calls : List CircuitCall) {s s' : CircuitState} (hs : s.at p = s'.at p) :
    (Machine.final (circuitStep config float) s calls).at p =
      (Machine.final (circuitStep config float) s' (calls.filter fun c => c.peerId = p)).at p := by
  induction calls generalizing s s' with
  | nil => exact hs
  | cons c calls ih =>
    by_cases hp : c.peerId = p
    · rw [List.filter_cons_of_pos (by rw [hp]; exact decide_eq_true rfl)]
      refine ih ?_
      subst hp
      have hturns := circuitStep_turns config float s c
      rw [hs] at hturns
      exact (hturns.unique (circuitStep_turns config float s' c)).2
    · rw [List.filter_cons_of_neg (by rw [decide_eq_true_eq]; exact hp)]
      exact ih ((circuitStep_other s c fun heq => hp heq.symm).trans hs)

/-- A call that is refused finds the circuit open and warm. -/
theorem Turns.refused {p : String} {now : ℚ} {x y : Nat × Option ℚ}
    (h : Turns config float (.allow p now) x (some false) y) :
    config.failureThreshold ≤ x.1 ∧
      ∀ opened ∈ x.2, ¬config.cooldownSeconds ≤ float.round (now - opened) := by
  cases h with
  | blocked peerId now x hhigh hwarm => exact ⟨hhigh, hwarm⟩

/-- A probe lowers the count, closes the circuit, and finds it cooled. -/
theorem Probe.closes {p : String} {now : ℚ} {s : CircuitState} {c : CircuitCall}
    (h : Probe config p now (Machine.entry (circuitStep config float) s c)) :
    (circuitStep config float s c).2.at p = (config.failureThreshold - 1, none) ∧
      ∃ opened, s.openedAt p = some opened ∧ opened < now := by
  obtain ⟨hop, hhigh, hallowed⟩ := h
  obtain rfl : c = .allow p now := hop
  have hallowed' : (circuitStep config float s (.allow p now)).1 = some true := hallowed
  have hturns := circuitStep_turns config float s (.allow p now)
  rw [hallowed'] at hturns
  have hhigh' : config.failureThreshold ≤ s.failures p := hhigh
  generalize hx : s.at (CircuitCall.allow p now).peerId = x at hturns
  have hp : (CircuitCall.allow p now).peerId = p := rfl
  rw [hp] at hturns hx
  generalize (circuitStep config float s (.allow p now)).2.at p = y at hturns ⊢
  cases hturns with
  | closed _ _ _ hbelow =>
    rw [← hx] at hbelow
    exact absurd hhigh' (Nat.not_le.mpr hbelow)
  | probe _ _ failures opened _ hcooled =>
    have hpositive := float.positive config.cooldown_ok.1 hcooled
    exact ⟨rfl, opened, congrArg Prod.snd hx, by linarith⟩

/-- A failure after a probe opens the circuit. -/
theorem record_reopens (float : Rounding config.cooldownSeconds) {s : CircuitState} {p : String} {now : ℚ}
    (hs : s.at p = (config.failureThreshold - 1, none)) :
    (circuitStep config float s (.record p false now)).2.at p = (config.failureThreshold, some now) := by
  have hpositive := config.threshold_ok.1
  have hfailures : s.failures p + 1 = config.failureThreshold := by
    rw [show s.failures p = config.failureThreshold - 1 from congrArg Prod.fst hs]
    omega
  show (circuitRecord config p false now s).at p = _
  unfold circuitRecord
  rw [if_neg (by decide)]
  unfold CircuitState.at
  dsimp only
  rw [hfailures, if_pos le_rfl, Function.update_self, Function.update_self,
    show s.openedAt p = none from congrArg Prod.snd hs]
  rfl

/-- **The circuit breaker**: over every sequence of calls, the count reaches the threshold exactly while
    the circuit is open, so that every peer recovers; a call is refused after that many failures without a
    success and before the cooldown is over; a failure after a probe opens the circuit anew; and peers
    do not affect each other. -/
theorem circuit_laws (config : CircuitConfig) (float : Rounding config.cooldownSeconds)
    (calls : List CircuitCall) (hclock : (calls.map (·.now)).Pairwise (· ≤ ·)) :
    CircuitLaws config float calls := by
  have hpaired := circuit_paired config float calls
  refine ⟨hpaired.paired, fun p => allow_recovers (hpaired.paired p), ?_, ?_, ?_, fun p => final_alone p calls rfl⟩
  · intro pre e post p now htrace hop hrefused
    obtain ⟨xs, ys, -, hpre, he, -⟩ := Machine.trace_split htrace
    have hI := circuit_paired config float xs
    rw [← hpre] at hI
    have hturns := circuitStep_turns config float
      (Machine.final (circuitStep config float) .start xs) e.op
    have hresult : (circuitStep config float (Machine.final (circuitStep config float) .start xs) e.op).1 =
        some false := by
      rw [he] at hrefused
      exact hrefused
    rw [hresult, hop] at hturns
    obtain ⟨hhigh, hwarm⟩ := hturns.refused
    obtain ⟨opened, hopened⟩ := Option.isSome_iff_exists.mp ((hI.paired p).mp hhigh)
    refine ⟨le_trans hhigh (hI.counted p), opened, hI.opened p opened hopened, ?_⟩
    by_contra hno
    exact hwarm opened hopened (float.reaches (not_lt.mp hno))
  · intro pre probe mid e post p now now' htrace hprobe hmid hop
    obtain ⟨xs, rest, hcalls, -, hentry, hpost⟩ := Machine.trace_split htrace
    obtain ⟨ys, zs, hrest, hmids, he, -⟩ := Machine.trace_split hpost.symm
    -- the calls between the probe and the failure record nothing of the peer
    have hprobe' := hprobe
    rw [hentry] at hprobe'
    obtain ⟨hclosed, opened, hopened, hlater⟩ := hprobe'.closes
    have hpositive := config.threshold_ok.1
    have hstays : (Machine.final (circuitStep config float) probe.after ys).at p =
        (config.failureThreshold - 1, none) := by
      refine at_unrecorded (by omega) ?_ ys fun c hc success time heq => ?_
      · rw [hentry]
        exact hclosed
      · obtain ⟨e', he', hop'⟩ := Machine.trace_ops (circuitStep config float) probe.after hc
        rw [← hmids] at he'
        exact hmid e' he' success time (hop'.trans heq)
    have hafter : e.after.at p = (config.failureThreshold, some now') := by
      rw [he, hop]
      exact record_reopens float hstays
    refine ⟨congrArg Prod.fst hafter, congrArg Prod.snd hafter, opened, ?_, lt_of_lt_of_le hlater ?_⟩
    · rw [hentry]
      exact hopened
    · -- the failure comes after the probe
      have hops : calls = xs ++ probe.op :: (ys ++ e.op :: zs) := by rw [hcalls, hrest]
      rw [hops, List.map_append, List.map_cons, List.map_append, List.map_cons] at hclock
      have hlate := (List.pairwise_append.mp hclock).2.1
      have hle := List.rel_of_pairwise_cons hlate (List.mem_append_right _ List.mem_cons_self)
      rwa [show probe.op = .allow p now from hprobe.op, hop] at hle
  · intro e he p hp
    obtain ⟨xs, ys, -, hentry⟩ := Machine.trace_mem he
    rw [hentry]
    have hp' : p ≠ e.op.peerId := hp
    exact at_other hp'

/-! ## The gateway's breaker -/

/-- The breaker in the stores of the gateway, under a clock that gives these readings. -/
def State.circuit (time : Nat → ℚ) (s : State) : CircuitState :=
  ⟨s.failures, fun p => (s.openedAt p).map time⟩

theorem map_update {time : Nat → ℚ} (openedAt : String → Option Nat) (p : String) (x : Option Nat) :
    (fun q => (Function.update openedAt p x q).map time) =
      Function.update (fun q => (openedAt q).map time) p (x.map time) := by
  funext q
  rw [Function.update_apply, Function.update_apply]
  split
  · rfl
  · rfl

/-- The gateway's `allow` is this one, at the reading it takes. -/
theorem allow_circuit {limits : Limits} {cooled : Nat → Nat → Bool} {time : Nat → ℚ}
    (hthreshold : limits.failureThreshold = config.failureThreshold)
    (hcooled : ∀ a b, cooled a b = true ↔ config.cooldownSeconds ≤ float.round (time b - time a))
    (p : String) (s : State) :
    (allow limits cooled p s).1 = .ok (circuitAllow config float p (time s.tick) (s.circuit time)).1 ∧
      (allow limits cooled p s).2.circuit time =
        (circuitAllow config float p (time s.tick) (s.circuit time)).2 := by
  have hcool : (∃ opened ∈ (s.circuit time).openedAt p,
      config.cooldownSeconds ≤ float.round (time s.tick - opened)) ↔
        ∃ opened ∈ s.openedAt p, cooled opened s.tick = true := by
    unfold State.circuit
    dsimp only
    cases s.openedAt p with
    | none => simp
    | some opened => simp [hcooled]
  have hbelow : (s.circuit time).failures p = s.failures p := rfl
  unfold allow circuitAllow
  rw [Exec.bind_returns (show Exec.read s = (.ok s, s) from rfl), hbelow, ← hthreshold]
  by_cases hlow : s.failures p < limits.failureThreshold
  · rw [if_pos hlow, if_pos hlow]
    exact ⟨rfl, rfl⟩
  rw [if_neg hlow, if_neg hlow]
  rw [Exec.bind_returns (show Exec.modify _ s = (.ok (), { s with tick := s.tick + 1 }) from rfl)]
  by_cases hopen : ∃ opened ∈ s.openedAt p, cooled opened s.tick = true
  · rw [if_pos hopen, if_pos (hcool.mpr hopen)]
    exact ⟨rfl, congrArg (CircuitState.mk _) (map_update s.openedAt p none)⟩
  · rw [if_neg hopen, if_neg fun h => hopen (hcool.mp h)]
    exact ⟨rfl, rfl⟩

/-- So is its `record`. -/
theorem record_circuit {limits : Limits} {time : Nat → ℚ}
    (hthreshold : limits.failureThreshold = config.failureThreshold) (p : String) (success : Bool)
    (s : State) : (recordCircuit limits p success s).2.circuit time =
      circuitRecord config p success (time s.tick) (s.circuit time) := by
  unfold recordCircuit circuitRecord
  rw [← hthreshold]
  cases success with
  | true => exact congrArg (CircuitState.mk _) (map_update s.openedAt p none)
  | false =>
    refine congrArg (CircuitState.mk (Function.update s.failures p (s.failures p + 1))) ?_
    show (fun q => ((if limits.failureThreshold ≤ s.failures p + 1 ∧ s.openedAt p = none then _ else _ :
      String → Option Nat) q).map time) = (if limits.failureThreshold ≤ s.failures p + 1 then _ else _)
    by_cases hhigh : limits.failureThreshold ≤ s.failures p + 1
    · rw [if_pos hhigh]
      cases hopened : s.openedAt p with
      | none =>
        rw [if_pos ⟨hhigh, rfl⟩, map_update]
        unfold State.circuit
        dsimp only
        rw [hopened]
        rfl
      | some opened =>
        rw [if_neg (by rintro ⟨-, hno⟩; cases hno)]
        unfold State.circuit
        dsimp only
        rw [hopened]
        exact (Function.update_eq_self_iff.mpr (by rw [hopened]; rfl)).symm
    · rw [if_neg hhigh, if_neg fun h => hhigh h.1]
      rfl

end

/-! ## A worked run -/

def sampleCircuit : CircuitConfig where
  failureThreshold := 2
  cooldownSeconds := 30
  threshold_ok := by decide
  cooldown_ok := by norm_num

/-- Differences that are floats already. -/
def exactRounding (cooldown : ℚ) : Rounding cooldown := ⟨id, monotone_id, rfl, rfl⟩

/-- Two failures open the circuit; it is warm, then cooled, and a failure after the probe opens it again. -/
def sampleCircuitCalls : List CircuitCall :=
  [.record "peer" false 0, .record "peer" false 1, .allow "peer" 2, .allow "peer" 31,
    .record "peer" false 32]

theorem circuit_laws_sample :
    CircuitLaws sampleCircuit (exactRounding 30) sampleCircuitCalls ∧
      (Machine.final (circuitStep sampleCircuit (exactRounding 30)) .start sampleCircuitCalls).openedAt "peer" =
        some 32 :=
  ⟨circuit_laws sampleCircuit (exactRounding 30) sampleCircuitCalls
    (by simp [sampleCircuitCalls, CircuitCall.now]; norm_num), by decide +kernel⟩

end Interop

end Aegis
