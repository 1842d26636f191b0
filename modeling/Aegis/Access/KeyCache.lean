/-
  THE CACHE OF AN ISSUER'S KEYS, over every sequence of calls.

  A call of `verification_key` takes one moment for the clock and one more for a fetch, of which it makes
  at most one: keys are fetched when there are none, when they have expired, and when the key that is
  asked for is not among them and a cooldown has passed since they were fetched.

  What is returned is fresh, and a fetch that fails changes nothing.  That is also why fetches are not
  spaced: the time of a fetch is written with its keys, so a fetch that fails leaves no time to wait from.
-/
import Mathlib
import Aegis.Lib.Machine
import Aegis.Access.Authority

namespace Aegis

namespace Access

open Exec (Sat)

section

variable {κ : Type} (jwt : Jwt κ) (world : World) (configuration : IssuerConfiguration)

/-! ## Calls -/

structure KeyCall where
  keyId : String
  algorithm : String

/-- One call. -/
def keyStep (s : Session) (c : KeyCall) : Except Error κ × Session :=
  verificationKey jwt world configuration c.keyId c.algorithm s

/-- The cache that a document is parsed to. -/
def loadDocument (now : Datetime) (document : Claims) : Except Error CacheState :=
  match document.get "keys" with
  | .arr (rawKey :: rawKeys) =>
    if (rawKey :: rawKeys).length ≤ configuration.maximumJwksKeys then do
      let keys ← parseKeys (rawKey :: rawKeys) []
      .ok ⟨keys, now.addSeconds configuration.jwksTtlSeconds, now⟩
    else .error (unavailable "JWKS contains too many keys")
  | _ => .error (unavailable "JWKS must contain keys")

/-- What a fetch at this moment comes to. -/
def loadKeys (now : Datetime) (moment : Nat) : Except Error CacheState :=
  match world.fetch moment configuration.issuer configuration.jwksUri with
  | .error e => .error (if e.kind = .identityUnavailable then e else unavailable "JWKS fetcher failed")
  | .ok document => loadDocument configuration now document

/-- What a call is answered with from the keys. -/
def serveKey (c : KeyCall) (state : CacheState) : Except Error κ :=
  match state.keys.lookup c.keyId with
  | none => .error (failed "token signing key is unknown")
  | some candidate => parseKey jwt candidate c.algorithm

/-- The keys must be fetched: none are cached, they have expired, or the key is not among them and the
    cooldown is over. -/
def Needed (s : Session) (c : KeyCall) (now : Datetime) : Prop :=
  ∀ state, s.caches configuration.issuer = some state → now < state.expiresAt →
    state.keys.lookup c.keyId = none ∧
      state.refreshedAt.addSeconds configuration.jwksRefreshCooldownSeconds ≤ now

/-- The ways a call goes. -/
inductive Serves (s : Session) (c : KeyCall) : Except Error κ × Session → Prop
  | invalid (e : Error) (hrefused : ¬(c.keyId ≠ "" ∧ c.keyId.toList.length ≤ 128)) : Serves s c (.error e, s)
  | cached (state : CacheState) (hcached : s.caches configuration.issuer = some state)
    (hfresh : world.clock s.moment < state.expiresAt)
    (hfamiliar : ¬(state.keys.lookup c.keyId = none ∧
      state.refreshedAt.addSeconds configuration.jwksRefreshCooldownSeconds ≤ world.clock s.moment)) :
    Serves s c (serveKey jwt c state, { s with moment := s.moment + 1 })
  | loaded (state : CacheState) (hvalid : c.keyId ≠ "" ∧ c.keyId.toList.length ≤ 128)
    (hneeded : Needed configuration s c (world.clock s.moment))
    (hload : loadKeys world configuration (world.clock s.moment) (s.moment + 1) = .ok state) :
    Serves s c (serveKey jwt c state,
      { caches := Function.update s.caches configuration.issuer (some state), moment := s.moment + 2 })
  | failed (e : Error) (hvalid : c.keyId ≠ "" ∧ c.keyId.toList.length ≤ 128)
    (hneeded : Needed configuration s c (world.clock s.moment))
    (hload : ∀ state, loadKeys world configuration (world.clock s.moment) (s.moment + 1) ≠ .ok state) :
    Serves s c (.error e, { s with moment := s.moment + 2 })

variable {jwt world configuration}

/-- A fetch stores what it comes to. -/
theorem refresh_sat (s : Session) (now : Datetime) : Sat (refresh world configuration now) s
    (fun state s' => loadKeys world configuration now s.moment = .ok state ∧
      s' = { caches := Function.update s.caches configuration.issuer (some state), moment := s.moment + 1 })
    (fun _ s' => (∀ state, loadKeys world configuration now s.moment ≠ .ok state) ∧
      s' = { s with moment := s.moment + 1 }) := by
  unfold refresh loadKeys
  show Sat (ask _ >>= _) s _ _
  rw [Exec.sat_bind]
  show Sat (match world.fetch s.moment configuration.issuer configuration.jwksUri with
    | .error e => _
    | .ok document => _) { s with moment := s.moment + 1 } _ _
  cases world.fetch s.moment configuration.issuer configuration.jwksUri with
  | error e => exact ⟨nofun, rfl⟩
  | ok document =>
    have hnone : ∀ v, document.get "keys" = v → (∀ rawKey rawKeys, v ≠ .arr (rawKey :: rawKeys)) →
        ∀ state, loadDocument configuration now document ≠ .ok state := by
      intro v hv hno state
      unfold loadDocument
      split
      · rename_i rawKey rawKeys hkeys
        exact absurd (hv.symm.trans hkeys) (hno rawKey rawKeys)
      · exact nofun
    dsimp only
    cases hkeys : document.get "keys" with
    | arr items =>
      cases items with
      | nil => exact ⟨hnone _ hkeys nofun, rfl⟩
      | cons rawKey rawKeys =>
        have hload : loadDocument configuration now document =
            if (rawKey :: rawKeys).length ≤ configuration.maximumJwksKeys then do
              let keys ← parseKeys (rawKey :: rawKeys) []
              .ok ⟨keys, now.addSeconds configuration.jwksTtlSeconds, now⟩
            else .error (unavailable "JWKS contains too many keys") := by
          unfold loadDocument
          rw [hkeys]
        rw [hload]
        refine Sat.check (fun hno => ⟨fun state => ?_, rfl⟩) fun hfew => ?_
        · rw [if_neg hno]
          exact nofun
        · rw [if_pos hfew]
          refine Sat.attempt (fun e he => ⟨fun state => ?_, rfl⟩) fun keys hparse => ?_
          · rw [he]
            exact nofun
          · rw [hparse]
            exact ⟨rfl, rfl⟩
    | null => exact ⟨hnone _ hkeys nofun, rfl⟩
    | bool b => exact ⟨hnone _ hkeys nofun, rfl⟩
    | int i => exact ⟨hnone _ hkeys nofun, rfl⟩
    | float x => exact ⟨hnone _ hkeys nofun, rfl⟩
    | str text => exact ⟨hnone _ hkeys nofun, rfl⟩
    | obj fields => exact ⟨hnone _ hkeys nofun, rfl⟩

/-- A cache that was just loaded has the time of its loading. -/
theorem refreshedAt_of_load {now : Datetime} {moment : Nat} {state : CacheState}
    (h : loadKeys world configuration now moment = .ok state) :
    state.refreshedAt = now ∧ state.expiresAt = now.addSeconds configuration.jwksTtlSeconds := by
  unfold loadKeys at h
  split at h
  · cases h
  unfold loadDocument at h
  split at h
  · split at h
    · obtain ⟨keys, -, h⟩ := except_bind_ok.mp h
      cases h
      exact ⟨rfl, rfl⟩
    · cases h
  · cases h

/-- No cooldown is over at the time it starts. -/
theorem cooldown_later {now : Datetime} :
    ¬now.addSeconds configuration.jwksRefreshCooldownSeconds ≤ now := by
  intro hle
  have hle' : now.instant + (configuration.jwksRefreshCooldownSeconds : Int) * 1000000 ≤ now.instant := hle
  have hpositive := configuration.cooldown_ok.1
  omega

/-- The answer from the keys. -/
theorem serve_sat {c : KeyCall} {state : CacheState} {s : Session} {P : Except Error κ × Session → Prop}
    (h : P (serveKey jwt c state, s)) :
    Sat (match state.keys.lookup c.keyId with
      | none => Exec.raise (failed "token signing key is unknown")
      | some candidate => Exec.lift (parseKey jwt candidate c.algorithm) : Auth κ) s
      (fun k s' => P (.ok k, s')) (fun e s' => P (.error e, s')) := by
  unfold serveKey at h
  cases hfound : state.keys.lookup c.keyId with
  | none =>
    rw [hfound] at h
    exact h
  | some candidate =>
    rw [hfound] at h
    dsimp only at h
    refine (Exec.sat_lift _).mpr ⟨fun k hk => ?_, fun e he => ?_⟩
    · rwa [hk] at h
    · rwa [he] at h

theorem keyStep_serves (jwt : Jwt κ) (world : World) (configuration : IssuerConfiguration) (s : Session)
    (c : KeyCall) : Serves jwt world configuration s c (keyStep jwt world configuration s c) := by
  have hrun : Sat (verificationKey jwt world configuration c.keyId c.algorithm) s
      (fun k s' => Serves jwt world configuration s c (.ok k, s'))
      (fun e s' => Serves jwt world configuration s c (.error e, s')) := by
    refine Sat.check (fun hrefused => .invalid _ hrefused) fun hvalid => ?_
    rw [Exec.sat_bind]
    -- the moment of the clock
    show Sat (cachedKeys world configuration (world.clock s.moment) >>= _) { s with moment := s.moment + 1 } _ _
    have hcached : Sat (cachedKeys world configuration (world.clock s.moment)) { s with moment := s.moment + 1 }
        (fun state s' => (s.caches configuration.issuer = some state ∧ world.clock s.moment < state.expiresAt ∧
            s' = { s with moment := s.moment + 1 }) ∨ Serves jwt world configuration s c (serveKey jwt c state, s') ∧
              state.refreshedAt = world.clock s.moment)
        (fun e s' => Serves jwt world configuration s c (.error e, s')) := by
      unfold cachedKeys
      rw [Exec.sat_bind, Exec.sat_read]
      cases hfilter : (s.caches configuration.issuer).filter fun state =>
          decide (world.clock s.moment < state.expiresAt) with
      | some state =>
        obtain ⟨hstate, hfresh⟩ := Option.filter_eq_some_iff.mp hfilter
        exact .inl ⟨hstate, of_decide_eq_true hfresh, rfl⟩
      | none =>
        have hneeded : Needed configuration s c (world.clock s.moment) := by
          intro state hstate hfresh
          rw [hstate, Option.filter_some, if_pos (decide_eq_true hfresh)] at hfilter
          cases hfilter
        refine (refresh_sat _ _).mono (fun state s' h => .inr ?_) fun e s' h => ?_
        · obtain ⟨hload, rfl⟩ := h
          exact ⟨.loaded state hvalid hneeded hload, (refreshedAt_of_load hload).1⟩
        · obtain ⟨hload, rfl⟩ := h
          exact .failed e hvalid hneeded hload
    refine hcached.call (fun _ _ h => h) fun state s' hstate => ?_
    have hfamiliar : Sat (familiarKeys world configuration c.keyId (world.clock s.moment) state) s'
        (fun state' s'' => Serves jwt world configuration s c (serveKey jwt c state', s''))
        (fun e s'' => Serves jwt world configuration s c (.error e, s'')) := by
      unfold familiarKeys
      rcases hstate with ⟨hcache, hfresh, rfl⟩ | ⟨hserves, hrefreshed⟩
      · split
        · rename_i hunknown
          have hneeded : Needed configuration s c (world.clock s.moment) := by
            intro other hother _
            rw [hcache] at hother
            cases hother
            exact hunknown
          refine (refresh_sat _ _).mono (fun state' s'' h => ?_) fun e s'' h => ?_
          · obtain ⟨hload, rfl⟩ := h
            exact .loaded state' hvalid hneeded hload
          · obtain ⟨hload, rfl⟩ := h
            exact .failed e hvalid hneeded hload
        · rename_i hfamiliar
          exact .cached state hcache hfresh hfamiliar
      · -- keys that were just fetched are not fetched again
        rw [if_neg fun h => cooldown_later (hrefreshed ▸ h.2)]
        exact hserves
    exact hfamiliar.call (fun _ _ h => h) fun state' s'' h => serve_sat h
  exact hrun.outcome (P := fun r s' => Serves jwt world configuration s c (r, s'))

/-! ## What a document holds -/

theorem parseKeys_mem {rawKeys : List Json} {parsed keys : List (String × Claims)} {keyId : String}
    {candidate : Claims} (h : parseKeys rawKeys parsed = .ok keys) (hmem : (keyId, candidate) ∈ keys) :
    (keyId, candidate) ∈ parsed ∨ (.obj candidate ∈ rawKeys ∧ candidate.get "kid" = .str keyId) := by
  induction rawKeys generalizing parsed with
  | nil =>
    cases h
    exact .inl hmem
  | cons rawKey rawKeys ih =>
    cases rawKey with
    | obj fields =>
      unfold parseKeys at h
      split at h
      · rename_i name hname
        split at h
        · cases h
        split at h
        · cases h
        rcases ih h with hparsed | ⟨hlater, hkid⟩
        · rcases List.mem_append.mp hparsed with hbefore | hnew
          · exact .inl hbefore
          · cases List.mem_singleton.mp hnew
            exact .inr ⟨List.mem_cons_self, hname⟩
        · exact .inr ⟨List.mem_cons_of_mem _ hlater, hkid⟩
      · cases h
    | null => cases h
    | bool b => cases h
    | int i => cases h
    | float x => cases h
    | str text => cases h
    | arr items => cases h

/-- The document that a fetch at this moment answers with has the key under this id. -/
def DocumentHolds (world : World) (configuration : IssuerConfiguration) (moment : Nat) (keyId : String)
    (candidate : Claims) : Prop :=
  ∃ document rawKeys, world.fetch moment configuration.issuer configuration.jwksUri = .ok document ∧
    document.get "keys" = .arr rawKeys ∧ .obj candidate ∈ rawKeys ∧ candidate.get "kid" = .str keyId

theorem loadKeys_holds {now : Datetime} {moment : Nat} {state : CacheState} {keyId : String}
    {candidate : Claims} (h : loadKeys world configuration now moment = .ok state)
    (hfound : state.keys.lookup keyId = some candidate) :
    DocumentHolds world configuration moment keyId candidate := by
  unfold loadKeys at h
  split at h
  · cases h
  rename_i document hdocument
  unfold loadDocument at h
  split at h
  · rename_i rawKey rawKeys hkeys
    split at h
    · obtain ⟨keys, hparse, h⟩ := except_bind_ok.mp h
      cases h
      obtain ⟨before, after, hsplit, -⟩ := List.lookup_eq_some_iff.mp hfound
      have hmem : (keyId, candidate) ∈ keys := by
        rw [show keys = before ++ (keyId, candidate) :: after from hsplit]
        exact List.mem_append_right _ List.mem_cons_self
      rcases parseKeys_mem hparse hmem with hnil | ⟨hraw, hkid⟩
      · exact absurd hnil List.not_mem_nil
      · exact ⟨document, _, hdocument, hkeys, hraw, hkid⟩
    · cases h
  · cases h

/-! ## Runs -/

abbrev KeyEntry (κ : Type) := Machine.Entry Session KeyCall (Except Error κ)

/-- The call made a fetch. -/
def Fetches (e : KeyEntry κ) : Prop := e.after.moment = e.before.moment + 2

/-- The call made a fetch that came to these keys. -/
def Loads (world : World) (configuration : IssuerConfiguration) (e : KeyEntry κ) (state : CacheState) : Prop :=
  Fetches e ∧
    loadKeys world configuration (world.clock e.before.moment) (e.before.moment + 1) = .ok state

/-- The latest fetch that came to keys. -/
def LastLoad (world : World) (configuration : IssuerConfiguration) (history : List (KeyEntry κ))
    (load : KeyEntry κ) (state : CacheState) : Prop :=
  ∃ earlier later, history = earlier ++ load :: later ∧ Loads world configuration load state ∧
    ∀ e ∈ later, ∀ other, ¬Loads world configuration e other

/-- The call needs no fetch, whatever the time of the last one: its key id is refused, or its key is cached
    and has not expired. -/
def Idle (world : World) (configuration : IssuerConfiguration) (s : Session) (c : KeyCall) : Prop :=
  ¬(c.keyId ≠ "" ∧ c.keyId.toList.length ≤ 128) ∨
    ∃ state, s.caches configuration.issuer = some state ∧ world.clock s.moment < state.expiresAt ∧
      state.keys.lookup c.keyId ≠ none

def Spaced (world : World) (configuration : IssuerConfiguration) (history : List (KeyEntry κ)) : Prop :=
  ∀ earlier e between e' later, history = earlier ++ e :: (between ++ e' :: later) → Fetches e → Fetches e' →
    (world.clock e.before.moment).addSeconds configuration.jwksRefreshCooldownSeconds ≤
      world.clock e'.before.moment

/-- While a cooldown lasts, calls need no fetch, or it was a fetch that came to keys which have not
    expired. -/
def Patient (world : World) (configuration : IssuerConfiguration) (history : List (KeyEntry κ)) : Prop :=
  ∀ earlier e between e' later, history = earlier ++ e :: (between ++ e' :: later) → Fetches e →
    (world.clock e.before.moment).addSeconds configuration.jwksRefreshCooldownSeconds ≤
      world.clock e'.before.moment ∨
    Idle world configuration e'.before e'.op ∨
    (∃ state, Loads world configuration e state) ∧
      world.clock e'.before.moment < (world.clock e.before.moment).addSeconds configuration.jwksTtlSeconds

/-- What one call does to the moment and to the keys. -/
theorem Serves.moment_le {s : Session} {c : KeyCall} {r : Except Error κ × Session}
    (h : Serves jwt world configuration s c r) : s.moment ≤ r.2.moment := by
  cases h with
  | invalid e hrefused => exact le_refl _
  | cached state hcached hfresh hfamiliar => exact Nat.le_succ _
  | loaded state hvalid hneeded hload => exact Nat.le_add_right _ 2
  | failed e hvalid hneeded hload => exact Nat.le_add_right _ 2

/-- A call either leaves the keys or has fetched the ones that are there after it. -/
theorem Serves.caches {s : Session} {c : KeyCall} {r : Except Error κ × Session}
    (h : Serves jwt world configuration s c r) :
    ((∀ state, ¬Loads world configuration ⟨s, c, r.1, r.2⟩ state) ∧ r.2.caches = s.caches) ∨
      ∃ state, Loads world configuration ⟨s, c, r.1, r.2⟩ state ∧
        r.2.caches configuration.issuer = some state := by
  cases h with
  | invalid e hrefused =>
    refine .inl ⟨fun state hload => ?_, rfl⟩
    have hmoment : s.moment = s.moment + 2 := hload.1
    omega
  | cached state hcached hfresh hfamiliar =>
    refine .inl ⟨fun state hload => ?_, rfl⟩
    have hmoment : s.moment + 1 = s.moment + 2 := hload.1
    omega
  | loaded state hvalid hneeded hload => exact .inr ⟨state, ⟨rfl, hload⟩, Function.update_self ..⟩
  | failed e hvalid hneeded hload => exact .inl ⟨fun state hloads => hload state hloads.2, rfl⟩

/-- A call that fetches had to. -/
theorem Serves.needed {s : Session} {c : KeyCall} {r : Except Error κ × Session}
    (h : Serves jwt world configuration s c r) (hfetch : r.2.moment = s.moment + 2) :
    (c.keyId ≠ "" ∧ c.keyId.toList.length ≤ 128) ∧ Needed configuration s c (world.clock s.moment) := by
  cases h with
  | invalid e hrefused =>
    have hmoment : s.moment = s.moment + 2 := hfetch
    omega
  | cached state hcached hfresh hfamiliar =>
    have hmoment : s.moment + 1 = s.moment + 2 := hfetch
    omega
  | loaded state hvalid hneeded hload => exact ⟨hvalid, hneeded⟩
  | failed e hvalid hneeded hload => exact ⟨hvalid, hneeded⟩

/-- A call that does not fetch is refused, or finds keys that have not expired. -/
theorem Serves.quiet {s : Session} {c : KeyCall} {r : Except Error κ × Session}
    (h : Serves jwt world configuration s c r) (hquiet : r.2.moment ≠ s.moment + 2) :
    ¬(c.keyId ≠ "" ∧ c.keyId.toList.length ≤ 128) ∨
      ∃ state, s.caches configuration.issuer = some state ∧ world.clock s.moment < state.expiresAt ∧
        ¬(state.keys.lookup c.keyId = none ∧
          state.refreshedAt.addSeconds configuration.jwksRefreshCooldownSeconds ≤ world.clock s.moment) := by
  cases h with
  | invalid e hrefused => exact .inl hrefused
  | cached state hcached hfresh hfamiliar => exact .inr ⟨state, hcached, hfresh, hfamiliar⟩
  | loaded state hvalid hneeded hload => exact absurd rfl hquiet
  | failed e hvalid hneeded hload => exact absurd rfl hquiet

/-- A key comes from what is cached after the call, which has not expired. -/
theorem Serves.key {s : Session} {c : KeyCall} {r : Except Error κ × Session} {k : κ}
    (h : Serves jwt world configuration s c r) (hkey : r.1 = .ok k) :
    ∃ state, r.2.caches configuration.issuer = some state ∧ world.clock s.moment < state.expiresAt ∧
      serveKey jwt c state = .ok k := by
  cases h with
  | invalid e hrefused => cases hkey
  | cached state hcached hfresh hfamiliar => exact ⟨state, hcached, hfresh, hkey⟩
  | loaded state hvalid hneeded hload =>
    refine ⟨state, Function.update_self .., ?_, hkey⟩
    obtain ⟨-, hexpires⟩ := refreshedAt_of_load hload
    have hpositive := configuration.ttl_ok.1
    rw [hexpires]
    show (world.clock s.moment).instant <
      (world.clock s.moment).instant + (configuration.jwksTtlSeconds : Int) * 1000000
    omega
  | failed e hvalid hneeded hload => cases hkey

/-- What the history says about the state. -/
structure Tied (world : World) (configuration : IssuerConfiguration) (history : List (KeyEntry κ))
    (s : Session) : Prop where
  past : ∀ e ∈ history, e.before.moment ≤ s.moment
  latest : ∀ state, s.caches configuration.issuer = some state →
    ∃ load, LastLoad world configuration history load state
  none : s.caches configuration.issuer = none → ∀ e ∈ history, ∀ state, ¬Loads world configuration e state

/-- The latest load stays the latest when a call that loads nothing follows. -/
theorem LastLoad.concat {history : List (KeyEntry κ)} {load e : KeyEntry κ} {state : CacheState}
    (h : LastLoad world configuration history load state)
    (hno : ∀ other, ¬Loads world configuration e other) :
    LastLoad world configuration (history ++ [e]) load state := by
  obtain ⟨earlier, later, rfl, hload, hlater⟩ := h
  refine ⟨earlier, later ++ [e], by simp only [List.append_assoc, List.cons_append], hload, ?_⟩
  intro e' he'
  rcases List.mem_append.mp he' with hmem | hmem
  · exact hlater e' hmem
  · rw [List.mem_singleton.mp hmem]
    exact hno

theorem tied_step {history : List (KeyEntry κ)} {s : Session} (c : KeyCall)
    (h : Tied world configuration history s) :
    Tied world configuration (history ++ [Machine.entry (keyStep jwt world configuration) s c])
      (keyStep jwt world configuration s c).2 := by
  have hserves : Serves jwt world configuration s c (keyStep jwt world configuration s c) :=
    keyStep_serves jwt world configuration s c
  have hcaches := hserves.caches
  constructor
  · intro e he
    rcases List.mem_append.mp he with hbefore | hnew
    · exact (h.past e hbefore).trans hserves.moment_le
    · rw [List.mem_singleton.mp hnew]
      exact hserves.moment_le
  · intro state hstate
    rcases hcaches with ⟨hno, hsame⟩ | ⟨loaded, hload, hafter⟩
    · obtain ⟨load, hlast⟩ := h.latest state ((congrFun hsame _).symm.trans hstate)
      exact ⟨load, hlast.concat hno⟩
    · cases hafter.symm.trans hstate
      exact ⟨_, history, [], rfl, hload, nofun⟩
  · intro hstate e he
    rcases hcaches with ⟨hno, hsame⟩ | ⟨loaded, -, hafter⟩
    · rcases List.mem_append.mp he with hbefore | hnew
      · exact h.none ((congrFun hsame _).symm.trans hstate) e hbefore
      · rw [List.mem_singleton.mp hnew]
        exact hno
    · cases hafter.symm.trans hstate

theorem tied_trace (jwt : Jwt κ) (calls : List KeyCall) :
    Tied world configuration (Machine.trace (keyStep jwt world configuration) ⟨fun _ => none, 0⟩ calls)
      (Machine.final (keyStep jwt world configuration) ⟨fun _ => none, 0⟩ calls) :=
  Machine.history_induction ⟨nofun, nofun, fun _ => nofun⟩ (fun _ _ c h => tied_step c h) calls

/-- Along a run the keys are those of its start, or of one of its fetches. -/
theorem run_caches (jwt : Jwt κ) (s : Session) (calls : List KeyCall) :
    s.moment ≤ (Machine.final (keyStep jwt world configuration) s calls).moment ∧
    ((Machine.final (keyStep jwt world configuration) s calls).caches configuration.issuer =
        s.caches configuration.issuer ∨
      ∃ load ∈ Machine.trace (keyStep jwt world configuration) s calls, ∃ state,
        Loads world configuration load state ∧ s.moment ≤ load.before.moment ∧
        load.before.moment ≤ (Machine.final (keyStep jwt world configuration) s calls).moment ∧
        (Machine.final (keyStep jwt world configuration) s calls).caches configuration.issuer = some state) := by
  refine Machine.history_induction (I := fun history t => s.moment ≤ t.moment ∧
    (t.caches configuration.issuer = s.caches configuration.issuer ∨ ∃ load ∈ history, ∃ state,
      Loads world configuration load state ∧ s.moment ≤ load.before.moment ∧
      load.before.moment ≤ t.moment ∧ t.caches configuration.issuer = some state)) ⟨le_refl _, .inl rfl⟩ ?_ calls
  intro history t c ⟨hmoment, hkeys⟩
  have hserves := keyStep_serves jwt world configuration t c
  have hlater := hserves.moment_le
  refine ⟨hmoment.trans hlater, ?_⟩
  rcases hserves.caches with ⟨-, hsame⟩ | ⟨state, hload, hafter⟩
  · rcases hkeys with hstart | ⟨load, hmem, state, hload, hfrom, hto, hcached⟩
    · exact .inl ((congrFun hsame _).trans hstart)
    · exact .inr ⟨load, List.mem_append_left _ hmem, state, hload, hfrom, hto.trans hlater,
        (congrFun hsame _).trans hcached⟩
  · exact .inr ⟨_, List.mem_append_right _ (List.mem_singleton_self _), state, hload, hmoment, hlater, hafter⟩

/-- A key is in the latest document that came to keys, and that document is recent. -/
theorem key_fresh {calls : List KeyCall} {earlier later : List (KeyEntry κ)} {e : KeyEntry κ} {k : κ}
    (h : Machine.trace (keyStep jwt world configuration) ⟨fun _ => none, 0⟩ calls = earlier ++ e :: later)
    (hkey : e.result = .ok k) :
    ∃ load state candidate, LastLoad world configuration (earlier ++ [e]) load state ∧
      DocumentHolds world configuration (load.before.moment + 1) e.op.keyId candidate ∧
      parseKey jwt candidate e.op.algorithm = .ok k ∧
      world.clock e.before.moment < (world.clock load.before.moment).addSeconds configuration.jwksTtlSeconds := by
  obtain ⟨xs, ys, -, hearlier, hentry, -⟩ := Machine.trace_split h
  have htied : Tied world configuration _ _ := tied_trace jwt (xs ++ [e.op])
  rw [Machine.trace_concat, Machine.final_concat, ← hearlier, ← hentry] at htied
  have hserves := keyStep_serves jwt world configuration
    (Machine.final (keyStep jwt world configuration) ⟨fun _ => none, 0⟩ xs) e.op
  have hbefore : e.before = Machine.final (keyStep jwt world configuration) ⟨fun _ => none, 0⟩ xs := by
    rw [hentry]
    rfl
  rw [← hbefore] at hserves htied
  have hresult : e.result = (keyStep jwt world configuration e.before e.op).1 := by
    rw [hbefore]
    exact congrArg Machine.Entry.result hentry
  obtain ⟨state, hcached, hfresh, hserve⟩ := hserves.key (hresult.symm.trans hkey)
  obtain ⟨load, hlast⟩ := htied.latest state hcached
  have hload : Loads world configuration load state := by
    obtain ⟨_, _, -, hload, -⟩ := hlast
    exact hload
  unfold serveKey at hserve
  split at hserve
  · cases hserve
  · rename_i candidate hfound
    refine ⟨load, state, candidate, hlast, loadKeys_holds hload.2 hfound, hserve, ?_⟩
    rw [← (refreshedAt_of_load hload.2).2]
    exact hfresh

/-- A fetch that comes to nothing leaves the keys as they were. -/
theorem keys_unchanged {calls : List KeyCall} {e : KeyEntry κ}
    (he : e ∈ Machine.trace (keyStep jwt world configuration) ⟨fun _ => none, 0⟩ calls)
    (hno : ∀ state, ¬Loads world configuration e state) : e.after.caches = e.before.caches := by
  obtain ⟨xs, -, -, hentry⟩ := Machine.trace_mem he
  rw [hentry] at hno ⊢
  rcases (keyStep_serves jwt world configuration
      (Machine.final (keyStep jwt world configuration) ⟨fun _ => none, 0⟩ xs) e.op).caches with
    ⟨-, hsame⟩ | ⟨state, hload, -⟩
  · exact hsame
  · exact absurd hload (hno state)

/-- What a pair of calls of one run comes to: the keys at the second are those after the first, or a later
    fetch came to them. -/
theorem keys_between {calls : List KeyCall} {earlier between later : List (KeyEntry κ)} {e e' : KeyEntry κ}
    (h : Machine.trace (keyStep jwt world configuration) ⟨fun _ => none, 0⟩ calls =
      earlier ++ e :: (between ++ e' :: later)) :
    Serves jwt world configuration e.before e.op (e.result, e.after) ∧
    Serves jwt world configuration e'.before e'.op (e'.result, e'.after) ∧
    e.after.moment ≤ e'.before.moment ∧
    (e'.before.caches configuration.issuer = e.after.caches configuration.issuer ∨
      ∃ load ∈ between, ∃ state, Loads world configuration load state ∧
        e.after.moment ≤ load.before.moment ∧ load.before.moment ≤ e'.before.moment ∧
        e'.before.caches configuration.issuer = some state) := by
  obtain ⟨xs, ys, he, hbetween, he'⟩ := Machine.trace_pair h
  have hserves : Serves jwt world configuration e.before e.op (e.result, e.after) := by
    rw [he]
    exact keyStep_serves jwt world configuration _ _
  have hserves' : Serves jwt world configuration e'.before e'.op (e'.result, e'.after) := by
    rw [he']
    exact keyStep_serves jwt world configuration _ _
  have hbefore : e'.before = Machine.final (keyStep jwt world configuration) e.after ys := by
    rw [he']
    rfl
  rw [hbefore, hbetween]
  exact ⟨hserves, by rwa [← hbefore], run_caches jwt e.after ys⟩

variable (hclock : ∀ m n, m ≤ n → (world.clock m).instant ≤ (world.clock n).instant)

include hclock in
/-- Calls that are patient space the fetches. -/
theorem spaced_of_patient {calls : List KeyCall}
    (h : Patient world configuration
      (Machine.trace (keyStep jwt world configuration) ⟨fun _ => none, 0⟩ calls)) :
    Spaced world configuration
      (Machine.trace (keyStep jwt world configuration) ⟨fun _ => none, 0⟩ calls) := by
  intro earlier e between e' later hsplit hfetch hfetch'
  obtain ⟨hserves, hserves', -, hkeys⟩ := keys_between hsplit
  obtain ⟨hvalid, hneeded⟩ := hserves'.needed hfetch'
  rcases h earlier e between e' later hsplit hfetch with hover | hidle | ⟨⟨state, hload⟩, hfresh⟩
  · exact hover
  · -- a call that needs no fetch made one
    rcases hidle with hrefused | ⟨state, hcached, hfresh, hknown⟩
    · exact absurd hvalid hrefused
    · exact absurd (hneeded state hcached hfresh).1 hknown
  have hmoment : e.after.moment = e.before.moment + 2 := hfetch
  rcases hkeys with hsame | ⟨load, -, later, hlater, hfrom, -, hcached⟩
  · rcases hserves.caches with ⟨hno, -⟩ | ⟨loaded, hloaded, hafter⟩
    · exact absurd hload (hno state)
    obtain ⟨hrefreshed, hexpires⟩ := refreshedAt_of_load hloaded.2
    have hdue := (hneeded loaded (hsame.trans hafter) (hexpires ▸ hfresh)).2
    rwa [hrefreshed] at hdue
  · obtain ⟨hrefreshed, hexpires⟩ := refreshedAt_of_load hlater.2
    have htime := hclock e.before.moment load.before.moment (by omega)
    have hlive : world.clock e'.before.moment < later.expiresAt := by
      have hfresh' : (world.clock e'.before.moment).instant <
        (world.clock e.before.moment).instant + (configuration.jwksTtlSeconds : Int) * 1000000 := hfresh
      rw [hexpires]
      show (world.clock e'.before.moment).instant <
        (world.clock load.before.moment).instant + (configuration.jwksTtlSeconds : Int) * 1000000
      omega
    have hdue := (hneeded later hcached hlive).2
    rw [hrefreshed] at hdue
    have hdue' : (world.clock load.before.moment).instant +
        (configuration.jwksRefreshCooldownSeconds : Int) * 1000000 ≤ (world.clock e'.before.moment).instant :=
      hdue
    show (world.clock e.before.moment).instant +
      (configuration.jwksRefreshCooldownSeconds : Int) * 1000000 ≤ (world.clock e'.before.moment).instant
    omega

include hclock in
/-- Spaced fetches come from patient calls. -/
theorem patient_of_spaced {calls : List KeyCall}
    (h : Spaced world configuration
      (Machine.trace (keyStep jwt world configuration) ⟨fun _ => none, 0⟩ calls)) :
    Patient world configuration
      (Machine.trace (keyStep jwt world configuration) ⟨fun _ => none, 0⟩ calls) := by
  intro earlier e between e' later hsplit hfetch
  by_contra hno
  obtain ⟨hwithin, hbusy, hstale⟩ := not_or.mp hno |>.imp_right not_or.mp
  obtain ⟨hserves, hserves', hmoments, hkeys⟩ := keys_between hsplit
  have hwithin' : (world.clock e'.before.moment).instant < (world.clock e.before.moment).instant +
      (configuration.jwksRefreshCooldownSeconds : Int) * 1000000 := not_le.mp hwithin
  have hmoment : e.after.moment = e.before.moment + 2 := hfetch
  have hquiet : ¬Fetches e' := fun hfetch' =>
    hwithin (h earlier e between e' later hsplit hfetch hfetch')
  -- the second call finds keys that have not expired, without the one it asks for
  obtain ⟨state, hcached, hfresh, hunknown, hrecent⟩ : ∃ state,
      e'.before.caches configuration.issuer = some state ∧ world.clock e'.before.moment < state.expiresAt ∧
      state.keys.lookup e'.op.keyId = none ∧ ¬state.refreshedAt.addSeconds
        configuration.jwksRefreshCooldownSeconds ≤ world.clock e'.before.moment := by
    rcases hserves'.quiet hquiet with hrefused | ⟨state, hcached, hfresh, hfamiliar⟩
    · exact absurd (.inl hrefused) hbusy
    have hunknown : state.keys.lookup e'.op.keyId = none := by
      by_contra hknown
      exact hbusy (.inr ⟨state, hcached, hfresh, hknown⟩)
    exact ⟨state, hcached, hfresh, hunknown, fun hdue => hfamiliar ⟨hunknown, hdue⟩⟩
  rcases hkeys with hsame | ⟨load, hmem, loaded, hload, hfrom, hto, hloaded⟩
  · rcases hserves.caches with ⟨hnone, hkept⟩ | ⟨loaded, hload, hafter⟩
    · -- the keys are those the failed fetch was to replace
      have htime := hclock e.before.moment e'.before.moment (by omega)
      have hbefore : e.before.caches configuration.issuer = some state :=
        (congrFun hkept _).symm.trans (hsame.symm.trans hcached)
      have hlive : world.clock e.before.moment < state.expiresAt := lt_of_le_of_lt htime hfresh
      have hdue := ((hserves.needed hfetch).2 state hbefore hlive).2
      exact hrecent (le_trans hdue htime)
    · -- they are those of the fetch, which have not expired
      cases hsame.symm.trans hcached |>.symm.trans hafter
      exact hstale ⟨⟨state, hload⟩, (refreshedAt_of_load hload.2).2 ▸ hfresh⟩
  · -- they are those of a later fetch, which the cooldown keeps away
    obtain ⟨front, back, rfl⟩ := List.append_of_mem hmem
    have hspaced := h earlier e front load (back ++ e' :: later)
      (by rw [hsplit]; simp only [List.append_assoc, List.cons_append]) hfetch hload.1
    have hspaced' : (world.clock e.before.moment).instant +
        (configuration.jwksRefreshCooldownSeconds : Int) * 1000000 ≤
          (world.clock load.before.moment).instant := hspaced
    have htime := hclock load.before.moment e'.before.moment hto
    omega

include hclock in
/-- **Keys are fresh, and fetches are spaced exactly when calls are patient.** -/
theorem keys_bounded (jwt : Jwt κ) (calls : List KeyCall) :
    (∀ earlier e later k,
      Machine.trace (keyStep jwt world configuration) ⟨fun _ => none, 0⟩ calls = earlier ++ e :: later →
      e.result = .ok k →
      ∃ load state candidate, LastLoad world configuration (earlier ++ [e]) load state ∧
        DocumentHolds world configuration (load.before.moment + 1) e.op.keyId candidate ∧
        parseKey jwt candidate e.op.algorithm = .ok k ∧
        world.clock e.before.moment <
          (world.clock load.before.moment).addSeconds configuration.jwksTtlSeconds) ∧
    (∀ e ∈ Machine.trace (keyStep jwt world configuration) ⟨fun _ => none, 0⟩ calls,
      (∀ state, ¬Loads world configuration e state) → e.after.caches = e.before.caches) ∧
    (Spaced world configuration (Machine.trace (keyStep jwt world configuration) ⟨fun _ => none, 0⟩ calls) ↔
      Patient world configuration
        (Machine.trace (keyStep jwt world configuration) ⟨fun _ => none, 0⟩ calls)) :=
  ⟨fun _ _ _ _ hsplit hkey => key_fresh hsplit hkey, fun _ he hno => keys_unchanged he hno,
    patient_of_spaced hclock, spaced_of_patient hclock⟩

end

/-! ## Two calls -/

def sampleCall : KeyCall := ⟨"key", "RS256"⟩

/-- A worker's key, asked for twice. -/
theorem keys_bounded_sample :
    (∀ m n, m ≤ n → (sampleWorld.clock m).instant ≤ (sampleWorld.clock n).instant) ∧
    (Spaced sampleWorld sampleConfiguration
        (Machine.trace (keyStep sampleJwt sampleWorld sampleConfiguration) ⟨fun _ => none, 0⟩
          [sampleCall, sampleCall]) ↔
      Patient sampleWorld sampleConfiguration
        (Machine.trace (keyStep sampleJwt sampleWorld sampleConfiguration) ⟨fun _ => none, 0⟩
          [sampleCall, sampleCall])) := by
  have hclock : ∀ m n, m ≤ n → (sampleWorld.clock m).instant ≤ (sampleWorld.clock n).instant := by
    intro m n hle
    show (m : Int) ≤ n
    exact_mod_cast hle
  exact ⟨hclock, (keys_bounded hclock sampleJwt [sampleCall, sampleCall]).2.2⟩

/-- An issuer that is down, at a time that stands still. -/
def failingWorld : World :=
  { sampleWorld with
    clock := fun _ => ⟨0, 0⟩
    fetch := fun _ _ _ => .error (unavailable "JWKS endpoint is unavailable") }

/-- A failed fetch is followed by another one at once. -/
theorem failed_fetch_again :
    ¬∀ (world : World) (calls : List KeyCall),
      (∀ m n, m ≤ n → (world.clock m).instant ≤ (world.clock n).instant) →
      Spaced world sampleConfiguration
        (Machine.trace (keyStep sampleJwt world sampleConfiguration) ⟨fun _ => none, 0⟩ calls) := by
  intro h
  have hspaced := h failingWorld [sampleCall, sampleCall] (fun _ _ _ => le_refl _) [] _ [] _ [] rfl
    rfl rfl
  exact absurd hspaced (by decide)

end Access

end Aegis
