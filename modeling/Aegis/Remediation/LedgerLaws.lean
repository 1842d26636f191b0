/-
  THE LAWS OF THE LEDGER, for any sequence of appends: any tenants, plans, versions, commands, payloads,
  accepted or refused.

  Three things are tied together by one append and stay tied: the list of FACTS, the index of COMMANDS
  and the PROJECTION.  `Indexed` says that the command of every fact is in the index, under the plan and
  the fingerprint of that fact; `replay` of the facts gives the projection.  The rest is read off these:

    * `ledger_laws`   -- numbers, chain, bound, rebuild, one acceptance per command;
    * a repeated command is answered from the projection, or refused for other content;
    * a refused append changes nothing, and a terminal plan takes no further fact.
-/
import Mathlib
import Aegis.Lib.HashChain
import Aegis.Remediation.Ledger

namespace Aegis

namespace Remediation

variable {sha : Sha256}

/-! ## Appends -/

/-- What `append` is asked. -/
structure AppendCall where
  tenantId : String
  planId : String
  expectedVersion : Int
  factType : RemediationFactType
  commandId : String
  actorRef : String
  recordedAt : Datetime
  payload : Fields

def AppendCall.key (c : AppendCall) : String × String := (c.tenantId, c.planId)

/-- What the index keeps of a command. -/
def AppendCall.entry (sha : Sha256) (c : AppendCall) : String × Digest :=
  (c.planId, commandFingerprint sha c.factType c.payload)

/-- One append: the projection or the error, and the state it leaves. -/
def appendStep (sha : Sha256) (s : State) (c : AppendCall) :
    Except Error RemediationProjection × State :=
  append sha c.tenantId c.planId c.expectedVersion c.factType c.commandId c.actorRef c.recordedAt
    c.payload s

/-- The state after a sequence of appends. -/
def appendAll (sha : Sha256) (start : State) (calls : List AppendCall) : State :=
  Machine.final (appendStep sha) start calls

abbrev AppendEntry := Machine.Entry State AppendCall (Except Error RemediationProjection)

/-- The history of a sequence of appends. -/
def appendHistory (sha : Sha256) (start : State) (calls : List AppendCall) : List AppendEntry :=
  Machine.trace (appendStep sha) start calls

/-- The fold of `reduce_remediation` over facts. -/
def replay (facts : List RemediationFact) : Except Error (Option RemediationProjection) :=
  facts.foldlM (fun current fact => (reduceRemediation current fact).map some) none

/-- `rebuild`. -/
def rebuild (s : State) (key : String × String) : Except Error RemediationProjection := do
  match ← replay (s.facts key) with
  | none => .error ⟨.integrityFailure, "cannot rebuild an unknown remediation plan"⟩
  | some projection => .ok projection

/-! ## One append -/

/-- What an append does: answer from the projection, record a fact, or refuse. -/
inductive AppendOutcome (sha : Sha256) (s : State) (c : AppendCall) :
    Except Error RemediationProjection × State → Prop
  | replayed (p : RemediationProjection)
    (hknown : s.commands (c.tenantId, c.commandId) = some (c.entry sha))
    (hprojection : s.projections c.key = some p) : AppendOutcome sha s c (.ok p, s)
  | recorded (fact : RemediationFact) (p : RemediationProjection)
    (h : Recorded sha s c.key c.factType c.commandId c.payload fact p) :
    AppendOutcome sha s c
      (.ok p, s.record c.key (c.tenantId, c.commandId) (c.entry sha) fact p)
  | refused (e : Error)
    (hother : s.commands (c.tenantId, c.commandId) = some (c.entry sha) →
      s.projections c.key = none) : AppendOutcome sha s c (.error e, s)

theorem append_outcome (sha : Sha256) (s : State) (c : AppendCall) :
    AppendOutcome sha s c (appendStep sha s c) := by
  have hrun : Exec.Sat (append sha c.tenantId c.planId c.expectedVersion c.factType c.commandId
      c.actorRef c.recordedAt c.payload) s (fun p s' => AppendOutcome sha s c (.ok p, s'))
      (fun e s' => AppendOutcome sha s c (.error e, s')) := by
    unfold append
    rw [Exec.sat_bind, Exec.sat_read]
    dsimp only
    cases hknown : s.commands (c.tenantId, c.commandId) with
    | some existing =>
      refine Exec.Sat.check (fun hne => .refused _ fun hsame => ?_) (fun heq => ?_)
      · rw [hknown] at hsame
        exact absurd (Option.some.inj hsame) hne
      · cases hprojection : s.projections (c.tenantId, c.planId) with
        | none => exact .refused _ fun _ => hprojection
        | some p => exact .replayed p (by rw [hknown, heq]; rfl) hprojection
    | none =>
      have hrefused : ∀ e, AppendOutcome sha s c (.error e, s) := by
        refine fun e => .refused e fun hsame => ?_
        rw [hknown] at hsame
        cases hsame
      refine Exec.Sat.check (fun _ => hrefused _) (fun hbound => ?_)
      refine Exec.Sat.check (fun _ => hrefused _) (fun _ => ?_)
      refine Exec.Sat.attempt (fun e _ => hrefused e) (fun fact hfact => ?_)
      refine Exec.Sat.attempt (fun e _ => hrefused e) (fun p hp => ?_)
      exact .recorded fact p ⟨hknown, hbound, ⟨c.actorRef, c.recordedAt, hfact⟩, hp⟩
  exact hrun.outcome (P := fun r s' => AppendOutcome sha s c (r, s'))

/-- A failing append leaves everything as it was. -/
theorem appendStep_error {s : State} {c : AppendCall} {e : Error}
    (h : (appendStep sha s c).1 = .error e) : (appendStep sha s c).2 = s := by
  have hout := append_outcome sha s c
  generalize hresult : appendStep sha s c = result at h hout
  cases hout with
  | replayed p hknown hprojection => cases h
  | recorded fact p hrecorded => cases h
  | refused e' hother => rfl

/-! ## The invariant -/

/-- The command of every fact is in the index, under the plan and the fingerprint of the fact. -/
structure Indexed (sha : Sha256) (s : State) : Prop where
  known : ∀ tenantId planId fact, fact ∈ s.facts (tenantId, planId) →
    s.commands (tenantId, fact.commandId.val) =
      some (planId, commandFingerprint sha fact.factType fact.payload)
  distinct : ∀ key, ((s.facts key).map (·.commandId.val)).Nodup
  indexed : ∀ tenantId commandId entry, s.commands (tenantId, commandId) = some entry →
    ∃ fact ∈ s.facts (tenantId, entry.1), fact.commandId.val = commandId

/-- The facts of a ledger, as a whole. -/
structure LedgerLaws (sha : Sha256) (s : State) : Prop where
  numbered : ∀ key, (s.facts key).map (·.sequence) = (List.range (s.facts key).length).map (· + 1)
  bounded : ∀ key, (s.facts key).length ≤ maxFacts
  chained : ∀ key, HashChain.Linked RemediationFact.previousDigest RemediationFact.canonicalDigest
    zeroHash (s.facts key)
  replayed : ∀ key, replay (s.facts key) = .ok (s.projections key)
  ledger : LedgerOk s
  index : Indexed sha s

/-! ## Fingerprints -/

/-- The text whose hash is the fingerprint of a command. -/
def fingerprintText (factType : RemediationFactType) (payload : Fields) : String :=
  canonicalJson (.obj [("fact_type", .str factType.value), ("payload", payload.toJson)])

/-- Equal payloads, whatever the order of their members, have one fingerprint. -/
theorem fingerprintText_same {factType : RemediationFactType} {payload payload' : Fields}
    (h : payload.toJson.Same payload'.toJson) :
    fingerprintText factType payload = fingerprintText factType payload' := by
  refine canonicalJson_inj.mpr ?_
  have hsorted : sortKeys payload.toJson = sortKeys payload'.toJson := h
  show sortKeys (.obj [_, _]) = sortKeys (.obj [_, _])
  simp only [sortKeys, sortKeysFields, hsorted]

theorem RemediationFactType.value_injective : Function.Injective RemediationFactType.value := by
  intro a b
  cases a <;> cases b <;> decide

/-- The text determines the fact type and the payload. -/
theorem fingerprintText_inj {factType factType' : RemediationFactType} {payload payload' : Fields}
    (h : fingerprintText factType payload = fingerprintText factType' payload') :
    factType = factType' ∧ payload.toJson.Same payload'.toJson := by
  have hsame := canonicalJson_inj.mp h
  have hnodup : (["fact_type", "payload"] : List String).Nodup := by decide
  have htype := hsame.field (k := "fact_type") hnodup (v := .str factType.value)
    (w := .str factType'.value) (by simp) (by simp)
  have hpayload := hsame.field (k := "payload") hnodup (v := payload.toJson) (w := payload'.toJson)
    (by simp) (by simp)
  exact ⟨RemediationFactType.value_injective (Json.same_str.mp htype), hpayload⟩

theorem commandFingerprint_sorted (factType : RemediationFactType) (payload : Fields) :
    commandFingerprint sha factType payload.sorted = commandFingerprint sha factType payload :=
  congrArg sha.hexdigest (fingerprintText_same (Fields.toJson_sorted payload))

/-! ## The invariant is kept -/

theorem ledgerLaws_start (policies : List ActionPolicy) (limits : String → Int) :
    LedgerLaws sha (State.start policies limits) where
  numbered _ := rfl
  bounded _ := Nat.zero_le _
  chained _ := trivial
  replayed _ := rfl
  ledger := ledgerOk_start policies limits
  index :=
    { known := fun _ _ fact hfact => absurd hfact List.not_mem_nil
      distinct := fun _ => List.nodup_nil
      indexed := fun _ _ _ h => by cases h }

section Record

variable {s : State} {c : AppendCall} {fact : RemediationFact} {p : RemediationProjection}

theorem replay_concat (facts : List RemediationFact) (fact : RemediationFact) :
    replay (facts ++ [fact]) =
      (replay facts).bind fun current => (reduceRemediation current fact).map some := by
  unfold replay
  rw [List.foldlM_append]
  cases facts.foldlM (fun current fact => (reduceRemediation current fact).map some) none with
  | error e => rfl
  | ok current =>
    show ((reduceRemediation current fact).map some).bind pure = (reduceRemediation current fact).map some
    cases reduceRemediation current fact <;> rfl

/-- What recording a fact does to the facts of each plan. -/
theorem facts_record (key' : String × String) (command : String × String) (entry : String × Digest) :
    (s.record c.key command entry fact p).facts key' =
      if key' = c.key then s.facts c.key ++ [fact] else s.facts key' := by
  show Function.update s.facts c.key (s.facts c.key ++ [fact]) key' = _
  by_cases hkey : key' = c.key
  · rw [hkey, Function.update_self, if_pos rfl]
  · rw [Function.update_of_ne hkey, if_neg hkey]

/-- A new fact has a command that no fact of its tenant has. -/
theorem Indexed.fresh (h : Indexed sha s)
    (hrecorded : Recorded sha s c.key c.factType c.commandId c.payload fact p) {planId : String}
    {f : RemediationFact} (hf : f ∈ s.facts (c.tenantId, planId)) :
    f.commandId.val ≠ c.commandId := by
  intro hcommand
  have hknown := h.known c.tenantId planId f hf
  have hfresh : s.commands (c.tenantId, c.commandId) = none := hrecorded.fresh
  rw [hcommand, hfresh] at hknown
  cases hknown

theorem Indexed.record (h : Indexed sha s)
    (hrecorded : Recorded sha s c.key c.factType c.commandId c.payload fact p) :
    Indexed sha (s.record c.key (c.tenantId, c.commandId) (c.entry sha) fact p) := by
  obtain ⟨actor, time, hbuilt⟩ := hrecorded.built
  obtain ⟨-, -, htype, hpayload, hcommand, -⟩ := buildFact_ok hbuilt
  constructor
  · intro tenantId planId f hf
    rw [facts_record] at hf
    show Function.update s.commands (c.tenantId, c.commandId) _ (tenantId, f.commandId.val) = _
    have hold : ∀ {planId' : String}, f ∈ s.facts (tenantId, planId') →
        (tenantId, f.commandId.val) ≠ (c.tenantId, c.commandId) := by
      intro planId' hf' heq
      obtain ⟨rfl, hsame⟩ := Prod.mk.inj heq
      exact h.fresh hrecorded hf' hsame
    split at hf
    · rename_i hkey
      obtain ⟨rfl, rfl⟩ := Prod.mk.inj hkey
      rcases List.mem_append.mp hf with hf | hf
      · rw [Function.update_of_ne (hold hf)]
        exact h.known _ _ f hf
      · rw [List.mem_singleton.mp hf, hcommand, Function.update_self, htype, hpayload,
          commandFingerprint_sorted]
        rfl
    · rw [Function.update_of_ne (hold hf)]
      exact h.known _ _ f hf
  · intro key
    rw [facts_record]
    split
    · rw [List.map_append, List.nodup_append]
      refine ⟨h.distinct c.key, List.nodup_singleton _, ?_⟩
      rintro a ha b hb rfl
      obtain ⟨f, hf, rfl⟩ := List.mem_map.mp ha
      refine h.fresh hrecorded hf ?_
      rw [List.mem_singleton.mp hb]
      exact hcommand
    · exact h.distinct key
  · intro tenantId commandId entry hentry
    have hentry' : Function.update s.commands (c.tenantId, c.commandId) (some (c.entry sha))
      (tenantId, commandId) = some entry := hentry
    by_cases hsame : (tenantId, commandId) = (c.tenantId, c.commandId)
    · obtain ⟨rfl, rfl⟩ := Prod.mk.inj hsame
      rw [Function.update_self] at hentry'
      rw [← Option.some.inj hentry']
      refine ⟨fact, ?_, hcommand⟩
      rw [facts_record]
      exact (if_pos rfl).symm ▸ List.mem_append_right _ List.mem_cons_self
    · rw [Function.update_of_ne hsame] at hentry'
      obtain ⟨f, hf, hcommandId⟩ := h.indexed tenantId commandId entry hentry'
      refine ⟨f, ?_, hcommandId⟩
      rw [facts_record]
      split
      · rename_i hkey
        rw [hkey] at hf
        exact List.mem_append_left _ hf
      · exact hf

/-- **A recorded fact keeps every law.** -/
theorem LedgerLaws.record (h : LedgerLaws sha s)
    (hrecorded : Recorded sha s c.key c.factType c.commandId c.payload fact p) :
    LedgerLaws sha (s.record c.key (c.tenantId, c.commandId) (c.entry sha) fact p) := by
  obtain ⟨actor, time, hbuilt⟩ := hrecorded.built
  obtain ⟨hsequence, hprevious, -⟩ := buildFact_ok hbuilt
  refine ⟨?_, ?_, ?_, ?_, h.ledger.record hrecorded _ _, h.index.record hrecorded⟩
  · intro key
    rw [facts_record]
    split
    · rw [List.length_append, List.length_singleton, List.range_succ, List.map_append,
        List.map_append, h.numbered, List.map_singleton, List.map_singleton, hsequence]
    · exact h.numbered key
  · intro key
    rw [facts_record]
    split
    · rw [List.length_append]
      exact hrecorded.bounded
    · exact h.bounded key
  · intro key
    rw [facts_record]
    split
    · exact HashChain.linked_concat.mpr ⟨h.chained c.key, hprevious⟩
    · exact h.chained key
  · intro key
    rw [facts_record]
    show _ = Except.ok (Function.update s.projections c.key (some p) key)
    split
    · rename_i hkey
      rw [hkey, replay_concat, h.replayed, Function.update_self]
      show (reduceRemediation (s.projections c.key) fact).map some = _
      rw [hrecorded.reduced]
      rfl
    · rename_i hkey
      rw [Function.update_of_ne hkey]
      exact h.replayed key

end Record

/-- Every append keeps the laws, whether or not it is accepted. -/
theorem LedgerLaws.step {s : State} (h : LedgerLaws sha s) (c : AppendCall) :
    LedgerLaws sha (appendStep sha s c).2 := by
  have hout := append_outcome sha s c
  generalize appendStep sha s c = result at hout
  cases hout with
  | replayed p hknown hprojection => exact h
  | recorded fact p hrecorded => exact h.record hrecorded
  | refused e hother => exact h

/-- **The laws hold after any sequence of appends.** -/
theorem ledgerLaws_run (policies : List ActionPolicy) (limits : String → Int)
    (calls : List AppendCall) :
    LedgerLaws sha (appendAll sha (State.start policies limits) calls) :=
  Machine.run_invariant_all (I := fun s => LedgerLaws sha s) (fun _ c h => h.step c) _
    (ledgerLaws_start policies limits) calls

/-! ## Repeated commands and terminal plans -/

theorem LedgerLaws.projected {s : State} (h : LedgerLaws sha s) {key : String × String}
    {fact : RemediationFact} (hfact : fact ∈ s.facts key) : ∃ p, s.projections key = some p := by
  cases hp : s.projections key with
  | some p => exact ⟨p, rfl⟩
  | none =>
    rw [h.ledger.missing key hp] at hfact
    exact absurd hfact List.not_mem_nil

/-- The stored projection is the rebuilt one. -/
theorem LedgerLaws.rebuilt {s : State} (h : LedgerLaws sha s) (key : String × String)
    (p : RemediationProjection) : s.projections key = some p ↔ rebuild s key = .ok p := by
  have hreplayed := h.replayed key
  unfold rebuild
  rw [hreplayed]
  cases s.projections key with
  | none =>
    refine ⟨fun hnone => (by cases hnone), fun herror => ?_⟩
    cases herror
  | some q =>
    refine ⟨fun hsome => congrArg Except.ok (Option.some.inj hsome), fun hok => ?_⟩
    exact congrArg some (Except.ok.inj hok)

/-- A command id is accepted at most once in a tenant. -/
theorem LedgerLaws.accepted_once {s : State} (h : LedgerLaws sha s)
    {tenantId planId planId' : String} {i j : Nat} {f g : RemediationFact}
    (hf : (s.facts (tenantId, planId))[i]? = some f)
    (hg : (s.facts (tenantId, planId'))[j]? = some g) (hcommand : f.commandId = g.commandId) :
    planId = planId' ∧ i = j := by
  have hknown := h.index.known tenantId planId f (List.mem_of_getElem? hf)
  have hknown' := h.index.known tenantId planId' g (List.mem_of_getElem? hg)
  rw [hcommand, hknown'] at hknown
  obtain ⟨rfl, -⟩ := Prod.mk.inj (Option.some.inj hknown)
  refine ⟨rfl, ?_⟩
  have hi : ((s.facts (tenantId, planId')).map (·.commandId.val))[i]? = some f.commandId.val := by
    rw [List.getElem?_map, hf]
    rfl
  have hj : ((s.facts (tenantId, planId')).map (·.commandId.val))[j]? = some f.commandId.val := by
    rw [List.getElem?_map, hg, hcommand]
    rfl
  have hlt : i < ((s.facts (tenantId, planId')).map (·.commandId.val)).length :=
    (List.getElem?_eq_some_iff.mp hi).1
  exact (List.getElem?_inj hlt (h.index.distinct _)).mp (hi.trans hj.symm)

def AppendCall.text (c : AppendCall) : String := fingerprintText c.factType c.payload

/-- Every fact was recorded by a call, with its type and its payload. -/
theorem facts_called (policies : List ActionPolicy) (limits : String → Int)
    (calls : List AppendCall) :
    ∀ key, ∀ fact ∈ (appendAll sha (State.start policies limits) calls).facts key,
      ∃ c ∈ calls, fingerprintText fact.factType fact.payload = c.text := by
  induction calls using List.reverseRecOn with
  | nil => exact fun _ _ hfact => absurd hfact List.not_mem_nil
  | append_singleton calls c ih =>
    intro key fact hfact
    have hold : ∀ f ∈ (appendAll sha (State.start policies limits) calls).facts key,
        ∃ c' ∈ calls ++ [c], fingerprintText f.factType f.payload = c'.text := by
      intro f hf
      obtain ⟨c', hc', htext⟩ := ih key f hf
      exact ⟨c', List.mem_append_left _ hc', htext⟩
    rw [appendAll, Machine.final_concat] at hfact
    have hout := append_outcome sha (appendAll sha (State.start policies limits) calls) c
    unfold appendAll at hout hold
    generalize appendStep sha (Machine.final (appendStep sha) (State.start policies limits) calls) c
      = result at hout hfact
    cases hout with
    | replayed p hknown hprojection => exact hold fact hfact
    | refused e hother => exact hold fact hfact
    | recorded new p hrecorded =>
      have hfact' : fact ∈ (State.record _ c.key (c.tenantId, c.commandId) (c.entry sha) new p).facts
        key := hfact
      rw [facts_record] at hfact'
      split at hfact'
      · rename_i hkey
        rcases List.mem_append.mp hfact' with hf | hf
        · exact hold fact (hkey ▸ hf)
        · obtain ⟨actor, time, hbuilt⟩ := hrecorded.built
          obtain ⟨-, -, htype, hpayload, -⟩ := buildFact_ok hbuilt
          refine ⟨c, List.mem_append_right _ List.mem_cons_self, ?_⟩
          rw [List.mem_singleton.mp hf, htype, hpayload]
          exact fingerprintText_same (Fields.toJson_sorted c.payload)
      · exact hold fact hfact'

/-- The command was accepted before, with this fact. -/
def Repeats (s : State) (c : AppendCall) (planId : String) (fact : RemediationFact) : Prop :=
  fact ∈ s.facts (c.tenantId, planId) ∧ fact.commandId.val = c.commandId

/-- The command is repeated with the content it had. -/
def SameContent (c : AppendCall) (planId : String) (fact : RemediationFact) : Prop :=
  planId = c.planId ∧ fact.factType = c.factType ∧ fact.payload.toJson.Same c.payload.toJson

/-- What an append answers to a command that was accepted before. -/
structure RepeatLaw (e : AppendEntry) : Prop where
  same : ∀ planId fact, Repeats e.before e.op planId fact → SameContent e.op planId fact →
    (∃ p, e.before.projections e.op.key = some p ∧ e.result = .ok p) ∧ e.after = e.before
  other : ∀ planId fact, Repeats e.before e.op planId fact → ¬SameContent e.op planId fact →
    ∃ error, e.result = .error error

theorem appendStep_same {s : State} (h : LedgerLaws sha s) {c : AppendCall} {planId : String}
    {fact : RemediationFact} (hrepeats : Repeats s c planId fact) (hsame : SameContent c planId fact) :
    (∃ p, s.projections c.key = some p ∧ (appendStep sha s c).1 = .ok p) ∧
      (appendStep sha s c).2 = s := by
  obtain ⟨hfact, hcommand⟩ := hrepeats
  obtain ⟨rfl, htype, hpayload⟩ := hsame
  have hknown := h.index.known c.tenantId c.planId fact hfact
  have hentry : s.commands (c.tenantId, c.commandId) = some (c.entry sha) := by
    rw [← hcommand, hknown, htype]
    exact congrArg (fun d => some (c.planId, d)) (congrArg sha.hexdigest (fingerprintText_same hpayload))
  obtain ⟨p, hp⟩ := h.projected hfact
  have hout := append_outcome sha s c
  generalize appendStep sha s c = result at hout
  cases hout with
  | replayed q hknown' hq => exact ⟨⟨q, hq, rfl⟩, rfl⟩
  | recorded new q hrecorded =>
    have hfresh : s.commands (c.tenantId, c.commandId) = none := hrecorded.fresh
    rw [hentry] at hfresh
    cases hfresh
  | refused e hother =>
    have hnone : s.projections c.key = none := hother hentry
    have hsome : s.projections c.key = some p := hp
    rw [hnone] at hsome
    cases hsome

theorem appendStep_other {s : State} (h : LedgerLaws sha s) {c : AppendCall} {texts : Set String}
    (hfree : sha.CollisionFree texts) (hc : c.text ∈ texts) {planId : String}
    {fact : RemediationFact} (hrepeats : Repeats s c planId fact)
    (htext : fingerprintText fact.factType fact.payload ∈ texts)
    (hother : ¬SameContent c planId fact) : ∃ error, (appendStep sha s c).1 = .error error := by
  obtain ⟨hfact, hcommand⟩ := hrepeats
  have hknown := h.index.known c.tenantId planId fact hfact
  rw [hcommand] at hknown
  have hout := append_outcome sha s c
  generalize appendStep sha s c = result at hout
  cases hout with
  | replayed q hentry hq =>
    -- one entry, so one plan and one fingerprint
    rw [hknown] at hentry
    obtain ⟨rfl, hdigest⟩ := Prod.mk.inj (Option.some.inj hentry)
    exact absurd ⟨rfl, fingerprintText_inj (hfree.hexdigest htext hc hdigest)⟩ hother
  | recorded new q hrecorded =>
    have hfresh : s.commands (c.tenantId, c.commandId) = none := hrecorded.fresh
    rw [hknown] at hfresh
    cases hfresh
  | refused e hno => exact ⟨e, rfl⟩

/-- The plan has ended. -/
def Ended (s : State) (key : String × String) : Prop :=
  ∃ p, s.projections key = some p ∧ p.status ∈ terminal

/-- An ended plan takes no fact, and stays ended. -/
theorem Ended.step (sha : Sha256) {s : State} {key : String × String} (h : Ended s key)
    (c : AppendCall) :
    (appendStep sha s c).2.facts key = s.facts key ∧ Ended (appendStep sha s c).2 key := by
  obtain ⟨p, hp, hterminal⟩ := h
  have hout := append_outcome sha s c
  generalize appendStep sha s c = result at hout
  cases hout with
  | replayed q hknown hq => exact ⟨rfl, p, hp, hterminal⟩
  | refused e hother => exact ⟨rfl, p, hp, hterminal⟩
  | recorded new q hrecorded =>
    have hkey : key ≠ c.key := by
      rintro rfl
      obtain ⟨-, -, hopen, -⟩ := (reduceRemediation_ok hrecorded.reduced).next p hp
      exact hopen hterminal
    refine ⟨?_, p, ?_, hterminal⟩
    · show (State.record s c.key _ _ new q).facts key = _
      rw [facts_record, if_neg hkey]
    · show Function.update s.projections c.key (some q) key = _
      rw [Function.update_of_ne hkey]
      exact hp

theorem Ended.run {key : String × String} (calls : List AppendCall) :
    ∀ {s : State}, Ended s key → (appendAll sha s calls).facts key = s.facts key := by
  induction calls with
  | nil => exact fun _ => rfl
  | cons c calls ih =>
    intro s h
    obtain ⟨hfacts, hended⟩ := Ended.step sha h c
    exact (ih hended).trans hfacts

/-! ## The laws of a run -/

/-- The facts of one plan: numbered, bounded, chained, and what the projection is rebuilt from. -/
structure PlanLaw (s : State) (key : String × String) : Prop where
  numbered : (s.facts key).map (·.sequence) = (List.range (s.facts key).length).map (· + 1)
  bounded : (s.facts key).length ≤ 500
  chained : HashChain.Linked RemediationFact.previousDigest RemediationFact.canonicalDigest zeroHash
    (s.facts key)
  rebuilt : ∀ p, s.projections key = some p ↔ rebuild s key = .ok p

/-- **The laws of the ledger**, for any sequence of appends. -/
theorem ledger_laws (policies : List ActionPolicy) (limits : String → Int) (calls : List AppendCall)
    (hfree : sha.CollisionFree { x | ∃ c ∈ calls, x = c.text }) :
    let start := State.start policies limits
    let s := appendAll sha start calls
    (∀ key, PlanLaw s key) ∧
    (∀ tenantId planId planId' (i j : Nat) f g, (s.facts (tenantId, planId))[i]? = some f →
      (s.facts (tenantId, planId'))[j]? = some g → f.commandId = g.commandId →
      planId = planId' ∧ i = j) ∧
    (∀ e ∈ appendHistory sha start calls, RepeatLaw e ∧
      ∀ error, e.result = .error error → e.after = e.before) ∧
    ∀ before later, calls = before ++ later → ∀ key, Ended (appendAll sha start before) key →
      s.facts key = (appendAll sha start before).facts key := by
  intro start s
  have hlaws : LedgerLaws sha s := ledgerLaws_run policies limits calls
  refine ⟨fun key => ⟨hlaws.numbered key, hlaws.bounded key, hlaws.chained key,
    hlaws.rebuilt key⟩, fun _ _ _ _ _ _ _ hf hg hcommand => hlaws.accepted_once hf hg hcommand,
    fun e he => ?_, ?_⟩
  · obtain ⟨xs, ys, hcalls, hentry⟩ := Machine.trace_mem he
    have hbefore : e.before = appendAll sha start xs := congrArg Machine.Entry.before hentry
    have hresult : e.result = (appendStep sha e.before e.op).1 := by
      rw [hbefore]
      exact congrArg Machine.Entry.result hentry
    have hafter : e.after = (appendStep sha e.before e.op).2 := by
      rw [hbefore]
      exact congrArg Machine.Entry.after hentry
    have hheld : LedgerLaws sha e.before := hbefore ▸ ledgerLaws_run policies limits xs
    have hmem : e.op ∈ calls := by
      rw [hcalls]
      exact List.mem_append_right _ List.mem_cons_self
    refine ⟨⟨fun planId fact hrepeats hsame => ?_, fun planId fact hrepeats hother => ?_⟩,
      fun error herror => ?_⟩
    · rw [hresult, hafter]
      exact appendStep_same hheld hrepeats hsame
    · rw [hresult]
      have hfact := hrepeats.1
      rw [hbefore] at hfact
      obtain ⟨c, hc, htext⟩ := facts_called policies limits xs _ fact hfact
      have hc' : c ∈ calls := by
        rw [hcalls]
        exact List.mem_append_left _ hc
      exact appendStep_other hheld hfree ⟨e.op, hmem, rfl⟩ hrepeats ⟨c, hc', htext⟩ hother
    · rw [hafter]
      exact appendStep_error (hresult ▸ herror)
  · rintro before later rfl key hended
    show (Machine.final (appendStep sha) start (before ++ later)).facts key = _
    rw [Machine.final_append]
    exact Ended.run later hended

/-- A proposal, the same again, and the same command with another content. -/
def sampleAppends : List AppendCall :=
  let proposal : AppendCall :=
    { tenantId := "t", planId := "p", expectedVersion := 0, factType := .proposalRecorded,
      commandId := "c1", actorRef := "actor", recordedAt := ⟨0, 0⟩,
      payload := Fields.of [("run_id", .str "r"), ("plan_digest", .str zeroHash.val),
        ("fence_token", .str "f")] }
  [proposal, proposal, { proposal with factType := .policyDecided }]

/-- A hash that tells the contents of the three calls apart: two of them have one text. -/
def sampleAppendHash : Sha256 := .table (sampleAppends.map AppendCall.text)

theorem ledger_laws_sample :
    sampleAppendHash.CollisionFree { x | ∃ c ∈ sampleAppends, x = c.text } ∧
      ∀ key, PlanLaw (appendAll sampleAppendHash (State.start [] (fun _ => 0)) sampleAppends) key := by
  have hfree : sampleAppendHash.CollisionFree { x | ∃ c ∈ sampleAppends, x = c.text } := by
    refine Sha256.table_collisionFree (by decide) "" ?_
    rintro x ⟨c, hc, rfl⟩
    exact .inl (List.mem_map.mpr ⟨c, hc, rfl⟩)
  exact ⟨hfree, (ledger_laws [] (fun _ => 0) sampleAppends hfree).1⟩

end Remediation

end Aegis
