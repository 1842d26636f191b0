/-
  TWO LEDGERS, ONE SET OF LAWS: executions and memories.

  Whatever is appended, in whatever order, to either ledger: the facts of an aggregate are numbered and
  linked, each carries the digest the reducer computes of it, and the stored projection is their fold, so
  a rebuild returns it and changes nothing.  A repeated command is answered from the projection, with
  other content it is refused, and what fails leaves no trace.
-/
import Mathlib
import Aegis.Memory.LedgerLaws
import Aegis.Sandbox.Ledger

namespace Aegis

/-- **Both ledgers replay to their projections.** -/
theorem ledgers_replay (sha : Sha256) (reprOf : Json → String) (ports : Memory.Ports)
    (appends : List Sandbox.AppendCall) (ops : List Memory.LedgerOp)
    (hfree : sha.CollisionFree {x | ∃ c ∈ appends, x = c.text})
    (hfree' : sha.CollisionFree {x | ∃ c, Memory.LedgerOp.append c ∈ ops ∧ x = c.text}) :
    (FactBook.Laws (Sandbox.factKind sha reprOf) (Sandbox.appendAll sha reprOf appends) ∧
      (∀ key, (Sandbox.appendAll sha reprOf appends).facts key ≠ [] →
        ∃ p, (Sandbox.appendAll sha reprOf appends).projections key = some p ∧
          Sandbox.rebuild sha reprOf key (Sandbox.appendAll sha reprOf appends) =
            (.ok p, Sandbox.appendAll sha reprOf appends)) ∧
      ∀ e ∈ Sandbox.appendHistory sha reprOf appends, Sandbox.RepeatLaw e ∧
        ∀ error, e.result = .error error → e.after = e.before) ∧
    (FactBook.Laws (Memory.factKind sha (Memory.ledgerRun sha ports ops).records)
        (Memory.ledgerRun sha ports ops).book ∧
      (∀ key, (Memory.ledgerRun sha ports ops).facts key ≠ [] →
        ∃ p, (Memory.ledgerRun sha ports ops).projections key = some p ∧
          Memory.rebuild sha key (Memory.ledgerRun sha ports ops) =
            (.ok p, Memory.ledgerRun sha ports ops)) ∧
      ∀ e ∈ Memory.ledgerHistory sha ports ops,
        (∀ c, e.op = .append c → Memory.RepeatLaw e c) ∧
        ∀ error, e.result = .error error → e.after = e.before) := by
  refine ⟨⟨Sandbox.appendAll_laws appends, ?_, ?_⟩, Memory.ledgerRun_laws ops, ?_, ?_⟩
  · intro key hfacts
    obtain ⟨fact, hfact⟩ := List.exists_mem_of_ne_nil _ hfacts
    obtain ⟨p, hp⟩ := (Sandbox.appendAll_laws appends).projected hfact
    exact ⟨p, hp, Sandbox.rebuild_stored (Sandbox.appendAll_laws appends) hp⟩
  · intro e he
    exact ⟨Sandbox.repeatLaw_of_history hfree he, fun error => Sandbox.failed_append he⟩
  · intro key hfacts
    obtain ⟨fact, hfact⟩ := List.exists_mem_of_ne_nil _ hfacts
    have hlaws : Memory.LedgerLaws sha (Memory.ledgerRun sha ports ops) := Memory.ledgerRun_laws ops
    obtain ⟨p, hp⟩ : ∃ p, (Memory.ledgerRun sha ports ops).projections key = some p :=
      hlaws.projected hfact
    exact ⟨p, hp, Memory.rebuild_stored (Memory.ledgerRun_laws ops) hp⟩
  · intro e he
    exact ⟨fun c hop => Memory.repeatLaw_of_history hfree' he hop, fun error => Memory.failed_call he⟩

/-- A request, the same again, and the same command with other content. -/
def sampleFacts : List Sandbox.AppendCall :=
  let request : Sandbox.AppendCall :=
    { tenantId := "t", executionId := "e", expectedVersion := 0, factType := .requestRecorded,
      commandId := "c", actorRef := "a", recordedAt := ⟨0, 0⟩,
      payload := Fields.of [("run_id", .str "r"), ("task_id", .str "k"),
        ("request_digest", .str zeroHash.val), ("spec_digest", .str zeroHash.val),
        ("policy_digest", .str zeroHash.val), ("approval_digest", .str zeroHash.val),
        ("fence_token", .str "f")] }
  [request, request, { request with factType := .policyDecided }]

/-- A record, its candidate, the candidate again, and the same command for another fact. -/
def sampleMemory : List Memory.LedgerOp :=
  let candidate : Memory.AppendCall :=
    { tenantId := "t", memoryId := "m", expectedVersion := 0, factType := .candidateProposed,
      commandId := "c", actorRef := "a", recordedAt := ⟨0, 0⟩, payload := Fields.of [] }
  [.putRecord Memory.sampleRecord, .append candidate, .append candidate,
    .append { candidate with factType := .candidateAccepted }]

/-- A hash that tells the contents of the two cases apart. -/
def sampleLedgerHash : Sha256 :=
  .table (sampleFacts.map Sandbox.AppendCall.text ++ sampleMemory.filterMap fun
    | .putRecord _ => none
    | .append c => some c.text)

theorem ledgers_replay_sample :
    (Sandbox.appendHistory sampleLedgerHash (fun _ => "") sampleFacts).length = 3 ∧
    ∀ e ∈ Sandbox.appendHistory sampleLedgerHash (fun _ => "") sampleFacts, Sandbox.RepeatLaw e ∧
      ∀ error, e.result = .error error → e.after = e.before := by
  refine ⟨rfl, (ledgers_replay sampleLedgerHash (fun _ => "") Memory.samplePorts sampleFacts sampleMemory
    ?_ ?_).1.2.2⟩
  · refine Sha256.table_collisionFree (by decide) "" ?_
    rintro text ⟨c, hc, rfl⟩
    exact .inl (List.mem_append_left _ (List.mem_map.mpr ⟨c, hc, rfl⟩))
  · refine Sha256.table_collisionFree (by decide) "" ?_
    rintro text ⟨c, hc, rfl⟩
    exact .inl (List.mem_append_right _ (List.mem_filterMap.mpr ⟨_, hc, rfl⟩))

end Aegis
