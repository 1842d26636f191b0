/-
  SUBMISSIONS ARE REMEMBERED, for a while.

  `submit` keeps the response of each key and answers a repetition from what it keeps.  The table has a bound
  and forgets its oldest entry, so a key is remembered until as many OTHER keys as the bound have been used
  since (`submit_idempotent`); after that a repetition reaches the application again.

  Only `submit` writes the table, and only with a response that the application was called for: of every
  other server call the table is in the frame.
-/
import Mathlib
import Aegis.Lib.Cache
import Aegis.Interop.Facts
import Aegis.Interop.Servers

namespace Aegis

namespace Interop

open Exec (Leaves)

section

variable {sha : Sha256} {texts : Texts} {ports : ServerPorts} {mcp : CuratedMcpServer} {a2a : BoundedA2AServer}
  {α : Type}

/-! ## What leaves the table alone -/

theorem leaves_port (call : PortCall) (answer : Nat → Except Failure α) (grants : α → Bool) :
    Leaves ServerState.idempotency (callPort call answer grants) := by
  intro s
  unfold callPort Exec.Sat
  dsimp only
  cases answer s.log.length with
  | ok a => rfl
  | error e => rfl

theorem leaves_cursor (principal : PrincipalContract) (position pageSize : Nat) (queryDigest : Digest) :
    Leaves ServerState.idempotency (makeCursor sha texts ports principal position pageSize queryDigest) := by
  refine Exec.leaves_bind (fun _ => rfl) fun time => ?_
  refine Exec.leaves_bind (Exec.leaves_lift _) fun hash => ?_
  exact Exec.leaves_bind (Exec.leaves_require _ _) fun _ => Exec.leaves_lift _

theorem runTool_leaves (principal : PrincipalContract) (request : McpCallRequest) (resourceRef : String) :
    Leaves ServerState.idempotency (runTool sha texts ports principal request resourceRef) := by
  have hport : ∀ {β : Type} (call : PortCall) (answer : Nat → Except Failure β),
      Leaves ServerState.idempotency (callApplication call answer) := fun call answer => leaves_port _ _ _
  unfold runTool
  dsimp only
  cases request.toolName with
  | incidentRead => exact Exec.leaves_bind (hport _ _) fun ⟨_, _, _⟩ => Exec.leaves_lift _
  | evidenceList =>
    refine Exec.leaves_bind (Exec.leaves_lift _) fun limit => ?_
    refine Exec.leaves_bind (hport _ _) fun ⟨resources, hasMore⟩ => ?_
    refine Exec.leaves_ite ?_ (Exec.leaves_lift _)
    refine Exec.leaves_bind (Exec.leaves_lift _) fun queryDigest => ?_
    exact Exec.leaves_bind (leaves_cursor _ _ _ _) fun _ => Exec.leaves_lift _
  | memorySearch =>
    refine Exec.leaves_bind (Exec.leaves_lift _) fun query => ?_
    refine Exec.leaves_bind (Exec.leaves_lift _) fun queryDigest => ?_
    refine Exec.leaves_bind (Exec.leaves_lift _) fun limit => ?_
    exact Exec.leaves_bind (hport _ _) fun ⟨_, _⟩ => Exec.leaves_lift _
  | runbookRead => exact Exec.leaves_bind (hport _ _) fun ⟨_, _, _⟩ => Exec.leaves_lift _
  | statusRead => exact Exec.leaves_bind (hport _ _) fun ⟨_, _⟩ => Exec.leaves_lift _
  | investigationSubmit =>
    refine Exec.leaves_bind (Exec.leaves_lift _) fun requestDigest => ?_
    refine Exec.leaves_bind (hport _ _) fun investigationRef => ?_
    exact Exec.leaves_bind (Exec.leaves_lift _) fun _ => Exec.leaves_lift _
  | proposalSubmit =>
    refine Exec.leaves_bind (Exec.leaves_lift _) fun submission => ?_
    exact Exec.leaves_bind (hport _ _) fun _ => Exec.leaves_lift _

theorem runSkill_leaves (principal : PrincipalContract) (skill : AgentSkillContract)
    (request : A2ATaskRequest) :
    Leaves ServerState.idempotency (runSkill sha texts ports principal skill request) := by
  have hport : ∀ {β : Type} (call : PortCall) (answer : Nat → Except Failure β),
      Leaves ServerState.idempotency (callApplication call answer) := fun call answer => leaves_port _ _ _
  have hnow : Leaves ServerState.idempotency (serverNow ports) := fun _ => rfl
  unfold runSkill
  dsimp only
  refine Exec.leaves_ite ?_ (Exec.leaves_ite ?_ (Exec.leaves_ite ?_ (Exec.leaves_ite ?_ (Exec.leaves_raise _))))
  · refine Exec.leaves_bind (hport _ _) fun taskRef => Exec.leaves_bind hnow fun time => ?_
    exact Exec.leaves_bind (Exec.leaves_lift _) fun _ => Exec.leaves_lift _
  · exact Exec.leaves_bind (hport _ _) fun _ => Exec.leaves_lift _
  · refine Exec.leaves_bind (hport _ _) fun ⟨artifacts, cursor⟩ => Exec.leaves_bind hnow fun time => ?_
    exact Exec.leaves_bind (Exec.leaves_lift _) fun _ => Exec.leaves_lift _
  · refine Exec.leaves_bind (hport _ _) fun proposalRef => Exec.leaves_bind hnow fun time => ?_
    exact Exec.leaves_bind (Exec.leaves_lift _) fun _ => Exec.leaves_lift _

/-! ## What a submission comes to -/

/-- A submission is refused before the table is read, answered from it, refused for it, or handed to the
    application; then the response is remembered. -/
inductive SubmitOutcome (sha : Sha256) (texts : Texts) (ports : ServerPorts) (server : BoundedA2AServer)
    (principal : PrincipalContract) (request : A2ATaskRequest) (s : ServerState) :
    Except Failure A2ATaskResponse × ServerState → Prop
  | refused (e : Failure) (s' : ServerState) (htable : s'.idempotency = s.idempotency)
    (hlog : s'.log = s.log ∨ ∃ g, s'.log = s.log ++ [g] ∧ g.call.authorizes.isSome = true)
    (hdenied : ∀ skill, server.skill request.skillId = some skill →
      ports.authorizeSkill s.log.length principal skill request.resourceRef.val = .ok true →
      ∃ e, digestValue sha texts request.modelDump = .error e) :
    SubmitOutcome sha texts ports server principal request s (.error e, s')
  | known (s' : ServerState) (existing : Digest × A2ATaskResponse) (digest : Digest) (g : PortEvent)
    (hlookup : s.idempotency.lookup (idempotencyKey principal request) = some existing)
    (hdigest : digestValue sha texts request.modelDump = .ok digest)
    (htable : s'.idempotency = s.idempotency) (hlog : s'.log = s.log ++ [g])
    (hg : g.call.authorizes.isSome = true) :
    SubmitOutcome sha texts ports server principal request s
      (if existing.1 = digest then .ok existing.2
        else .error ⟨.idempotencyConflict, "A2A idempotency key changed request"⟩, s')
  | failed (e : Failure) (s' : ServerState) (htable : s'.idempotency = s.idempotency)
    (hlookup : s.idempotency.lookup (idempotencyKey principal request) = none) :
    SubmitOutcome sha texts ports server principal request s (.error e, s')
  | stored (s' : ServerState) (digest : Digest) (response : A2ATaskResponse)
    (hlookup : s.idempotency.lookup (idempotencyKey principal request) = none)
    (hdigest : digestValue sha texts request.modelDump = .ok digest)
    (htable : s'.idempotency = Cache.insert server.maximumIdempotencyEntries
      (idempotencyKey principal request) (digest, response) s.idempotency) :
    SubmitOutcome sha texts ports server principal request s (.ok response, s')

theorem submit_outcome (server : BoundedA2AServer) (principal : PrincipalContract) (request : A2ATaskRequest)
    (s : ServerState) : SubmitOutcome sha texts ports server principal request s
      (server.submit sha texts ports principal request s) := by
  have hrun : Exec.Sat (server.submit sha texts ports principal request) s
      (fun r s' => SubmitOutcome sha texts ports server principal request s (.ok r, s'))
      (fun e s' => SubmitOutcome sha texts ports server principal request s (.error e, s')) := by
    unfold BoundedA2AServer.submit
    refine Exec.Sat.attempt (fun e he => .refused e s rfl (.inl rfl) fun _ _ _ => ⟨e, he⟩) fun digest hdigest => ?_
    cases hskill : server.skill request.skillId with
    | none => exact .refused _ s rfl (.inl rfl) fun skill hsome => by rw [hskill] at hsome; cases hsome
    | some skill =>
      dsimp only
      rw [Exec.sat_bind]
      unfold callPort Exec.Sat
      dsimp only
      cases hanswer : ports.authorizeSkill s.log.length principal skill request.resourceRef.val with
      | error e =>
        refine .refused e _ rfl (.inr ⟨_, rfl, rfl⟩) fun skill' hskill' hgranted => ?_
        rw [hskill] at hskill'
        cases hskill'
        rw [hanswer] at hgranted
        cases hgranted
      | ok allowed =>
        show Exec.Sat _ _ _ _
        refine Exec.Sat.check (fun hno => ?_) fun hallowed => ?_
        · refine .refused _ _ rfl (.inr ⟨_, rfl, rfl⟩) fun skill' hskill' hgranted => ?_
          rw [hskill] at hskill'
          cases hskill'
          rw [hanswer] at hgranted
          exact absurd (Except.ok.inj hgranted) hno
        · rw [Exec.sat_bind, Exec.sat_read]
          dsimp only
          cases hlookup : s.idempotency.lookup (idempotencyKey principal request) with
          | some existing =>
            dsimp only
            have hknown : SubmitOutcome sha texts ports server principal request s
                (if existing.1 = digest then .ok existing.2
                  else .error ⟨.idempotencyConflict, "A2A idempotency key changed request"⟩,
                  { s with log := s.log ++ [⟨.authorizeSkill principal skill request.resourceRef.val,
                    (Except.ok allowed : Except Failure Bool).toOption.any id⟩] }) :=
              .known _ existing digest _ hlookup hdigest rfl rfl rfl
            refine Exec.Sat.check (fun hchanged => ?_) fun hsame => ?_
            · rw [if_neg hchanged] at hknown
              exact hknown
            · rw [if_pos hsame] at hknown
              exact hknown
          | none =>
            dsimp only
            refine Exec.Leaves.before (runSkill_leaves principal skill request)
              (fun e s' hs => .failed e s' hs hlookup) fun response s' hs => ?_
            rw [Exec.sat_bind, Exec.sat_modify, Exec.sat_pure]
            refine .stored _ digest response hlookup hdigest ?_
            show (if server.maximumIdempotencyEntries ≤ s'.idempotency.length then s'.idempotency.tail
              else s'.idempotency) ++ _ = _
            rw [hs]
            rfl
  exact hrun.outcome (P := fun r s' => SubmitOutcome sha texts ports server principal request s (r, s'))

/-! ## Runs -/

/-- The key that a server call uses. -/
def ServerOp.key : ServerOp → Option IdempotencyKey
  | .a2aSubmit principal request => some (idempotencyKey principal request)
  | _ => none

/-- The keys that some calls use. -/
def usedKeys (ops : List ServerOp) : Finset IdempotencyKey := (ops.filterMap ServerOp.key).toFinset

/-- **What one server call does to the table**: nothing, or it remembers a key that it uses and that was not
    there. -/
theorem step_table (s : ServerState) (op : ServerOp) :
    (serverStep sha texts ports mcp a2a s op).2.idempotency = s.idempotency ∨
      ∃ key v, op.key = some key ∧ s.idempotency.lookup key = none ∧
        (serverStep sha texts ports mcp a2a s op).2.idempotency =
          Cache.insert a2a.maximumIdempotencyEntries key v s.idempotency := by
  have hleaves : ∀ {β : Type} {x : ServerAction β}, Leaves ServerState.idempotency x →
      (x s).2.idempotency = s.idempotency := fun hx =>
    Exec.Sat.state (I := fun s' : ServerState => s'.idempotency = s.idempotency) (hx s)
  unfold serverStep ServerOp.body
  cases op with
  | mcpCall principal request cancelled =>
    left
    dsimp only
    rw [state_of_bind]
    refine hleaves ?_
    unfold CuratedMcpServer.call
    refine Exec.leaves_ite (Exec.leaves_lift _) ?_
    cases mcp.tool request.toolName with
    | none => exact Exec.leaves_raise _
    | some tool =>
      refine Exec.leaves_bind (Exec.leaves_lift _) fun resourceRef => ?_
      refine Exec.leaves_bind (leaves_port _ _ _) fun allowed => ?_
      exact Exec.leaves_bind (Exec.leaves_require _ _) fun _ => runTool_leaves _ _ _
  | a2aSubmit principal request =>
    dsimp only
    rw [state_of_bind]
    have hout := @submit_outcome sha texts ports a2a principal request s
    generalize a2a.submit sha texts ports principal request s = out at hout
    cases hout with
    | refused e s' htable => exact .inl htable
    | known s' existing digest g hlookup hdigest htable => exact .inl htable
    | failed e s' htable => exact .inl htable
    | stored s' digest response hlookup hdigest htable =>
      exact .inr ⟨_, (digest, response), rfl, hlookup, htable⟩
  | a2aCancel principal taskRef commandDigest =>
    left
    dsimp only
    rw [state_of_bind]
    refine hleaves ?_
    unfold cancelTask
    refine Exec.leaves_bind (leaves_port _ _ _) fun status => ?_
    exact Exec.leaves_bind (Exec.leaves_require _ _) fun _ => Exec.leaves_lift _

/-- **A key is remembered over a run** that uses fewer other keys than the table has room for. -/
theorem holds_run {key : IdempotencyKey} {v : Digest × A2ATaskResponse} (ops : List ServerOp) :
    ∀ (s : ServerState) (used : Finset IdempotencyKey), Cache.Holds s.idempotency key v used →
      ((used ∪ usedKeys ops).erase key).card < a2a.maximumIdempotencyEntries →
      Cache.Holds (Machine.final (serverStep sha texts ports mcp a2a) s ops).idempotency key v
        (used ∪ usedKeys ops) := by
  induction ops with
  | nil => exact fun s used h _ => h.mono Finset.subset_union_left
  | cons op ops ih =>
    intro s used h hroom
    have hkeys : ∀ key' ∈ op.key, used ∪ usedKeys (op :: ops) = insert key' used ∪ usedKeys ops := by
      intro key' hkey'
      unfold usedKeys
      rw [List.filterMap_cons_some hkey', List.toFinset_cons, Finset.union_insert, Finset.insert_union]
    show Cache.Holds (Machine.final _ (serverStep sha texts ports mcp a2a s op).2 ops).idempotency _ _ _
    rcases @step_table sha texts ports mcp a2a s op with hsame | ⟨key', v', hkey', hnew, htable⟩
    · cases hop : op.key with
      | none =>
        have hskip : usedKeys (op :: ops) = usedKeys ops := by
          unfold usedKeys
          rw [List.filterMap_cons_none hop]
        rw [hskip] at hroom ⊢
        exact ih _ used (by rw [hsame]; exact h) hroom
      | some key' =>
        rw [hkeys key' hop] at hroom ⊢
        exact ih _ _ (by rw [hsame]; exact h.mono (Finset.subset_insert _ _)) hroom
    · rw [hkeys key' hkey'] at hroom ⊢
      refine ih _ _ ?_ hroom
      rw [htable]
      refine (h.mono (Finset.subset_insert _ _)).insert hnew (Finset.mem_insert_self _ _) ?_
      exact lt_of_le_of_lt (Finset.card_le_card (Finset.erase_subset_erase _ Finset.subset_union_left)) hroom

/-- **Submissions are idempotent while they are remembered.**  Once a submission that the application was
    called for has returned, and as long as fewer other keys than the table has room for have been used
    since, a submission under its key calls no application.  If it is authorized, the same request is answered
    with the same response, and another one with a conflict. -/
theorem submit_idempotent (sha : Sha256) (texts : Texts) (ports : ServerPorts) (mcp : CuratedMcpServer)
    (a2a : BoundedA2AServer) (before between : List ServerOp) (principal principal' : PrincipalContract)
    (request request' : A2ATaskRequest) (response : A2ATaskResponse) (s : ServerState)
    (hnew : (Machine.final (serverStep sha texts ports mcp a2a) ServerState.start before).idempotency.lookup
      (idempotencyKey principal request) = none)
    (hfirst : a2a.submit sha texts ports principal request
      (Machine.final (serverStep sha texts ports mcp a2a) ServerState.start before) = (.ok response, s))
    (hfew : ((usedKeys between).erase (idempotencyKey principal request)).card <
      a2a.maximumIdempotencyEntries)
    (hkey : idempotencyKey principal' request' = idempotencyKey principal request)
    (hsha : sha.CollisionFree {canonicalJson request.modelDump, canonicalJson request'.modelDump}) :
    let later := Machine.final (serverStep sha texts ports mcp a2a) s between
    let out := a2a.submit sha texts ports principal' request' later
    (∃ added, out.2.log = later.log ++ added ∧ ∀ e ∈ added, e.call.reaches = none) ∧
      ∀ skill, a2a.skill request'.skillId = some skill →
        ports.authorizeSkill later.log.length principal' skill request'.resourceRef.val = .ok true →
        (request' = request → out.1 = .ok response) ∧
        ∀ digest, digestValue sha texts request'.modelDump = .ok digest →
          ¬request'.modelDump.Same request.modelDump →
          out.1 = .error ⟨.idempotencyConflict, "A2A idempotency key changed request"⟩ := by
  intro later out
  -- the response is in the table
  obtain ⟨digest, hdigest, hheld⟩ : ∃ digest, digestValue sha texts request.modelDump = .ok digest ∧
      Cache.Holds s.idempotency (idempotencyKey principal request) (digest, response) ∅ := by
    have hout := @submit_outcome sha texts ports a2a principal request
      (Machine.final (serverStep sha texts ports mcp a2a) ServerState.start before)
    rw [hfirst] at hout
    generalize hr : ((.ok response : Except Failure A2ATaskResponse), s) = r at hout
    cases hout with
    | refused e s' => cases hr
    | known s' existing digest g hlookup =>
      rw [hnew] at hlookup
      cases hlookup
    | failed e s' => cases hr
    | stored s' digest response' hlookup hdigest htable =>
      cases hr
      refine ⟨digest, hdigest, ?_⟩
      rw [htable]
      exact Cache.holds_insert hlookup
  -- and stays there
  have hlater : later.idempotency.lookup (idempotencyKey principal' request') = some (digest, response) := by
    rw [hkey]
    refine (holds_run between s ∅ hheld ?_).lookup
    rw [Finset.empty_union]
    exact hfew
  have hout : SubmitOutcome sha texts ports a2a principal' request' later out := submit_outcome _ _ _ _
  generalize out = o at hout
  have hsilent : ∀ {s' : ServerState} {g : PortEvent}, s'.log = later.log ++ [g] →
      g.call.authorizes.isSome = true →
      ∃ added, s'.log = later.log ++ added ∧ ∀ e ∈ added, e.call.reaches = none := by
    intro s' g hlog hg
    refine ⟨[g], hlog, fun e he => ?_⟩
    rw [List.mem_singleton.mp he]
    exact reaches_of_authorizes hg
  cases hout with
  | refused e s' htable hlog hdenied =>
    refine ⟨?_, fun skill hskill hgranted => ?_⟩
    · rcases hlog with hlog | ⟨g, hlog, hg⟩
      · exact ⟨[], by rw [List.append_nil]; exact hlog, fun e he => by cases he⟩
      · exact hsilent hlog hg
    · obtain ⟨e', he'⟩ := hdenied skill hskill hgranted
      refine ⟨fun hsame => ?_, fun d hd => ?_⟩
      · rw [hsame, hdigest] at he'
        cases he'
      · rw [hd] at he'
        cases he'
  | known s' existing digest' g hlookup hdigest' htable hlog hg =>
    rw [hlater] at hlookup
    cases hlookup
    refine ⟨hsilent hlog hg, fun skill hskill hgranted => ⟨fun hsame => ?_, fun d hd hother => ?_⟩⟩
    · rw [hsame, hdigest] at hdigest'
      exact if_pos (Except.ok.inj hdigest')
    · refine if_neg fun heq => hother ?_
      obtain ⟨-, -, hhash⟩ := digestValue_iff.mp hdigest
      obtain ⟨-, -, hhash'⟩ := digestValue_iff.mp hdigest'
      have htext := hsha.hexdigest (Set.mem_insert_of_mem _ rfl) (Set.mem_insert _ _)
        (hhash'.trans (heq.symm.trans hhash.symm))
      exact canonicalJson_inj.mp htext
  | failed e s' htable hlookup =>
    rw [hlater] at hlookup
    cases hlookup
  | stored s' digest' response' hlookup =>
    rw [hlater] at hlookup
    cases hlookup

/-- An authorized investigation under a new key is started, and its response remembered. -/
theorem submit_starts {server : BoundedA2AServer} {principal : PrincipalContract} {request : A2ATaskRequest}
    {s : ServerState} {skill : AgentSkillContract} {digest : Digest} {task : OpaqueReference}
    {status : StatusContract} {response : A2ATaskResponse}
    (hdigest : digestValue sha texts request.modelDump = .ok digest)
    (hskill : server.skill request.skillId = some skill)
    (hinvestigate : skill.skillId.val = A2ASkillName.investigate.value)
    (hallowed : ∀ n, ports.authorizeSkill n principal skill request.resourceRef.val = .ok true)
    (hnew : s.idempotency.lookup (idempotencyKey principal request) = none)
    (hstarted : ∀ n, ports.startInvestigation n principal request.message request.idempotencyKeyDigest = .ok task)
    (hstatus : ∀ n, statusOf sha texts .submitted 0 1 (ports.now n) = .ok status)
    (hresponse : a2aResponse sha texts task.val status [] none none = .ok response) :
    server.submit sha texts ports principal request s =
      (.ok response,
        { log := s.log ++ [⟨.authorizeSkill principal skill request.resourceRef.val, true⟩] ++
            [⟨.startInvestigation principal request.message request.idempotencyKeyDigest, false⟩]
          idempotency := Cache.insert server.maximumIdempotencyEntries (idempotencyKey principal request)
            (digest, response) s.idempotency }) := by
  have hlift : ∀ {β : Type} {r : Except Failure β} {b : β} (s : ServerState), r = .ok b →
      (Exec.lift r : ServerAction β) s = (.ok b, s) := by
    rintro β r b s rfl
    rfl
  have hcall : ∀ {β : Type} {call : PortCall} {answer : Nat → Except Failure β} {grants : β → Bool}
      (s : ServerState) {b : β}, (∀ n, answer n = .ok b) →
      callPort call answer grants s = (.ok b, { s with log := s.log ++ [⟨call, grants b⟩] }) :=
    fun s _ h => callPort_returns (h _)
  have hret : ∀ s : ServerState, (Exec.ret () : ServerAction Unit) s = (.ok (), s) := fun _ => rfl
  have hread : ∀ s : ServerState, (Exec.read : ServerAction ServerState) s = (.ok s, s) := fun _ => rfl
  have hrun : ∀ s : ServerState, runSkill sha texts ports principal skill request s = (.ok response,
      { s with log := s.log ++
          [⟨.startInvestigation principal request.message request.idempotencyKeyDigest, false⟩] }) := by
    intro s
    have hnow : ∀ s : ServerState, serverNow ports s = (.ok (ports.now s.log.length), s) := fun _ => rfl
    unfold runSkill callApplication
    dsimp only
    rw [if_pos hinvestigate, Exec.bind_returns (hcall s hstarted), Exec.bind_returns (hnow _),
      Exec.bind_returns (hlift _ (hstatus _))]
    exact hlift _ hresponse
  unfold BoundedA2AServer.submit
  rw [Exec.bind_returns (hlift s hdigest), hskill]
  dsimp only
  rw [Exec.bind_returns (hcall s hallowed), Exec.require_pos rfl]
  rw [Exec.bind_returns (hret _), Exec.bind_returns (hread _), hnew]
  dsimp only
  rw [Exec.bind_returns (hrun _)]
  rfl

end

/-! ## Worked submissions -/

/-- The sample server with a table of this size. -/
def tableServer (entries : Nat) (h : 1 ≤ entries) : BoundedA2AServer :=
  { sampleA2AServer with maximumIdempotencyEntries := entries, entries_ok := h }

/-- An authorization that grants every skill. -/
def grantingPorts : ServerPorts := { denyingPorts with authorizeSkill := fun _ _ _ _ => .ok true }

/-- The request of an investigation under a key. -/
def investigation (key : Digest) : A2ATaskRequest where
  requestId := code "request"
  skillId := A2ASkillName.investigate.id
  message := sampleMessage
  resourceRef := ⟨"incident", computed⟩
  idempotencyKeyDigest := key
  cursorDigest := none
  limit := 50

def submitted (server : BoundedA2AServer) (key : Digest) (s : ServerState) :
    Except Failure A2ATaskResponse × ServerState :=
  server.submit .constant sampleTexts grantingPorts samplePrincipal (investigation key) s

/-- What an investigation that was started is referred to by. -/
def startedTask : OpaqueReference := ⟨"investigation", computed⟩

/-- Its status. -/
def startedStatus : StatusContract where
  state := .submitted
  progressPercent := 0
  sequence := 1
  retryAfterSeconds := none
  statusDigest := Sha256.constant.hexdigest ""
  occurredAt := ⟨0, 0⟩

theorem startedStatus_built : statusOf .constant sampleTexts .submitted 0 1 ⟨0, 0⟩ = .ok startedStatus := by
  unfold statusOf
  have hdigest : ∀ text, Sha256.constant.hexdigest text = Sha256.constant.hexdigest "" := fun _ => rfl
  rw [digestValue_ok (by decide +kernel) (by decide +kernel), hdigest]
  rfl

/-- The request has a digest under every key. -/
theorem investigation_digest (key : Digest) :
    digestValue .constant sampleTexts (investigation key).modelDump = .ok (Sha256.constant.hexdigest "") := by
  have hscalar : ∀ (k : String) (v : Json), plainKey k = true → Scalar sampleTexts v →
      plainKey k = true ∧ normalizeJson 1 v = .ok () ∧ boundJson sampleTexts 1 v = .ok () :=
    fun k v hk hv => ⟨hk, hv.normalize (by omega), hv.bound (by omega)⟩
  have htexts : sampleTexts.Lawful := fun _ _ => rfl
  have hfields : ∀ f ∈ [("schema_version", Json.int 1), ("request_id", .str "request"),
      ("skill_id", .str (investigation key).skillId.val), ("message", sampleMessage.modelDump),
      ("resource_ref", .str "incident"), ("idempotency_key_digest", .str key.val), ("cursor_digest", .null),
      ("limit", .int 50)],
      plainKey f.1 = true ∧ normalizeJson 1 f.2 = .ok () ∧ boundJson sampleTexts 1 f.2 = .ok () := by
    simp only [List.forall_mem_cons]
    refine ⟨hscalar _ _ (by decide) trivial, hscalar _ _ (by decide) (scalar_identifier htexts (by decide)),
      hscalar _ _ (by decide) (scalar_identifier htexts (investigation key).skillId.property),
      ⟨by decide, by decide +kernel, by decide +kernel⟩,
      hscalar _ _ (by decide) (scalar_identifier htexts (by decide)),
      hscalar _ _ (by decide) (scalar_digest htexts key), ⟨by decide, rfl, rfl⟩,
      hscalar _ _ (by decide) trivial, fun f hf => by cases hf⟩
  have hdigest : ∀ text, Sha256.constant.hexdigest text = Sha256.constant.hexdigest "" := fun _ => rfl
  rw [digestValue_ok ?_ ?_, hdigest]
  · unfold A2ATaskRequest.modelDump normalizeJson
    exact normalizeFields_ok fun f hf => (hfields f hf).2.1
  · unfold A2ATaskRequest.modelDump boundJson
    exact boundFields_ok htexts fun f hf => ⟨(hfields f hf).1, (hfields f hf).2.2⟩

theorem startedResponse_built : ∃ response,
    a2aResponse .constant sampleTexts startedTask.val startedStatus [] none none = .ok response := by
  refine ⟨_, a2aResponse_plain ?_ ?_ ?_⟩
  · decide +kernel
  · decide +kernel
  · decide +kernel

/-- **A submission under a new key** is answered and remembered. -/
theorem submitted_new (key : Digest) (s : ServerState)
    (hnew : s.idempotency.lookup (idempotencyKey samplePrincipal (investigation key)) = none) :
    ∃ response, submitted (tableServer 1 Nat.one_pos) key s =
      (.ok response,
        { log := s.log ++ [⟨.authorizeSkill samplePrincipal (sampleSkill .investigate) "incident", true⟩] ++
            [⟨.startInvestigation samplePrincipal sampleMessage key, false⟩]
          idempotency := Cache.insert 1 (idempotencyKey samplePrincipal (investigation key))
            (Sha256.constant.hexdigest "", response) s.idempotency }) := by
  obtain ⟨response, hresponse⟩ := startedResponse_built
  have hskill : (tableServer 1 Nat.one_pos).skill (investigation key).skillId =
      some (sampleSkill .investigate) := rfl
  exact ⟨response, submit_starts (investigation_digest key) hskill rfl (fun _ => rfl) hnew (fun _ => rfl)
    (fun _ => startedStatus_built) hresponse⟩

theorem submitted_ok : (submitted (tableServer 1 Nat.one_pos) sampleDigest ServerState.start).1.isOk = true := by
  obtain ⟨response, hrun⟩ := submitted_new sampleDigest ServerState.start rfl
  rw [hrun]
  rfl

theorem submit_idempotent_sample : ∃ response s,
    submitted (tableServer 1 Nat.one_pos) sampleDigest ServerState.start = (.ok response, s) ∧
      (submitted (tableServer 1 Nat.one_pos) sampleDigest s).1 = .ok response := by
  have hok := submitted_ok
  cases hfirst : submitted (tableServer 1 Nat.one_pos) sampleDigest ServerState.start with
  | mk r s =>
    rw [hfirst] at hok
    cases r with
    | error e => cases hok
    | ok response =>
      have hall := submit_idempotent .constant sampleTexts grantingPorts sampleMcpServer
        (tableServer 1 Nat.one_pos) [] [] samplePrincipal samplePrincipal (investigation sampleDigest)
        (investigation sampleDigest) response s rfl hfirst (by decide) rfl
        (Sha256.CollisionFree.of_subsingleton (by
          rw [Set.pair_eq_singleton]
          exact Set.subsingleton_singleton))
      exact ⟨response, s, rfl, (hall.2 (sampleSkill .investigate) rfl rfl).1 rfl⟩

/-- The call starts an investigation under the key. -/
def startsUnder (key : Digest) (e : PortEvent) : Bool :=
  match e.call with
  | .startInvestigation _ _ key' => key' = key
  | _ => false

/-- What the third of three submissions calls, the second one under another key, with a table of one entry. -/
def thirdCalls : List PortEvent :=
  let first := (submitted (tableServer 1 Nat.one_pos) sampleDigest ServerState.start).2
  let second := (submitted (tableServer 1 Nat.one_pos) zeroHash first).2
  (submitted (tableServer 1 Nat.one_pos) sampleDigest second).2.log.drop second.log.length

theorem thirdCalls_start : thirdCalls.any (startsUnder sampleDigest) = true := by
  have hother : idempotencyKey samplePrincipal (investigation zeroHash) ≠
      idempotencyKey samplePrincipal (investigation sampleDigest) := by
    intro h
    exact absurd (congrArg (fun key : IdempotencyKey => key.2.2) h) (by decide)
  have hunknown : ∀ {key key' : IdempotencyKey} {v : Digest × A2ATaskResponse}, key' ≠ key →
      [(key, v)].lookup key' = none := by
    intro key key' v hne
    rw [List.lookup_cons, beq_eq_false_iff_ne.mpr hne]
    rfl
  obtain ⟨response, hfirst⟩ := submitted_new sampleDigest ServerState.start rfl
  obtain ⟨response', hsecond⟩ := submitted_new zeroHash
    (submitted (tableServer 1 Nat.one_pos) sampleDigest ServerState.start).2 (by rw [hfirst]; exact hunknown hother)
  obtain ⟨response'', hthird⟩ := submitted_new sampleDigest
    (submitted (tableServer 1 Nat.one_pos) zeroHash
      (submitted (tableServer 1 Nat.one_pos) sampleDigest ServerState.start).2).2
    (by rw [hsecond, hfirst]; exact hunknown hother.symm)
  unfold thirdCalls
  dsimp only
  rw [hthird]
  dsimp only
  have hstarts : [(⟨.startInvestigation samplePrincipal sampleMessage sampleDigest, false⟩ : PortEvent)].any
      (startsUnder sampleDigest) = true := by
    unfold startsUnder
    rw [List.any_cons]
    exact Bool.or_eq_true_iff.mpr (.inl (decide_eq_true rfl))
  rw [List.append_assoc, List.drop_left, List.any_append, hstarts, Bool.or_true]

/-- The first key is forgotten when the second one comes: its repetition starts an investigation again. -/
theorem forgotten_submission_repeated :
    (submitted (tableServer 1 Nat.one_pos) sampleDigest ServerState.start).1.isOk = true ∧
      thirdCalls.any (startsUnder sampleDigest) = true := ⟨submitted_ok, thirdCalls_start⟩

end Interop

end Aegis
