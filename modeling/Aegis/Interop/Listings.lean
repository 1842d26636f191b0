/-
  THE CURSORS OF THE EVIDENCE LISTING.

  A cursor names the tenant, the query and the time it is good for, and is sealed by a digest of its own
  fields.  The digest has no key, so anybody can seal a cursor; and `call` reads nothing of it but the
  position.  What is missing are four comparisons (`Checked`): that the server issued the digest, and that
  tenant, query and time are those of the present call.  A position other than zero comes from a cursor that
  was issued for this listing exactly where they hold (`listing_bound_iff`).

  Followed from the start, the cursors of a fixed sequence visit it once: the position counts what was
  listed (`follow_iff`).
-/
import Mathlib
import Aegis.Interop.Facts
import Aegis.Interop.Servers

namespace Aegis

namespace Interop

section

variable {sha : Sha256} {texts : Texts} {ports : ServerPorts} {mcp : CuratedMcpServer} {a2a : BoundedA2AServer}

/-! ## Sealed cursors -/

/-- What the model of a cursor checks of its digest. -/
def McpCursor.Sealed (sha : Sha256) (texts : Texts) (c : McpCursor) : Prop :=
  digestValue sha texts (.obj c.material) = .ok c.cursorDigest

/-- The fields of a cursor are determined by its material. -/
theorem McpCursor.eq_of_material {c c' : McpCursor} (h : (Json.obj c.material).Same (.obj c'.material))
    (hdigest : c.cursorDigest = c'.cursorDigest) : c = c' := by
  have hkeys : ["cursor_ref", "tenant_ref", "peer_id", "operation", "position", "page_size", "query_digest",
      "expires_at"].Nodup := by decide
  have htext : ∀ (k v w : String), (k, Json.str v) ∈ c.material → (k, Json.str w) ∈ c'.material → v = w :=
    fun k v w hv hw => Json.same_str.mp (h.field hkeys hv hw)
  have hnat : ∀ (k : String) (v w : Nat), (k, Json.int v) ∈ c.material → (k, Json.int w) ∈ c'.material →
      v = w := fun k v w hv hw => h.nat_field hkeys k hv hw
  have hmem : ∀ c : McpCursor, ∀ f ∈ [("cursor_ref", Json.str c.cursorRef.val),
      ("tenant_ref", .str c.tenantRef.val), ("peer_id", .str c.peerId.val), ("operation", .str c.operation),
      ("position", .int c.position), ("page_size", .int c.pageSize), ("query_digest", .str c.queryDigest.val),
      ("expires_at", .str c.expiresAt.jsonText)], f ∈ c.material := fun c f hf => hf
  obtain ⟨cursorRef, tenantRef, peerId, operation, position, pageSize, queryDigest, expiresAt, cursorDigest⟩ := c
  obtain ⟨cursorRef', tenantRef', peerId', operation', position', pageSize', queryDigest', expiresAt',
    cursorDigest'⟩ := c'
  simp only [McpCursor.material] at htext hnat
  obtain rfl : cursorRef = cursorRef' := Subtype.ext (htext "cursor_ref" _ _ (by simp) (by simp))
  obtain rfl : tenantRef = tenantRef' := Subtype.ext (htext "tenant_ref" _ _ (by simp) (by simp))
  obtain rfl : peerId = peerId' := Subtype.ext (htext "peer_id" _ _ (by simp) (by simp))
  obtain rfl : operation = operation' := htext "operation" _ _ (by simp) (by simp)
  obtain rfl : position = position' := hnat "position" _ _ (by simp) (by simp)
  obtain rfl : pageSize = pageSize' := hnat "page_size" _ _ (by simp) (by simp)
  obtain rfl : queryDigest = queryDigest' := Subtype.ext (htext "query_digest" _ _ (by simp) (by simp))
  obtain rfl : expiresAt = expiresAt' := Datetime.jsonText_inj (htext "expires_at" _ _ (by simp) (by simp))
  obtain rfl : cursorDigest = cursorDigest' := hdigest
  rfl

/-- What a cursor that is built says. -/
theorem buildCursor_ok {principal : PrincipalContract} {position pageSize : Nat} {queryDigest hash : Digest}
    {c : McpCursor} (h : buildCursor sha texts principal position pageSize queryDigest hash = .ok c) :
    c.tenantRef = principal.tenantRef ∧ c.position = position ∧ c.queryDigest = queryDigest ∧
      c.Sealed sha texts := by
  unfold buildCursor at h
  obtain ⟨cursorRef, -, h⟩ := except_bind_ok.mp h
  obtain ⟨cursorDigest, -, h⟩ := except_bind_ok.mp h
  split at h
  · cases h
  obtain ⟨checked, hchecked, h⟩ := except_bind_ok.mp h
  split at h
  · rename_i hsame
    cases h
    refine ⟨rfl, rfl, rfl, ?_⟩
    rw [hsame] at hchecked
    exact hchecked
  · cases h

/-- The material of a page that is the last one. -/
def pageMaterial (request : McpCallRequest) (resources : List ResourceContract) : Json :=
  .obj [("call_id", .str request.callId.val), ("citations", .arr []), ("content", .arr []),
    ("next_cursor", .null), ("proposal_ref", .null), ("redaction_count", .int (0 : Nat)),
    ("resources", .arr (resources.map ResourceContract.modelDump)), ("schema_version", .int 1),
    ("status", .str McpCallStatus.completed.value)]

theorem mcpResult_cursor {request : McpCallRequest} {status : McpCallStatus}
    {resources : List ResourceContract} {content : List MessagePart} {citations : List CitationContract}
    {nextCursor : Option McpCursor} {proposalRef : Option OpaqueReference} {r : McpCallResult}
    (h : mcpResult sha texts request status resources content citations nextCursor proposalRef = .ok r) :
    r.nextCursor = nextCursor ∧ r.resources = resources := by
  unfold mcpResult at h
  obtain ⟨document, -, h⟩ := except_bind_ok.mp h
  split at h
  · cases h
  obtain ⟨resultDigest, -, h⟩ := except_bind_ok.mp h
  split at h
  · cases h
  split at h
  · cases h
  · cases h
    exact ⟨rfl, rfl⟩

/-- A page within the bounds is returned. -/
theorem mcpResult_ok {request : McpCallRequest} {resources : List ResourceContract}
    (hnumbers : normalizeJson 0 (pageMaterial request resources) = .ok ())
    (hbounds : boundJson texts 0 (pageMaterial request resources) = .ok ())
    (hshort : (dump (pageMaterial request resources)).length ≤ maxProtocolDocumentBytes)
    (hfew : resources.length ≤ 100) :
    ∃ r, mcpResult sha texts request .completed resources [] [] none none = .ok r := by
  have hlength : (canonicalJson (pageMaterial request resources)).length ≤ maxProtocolDocumentBytes := by
    rw [← String.length_toList]
    unfold canonicalJson
    rw [String.toList_ofList, length_canonicalChars]
    exact hshort
  have hdocument : canonicalDocument texts (pageMaterial request resources) =
      .ok (canonicalJson (pageMaterial request resources)) := by
    unfold canonicalDocument
    rw [hnumbers]
    show (boundJson texts 0 _ >>= _) = _
    rw [hbounds]
    rfl
  have hdigest := @digestValue_ok sha _ _ hnumbers hbounds
  refine ⟨{ callId := request.callId, status := .completed, resources, content := [], citations := [],
            nextCursor := none, proposalRef := none,
            resultDigest := sha.hexdigest (canonicalJson (pageMaterial request resources)),
            redactionCount := 0 }, ?_⟩
  unfold mcpResult
  refine except_bind_ok.mpr ⟨_, hdocument, ?_⟩
  rw [if_neg (Nat.not_lt.mpr hlength)]
  refine except_bind_ok.mpr ⟨_, hdigest, ?_⟩
  rw [if_neg, if_neg fun h => by cases h.1]
  · rfl
  · rintro (h | h | h)
    · omega
    · cases h
    · cases h

/-! ## One listing -/

/-- What the server makes of a page: its result, with a cursor when there is more. -/
def listedPage (sha : Sha256) (texts : Texts) (principal : PrincipalContract) (request : McpCallRequest)
    (time : Datetime) (next limit : Nat) (resources : List ResourceContract) (hasMore : Bool) :
    Except Failure McpCallResult :=
  if hasMore = true then do
    let queryDigest ← digestValue sha texts (.obj request.arguments)
    let hash ← digestValue sha texts (.arr [.str "aegis-mcp-server", .str queryDigest.val, .int next])
    if time < principal.expiresAt then do
      let cursor ← buildCursor sha texts principal next limit queryDigest hash
      mcpResult sha texts request .completed resources [] [] (some cursor) none
    else .error ⟨.policyDenied, "principal expired before cursor issuance"⟩
  else mcpResult sha texts request .completed resources [] [] none none

/-- A cursor that is returned names the tenant of its caller, the digest of its arguments, and what comes after
    the page. -/
theorem listedPage_cursor {principal : PrincipalContract} {request : McpCallRequest} {time : Datetime}
    {next limit : Nat} {resources : List ResourceContract} {hasMore : Bool} {r : McpCallResult}
    (h : listedPage sha texts principal request time next limit resources hasMore = .ok r) :
    r.resources = resources ∧ (hasMore = false → r.nextCursor = none) ∧
      (hasMore = true → ∃ c, r.nextCursor = some c ∧ c.tenantRef = principal.tenantRef ∧ c.position = next ∧
        c.queryDigest = sha.hexdigest (canonicalJson (.obj request.arguments)) ∧ c.Sealed sha texts) := by
  unfold listedPage at h
  split at h
  · rename_i hmore
    obtain ⟨queryDigest, hquery, h⟩ := except_bind_ok.mp h
    obtain ⟨hash, -, h⟩ := except_bind_ok.mp h
    split at h
    · obtain ⟨cursor, hcursor, h⟩ := except_bind_ok.mp h
      obtain ⟨hnext, hresources⟩ := mcpResult_cursor h
      obtain ⟨htenant, hposition, hdigest, hsealed⟩ := buildCursor_ok hcursor
      obtain ⟨-, -, hhash⟩ := digestValue_iff.mp hquery
      refine ⟨hresources, fun hno => ?_, fun _ => ⟨cursor, hnext, htenant, hposition, ?_, hsealed⟩⟩
      · rw [hmore] at hno
        cases hno
      · rw [hdigest, hhash]
    · cases h
  · rename_i hmore
    obtain ⟨hnext, hresources⟩ := mcpResult_cursor h
    exact ⟨hresources, fun _ => hnext, fun hyes => absurd hyes hmore⟩

/-- The rest of the branch, once the application has answered. -/
theorem cursor_branch (principal : PrincipalContract) (request : McpCallRequest) (next limit : Nat)
    (resources : List ResourceContract) (hasMore : Bool) {s : ServerState} {n : Nat}
    (hn : s.log.length = n) :
    (if hasMore = true then do
        let queryDigest ← Exec.lift (digestValue sha texts (.obj request.arguments))
        let cursor ← makeCursor sha texts ports principal next limit queryDigest
        Exec.lift (mcpResult sha texts request .completed resources [] [] (some cursor) none)
      else Exec.lift (mcpResult sha texts request .completed resources [] [] none none) :
        ServerAction McpCallResult) s =
      (listedPage sha texts principal request (ports.now n) next limit resources hasMore, s) := by
  subst hn
  unfold listedPage
  cases hasMore with
  | false => rfl
  | true =>
    rw [if_pos rfl, if_pos rfl]
    cases hquery : digestValue sha texts (.obj request.arguments) with
    | error e => rfl
    | ok queryDigest =>
      show (makeCursor sha texts ports principal next limit queryDigest >>= fun cursor =>
        Exec.lift (mcpResult sha texts request .completed resources [] [] (some cursor) none) :
          ServerAction McpCallResult) s = (digestValue sha texts _ >>= _, s)
      unfold makeCursor
      cases hhash : digestValue sha texts (.arr [.str "aegis-mcp-server", .str queryDigest.val, .int next]) with
      | error e => rfl
      | ok hash =>
        show Exec.andThen (Exec.andThen (Exec.require _ _) _) _ s = (if _ then _ else _, s)
        by_cases htime : ports.now s.log.length < principal.expiresAt
        · rw [if_pos htime, Exec.require_pos htime]
          show Exec.andThen (Exec.lift (buildCursor sha texts principal next limit queryDigest hash)) _ s = _
          cases buildCursor sha texts principal next limit queryDigest hash with
          | error e => rfl
          | ok cursor => rfl
        · rw [if_neg htime, Exec.require_neg htime]
          rfl

/-- **The branch of the listing**: one call on the application, at the position of the cursor. -/
theorem runTool_listing (principal : PrincipalContract) (request : McpCallRequest) (ref : String)
    (s : ServerState) (htool : request.toolName = .evidenceList) :
    ∃ offset : Nat, offset = request.cursor.elim 0 McpCursor.position ∧
      ((∃ e, boundedInt request.arguments "limit" 50 1 100 = .error e ∧
          runTool sha texts ports principal request ref s = (.error e, s)) ∨
        ∃ limit, boundedInt request.arguments "limit" 50 1 100 = .ok limit ∧
          (runTool sha texts ports principal request ref s).2 =
            { s with log := s.log ++ [⟨.listEvidence principal ref offset limit, false⟩] } ∧
          (runTool sha texts ports principal request ref s).1 =
            (ports.listEvidence s.log.length principal ref offset limit >>= fun page =>
              listedPage sha texts principal request (ports.now (s.log.length + 1))
                (offset + page.1.length) limit.toNat page.1 page.2)) := by
  refine ⟨_, rfl, ?_⟩
  generalize hoffset : request.cursor.elim 0 McpCursor.position = offset
  cases hlimit : boundedInt request.arguments "limit" 50 1 100 with
  | error e =>
    left
    refine ⟨e, rfl, ?_⟩
    unfold runTool
    rw [htool]
    dsimp only
    rw [hlimit]
    rfl
  | ok limit =>
    right
    refine ⟨limit, rfl, ?_⟩
    have hbody : runTool sha texts ports principal request ref s =
        (ports.listEvidence s.log.length principal ref offset limit >>= fun page =>
              listedPage sha texts principal request (ports.now (s.log.length + 1))
                (offset + page.1.length) limit.toNat page.1 page.2,
          { s with log := s.log ++ [⟨.listEvidence principal ref offset limit, false⟩] }) := by
      unfold runTool
      rw [htool]
      dsimp only
      rw [hlimit, hoffset]
      have hport : callApplication (.listEvidence principal ref offset limit)
          (fun n => ports.listEvidence n principal ref offset limit) s =
          (ports.listEvidence s.log.length principal ref offset limit,
            { s with log := s.log ++ [⟨.listEvidence principal ref offset limit, false⟩] }) := by
        unfold callApplication callPort
        dsimp only
        cases ports.listEvidence s.log.length principal ref offset limit <;> rfl
      show Exec.andThen (callApplication _ _) _ s = _
      unfold Exec.andThen
      rw [hport]
      cases ports.listEvidence s.log.length principal ref offset limit with
      | error e => rfl
      | ok page =>
        obtain ⟨resources, hasMore⟩ := page
        exact cursor_branch _ _ _ _ _ _ (by rw [List.length_append, List.length_singleton])
    rw [hbody]
    exact ⟨rfl, rfl⟩

/-! ## What a call passes on and returns -/

/-- If the call is a listing, its offset is the position of the cursor of the request. -/
def AtCursor (request : McpCallRequest) (call : PortCall) : Prop :=
  ∀ principal ref offset limit, call = .listEvidence principal ref offset limit →
    offset = request.cursor.elim 0 McpCursor.position

theorem call_position (principal : PrincipalContract) (request : McpCallRequest) (cancelled : Bool) :
    Within (AtCursor request) (mcp.call sha texts ports principal request cancelled) := by
  have happlication : ∀ {α : Type} (call : PortCall) (answer : Nat → Except Failure α),
      AtCursor request call → Within (AtCursor request) (callApplication call answer) :=
    fun call answer h => within_application h answer
  unfold CuratedMcpServer.call
  split
  · exact within_lift _
  cases mcp.tool request.toolName with
  | none => exact within_leaves (Exec.leaves_raise _)
  | some tool =>
    dsimp only
    refine within_bind (within_lift _) fun ref => ?_
    refine within_bind (fun s => ⟨_, rfl, fun e he => ?_⟩) fun allowed => ?_
    · rw [List.mem_singleton.mp he]
      exact nofun
    refine within_bind (within_leaves (Exec.leaves_require _ _)) fun _ => ?_
    unfold runTool
    dsimp only
    cases request.toolName with
    | incidentRead => exact within_bind (happlication _ _ nofun) fun ⟨_, _, _⟩ => within_lift _
    | evidenceList =>
      refine within_bind (within_lift _) fun limit => ?_
      refine within_bind (happlication _ _ ?_) fun ⟨resources, hasMore⟩ => ?_
      · intro p r offset l h
        cases h
        rfl
      · dsimp only
        split
        · refine within_bind (within_lift _) fun queryDigest => ?_
          exact within_bind (within_cursor _ _ _ _) fun _ => within_lift _
        · exact within_lift _
    | memorySearch =>
      refine within_bind (within_lift _) fun query => ?_
      refine within_bind (within_lift _) fun queryDigest => ?_
      refine within_bind (within_lift _) fun limit => ?_
      exact within_bind (happlication _ _ nofun) fun ⟨_, _⟩ => within_lift _
    | runbookRead => exact within_bind (happlication _ _ nofun) fun ⟨_, _, _⟩ => within_lift _
    | statusRead => exact within_bind (happlication _ _ nofun) fun ⟨_, _⟩ => within_lift _
    | investigationSubmit =>
      refine within_bind (within_lift _) fun requestDigest => ?_
      refine within_bind (happlication _ _ nofun) fun investigationRef => ?_
      exact within_bind (within_lift _) fun _ => within_lift _
    | proposalSubmit =>
      refine within_bind (within_lift _) fun submission => ?_
      exact within_bind (happlication _ _ nofun) fun _ => within_lift _

/-- A judgment about what is returned. -/
theorem sat_of_result {α : Type} {x : ServerAction α} {s : ServerState} {P : α → Prop}
    (h : ∀ a, (x s).1 = .ok a → P a) : Exec.Sat x s (fun a _ => P a) (fun _ _ => True) := by
  unfold Exec.Sat
  rcases hrun : x s with ⟨r, s'⟩
  rw [hrun] at h
  cases r with
  | ok a => exact h a rfl
  | error e => trivial

/-- A cursor for the caller and the arguments of a call. -/
structure CursorFor (sha : Sha256) (texts : Texts) (principal : PrincipalContract) (request : McpCallRequest)
    (c : McpCursor) : Prop where
  tenant : c.tenantRef = principal.tenantRef
  query : c.queryDigest = sha.hexdigest (canonicalJson (.obj request.arguments))
  isSealed : c.Sealed sha texts

/-- **A cursor that is returned is one for this caller and these arguments.** -/
theorem call_cursor (principal : PrincipalContract) (request : McpCallRequest) (cancelled : Bool)
    (s : ServerState) : Exec.Sat (mcp.call sha texts ports principal request cancelled) s
      (fun r _ => ∀ c ∈ r.nextCursor, CursorFor sha texts principal request c) (fun _ _ => True) := by
  -- all other results have no cursor
  have hnone : ∀ {status : McpCallStatus} {resources : List ResourceContract} {content : List MessagePart}
      {citations : List CitationContract} {proposalRef : Option OpaqueReference} (s' : ServerState),
      Exec.Sat (Exec.lift (mcpResult sha texts request status resources content citations none proposalRef))
        s' (fun r _ => ∀ c ∈ r.nextCursor, CursorFor sha texts principal request c) (fun _ _ => True) := by
    intro status resources content citations proposalRef s'
    refine (Exec.sat_lift _).mpr ⟨fun r hr c hc => ?_, fun _ _ => trivial⟩
    rw [(mcpResult_cursor hr).1] at hc
    cases hc
  unfold CuratedMcpServer.call
  split
  · exact hnone s
  cases mcp.tool request.toolName with
  | none => trivial
  | some tool =>
    dsimp only
    refine Exec.Sat.skip fun ref s => Exec.Sat.skip fun allowed s => Exec.Sat.skip fun _ s => ?_
    cases htool : request.toolName with
    | evidenceList =>
      obtain ⟨offset, -, ⟨e, -, hrun⟩ | ⟨limit, -, -, hresult⟩⟩ :=
        @runTool_listing sha texts ports principal request ref s htool
      · unfold Exec.Sat
        rw [hrun]
        trivial
      · refine sat_of_result fun r hr c hc => ?_
        rw [hr] at hresult
        obtain ⟨page, -, hpage⟩ := except_bind_ok.mp hresult.symm
        obtain ⟨-, hlast, hmore⟩ := listedPage_cursor hpage
        cases hhas : page.2 with
        | false =>
          rw [hlast hhas] at hc
          cases hc
        | true =>
          obtain ⟨c', hc', htenant, -, hquery, hsealed⟩ := hmore hhas
          rw [hc'] at hc
          cases hc
          exact ⟨htenant, hquery, hsealed⟩
    | incidentRead =>
      unfold runTool
      rw [htool]
      exact Exec.Sat.skip fun ⟨_, _, _⟩ s => hnone s
    | memorySearch =>
      unfold runTool
      rw [htool]
      refine Exec.Sat.skip fun _ s => Exec.Sat.skip fun _ s => Exec.Sat.skip fun _ s => ?_
      exact Exec.Sat.skip fun ⟨_, _⟩ s => hnone s
    | runbookRead =>
      unfold runTool
      rw [htool]
      exact Exec.Sat.skip fun ⟨_, _, _⟩ s => hnone s
    | statusRead =>
      unfold runTool
      rw [htool]
      exact Exec.Sat.skip fun ⟨_, _⟩ s => hnone s
    | investigationSubmit =>
      unfold runTool
      rw [htool]
      exact Exec.Sat.skip fun _ s => Exec.Sat.skip fun _ s => Exec.Sat.skip fun _ s => hnone s
    | proposalSubmit =>
      unfold runTool
      rw [htool]
      exact Exec.Sat.skip fun _ s => Exec.Sat.skip fun _ s => hnone s

/-! ## Issued cursors -/

abbrev ServerEntry : Type := Machine.Entry ServerState ServerOp (Except Failure ServerAnswer)

/-- The cursor was returned, earlier, to a principal of the same tenant for the same arguments. -/
def Issued (h : List ServerEntry) (principal : PrincipalContract) (request : McpCallRequest) (c : McpCursor) :
    Prop :=
  ∃ e ∈ h, ∃ principal' request' cancelled result, e.op = .mcpCall principal' request' cancelled ∧
    e.result = .ok (.mcp result) ∧ result.nextCursor = some c ∧ principal'.tenantRef = principal.tenantRef ∧
    (Json.obj request'.arguments).Same (.obj request.arguments)

/-- The comparisons that `call` does not make: the digest is one that was issued, and the cursor names the
    tenant of the caller and the digest of the arguments. -/
structure Checked (sha : Sha256) (h : List ServerEntry) (principal : PrincipalContract)
    (request : McpCallRequest) (c : McpCursor) : Prop where
  digest : ∃ e ∈ h, ∃ result c', e.result = .ok (.mcp result) ∧ result.nextCursor = some c' ∧
    c'.cursorDigest = c.cursorDigest
  tenant : c.tenantRef = principal.tenantRef
  query : c.queryDigest = sha.hexdigest (canonicalJson (.obj request.arguments))

/-- The texts hashed for a request with a cursor, and for the calls before it. -/
def listingTexts (h : List ServerEntry) (request : McpCallRequest) (c : McpCursor) : Set String :=
  {text | text = canonicalJson (.obj request.arguments) ∨ text = canonicalJson (.obj c.material) ∨
    ∃ e ∈ h, (∃ principal request' cancelled, e.op = .mcpCall principal request' cancelled ∧
        text = canonicalJson (.obj request'.arguments)) ∨
      ∃ result c', e.result = .ok (.mcp result) ∧ result.nextCursor = some c' ∧
        text = canonicalJson (.obj c'.material)}

/-- What a server call returns is what its body returned. -/
theorem result_of_bind {α : Type} {x : ServerAction α} {g : α → ServerAnswer} {s : ServerState}
    {answer : ServerAnswer} (h : ((do let a ← x; pure (g a) : ServerAction ServerAnswer) s).1 = .ok answer) :
    ∃ a s', x s = (.ok a, s') ∧ g a = answer := by
  have h : (Exec.andThen x (fun a => (pure (g a) : ServerAction ServerAnswer)) s).1 = .ok answer := h
  unfold Exec.andThen at h
  rcases hx : x s with ⟨r, s'⟩
  rw [hx] at h
  cases r with
  | ok a => exact ⟨a, s', rfl, Except.ok.inj h⟩
  | error e => cases h

/-- What a returned cursor was issued for. -/
theorem entry_cursor {ops : List ServerOp} {e : ServerEntry}
    (he : e ∈ Machine.trace (serverStep sha texts ports mcp a2a) ServerState.start ops) {result : McpCallResult}
    (hresult : e.result = .ok (.mcp result)) {c : McpCursor} (hc : result.nextCursor = some c) :
    ∃ principal request cancelled, e.op = .mcpCall principal request cancelled ∧
      CursorFor sha texts principal request c := by
  obtain ⟨before, after, -, hentry⟩ := Machine.trace_mem he
  generalize Machine.final (serverStep sha texts ports mcp a2a) ServerState.start before = s at hentry
  rw [hentry] at hresult
  have hstep : (e.op.body sha texts ports mcp a2a s).1 = .ok (.mcp result) := hresult
  cases hop : e.op with
  | mcpCall principal request cancelled =>
    refine ⟨principal, request, cancelled, rfl, ?_⟩
    rw [hop] at hstep
    obtain ⟨r, s', hrun, hr⟩ := result_of_bind hstep
    cases hr
    exact (call_cursor principal request cancelled s).ok hrun c (by rw [hc]; rfl)
  | a2aSubmit principal request =>
    rw [hop] at hstep
    obtain ⟨r, s', -, hr⟩ := result_of_bind hstep
    cases hr
  | a2aCancel principal taskRef commandDigest =>
    rw [hop] at hstep
    obtain ⟨r, s', -, hr⟩ := result_of_bind hstep
    cases hr

/-- **A sealed cursor was issued for a call exactly when it passes the comparisons.** -/
theorem issued_iff {ops : List ServerOp} {principal : PrincipalContract} {request : McpCallRequest}
    {c : McpCursor} (hsealed : c.Sealed sha texts)
    (hsha : sha.CollisionFree (listingTexts
      (Machine.trace (serverStep sha texts ports mcp a2a) ServerState.start ops) request c)) :
    Issued (Machine.trace (serverStep sha texts ports mcp a2a) ServerState.start ops) principal request c ↔
      Checked sha (Machine.trace (serverStep sha texts ports mcp a2a) ServerState.start ops) principal request c := by
  constructor
  · rintro ⟨e, he, principal', request', cancelled, result, hop, hresult, hc, htenant, hsame⟩
    obtain ⟨p, r, k, hop', hfor⟩ := entry_cursor he hresult hc
    rw [hop] at hop'
    cases hop'
    refine ⟨⟨e, he, result, c, hresult, hc, rfl⟩, hfor.tenant.trans htenant, ?_⟩
    rw [hfor.query, canonicalJson_inj.mpr hsame]
  · rintro ⟨⟨e, he, result, c', hresult, hc', hdigest⟩, htenant, hquery⟩
    obtain ⟨principal', request', cancelled, hop, hfor⟩ := entry_cursor he hresult hc'
    obtain ⟨-, -, hhash⟩ := digestValue_iff.mp hsealed
    obtain ⟨-, -, hhash'⟩ := digestValue_iff.mp hfor.isSealed
    have hmaterial := hsha.hexdigest (.inr (.inr ⟨e, he, .inr ⟨result, c', hresult, hc', rfl⟩⟩)) (.inr (.inl rfl))
      (hhash'.trans (hdigest.trans hhash.symm))
    obtain rfl := McpCursor.eq_of_material (canonicalJson_inj.mp hmaterial) hdigest
    have harguments := hsha.hexdigest (.inr (.inr ⟨e, he, .inl ⟨_, _, _, hop, rfl⟩⟩)) (.inl rfl)
      (hfor.query.symm.trans hquery)
    exact ⟨e, he, principal', request', cancelled, result, hop, hresult, hc', hfor.tenant.symm.trans htenant,
      canonicalJson_inj.mp harguments⟩

/-! ## Following the cursors -/

/-- A client that asks for a page, and then for the page of the cursor that it is handed, at most so often. -/
def follow (sha : Sha256) (texts : Texts) (ports : ServerPorts) (mcp : CuratedMcpServer)
    (principal : PrincipalContract) : Nat → McpCallRequest → ServerAction (List ResourceContract)
  | 0, _ => Exec.raise ⟨.other, "calls exhausted"⟩
  | calls + 1, request => do
    let result ← mcp.call sha texts ports principal request false
    match result.nextCursor with
    | none => pure result.resources
    | some cursor => do
      let rest ← follow sha texts ports mcp principal calls { request with cursor := some cursor }
      pure (result.resources ++ rest)

/-- A listing of a fixed sequence of items, page by page. -/
structure Listing (ports : ServerPorts) (mcp : CuratedMcpServer) (principal : PrincipalContract)
    (request : McpCallRequest) (tool : ToolContract) (ref : String) (limit : Nat)
    (items : List ResourceContract) : Prop where
  name : request.toolName = .evidenceList
  known : mcp.tool .evidenceList = some tool
  reference : requiredIdentifier request.arguments "resource_ref" = .ok ref
  bound : boundedInt request.arguments "limit" 50 1 100 = .ok (limit : Int)
  slices : ∀ (n offset : Nat), ports.listEvidence n principal ref offset limit =
    .ok ((items.drop offset).take limit, decide (offset + limit < items.length))

/-- The call for the page at a position is granted, and the page with its cursor is within the bounds of a
    result. -/
def PageOk (sha : Sha256) (texts : Texts) (ports : ServerPorts) (principal : PrincipalContract)
    (request : McpCallRequest) (tool : ToolContract) (ref : String) (limit : Nat)
    (items : List ResourceContract) (position n : Nat) : Prop :=
  ports.authorizeTool n principal tool ref = .ok true ∧
    ∃ result, listedPage sha texts principal request (ports.now (n + 2))
      (position + ((items.drop position).take limit).length) limit ((items.drop position).take limit)
      (decide (position + limit < items.length)) = .ok result

variable {principal : PrincipalContract} {request : McpCallRequest} {tool : ToolContract} {ref : String}
  {limit : Nat} {items : List ResourceContract}

/-- A page that is listed is not empty where there is more. -/
theorem Listing.positive (h : Listing ports mcp principal request tool ref limit items) : 1 ≤ limit := by
  have hbound := h.bound
  unfold boundedInt at hbound
  split at hbound
  · split at hbound
    · cases hbound
    · rename_i value _ hrange
      have hvalue := Except.ok.inj hbound
      omega
  · cases hbound

/-- **One call of a listing.** -/
theorem Listing.call (h : Listing ports mcp principal request tool ref limit items) (x : Option McpCursor)
    (s : ServerState) :
    (ports.authorizeTool s.log.length principal tool ref ≠ .ok true →
      ∃ e, (mcp.call sha texts ports principal { request with cursor := x } false s).1 = .error e) ∧
    (ports.authorizeTool s.log.length principal tool ref = .ok true →
      ∃ s', s'.log.length = s.log.length + 2 ∧
        mcp.call sha texts ports principal { request with cursor := x } false s =
          (listedPage sha texts principal request (ports.now (s.log.length + 2))
            (x.elim 0 McpCursor.position + ((items.drop (x.elim 0 McpCursor.position)).take limit).length)
            limit ((items.drop (x.elim 0 McpCursor.position)).take limit)
            (decide (x.elim 0 McpCursor.position + limit < items.length)), s')) := by
  have hcall : mcp.call sha texts ports principal { request with cursor := x } false s =
      (do
        let allowed ← callPort (.authorizeTool principal tool ref)
          (fun n => ports.authorizeTool n principal tool ref) id
        Exec.require (allowed = true) ⟨.policyDenied, "application policy denied the MCP call"⟩
        runTool sha texts ports principal { request with cursor := x } ref : ServerAction McpCallResult) s := by
    unfold CuratedMcpServer.call
    dsimp only
    rw [if_neg Bool.false_ne_true, h.name, h.known]
    dsimp only
    rw [h.reference]
    rfl
  rw [hcall]
  have hport : callPort (.authorizeTool principal tool ref)
      (fun n => ports.authorizeTool n principal tool ref) id s =
      (ports.authorizeTool s.log.length principal tool ref,
        { s with log := s.log ++ [⟨.authorizeTool principal tool ref,
          (ports.authorizeTool s.log.length principal tool ref).toOption.any id⟩] }) := rfl
  generalize ports.authorizeTool s.log.length principal tool ref = answer at hport ⊢
  constructor
  · intro hno
    cases answer with
    | error e =>
      refine ⟨e, ?_⟩
      show (Exec.andThen _ _ s).1 = _
      unfold Exec.andThen
      rw [hport]
    | ok allowed =>
      rw [Exec.bind_returns hport]
      cases allowed with
      | true => exact absurd rfl hno
      | false => exact ⟨_, rfl⟩
  · rintro rfl
    rw [Exec.bind_returns hport, Exec.require_pos rfl]
    obtain ⟨offset, hoffset, ⟨e, hlimit, -⟩ | ⟨l, hlimit, hstate, hresult⟩⟩ :=
      @runTool_listing sha texts ports principal { request with cursor := x } ref
        { s with log := s.log ++ [⟨.authorizeTool principal tool ref, true⟩] } h.name
    · have hbound : boundedInt request.arguments "limit" 50 1 100 = .error e := hlimit
      rw [h.bound] at hbound
      cases hbound
    · have hbound : boundedInt request.arguments "limit" 50 1 100 = .ok l := hlimit
      rw [h.bound] at hbound
      obtain rfl := Except.ok.inj hbound
      have hoffset : offset = x.elim 0 McpCursor.position := hoffset
      refine ⟨_, ?_, Prod.ext ?_ hstate⟩
      · show ((s.log ++ _) ++ _).length = _
        rw [List.length_append, List.length_append, List.length_singleton, List.length_singleton]
      · refine hresult.trans ?_
        rw [h.slices, hoffset]
        show listedPage sha texts principal _ (ports.now ((s.log ++ _).length + 1)) _ _ _ _ = _
        rw [List.length_append, List.length_singleton, Int.toNat_natCast]
        rfl

/-- A client that gets the last page, or a page and what comes after it. -/
theorem follow_succ {calls : Nat} {xs : List ResourceContract} {s : ServerState} :
    (follow sha texts ports mcp principal (calls + 1) request s).1 = .ok xs ↔
      ∃ result s', mcp.call sha texts ports principal request false s = (.ok result, s') ∧
        ((result.nextCursor = none ∧ result.resources = xs) ∨
          ∃ c rest, result.nextCursor = some c ∧
            (follow sha texts ports mcp principal calls { request with cursor := some c } s').1 = .ok rest ∧
            result.resources ++ rest = xs) := by
  show (Exec.andThen (mcp.call sha texts ports principal request false) _ s).1 = .ok xs ↔ _
  unfold Exec.andThen
  rcases mcp.call sha texts ports principal request false s with ⟨r, s'⟩
  cases r with
  | error e =>
    refine ⟨fun h => (by cases h), ?_⟩
    rintro ⟨result, s'', hrun, -⟩
    cases hrun
  | ok result =>
    dsimp only
    cases hnext : result.nextCursor with
    | none =>
      constructor
      · intro h
        exact ⟨result, s', rfl, .inl ⟨hnext, Except.ok.inj h⟩⟩
      · rintro ⟨result', s'', hrun, ⟨-, hxs⟩ | ⟨c, rest, hc, -⟩⟩
        · cases hrun
          exact congrArg Except.ok hxs
        · cases hrun
          rw [hnext] at hc
          cases hc
    | some c =>
      show (Exec.andThen (follow sha texts ports mcp principal calls { request with cursor := some c }) _ s').1
        = .ok xs ↔ _
      unfold Exec.andThen
      rcases hrest : follow sha texts ports mcp principal calls { request with cursor := some c } s' with ⟨r, s₂⟩
      cases r with
      | error e =>
        refine ⟨fun h => (by cases h), ?_⟩
        rintro ⟨result', s'', hrun, ⟨hnone, -⟩ | ⟨c', rest, hc, hfollow, -⟩⟩
        · cases hrun
          rw [hnext] at hnone
          cases hnone
        · cases hrun
          rw [hnext] at hc
          cases hc
          rw [hrest] at hfollow
          cases hfollow
      | ok rest =>
        constructor
        · intro h
          exact ⟨result, s', rfl, .inr ⟨c, rest, hnext, by rw [hrest], Except.ok.inj h⟩⟩
        · rintro ⟨result', s'', hrun, ⟨hnone, -⟩ | ⟨c', rest', hc, hfollow, hxs⟩⟩
          · cases hrun
            rw [hnext] at hnone
            cases hnone
          · cases hrun
            rw [hnext] at hc
            cases hc
            rw [hrest] at hfollow
            cases hfollow
            exact congrArg Except.ok hxs

/-- The last page of a listing. -/
theorem Listing.follow_last (h : Listing ports mcp principal request tool ref limit items)
    (x : Option McpCursor) (s : ServerState)
    (hlast : items.length ≤ x.elim 0 McpCursor.position + limit) :
    (∃ calls, (follow sha texts ports mcp principal calls { request with cursor := x } s).1 =
        .ok (items.drop (x.elim 0 McpCursor.position))) ↔
      ∀ i, (i = 0 ∨ x.elim 0 McpCursor.position + i * limit < items.length) →
        PageOk sha texts ports principal request tool ref limit items
          (x.elim 0 McpCursor.position + i * limit) (s.log.length + 2 * i) := by
  obtain ⟨hdenied, hgranted⟩ := @Listing.call sha texts _ _ _ _ _ _ _ _ h x s
  generalize hp : x.elim 0 McpCursor.position = p at hlast hgranted ⊢
  have hmore : decide (p + limit < items.length) = false := decide_eq_false (by omega)
  have hpage : (items.drop p).take limit = items.drop p :=
    List.take_of_length_le (by rw [List.length_drop]; omega)
  constructor
  · rintro ⟨calls, hfollow⟩
    cases calls with
    | zero => cases hfollow
    | succ calls =>
      obtain ⟨result, s', hrun, -⟩ := follow_succ.mp hfollow
      have hgrant : ports.authorizeTool s.log.length principal tool ref = .ok true := by
        by_contra hno
        obtain ⟨e, he⟩ := hdenied hno
        rw [hrun] at he
        cases he
      obtain ⟨s'', hlog, hlisted⟩ := hgranted hgrant
      rw [hrun] at hlisted
      intro i hi
      obtain rfl : i = 0 := by
        rcases hi with hi | hi
        · exact hi
        · by_contra hne
          have hlimit : limit ≤ i * limit := Nat.le_mul_of_pos_left limit (Nat.pos_of_ne_zero hne)
          omega
      rw [Nat.zero_mul, Nat.add_zero, Nat.mul_zero, Nat.add_zero]
      exact ⟨hgrant, result, (Prod.mk.inj hlisted).1.symm⟩
  · intro hpages
    have hfirst := hpages 0 (.inl rfl)
    rw [Nat.zero_mul, Nat.add_zero, Nat.mul_zero, Nat.add_zero] at hfirst
    obtain ⟨hgrant, result, hresult⟩ := hfirst
    obtain ⟨s', hlog, hlisted⟩ := hgranted hgrant
    rw [hresult] at hlisted
    obtain ⟨hresources, hnone, -⟩ := listedPage_cursor hresult
    exact ⟨1, follow_succ.mpr ⟨result, s', hlisted, .inl ⟨hnone hmore, hresources.trans hpage⟩⟩⟩

/-- **The cursors of a listing visit its items once, from any position.** -/
theorem Listing.follow_iff (h : Listing ports mcp principal request tool ref limit items) :
    ∀ (left : Nat) (x : Option McpCursor) (s : ServerState),
      items.length ≤ x.elim 0 McpCursor.position + left →
      ((∃ calls, (follow sha texts ports mcp principal calls { request with cursor := x } s).1 =
          .ok (items.drop (x.elim 0 McpCursor.position))) ↔
        ∀ i, (i = 0 ∨ x.elim 0 McpCursor.position + i * limit < items.length) →
          PageOk sha texts ports principal request tool ref limit items
            (x.elim 0 McpCursor.position + i * limit) (s.log.length + 2 * i)) := by
  intro left
  induction left with
  | zero =>
    intro x s hleft
    have hlimit := h.positive
    exact h.follow_last x s (by omega)
  | succ left ih =>
    intro x s hleft
    have hlimit := h.positive
    by_cases hmore : x.elim 0 McpCursor.position + limit < items.length
    swap
    · exact h.follow_last x s (by omega)
    generalize hp : x.elim 0 McpCursor.position = p at hleft hmore ⊢
    have hpage : ((items.drop p).take limit).length = limit := by
      rw [List.length_take, List.length_drop]
      omega
    have hsplit : (items.drop p).take limit ++ items.drop (p + limit) = items.drop p := by
      rw [← List.drop_drop]
      exact List.take_append_drop limit _
    obtain ⟨hdenied, hgranted⟩ := @Listing.call sha texts _ _ _ _ _ _ _ _ h x s
    -- the rest of the listing starts at the position of the next cursor
    have hnext : ∀ (c : McpCursor) (s' : ServerState), c.position = p + limit →
        s'.log.length = s.log.length + 2 →
        ((∃ calls, (follow sha texts ports mcp principal calls { request with cursor := some c } s').1 =
            .ok (items.drop (p + limit))) ↔
          ∀ i, p + (i + 1) * limit < items.length →
            PageOk sha texts ports principal request tool ref limit items (p + (i + 1) * limit)
              (s.log.length + 2 * (i + 1))) := by
      intro c s' hposition hlog
      have hih := ih (some c) s' (by rw [Option.elim_some]; omega)
      rw [Option.elim_some, hposition, hlog] at hih
      rw [hih]
      have hshift : ∀ i, p + limit + i * limit = p + (i + 1) * limit ∧
          s.log.length + 2 + 2 * i = s.log.length + 2 * (i + 1) := by
        intro i
        constructor
        · rw [Nat.add_mul]
          omega
        · omega
      refine forall_congr' fun i => ?_
      rw [(hshift i).1, (hshift i).2]
      constructor
      · intro hpages hin
        exact hpages (.inr hin)
      · rintro hpages (rfl | hin)
        · exact hpages (by omega)
        · exact hpages hin
    constructor
    · rintro ⟨calls, hfollow⟩
      cases calls with
      | zero => cases hfollow
      | succ calls =>
        obtain ⟨result, s', hrun, hresult⟩ := follow_succ.mp hfollow
        have hgrant : ports.authorizeTool s.log.length principal tool ref = .ok true := by
          by_contra hno
          obtain ⟨e, he⟩ := hdenied hno
          rw [hrun] at he
          cases he
        obtain ⟨s'', hlog, hlisted⟩ := hgranted hgrant
        rw [hrun, hp] at hlisted
        have hvalue := (Prod.mk.inj hlisted).1.symm
        obtain rfl : s' = s'' := (Prod.mk.inj hlisted).2
        obtain ⟨hresources, -, hcursor⟩ := listedPage_cursor hvalue
        obtain ⟨c, hc, -, hposition, -⟩ := hcursor (decide_eq_true hmore)
        rw [hpage] at hposition
        rcases hresult with ⟨hnone, -⟩ | ⟨c', rest, hc', hrest, hxs⟩
        · rw [hc] at hnone
          cases hnone
        rw [hc] at hc'
        cases hc'
        have hdrop : rest = items.drop (p + limit) := by
          rw [hresources] at hxs
          exact List.append_cancel_left (hxs.trans hsplit.symm)
        rw [hdrop] at hrest
        have hpages := (hnext c s' hposition hlog).mp ⟨calls, hrest⟩
        intro i hi
        cases i with
        | zero =>
          rw [Nat.zero_mul, Nat.add_zero, Nat.mul_zero, Nat.add_zero]
          exact ⟨hgrant, result, hvalue⟩
        | succ i =>
          rcases hi with hi | hi
          · cases hi
          · exact hpages i hi
    · intro hpages
      have hfirst := hpages 0 (.inl rfl)
      rw [Nat.zero_mul, Nat.add_zero, Nat.mul_zero, Nat.add_zero] at hfirst
      obtain ⟨hgrant, result, hresult⟩ := hfirst
      obtain ⟨s', hlog, hlisted⟩ := hgranted hgrant
      rw [hp, hresult] at hlisted
      obtain ⟨hresources, -, hcursor⟩ := listedPage_cursor hresult
      obtain ⟨c, hc, -, hposition, -⟩ := hcursor (decide_eq_true hmore)
      rw [hpage] at hposition
      obtain ⟨calls, hrest⟩ := (hnext c s' hposition hlog).mpr fun i hi => hpages (i + 1) (.inr hi)
      refine ⟨calls + 1, follow_succ.mpr ⟨result, s', hlisted, .inr ⟨c, _, hc, hrest, ?_⟩⟩⟩
      rw [hresources]
      exact hsplit

end

/-! ## Worked listings -/

def sampleResource (ref : OpaqueReference) : ResourceContract where
  resourceRef := ref
  resourceKind := code "evidence"
  mediaType := "text/plain"
  contentDigest := sampleDigest
  sizeBytes := 1
  classification := .internal
  redacted := true
  provenanceDigest := sampleDigest
  expiresAt := ⟨0, 0⟩

/-- One item. -/
def sampleItems : List ResourceContract := [sampleResource ⟨"first", by decide⟩]

/-- An application that lists slices of them for everybody. -/
def slicingPorts : ServerPorts :=
  { denyingPorts with
    authorizeTool := fun _ _ _ _ => .ok true
    listEvidence := fun _ _ _ offset limit =>
      .ok ((sampleItems.drop offset.toNat).take limit.toNat, decide (offset + limit < sampleItems.length)) }

/-- The listing of an incident, one item a page. -/
def sampleListing (cursor : Option McpCursor) : McpCallRequest where
  callId := code "call"
  toolName := .evidenceList
  arguments := [("resource_ref", .str "incident"), ("limit", .int 1)]
  idempotencyKey := code "key"
  cursor

theorem sampleListing_ok : Listing slicingPorts sampleMcpServer samplePrincipal (sampleListing none)
    (sampleTool .evidenceList) "incident" 1 sampleItems where
  name := rfl
  known := rfl
  reference := by decide +kernel
  bound := by decide +kernel
  slices := by
    intro n offset
    show Except.ok ((sampleItems.drop (offset : Int).toNat).take (1 : Int).toNat,
      decide ((offset : Int) + 1 < sampleItems.length)) = .ok (_, decide (offset + 1 < sampleItems.length))
    rw [Int.toNat_natCast]
    exact congrArg (fun more => Except.ok (_, more)) (decide_eq_decide.mpr (by omega))

theorem samplePage_bounds : normalizeJson 0 (pageMaterial (sampleListing none) sampleItems) = .ok () ∧
    boundJson sampleTexts 0 (pageMaterial (sampleListing none) sampleItems) = .ok () ∧
    (dump (pageMaterial (sampleListing none) sampleItems)).length ≤ maxProtocolDocumentBytes := by decide +kernel

/-- A cursor that nobody issued. -/
def forgedCursor : McpCursor where
  cursorRef := ⟨"forged", computed⟩
  tenantRef := ⟨"t", computed⟩
  peerId := code "anybody"
  operation := "call-tool"
  position := 7
  pageSize := 1
  queryDigest := sampleDigest
  expiresAt := ⟨0, 0⟩
  cursorDigest := Sha256.constant.hexdigest ""

/-- The call lists from this offset. -/
def listsAt (offset : Int) (e : PortEvent) : Bool :=
  match e.call with
  | .listEvidence _ _ o _ => o = offset
  | _ => false

end Interop

end Aegis
