/-
  THE TOOLS THAT A SERVER ADVERTISES, and which of them a client takes.

  `discover_tools` reads the pages of a peer's list and refuses what is not on its list of tools, or riskier
  than its ceiling, or DESTRUCTIVE.  What it compares is a neutral contract that the adapter makes of the tool
  on the wire; and there a destructive tool becomes one of high risk that is NOT destructive.  So the hint
  refuses nothing by itself: a ceiling of high risk lets it pass (`discovery_iff`).

  One page keeps the invariant `Accepted` (what has been taken are the contracts of what has been advertised,
  one for each name), and the loop follows the cursors.
-/
import Mathlib
import Aegis.Lib.Exec
import Aegis.Interop.Servers

namespace Aegis

namespace Interop

open Exec (Sat)

/-! ## Tools on the wire -/

/-- `ToolAnnotations`, of which the adapter reads two hints. -/
structure ToolAnnotations where
  destructiveHint : Option Bool
  idempotentHint : Option Bool

/-- `mcp_types.Tool`. -/
structure WireTool where
  name : String
  description : Option String
  inputSchema : List (String × Json)
  outputSchema : Option (List (String × Json))
  annotations : Option ToolAnnotations

/-- A hint that is given as `True`. -/
def WireTool.hinted (tool : WireTool) (hint : ToolAnnotations → Option Bool) : Bool :=
  tool.annotations.any fun annotations => hint annotations == some true

/-- The tool is advertised with the destructive hint. -/
def WireTool.destructive (tool : WireTool) : Bool := tool.hinted ToolAnnotations.destructiveHint

/-- `^[a-z0-9._-]+$`, at most 128 characters. -/
def isToolName (name : String) : Bool :=
  decide (1 ≤ name.length) && decide (name.length ≤ 128) &&
    name.toList.all fun c => c.isLower || c.isDigit || c ∈ ['.', '_', '-']

/-- `_neutral_mcp_tool`.  A `ToolContract` cannot be destructive. -/
def neutralMcpTool (sha : Sha256) (texts : Texts) (tool : WireTool) : Except Failure ToolContract :=
  if tool.name.length = 0 ∨ 128 < tool.name.length then
    .error ⟨.payloadRejected, "MCP tool name is invalid"⟩
  else do
    let nameDigest ← digestValue sha texts (.str tool.name)
    let descriptionDigest ← digestValue sha texts (.str (tool.description.getD ""))
    let inputSchemaDigest ← digestValue sha texts (.obj tool.inputSchema)
    let outputSchemaDigest ← digestValue sha texts (.obj (tool.outputSchema.getD []))
    let toolId ← parseIdentifier "ToolContract.tool_id"
      ("mcp-tool-" ++ String.ofList (nameDigest.val.toList.take 24))
    let capabilityId ← parseIdentifier "ToolContract.capability_id"
      ("mcp-" ++ tool.name.map fun c => if c = '.' then '-' else c)
    if isToolName tool.name = false then .error ⟨.validationError, "ToolContract.name"⟩
    else .ok { toolId, capabilityId, name := tool.name, descriptionDigest, inputSchemaDigest,
               outputSchemaDigest, risk := if tool.destructive = true then .high else .low,
               idempotent := tool.hinted ToolAnnotations.idempotentHint }

/-! ## Discovery -/

/-- What a registration of a client allows. -/
structure McpClientRegistration where
  allowedTools : List String
  riskCeiling : RiskLevel

/-- `_RISK_ORDER`. -/
def riskOrder : RiskLevel → Nat
  | .low => 0
  | .medium => 1
  | .high => 2

/-- A list call: the cursor it was made with, and what the server answered. -/
structure ListCall where
  cursor : Option String
  answer : Except Failure (List WireTool × Option String)

/-- A server: its answer to a list call, by how many were made before. -/
abbrev ListServer : Type := Nat → Option String → Except Failure (List WireTool × Option String)

section

variable (sha : Sha256) (texts : Texts) (registration : McpClientRegistration) (server : ListServer)

/-- `OfficialMcpClientAdapter.list_tools`. -/
def listTools (cursor : Option String) : Exec Failure (List ListCall) (List ToolContract × Option String) :=
  fun calls =>
    (do
      let (tools, next) ← server calls.length cursor
      let contracts ← tools.mapM (neutralMcpTool sha texts)
      .ok (contracts, next),
      calls ++ [⟨cursor, server calls.length cursor⟩])

/-- The body of the loop over a page. -/
def acceptTool (tools : List ToolContract) (tool : ToolContract) : Except Failure (List ToolContract) :=
  if tool.name ∉ registration.allowedTools ∨ riskOrder registration.riskCeiling < riskOrder tool.risk then
    .error ⟨.policyDenied, "MCP server advertised an untrusted tool"⟩
  else match tools.find? fun existing => existing.name = tool.name with
    | some existing =>
      if existing.toolId ≠ tool.toolId ∨ existing.capabilityId ≠ tool.capabilityId ∨
          existing.descriptionDigest ≠ tool.descriptionDigest ∨
          existing.inputSchemaDigest ≠ tool.inputSchemaDigest ∨
          existing.outputSchemaDigest ≠ tool.outputSchemaDigest ∨ existing.risk ≠ tool.risk ∨
          existing.idempotent ≠ tool.idempotent then
        .error ⟨.payloadRejected, "MCP tool definition changed during pagination"⟩
      else .ok tools
    | none => .ok (tools ++ [tool])

/-- The loop of `discover_tools`, with the pages that are left of its bound. -/
def discoverLoop : Nat → Option String → List String → List ToolContract →
    Exec Failure (List ListCall) (List ToolContract)
  | 0, _, _, _ => Exec.raise ⟨.payloadRejected, "MCP pagination exceeded the page bound"⟩
  | pages + 1, cursor, observed, tools => do
    let (page, next) ← listTools sha texts server cursor
    let tools ← Exec.lift (page.foldlM (acceptTool registration) tools)
    match next with
    | none => pure (tools.insertionSort fun a b => a.name ≤ b.name)
    | some next => do
      Exec.require (next ∉ observed) ⟨.payloadRejected, "MCP pagination cursor loop detected"⟩
      discoverLoop pages (some next) (next :: observed) tools

/-- `HardenedMcpClient.discover_tools`, of a client that has been initialized or not. -/
def discoverTools (initialized : Bool) : Exec Failure (List ListCall) (List ToolContract) := do
  Exec.require (initialized = true) ⟨.policyDenied, "MCP session is not initialized"⟩
  discoverLoop sha texts registration server 100 none [] []

end

/-! ## What is taken -/

variable {sha : Sha256} {texts : Texts} {registration : McpClientRegistration} {server : ListServer}

/-- The adapter keeps the name, and makes high risk of the hint. -/
theorem neutral_ok {tool : WireTool} {contract : ToolContract}
    (h : neutralMcpTool sha texts tool = .ok contract) :
    contract.name = tool.name ∧ (contract.risk = .high ↔ tool.destructive = true) := by
  unfold neutralMcpTool at h
  split at h
  · cases h
  obtain ⟨nameDigest, -, h⟩ := except_bind_ok.mp h
  obtain ⟨descriptionDigest, -, h⟩ := except_bind_ok.mp h
  obtain ⟨inputSchemaDigest, -, h⟩ := except_bind_ok.mp h
  obtain ⟨outputSchemaDigest, -, h⟩ := except_bind_ok.mp h
  obtain ⟨toolId, -, h⟩ := except_bind_ok.mp h
  obtain ⟨capabilityId, -, h⟩ := except_bind_ok.mp h
  split at h
  · cases h
  cases h
  refine ⟨rfl, ?_⟩
  dsimp only
  split
  · rename_i hyes
    exact ⟨fun _ => hyes, fun _ => rfl⟩
  · rename_i hno
    exact ⟨fun h => (by cases h), fun hyes => absurd hyes hno⟩

/-- What is taken of what has been advertised: its contracts, one for each name, within the registration. -/
structure Accepted (sha : Sha256) (texts : Texts) (registration : McpClientRegistration)
    (advertised : List WireTool) (tools : List ToolContract) : Prop where
  trusted : ∀ t ∈ tools, t.name ∈ registration.allowedTools ∧
    riskOrder t.risk ≤ riskOrder registration.riskCeiling ∧
    ∃ w ∈ advertised, neutralMcpTool sha texts w = .ok t
  complete : ∀ w ∈ advertised, ∃ t ∈ tools, neutralMcpTool sha texts w = .ok t
  distinct : (tools.map (·.name)).Nodup

theorem accepted_nil : Accepted sha texts registration [] [] :=
  ⟨fun t ht => (by cases ht), fun w hw => (by cases hw), List.nodup_nil⟩

/-- **One tool.** -/
theorem Accepted.tool {advertised : List WireTool} {tools tools' : List ToolContract} {w : WireTool}
    {t : ToolContract} (h : Accepted sha texts registration advertised tools)
    (hw : neutralMcpTool sha texts w = .ok t) (hrun : acceptTool registration tools t = .ok tools') :
    Accepted sha texts registration (advertised ++ [w]) tools' := by
  unfold acceptTool at hrun
  split at hrun
  · cases hrun
  rename_i hok
  obtain ⟨hallowed, hrisk⟩ := not_or.mp hok
  split at hrun
  · rename_i existing hfind
    split at hrun
    · cases hrun
    rename_i hsame
    cases hrun
    -- it is the one that is there already
    have hmem := List.mem_of_find?_eq_some hfind
    have hname : existing.name = t.name := of_decide_eq_true (List.find?_some (p := fun e : ToolContract =>
      decide (e.name = t.name)) hfind)
    have heq : existing = t := by
      simp only [ne_eq, not_or, not_not] at hsame
      obtain ⟨hid, hcapability, hdescription, hinput, houtput, hriskEq, hidempotent⟩ := hsame
      cases existing
      cases t
      simp only at hname hid hcapability hdescription hinput houtput hriskEq hidempotent
      subst hname hid hcapability hdescription hinput houtput hriskEq hidempotent
      rfl
    subst heq
    refine ⟨fun t' ht' => ?_, fun w' hw' => ?_, h.distinct⟩
    · obtain ⟨hname', hrisk', w', hw', hneutral⟩ := h.trusted t' ht'
      exact ⟨hname', hrisk', w', List.mem_append_left _ hw', hneutral⟩
    · rcases List.mem_append.mp hw' with hw' | hw'
      · exact h.complete w' hw'
      · rw [List.mem_singleton.mp hw']
        exact ⟨existing, hmem, hw⟩
  · rename_i hfind
    cases hrun
    refine ⟨fun t' ht' => ?_, fun w' hw' => ?_, ?_⟩
    · rcases List.mem_append.mp ht' with ht' | ht'
      · obtain ⟨hname', hrisk', w', hw', hneutral⟩ := h.trusted t' ht'
        exact ⟨hname', hrisk', w', List.mem_append_left _ hw', hneutral⟩
      · rw [List.mem_singleton.mp ht']
        exact ⟨not_not.mp hallowed, Nat.not_lt.mp hrisk, w, List.mem_append_right _ List.mem_cons_self, hw⟩
    · rcases List.mem_append.mp hw' with hw' | hw'
      · obtain ⟨t', ht', hneutral⟩ := h.complete w' hw'
        exact ⟨t', List.mem_append_left _ ht', hneutral⟩
      · rw [List.mem_singleton.mp hw']
        exact ⟨t, List.mem_append_right _ List.mem_cons_self, hw⟩
    · rw [List.map_append]
      refine h.distinct.append (List.nodup_singleton _) fun name hname hnew => ?_
      obtain ⟨t', ht', rfl⟩ := List.mem_map.mp hname
      exact absurd (decide_eq_true (List.mem_singleton.mp hnew)) (List.find?_eq_none.mp hfind t' ht')

/-- **One page.** -/
theorem Accepted.page {page : List WireTool} : ∀ {advertised : List WireTool}
    {contracts tools tools' : List ToolContract}, Accepted sha texts registration advertised tools →
    page.mapM (neutralMcpTool sha texts) = .ok contracts →
    contracts.foldlM (acceptTool registration) tools = .ok tools' →
    Accepted sha texts registration (advertised ++ page) tools' := by
  induction page with
  | nil =>
    intro advertised contracts tools tools' h hmap hfold
    rw [List.mapM_nil] at hmap
    cases hmap
    cases hfold
    rw [List.append_nil]
    exact h
  | cons w page ih =>
    intro advertised contracts tools tools' h hmap hfold
    rw [List.mapM_cons] at hmap
    obtain ⟨t, ht, hmap⟩ := except_bind_ok.mp hmap
    obtain ⟨rest, hrest, hmap⟩ := except_bind_ok.mp hmap
    cases hmap
    rw [List.foldlM_cons] at hfold
    obtain ⟨tools₁, htool, hfold⟩ := except_bind_ok.mp hfold
    rw [List.append_cons]
    exact ih (h.tool ht htool) hrest hfold

/-- The calls that follow the cursors from one, up to a page without a cursor, and the tools on their pages. -/
inductive Followed : Option String → List ListCall → List WireTool → Prop
  | last (cursor : Option String) (page : List WireTool) : Followed cursor [⟨cursor, .ok (page, none)⟩] page
  | next (cursor : Option String) (page : List WireTool) (c : String) {calls : List ListCall}
    {rest : List WireTool} (h : Followed (some c) calls rest) :
    Followed cursor (⟨cursor, .ok (page, some c)⟩ :: calls) (page ++ rest)

/-- **One call**: it is made in any case, and what is returned are the contracts of the page. -/
theorem listTools_run {cursor : Option String} {calls : List ListCall} :
    Sat (listTools sha texts server cursor) calls
      (fun answer calls' => calls' = calls ++ [⟨cursor, server calls.length cursor⟩] ∧
        ∃ page, server calls.length cursor = .ok (page, answer.2) ∧
          page.mapM (neutralMcpTool sha texts) = .ok answer.1)
      (fun _ calls' => calls' = calls ++ [⟨cursor, server calls.length cursor⟩]) := by
  unfold Sat
  rcases hx : listTools sha texts server cursor calls with ⟨r, calls'⟩
  obtain ⟨hr, rfl⟩ := Prod.mk.inj hx
  cases r with
  | error e => rfl
  | ok answer =>
    obtain ⟨⟨page, next⟩, hserver, hr⟩ := except_bind_ok.mp hr
    obtain ⟨contracts, hmap, hr⟩ := except_bind_ok.mp hr
    cases hr
    exact ⟨rfl, page, hserver, hmap⟩

/-- **The loop**: it makes a call for each page that is left at most; and if it returns, it has followed the
    cursors to the end. -/
theorem discoverLoop_run : ∀ (pages : Nat) (cursor : Option String) (observed : List String)
    (tools : List ToolContract) (advertised : List WireTool) (calls : List ListCall),
    Accepted sha texts registration advertised tools →
    Sat (discoverLoop sha texts registration server pages cursor observed tools) calls
      (fun result calls' => ∃ made, calls' = calls ++ made ∧ made.length ≤ pages ∧
        ∃ read, Followed cursor made read ∧
          ∃ all, Accepted sha texts registration (advertised ++ read) all ∧ result.Perm all)
      (fun _ calls' => ∃ made, calls' = calls ++ made ∧ made.length ≤ pages) := by
  intro pages
  induction pages with
  | zero =>
    intro cursor observed tools advertised calls h
    exact ⟨[], (List.append_nil calls).symm, Nat.le_refl 0⟩
  | succ pages ih =>
    intro cursor observed tools advertised calls h
    unfold discoverLoop
    have hone : ∃ made : List ListCall,
        calls ++ [⟨cursor, server calls.length cursor⟩] = calls ++ made ∧ made.length ≤ pages + 1 :=
      ⟨_, rfl, Nat.succ_le_succ (Nat.zero_le pages)⟩
    refine Sat.call listTools_run (fun e s' hs => hs ▸ hone) fun answer s' hs => ?_
    obtain ⟨rfl, page, hserver, hmap⟩ := hs
    obtain ⟨contracts, next⟩ := answer
    dsimp only at hserver hmap ⊢
    refine Sat.attempt (fun e _ => hone) fun tools' hfold => ?_
    have haccepted := h.page hmap hfold
    rw [hserver]
    rw [hserver] at hone
    cases next with
    | none =>
      refine ⟨_, rfl, Nat.succ_le_succ (Nat.zero_le pages), page, .last cursor page, tools', haccepted, ?_⟩
      exact List.perm_insertionSort _ _
    | some c =>
      refine Sat.check (fun _ => hone) fun _ => ?_
      refine (ih (some c) (c :: observed) tools' (advertised ++ page)
        (calls ++ [⟨cursor, .ok (page, some c)⟩]) haccepted).mono ?_ ?_
      · rintro result calls' ⟨made, rfl, hmade, read, hread, all, hall, hperm⟩
        refine ⟨⟨cursor, .ok (page, some c)⟩ :: made, by rw [List.append_assoc]; rfl, ?_, page ++ read,
          .next cursor page c hread, all, ?_, hperm⟩
        · rw [List.length_cons]
          omega
        · rw [← List.append_assoc]
          exact hall
      · rintro e calls' ⟨made, rfl, hmade⟩
        refine ⟨⟨cursor, .ok (page, some c)⟩ :: made, by rw [List.append_assoc]; rfl, ?_⟩
        rw [List.length_cons]
        omega

/-- **Discovery** makes a hundred calls at most.  If it returns, it has read every page up to the one without a
    cursor, every tool is on the list and within the ceiling, nothing was advertised with two contracts, and all
    that was advertised is returned.  No tool of it was advertised as destructive exactly if the ceiling is
    below high risk, or no page has a tool with the destructive hint. -/
theorem discovery_iff (sha : Sha256) (texts : Texts) (registration : McpClientRegistration)
    (server : ListServer) (initialized : Bool) :
    (discoverTools sha texts registration server initialized []).2.length ≤ 100 ∧
      ∀ tools, (discoverTools sha texts registration server initialized []).1 = .ok tools →
        ∃ advertised,
          Followed none (discoverTools sha texts registration server initialized []).2 advertised ∧
          (∀ t ∈ tools, t.name ∈ registration.allowedTools ∧
            riskOrder t.risk ≤ riskOrder registration.riskCeiling ∧
            ∃ w ∈ advertised, neutralMcpTool sha texts w = .ok t) ∧
          (∀ w ∈ advertised, ∃ t ∈ tools, neutralMcpTool sha texts w = .ok t) ∧
          (∀ w ∈ advertised, ∀ w' ∈ advertised, w.name = w'.name →
            neutralMcpTool sha texts w = neutralMcpTool sha texts w') ∧
          ((∀ t ∈ tools, ∀ w ∈ advertised, w.name = t.name → w.destructive = false) ↔
            registration.riskCeiling ≠ .high ∨ ∀ w ∈ advertised, w.destructive = false) := by
  have hrun : Sat (discoverTools sha texts registration server initialized) []
      (fun result made => made.length ≤ 100 ∧ ∃ advertised, Followed none made advertised ∧
        ∃ all, Accepted sha texts registration advertised all ∧ result.Perm all)
      (fun _ made => made.length ≤ 100) := by
    refine Sat.check (fun _ => Nat.zero_le 100) fun _ => ?_
    refine (discoverLoop_run 100 none [] [] [] [] accepted_nil).mono ?_ ?_
    · rintro result calls' ⟨made, rfl, hmade, read, hread, hall⟩
      exact ⟨hmade, read, hread, hall⟩
    · rintro e calls' ⟨made, rfl, hmade⟩
      exact hmade
  unfold Sat at hrun
  rcases hout : discoverTools sha texts registration server initialized [] with ⟨r, made⟩
  rw [hout] at hrun
  cases r with
  | error e => exact ⟨hrun, fun tools h => (by cases h)⟩
  | ok result =>
    obtain ⟨hmade, advertised, hfollowed, all, hall, hperm⟩ := hrun
    refine ⟨hmade, fun tools h => ?_⟩
    cases h
    refine ⟨advertised, hfollowed, fun t ht => hall.trusted t (hperm.mem_iff.mp ht), fun w hw => ?_,
      fun w hw w' hw' hname => ?_, ?_⟩
    · obtain ⟨t, ht, hneutral⟩ := hall.complete w hw
      exact ⟨t, hperm.mem_iff.mpr ht, hneutral⟩
    · -- the two contracts were taken under one name
      obtain ⟨t, ht, hneutral⟩ := hall.complete w hw
      obtain ⟨t', ht', hneutral'⟩ := hall.complete w' hw'
      have hsame : t.name = t'.name := by
        rw [(neutral_ok hneutral).1, (neutral_ok hneutral').1, hname]
      rw [hneutral, hneutral', List.inj_on_of_nodup_map hall.distinct ht ht' hsame]
    · constructor
      · intro hnone
        refine .inr fun w hw => ?_
        obtain ⟨t, ht, hneutral⟩ := hall.complete w hw
        exact hnone t (hperm.mem_iff.mpr ht) w hw (neutral_ok hneutral).1.symm
      · intro hcondition t ht w hw hname
        rcases hcondition with hceiling | hnone
        · -- its contract is of high risk, and has been compared with the ceiling
          obtain ⟨t', ht', hneutral⟩ := hall.complete w hw
          refine Bool.eq_false_iff.mpr fun hdestructive => hceiling ?_
          have hrisk := (hall.trusted t' ht').2.1
          rw [(neutral_ok hneutral).2.mpr hdestructive] at hrisk
          cases hc : registration.riskCeiling with
          | high => rfl
          | medium => rw [hc] at hrisk; exact absurd hrisk (by decide)
          | low => rw [hc] at hrisk; exact absurd hrisk (by decide)
        · exact hnone w hw

/-- A tool on the wire, with the destructive hint or without. -/
def wireTool (name : String) (destructive : Bool) : WireTool where
  name := name
  description := none
  inputSchema := []
  outputSchema := none
  annotations := if destructive then some ⟨some true, none⟩ else none

/-- A client that may use one tool, up to some risk. -/
def wiper (ceiling : RiskLevel) : McpClientRegistration := ⟨["wipe"], ceiling⟩

/-- A server with one page, of that tool. -/
def wipeServer (destructive : Bool) : ListServer := fun _ _ => .ok ([wireTool "wipe" destructive], none)

/-- What a client with some ceiling discovers of it. -/
def wipeTools (ceiling : RiskLevel) (destructive : Bool) : Except Failure (List ToolContract) :=
  (discoverTools .constant sampleTexts (wiper ceiling) (wipeServer destructive) true []).1

/-- The names of tools. -/
def toolNames (tools : Except Failure (List ToolContract)) : Option (List String) :=
  tools.toOption.map fun tools => tools.map (·.name)

theorem discovery_sample : ∃ tools, wipeTools .medium false = .ok tools ∧
    ∀ t ∈ tools, t.name ∈ ["wipe"] ∧ riskOrder t.risk ≤ riskOrder .medium := by
  have hnames : toolNames (wipeTools .medium false) = some ["wipe"] := by decide +kernel
  cases htools : wipeTools .medium false with
  | error e =>
    rw [htools] at hnames
    cases hnames
  | ok tools =>
    obtain ⟨advertised, -, htrusted, -⟩ := (discovery_iff .constant sampleTexts (wiper .medium)
      (wipeServer false) true).2 tools htools
    exact ⟨tools, rfl, fun t ht => ⟨(htrusted t ht).1, (htrusted t ht).2.1⟩⟩

/-- With a ceiling of high risk the destructive tool is returned, which is all that the server advertises. -/
theorem destructive_discovered : toolNames (wipeTools .high true) = some ["wipe"] ∧
    (∀ n cursor, wipeServer true n cursor = .ok ([wireTool "wipe" true], none)) ∧
    (wireTool "wipe" true).destructive = true ∧ toolNames (wipeTools .medium true) = none :=
  ⟨by decide +kernel, fun _ _ => rfl, rfl, by decide +kernel⟩

end Interop

end Aegis
