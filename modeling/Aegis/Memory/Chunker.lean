/-
  THE CHUNKER: a text cut into overlapping chunks of words.

  `split` canonicalizes a text, takes its words, and moves a window of `maximum_tokens` words over
  them by `maximum_tokens - overlap_tokens`.  What the loop emits is a cut of the words in the sense
  of `Segments` (`splitLoop_eq`); every fact about the chunks is read off that cut.

  Words are counted, but a `MemoryChunk` is bounded in characters, in bytes and in an estimate of
  tokens from its bytes.  The bound on the estimate is the only one a window can break
  (`fits_of_estimate`).

  Unicode normalization is a parameter `nfc`; what follows holds of any function.
-/
import Mathlib
import Aegis.Lib.Exec
import Aegis.Lib.Segments
import Aegis.Lib.Text
import Aegis.Memory.Lifecycle

namespace Aegis

namespace Memory

/-! ## Texts -/

/-- `_MAX_MEMORY_TEXT`. -/
def maxMemoryText : Nat := 65536

/-- `text.replace("\r\n", "\n")`. -/
def replaceCrLf : List Char → List Char
  | '\r' :: '\n' :: cs => '\n' :: replaceCrLf cs
  | c :: cs => c :: replaceCrLf cs
  | [] => []

/-- The characters that canonicalization keeps: line feeds, tabs, and all from the space on. -/
def keptChar (c : Char) : Bool := c == '\n' || c == '\t' || decide (32 ≤ c.toNat)

/-- `canonical_text`, before its bound is checked. -/
def canonicalChars (nfc : String → String) (value : String) : List Char :=
  let unix := (replaceCrLf (nfc value).toList).map fun c => if c = '\r' then '\n' else c
  Text.strip (Text.join '\n' ((Text.lines (unix.filter keptChar)).map Text.rstrip))

/-- `canonical_text`. -/
def canonicalText (nfc : String → String) (value : String) : Except Error String :=
  let normalized := canonicalChars nfc value
  if normalized = [] ∨ maxMemoryText < normalized.length then
    .error ⟨.valueError, "memory text is empty or exceeds the bound"⟩
  else .ok (String.ofList normalized)

/-- `token_estimate`: a token for each four bytes, rounded up, and at least one. -/
def tokenEstimate (text : List Char) : Nat := max 1 ((Text.byteLength text + 3) / 4)

/-! ## The chunker -/

/-- A `DeterministicChunker`, with the bounds that its constructor checks. -/
structure DeterministicChunker where
  maximumTokens : Nat
  overlapTokens : Nat
  maximumChunks : Nat
  tokens_ok : 16 ≤ maximumTokens ∧ maximumTokens ≤ 2048
  overlap_ok : overlapTokens < maximumTokens
  chunks_ok : 1 ≤ maximumChunks ∧ maximumChunks ≤ 1000

/-- `DeterministicChunker.__init__`. -/
def DeterministicChunker.init (maximumTokens overlapTokens maximumChunks : Int) :
    Except Error DeterministicChunker :=
  if h : ¬(maximumTokens < 16 ∨ maximumTokens > 2048 ∨ overlapTokens < 0 ∨ overlapTokens ≥ maximumTokens
      ∨ maximumChunks < 1 ∨ maximumChunks > 1000) then
    .ok { maximumTokens := maximumTokens.toNat, overlapTokens := overlapTokens.toNat,
          maximumChunks := maximumChunks.toNat, tokens_ok := by omega, overlap_ok := by omega,
          chunks_ok := by omega }
  else .error ⟨.valueError, "chunker bounds are invalid"⟩

variable (sha : Sha256) (nfc : String → String) (chunker : DeterministicChunker)

/-- How far the window moves. -/
def DeterministicChunker.step : Nat := chunker.maximumTokens - chunker.overlapTokens

theorem DeterministicChunker.step_pos : 0 < chunker.step := by
  have h := chunker.overlap_ok
  unfold DeterministicChunker.step
  omega

theorem DeterministicChunker.step_le : chunker.step ≤ chunker.maximumTokens := Nat.sub_le _ _

theorem DeterministicChunker.overlap_eq :
    chunker.maximumTokens - chunker.step = chunker.overlapTokens := by
  have h := chunker.overlap_ok
  unfold DeterministicChunker.step
  omega

/-- `range(0, count, step)`. -/
def DeterministicChunker.starts (count : Nat) : List Nat :=
  List.range' 0 ((count + chunker.step - 1) / chunker.step) chunker.step

/-- The chunk of a part, bound to its digest, its bytes and its estimate. -/
def chunkOf (tenant memory : Identifier) (citation : MemoryCitation) (ordinal : Nat)
    (part : List Char) : MemoryChunk where
  chunkId := stableIdentifier sha "memory-chunk"
    [tenant.val, memory.val, ordinal.repr, (sha.hexdigest (String.ofList part)).val] 32
  memoryId := memory
  tenantId := tenant
  ordinal := ordinal
  text := String.ofList part
  contentDigest := sha.hexdigest (String.ofList part)
  tokenEstimate := tokenEstimate part
  byteCount := Text.byteLength part
  citation := citation
  chunkerVersion := ⟨chunkerVersion, by decide⟩

/-- `MemoryChunk(...)`: the fields that are checked, in their order. -/
def buildChunk (tenantId memoryId : String) (ordinal : Nat) (part : List Char)
    (citation : MemoryCitation) : Except Error MemoryChunk := do
  let memory ← Identifier.parse "MemoryChunk.memory_id" memoryId
  let tenant ← Identifier.parse "MemoryChunk.tenant_id" tenantId
  if 10000 < ordinal then .error (validationError "MemoryChunk.ordinal")
  else if part = [] ∨ maxMemoryText < part.length then .error (validationError "MemoryChunk.text")
  else if 32768 < tokenEstimate part then .error (validationError "MemoryChunk.token_estimate")
  else if 262144 < Text.byteLength part then .error (validationError "MemoryChunk.byte_count")
  else .ok (chunkOf sha tenant memory citation ordinal part)

/-- The window of words at a start, joined. -/
def DeterministicChunker.part (words : List (List Char)) (start : Nat) : List Char :=
  Text.join ' ' ((words.drop start).take chunker.maximumTokens)

/-- The loop of `split`, from an ordinal and the starts that are left. -/
def splitLoop (tenantId memoryId : String) (citation : MemoryCitation) (words : List (List Char)) :
    Nat → List Nat → Except Error (List MemoryChunk)
  | _, [] => .ok []
  | ordinal, start :: starts =>
    if chunker.part words start = [] then .ok []
    else if chunker.maximumChunks ≤ ordinal then
      .error ⟨.valueError, "memory content exceeds the chunk count bound"⟩
    else do
      let chunk ← buildChunk sha tenantId memoryId ordinal (chunker.part words start) citation
      if words.length ≤ start + chunker.maximumTokens then pure [chunk]
      else do
        let chunks ← splitLoop tenantId memoryId citation words (ordinal + 1) starts
        pure (chunk :: chunks)

/-- `DeterministicChunker.split`. -/
def split (tenantId memoryId text : String) (citation : MemoryCitation) :
    Except Error (List MemoryChunk) := do
  let normalized ← canonicalText nfc text
  let words := Text.words normalized.toList
  if words = [] then .error ⟨.valueError, "memory content is empty"⟩
  else splitLoop sha chunker tenantId memoryId citation words 0 (chunker.starts words.length)

/-! ## The chunks are a cut of the words -/

/-- The segments of the words that become chunks. -/
def DeterministicChunker.windows (words : List (List Char)) : List (List (List Char)) :=
  Segments.cut chunker.maximumTokens chunker.step chunker.step_pos words

theorem DeterministicChunker.windows_ne_nil (words : List (List Char)) : chunker.windows words ≠ [] :=
  Segments.cut_ne_nil words

/-- The loop over segments. -/
def emit (tenantId memoryId : String) (citation : MemoryCitation) :
    Nat → List (List (List Char)) → Except Error (List MemoryChunk)
  | _, [] => .ok []
  | ordinal, window :: windows =>
    if chunker.maximumChunks ≤ ordinal then
      .error ⟨.valueError, "memory content exceeds the chunk count bound"⟩
    else do
      let chunk ← buildChunk sha tenantId memoryId ordinal (Text.join ' ' window) citation
      let chunks ← emit tenantId memoryId citation (ordinal + 1) windows
      pure (chunk :: chunks)

/-- The starts of what is left of a list begin with the first of them. -/
theorem range_starts {n step start : Nat} (hstep : 0 < step) (h : start < n) :
    List.range' start ((n - start + step - 1) / step) step =
      start :: List.range' (start + step) ((n - (start + step) + step - 1) / step) step := by
  have hcount : (n - start + step - 1) / step = (n - (start + step) + step - 1) / step + 1 := by
    rcases Nat.lt_or_ge n (start + step) with hlast | hmore
    · have hzero : n - (start + step) = 0 := by omega
      have hone : (n - start + step - 1) / step = 1 := Nat.div_eq_of_lt_le (by omega) (by omega)
      rw [hzero, hone, Nat.zero_add, Nat.div_eq_of_lt (Nat.sub_lt hstep Nat.one_pos)]
    · have hshift : n - start + step - 1 = n - (start + step) + step - 1 + step := by omega
      rw [hshift, Nat.add_div_right _ hstep]
  rw [hcount, List.range'_succ]

variable {sha nfc chunker}

/-- **The loop emits the windows of the words it has left.** -/
theorem splitLoop_eq {tenantId memoryId : String} {citation : MemoryCitation}
    {words : List (List Char)} (hwords : ∀ w ∈ words, Text.IsWord w) (left : List (List Char)) :
    ∀ start ordinal, words.drop start = left → start < words.length →
      splitLoop sha chunker tenantId memoryId citation words ordinal
          (List.range' start ((words.length - start + chunker.step - 1) / chunker.step) chunker.step) =
        emit sha chunker tenantId memoryId citation ordinal (chunker.windows left) := by
  -- induction on the cut: one turn of the loop for each window
  unfold DeterministicChunker.windows
  fun_induction Segments.cut chunker.maximumTokens chunker.step chunker.step_pos left with
  | case1 left hle =>
    intro start ordinal hdrop hstart
    have hlen : words.length - start ≤ chunker.maximumTokens := by
      rw [← List.length_drop, hdrop]
      exact hle
    have hpart : chunker.part words start = Text.join ' ' left := by
      rw [DeterministicChunker.part, hdrop, List.take_of_length_le hle]
    have hne : chunker.part words start ≠ [] := by
      rw [hpart, Ne, Text.join_eq_nil fun w hw => (hwords w (List.mem_of_mem_drop (hdrop ▸ hw))).1]
      rw [← hdrop]
      exact List.ne_nil_of_length_pos (by rw [List.length_drop]; omega)
    rw [range_starts chunker.step_pos hstart, splitLoop, emit, if_neg hne, hpart]
    split
    · rfl
    · refine bind_congr fun chunk => ?_
      rw [if_pos (by omega)]
      rfl
  | case2 left hlt ih =>
    intro start ordinal hdrop hstart
    have hlen : chunker.maximumTokens < words.length - start := by
      rw [← List.length_drop, hdrop]
      omega
    have hpart : chunker.part words start = Text.join ' ' (left.take chunker.maximumTokens) := by
      rw [DeterministicChunker.part, hdrop]
    have htokens := chunker.tokens_ok
    have hle := chunker.step_le
    have hne : chunker.part words start ≠ [] := by
      rw [hpart, Ne, Text.join_eq_nil fun w hw =>
        (hwords w (List.mem_of_mem_drop (hdrop ▸ List.mem_of_mem_take hw))).1]
      refine List.ne_nil_of_length_pos ?_
      rw [List.length_take]
      omega
    rw [range_starts chunker.step_pos hstart, splitLoop, emit, if_neg hne, hpart]
    split
    · rfl
    · refine bind_congr fun chunk => ?_
      rw [if_neg (by omega), ih (start + chunker.step) (ordinal + 1) ?_ (by omega)]
      rw [← hdrop, List.drop_drop]

/-- What a part must be for a chunk of it. -/
def Fits (part : List Char) : Prop :=
  part ≠ [] ∧ part.length ≤ maxMemoryText ∧ tokenEstimate part ≤ 32768 ∧ Text.byteLength part ≤ 262144

theorem buildChunk_ok_iff {tenant memory : Identifier} {ordinal : Nat} {part : List Char}
    {citation : MemoryCitation} {chunk : MemoryChunk} (hordinal : ordinal ≤ 10000) :
    buildChunk sha tenant.val memory.val ordinal part citation = .ok chunk ↔
      Fits part ∧ chunk = chunkOf sha tenant memory citation ordinal part := by
  unfold buildChunk Fits
  rw [Identifier.parse_val, Identifier.parse_val]
  show (if 10000 < ordinal then _ else if _ then _ else if _ then _ else if _ then _ else _) = _ ↔ _
  rw [if_neg (by omega)]
  split
  · rename_i h
    refine ⟨fun h => (by cases h), fun ⟨⟨hne, hlen, _⟩, _⟩ => ?_⟩
    exact absurd h (not_or.mpr ⟨hne, by omega⟩)
  · rename_i h
    obtain ⟨hne, hlen⟩ := not_or.mp h
    split
    · exact ⟨fun h => (by cases h), fun ⟨⟨_, _, hest, _⟩, _⟩ => absurd hest (by omega)⟩
    · split
      · exact ⟨fun h => (by cases h), fun ⟨⟨_, _, _, hbytes⟩, _⟩ => absurd hbytes (by omega)⟩
      · constructor
        · intro h
          exact ⟨⟨hne, by omega, by omega, by omega⟩, (Except.ok.inj h).symm⟩
        · rintro ⟨-, rfl⟩
          rfl

/-- A chunk is built for identifiers only. -/
theorem buildChunk_ids {tenantId memoryId : String} {ordinal : Nat} {part : List Char}
    {citation : MemoryCitation} {chunk : MemoryChunk}
    (h : buildChunk sha tenantId memoryId ordinal part citation = .ok chunk) :
    ∃ tenant memory : Identifier, tenant.val = tenantId ∧ memory.val = memoryId := by
  obtain ⟨memory, hmemory, h⟩ := except_bind_ok.mp h
  obtain ⟨tenant, htenant, -⟩ := except_bind_ok.mp h
  exact ⟨tenant, memory, Identifier.parse_ok htenant, Identifier.parse_ok hmemory⟩

/-- The chunks of windows. -/
def chunksOf (sha : Sha256) (tenant memory : Identifier) (citation : MemoryCitation) (ordinal : Nat)
    (windows : List (List (List Char))) : List MemoryChunk :=
  (windows.zipIdx ordinal).map fun w => chunkOf sha tenant memory citation w.2 (Text.join ' ' w.1)

/-- **When every window becomes a chunk.** -/
theorem emit_ok_iff {tenant memory : Identifier} {citation : MemoryCitation} {ordinal : Nat}
    {windows : List (List (List Char))} {chunks : List MemoryChunk} :
    emit sha chunker tenant.val memory.val citation ordinal windows = .ok chunks ↔
      (windows ≠ [] → ordinal + windows.length ≤ chunker.maximumChunks) ∧
      (∀ w ∈ windows, Fits (Text.join ' ' w)) ∧
      chunks = chunksOf sha tenant memory citation ordinal windows := by
  induction windows generalizing ordinal chunks with
  | nil =>
    constructor
    · intro h
      exact ⟨fun hne => absurd rfl hne, fun _ hw => (by cases hw), (Except.ok.inj h).symm⟩
    · rintro ⟨-, -, rfl⟩
      rfl
  | cons window windows ih =>
    have hchunks := chunker.chunks_ok
    rw [emit, List.length_cons]
    split
    · refine ⟨fun h => (by cases h), fun ⟨hcount, _⟩ => ?_⟩
      have := hcount (List.cons_ne_nil _ _)
      omega
    · rw [except_bind_ok]
      constructor
      · rintro ⟨chunk, hchunk, h⟩
        obtain ⟨rest, hrest, hcons⟩ := except_bind_ok.mp h
        obtain ⟨hfits, hchunk⟩ := (buildChunk_ok_iff (by omega)).mp hchunk
        obtain ⟨hcount, hall, hrest⟩ := ih.mp hrest
        refine ⟨fun _ => ?_, ?_, ?_⟩
        · rcases eq_or_ne windows [] with rfl | hne
          · rw [List.length_nil]
            omega
          · have := hcount hne
            omega
        · intro w hw
          rcases List.mem_cons.mp hw with rfl | hw
          · exact hfits
          · exact hall w hw
        · rw [← Except.ok.inj hcons, hchunk, hrest]
          rfl
      · rintro ⟨hcount, hall, rfl⟩
        have hle := hcount (List.cons_ne_nil _ _)
        refine ⟨_, (buildChunk_ok_iff (by omega)).mpr ⟨hall _ List.mem_cons_self, rfl⟩, ?_⟩
        refine except_bind_ok.mpr ⟨_, ih.mpr ⟨fun _ => (by omega), fun w hw => ?_, rfl⟩, rfl⟩
        exact hall w (List.mem_cons_of_mem _ hw)

theorem emit_ids {tenantId memoryId : String} {citation : MemoryCitation} {ordinal : Nat}
    {windows : List (List (List Char))} {chunks : List MemoryChunk} (hne : windows ≠ [])
    (h : emit sha chunker tenantId memoryId citation ordinal windows = .ok chunks) :
    ∃ tenant memory : Identifier, tenant.val = tenantId ∧ memory.val = memoryId := by
  cases windows with
  | nil => exact absurd rfl hne
  | cons window windows =>
    rw [emit] at h
    split at h
    · cases h
    · obtain ⟨chunk, hchunk, -⟩ := except_bind_ok.mp h
      exact buildChunk_ids hchunk

/-- **`split` emits the windows of the words of the canonical text.** -/
theorem split_eq {tenantId memoryId text : String} {citation : MemoryCitation} :
    split sha nfc chunker tenantId memoryId text citation = (do
      let normalized ← canonicalText nfc text
      let words := Text.words normalized.toList
      if words = [] then .error ⟨.valueError, "memory content is empty"⟩
      else emit sha chunker tenantId memoryId citation 0 (chunker.windows words)) := by
  refine bind_congr fun normalized => ?_
  dsimp only
  split
  · rfl
  · rename_i hne
    exact splitLoop_eq (fun w hw => Text.isWord_of_mem hw) _ 0 0 rfl (List.length_pos_iff.mpr hne)

/-! ## What the chunks hold -/

/-- The words of a chunk. -/
def MemoryChunk.words (chunk : MemoryChunk) : List (List Char) := Text.words chunk.text.toList

/-- Spans of words that lose nothing of a text and repeat the overlap only. -/
structure Lossless (chunker : DeterministicChunker) (words : List (List Char))
    (spans : List (List (List Char))) : Prop where
  consecutive : ∀ k (hk : k < spans.length),
    spans[k] = (words.drop (k * chunker.step)).take chunker.maximumTokens
  sized : ∀ span ∈ spans, 1 ≤ span.length ∧ span.length ≤ chunker.maximumTokens
  overlap : ∀ k (hk : k + 1 < spans.length),
    spans[k + 1].take chunker.overlapTokens = spans[k].drop chunker.step ∧
      (spans[k].drop chunker.step).length = chunker.overlapTokens ∧
      chunker.overlapTokens < spans[k + 1].length
  full : ∀ k (hk : k + 1 < spans.length), spans[k].length = chunker.maximumTokens
  rebuilt : spans.headD [] ++
    (spans.tail.map fun span => span.drop chunker.overlapTokens).flatten = words

theorem windows_lossless {words : List (List Char)} (hne : words ≠ []) :
    Lossless chunker words (chunker.windows words) := by
  have hle := chunker.step_le
  have hoverlap := chunker.overlap_eq
  refine ⟨fun k hk => Segments.cut_getElem words k hk, fun span hspan => ⟨?_, ?_⟩, fun k hk => ?_,
    fun k hk => Segments.cut_full words k hk, ?_⟩
  · exact List.length_pos_iff.mpr (Segments.cut_nonempty hle hne span hspan)
  · exact Segments.cut_length_le words span hspan
  · obtain ⟨hshared, hmore⟩ := Segments.cut_next hle words k hk
    have hfull := Segments.cut_full words k hk
    rw [hoverlap] at hshared hmore
    refine ⟨hshared, ?_, hmore⟩
    rw [List.length_drop]
    exact (congrArg (· - chunker.step) hfull).trans hoverlap
  · have hjoin : (chunker.windows words).headD [] ++ ((chunker.windows words).tail.map fun window =>
        window.drop (chunker.maximumTokens - chunker.step)).flatten = words := Segments.cut_join hle words
    rw [hoverlap] at hjoin
    exact hjoin

/-- The words of the chunks of windows are the windows. -/
theorem words_chunksOf {tenant memory : Identifier} {citation : MemoryCitation} {ordinal : Nat}
    {windows : List (List (List Char))} (h : ∀ window ∈ windows, ∀ w ∈ window, Text.IsWord w) :
    (chunksOf sha tenant memory citation ordinal windows).map MemoryChunk.words = windows := by
  induction windows generalizing ordinal with
  | nil => rfl
  | cons window windows ih =>
    refine congrArg₂ List.cons ?_ (ih fun v hv => h v (List.mem_cons_of_mem _ hv))
    show Text.words (String.ofList (Text.join ' ' window)).toList = window
    rw [String.toList_ofList, Text.words_join (h window List.mem_cons_self)]

theorem ordinals_chunksOf {tenant memory : Identifier} {citation : MemoryCitation} {ordinal : Nat}
    {windows : List (List (List Char))} :
    (chunksOf sha tenant memory citation ordinal windows).map (·.ordinal) =
      List.range' ordinal windows.length := by
  induction windows generalizing ordinal with
  | nil => rfl
  | cons window windows ih => exact congrArg (List.cons ordinal) ih

theorem length_chunksOf {tenant memory : Identifier} {citation : MemoryCitation} {ordinal : Nat}
    {windows : List (List (List Char))} :
    (chunksOf sha tenant memory citation ordinal windows).length = windows.length := by
  rw [chunksOf, List.length_map, List.length_zipIdx]

/-- The text the id of a chunk is the hash of. -/
def MemoryChunk.idText (chunk : MemoryChunk) : String :=
  joinParts [chunk.tenantId.val, chunk.memoryId.val, chunk.ordinal.repr, chunk.contentDigest.val]

/-- Chunks with one id have one ordinal. -/
theorem chunkId_ordinal {tenant memory : Identifier} {citation : MemoryCitation} {i j : Nat}
    {part part' : List Char} {texts : Set String} (hfree : sha.CollisionFree texts)
    (hi : (chunkOf sha tenant memory citation i part).idText ∈ texts)
    (hj : (chunkOf sha tenant memory citation j part').idText ∈ texts)
    (h : (chunkOf sha tenant memory citation i part).chunkId =
      (chunkOf sha tenant memory citation j part').chunkId) : i = j := by
  have hnul : ∀ (k : Nat) (d : Digest), ∀ p ∈ [tenant.val, memory.val, k.repr, d.val], NulFree p := by
    intro k d p hp
    simp only [List.mem_cons, List.not_mem_nil, or_false] at hp
    rcases hp with rfl | rfl | rfl | rfl
    · exact tenant.nulFree
    · exact memory.nulFree
    · exact nulFree_repr k
    · exact d.nulFree
  have hparts := stableId_inj hfree (by decide) (hnul i _) (hnul j _) (List.cons_ne_nil _ _)
    (List.cons_ne_nil _ _) hi hj (congrArg Subtype.val h)
  simp only [List.cons.injEq] at hparts
  exact Nat.repr_injective hparts.2.2.1

theorem ids_chunksOf {tenant memory : Identifier} {citation : MemoryCitation}
    {windows : List (List (List Char))}
    (hfree : sha.CollisionFree
      {x | ∃ chunk ∈ chunksOf sha tenant memory citation 0 windows, x = chunk.idText}) :
    ((chunksOf sha tenant memory citation 0 windows).map (·.chunkId)).Nodup := by
  refine List.Nodup.map_on ?_ ?_
  · intro a ha b hb hab
    obtain ⟨⟨v, i⟩, hv, rfl⟩ := List.mem_map.mp ha
    obtain ⟨⟨w, j⟩, hw, rfl⟩ := List.mem_map.mp hb
    have hij : i = j := chunkId_ordinal hfree ⟨_, ha, rfl⟩ ⟨_, hb, rfl⟩ hab
    subst hij
    have hvw : v = w := by
      have hv := List.mem_zipIdx hv
      have hw := List.mem_zipIdx hw
      rw [hv.2.2, hw.2.2]
    rw [hvw]
  · refine List.Nodup.of_map (·.ordinal) ?_
    rw [ordinals_chunksOf]
    exact List.nodup_range'

/-- The loop takes at most one turn for each word. -/
theorem DeterministicChunker.length_starts (count : Nat) : (chunker.starts count).length ≤ count := by
  rw [DeterministicChunker.starts, List.length_range']
  refine Nat.lt_succ_iff.mp (Nat.div_lt_of_lt_mul ?_)
  obtain ⟨step, hs⟩ : ∃ step, chunker.step = step + 1 :=
    ⟨_, (Nat.sub_add_cancel chunker.step_pos).symm⟩
  calc count + chunker.step - 1 = count + step := by omega
    _ < step * count + step + count + 1 := by omega
    _ = chunker.step * count.succ := by rw [hs, Nat.succ_eq_add_one]; ring

/-- The chunker with the defaults of its constructor. -/
def defaultChunker : DeterministicChunker where
  maximumTokens := 256
  overlapTokens := 32
  maximumChunks := 256
  tokens_ok := by decide
  overlap_ok := by decide
  chunks_ok := by decide

example : DeterministicChunker.init 256 32 256 = .ok defaultChunker := rfl

def chunkTenant : Identifier := ⟨"tenant", computed⟩

def chunkMemory : Identifier := ⟨"memory", by decide⟩

def chunkCitation : MemoryCitation where
  evidenceId := ⟨"evidence", computed⟩
  sourceId := ⟨"source", computed⟩
  locator := "runbook"
  contentHash := zeroHash
  provenanceDigest := zeroHash

/-- **Chunking loses nothing.** -/
theorem chunking_lossless {tenantId memoryId text : String} {citation : MemoryCitation}
    {chunks : List MemoryChunk}
    (h : split sha nfc chunker tenantId memoryId text citation = .ok chunks) :
    ∃ canonical, canonicalText nfc text = .ok canonical ∧
      (1 ≤ chunks.length ∧ chunks.length ≤ chunker.maximumChunks) ∧
      chunks.map (·.ordinal) = List.range chunks.length ∧
      (sha.CollisionFree {x | ∃ chunk ∈ chunks, x = chunk.idText} →
        (chunks.map (·.chunkId)).Nodup) ∧
      Lossless chunker (Text.words canonical.toList) (chunks.map MemoryChunk.words) ∧
      (chunker.starts (Text.words canonical.toList).length).length ≤
        (Text.words canonical.toList).length := by
  rw [split_eq] at h
  obtain ⟨canonical, hcanonical, h⟩ := except_bind_ok.mp h
  refine ⟨canonical, hcanonical, ?_⟩
  dsimp only at h
  split at h
  · cases h
  · rename_i hne
    have hcut := chunker.windows_ne_nil (Text.words canonical.toList)
    obtain ⟨tenant, memory, rfl, rfl⟩ := emit_ids hcut h
    obtain ⟨hcount, -, rfl⟩ := emit_ok_iff.mp h
    have hwords : ∀ window ∈ chunker.windows (Text.words canonical.toList), ∀ w ∈ window, Text.IsWord w :=
      fun window hwindow w hw =>
        Text.isWord_of_mem ((Segments.cut_isInfix _ window hwindow).subset hw)
    refine ⟨⟨?_, ?_⟩, ?_, ids_chunksOf, ?_, chunker.length_starts _⟩
    · rw [length_chunksOf]
      exact List.length_pos_iff.mpr hcut
    · rw [length_chunksOf]
      have := hcount hcut
      omega
    · rw [ordinals_chunksOf, length_chunksOf, List.range_eq_range']
    · rw [words_chunksOf hwords]
      exact windows_lossless hne

theorem chunking_lossless_sample : ∃ chunks canonical,
    split Sha256.constant id defaultChunker chunkTenant.val chunkMemory.val "disk full" chunkCitation = .ok chunks ∧
      canonicalText id "disk full" = .ok canonical ∧
      Lossless defaultChunker (Text.words canonical.toList) (chunks.map MemoryChunk.words) := by
  have hok : (split Sha256.constant id defaultChunker chunkTenant.val chunkMemory.val "disk full" chunkCitation).isOk =
      true := by decide
  cases hsplit : split Sha256.constant id defaultChunker chunkTenant.val chunkMemory.val "disk full" chunkCitation with
  | error e =>
    rw [hsplit] at hok
    cases hok
  | ok chunks =>
    obtain ⟨canonical, hcanonical, -, -, -, hlossless, -⟩ := chunking_lossless hsplit
    exact ⟨chunks, canonical, rfl, hcanonical, hlossless⟩

/-! ## Which texts are refused -/

theorem estimate_le_iff {part : List Char} : tokenEstimate part ≤ 32768 ↔ Text.byteLength part ≤ 131072 := by
  unfold tokenEstimate
  omega

/-- **Of a text within its bound, a window can break the bound on the estimate only.** -/
theorem fits_iff {canonical : List Char} (hlen : canonical.length ≤ maxMemoryText)
    {window : List (List Char)} (hne : window ≠ []) (hsub : window.Sublist (Text.words canonical)) :
    Fits (Text.join ' ' window) ↔ Text.byteLength (Text.join ' ' window) ≤ 131072 := by
  have hwords : ∀ w ∈ window, w ≠ [] := fun w hw => (Text.isWord_of_mem (hsub.subset hw)).1
  have hchars := Text.join_words_length hsub
  constructor
  · rintro ⟨-, -, hest, -⟩
    exact estimate_le_iff.mp hest
  · intro hbytes
    refine ⟨fun h => hne ((Text.join_eq_nil hwords).mp h), by omega, estimate_le_iff.mpr hbytes, by omega⟩

theorem canonicalText_bound {text canonical : String} (h : canonicalText nfc text = .ok canonical) :
    canonical.toList = canonicalChars nfc text ∧ canonical.toList ≠ [] ∧
      canonical.toList.length ≤ maxMemoryText := by
  unfold canonicalText at h
  dsimp only at h
  split at h
  · cases h
  · rename_i hbound
    obtain ⟨hne, hlen⟩ := not_or.mp hbound
    rw [← Except.ok.inj h, String.toList_ofList]
    exact ⟨rfl, hne, by omega⟩

/-- A text that is stripped and not empty has words. -/
theorem words_canonical {text canonical : String} (h : canonicalText nfc text = .ok canonical) :
    Text.words canonical.toList ≠ [] := by
  obtain ⟨hchars, hne, -⟩ := canonicalText_bound h
  rw [hchars] at hne ⊢
  exact Text.words_strip hne

/-- The words make at most as many windows as chunks are allowed. -/
theorem windows_count {words : List (List Char)}
    (h : words.length ≤ (chunker.maximumChunks - 1) * chunker.step + chunker.maximumTokens) :
    (chunker.windows words).length ≤ chunker.maximumChunks := by
  by_contra hmore
  have hchunks := chunker.chunks_ok
  have hlast : chunker.maximumChunks - 1 + 1 < (chunker.windows words).length := by omega
  have hpast := Segments.cut_past words _ hlast
  omega

/-- A text with few enough words is chunked when each of its windows fits. -/
theorem split_fits_iff {tenant memory : Identifier} {text canonical : String}
    {citation : MemoryCitation} (hcanonical : canonicalText nfc text = .ok canonical)
    (hcount : (Text.words canonical.toList).length ≤
      (chunker.maximumChunks - 1) * chunker.step + chunker.maximumTokens) :
    (∃ chunks, split sha nfc chunker tenant.val memory.val text citation = .ok chunks) ↔
      ∀ window ∈ chunker.windows (Text.words canonical.toList), Fits (Text.join ' ' window) := by
  have hsplit : split sha nfc chunker tenant.val memory.val text citation =
      emit sha chunker tenant.val memory.val citation 0
        (chunker.windows (Text.words canonical.toList)) := by
    rw [split_eq, hcanonical]
    exact if_neg (words_canonical hcanonical)
  rw [hsplit]
  constructor
  · rintro ⟨chunks, h⟩
    exact (emit_ok_iff.mp h).2.1
  · intro hfits
    refine ⟨_, emit_ok_iff.mpr ⟨fun _ => ?_, hfits, rfl⟩⟩
    rw [Nat.zero_add]
    exact windows_count hcount

/-- A text of one word that fits is one chunk. -/
theorem split_word {tenant memory : Identifier} {text : String} {citation : MemoryCitation}
    (hcanonical : canonicalText nfc text = .ok text) (hwords : Text.words text.toList = [text.toList])
    (hfits : Fits text.toList) : split sha nfc chunker tenant.val memory.val text citation =
      .ok [chunkOf sha tenant memory citation 0 text.toList] := by
  have htokens := chunker.tokens_ok
  have hchunks := chunker.chunks_ok
  have hcut : chunker.windows [text.toList] = [[text.toList]] :=
    Segments.cut_of_le (by rw [List.length_singleton]; omega)
  rw [split_eq, hcanonical]
  show (if Text.words text.toList = [] then _ else _) = _
  rw [hwords, if_neg (List.cons_ne_nil _ _), hcut, emit_ok_iff]
  refine ⟨fun _ => ?_, fun window hwindow => ?_, ?_⟩
  · rw [List.length_singleton]
    omega
  · rw [List.mem_singleton.mp hwindow, Text.join_singleton]
    exact hfits
  · show _ = [chunkOf sha tenant memory citation 0 (Text.join ' ' [text.toList])]
    rw [Text.join_singleton]

/-- **Which texts are chunked**: those with no window of more than 131,072 bytes. -/
theorem chunking_accepts {tenant memory : Identifier} {text canonical : String}
    {citation : MemoryCitation} (hcanonical : canonicalText nfc text = .ok canonical)
    (hcount : (Text.words canonical.toList).length ≤
      (chunker.maximumChunks - 1) * chunker.step + chunker.maximumTokens) :
    (∃ chunks, split sha nfc chunker tenant.val memory.val text citation = .ok chunks) ↔
      ∀ window ∈ chunker.windows (Text.words canonical.toList),
        Text.byteLength (Text.join ' ' window) ≤ 131072 := by
  obtain ⟨-, -, hlen⟩ := canonicalText_bound hcanonical
  rw [split_fits_iff hcanonical hcount]
  refine forall₂_congr fun window hwindow => ?_
  refine fits_iff hlen ?_ (Segments.cut_isInfix _ window hwindow).sublist
  exact Segments.cut_nonempty chunker.step_le (words_canonical hcanonical) window hwindow

theorem chunking_accepts_sample : ∃ chunks,
    split Sha256.constant id defaultChunker chunkTenant.val chunkMemory.val "disk full" chunkCitation =
      .ok chunks := by
  have hcanonical : canonicalText id "disk full" = .ok "disk full" := by decide
  have hcut : defaultChunker.windows (Text.words "disk full".toList) = [Text.words "disk full".toList] :=
    Segments.cut_of_le (by decide)
  refine (chunking_accepts hcanonical (by decide)).mpr ?_
  rw [hcut]
  decide

/-- A word whose characters canonicalization keeps is canonical. -/
theorem canonicalChars_word {text : String} (hnfc : nfc text = text) (hword : Text.IsWord text.toList)
    (hkept : ∀ c ∈ text.toList, keptChar c = true) : canonicalChars nfc text = text.toList := by
  have hcr : ∀ c ∈ text.toList, c ≠ '\r' := by
    rintro c hc rfl
    exact absurd (hword.2 _ hc) (by decide)
  have hcrlf : ∀ cs : List Char, (∀ c ∈ cs, c ≠ '\r') → replaceCrLf cs = cs := by
    intro cs hcs
    fun_induction replaceCrLf cs with
    | case1 cs => exact absurd rfl (hcs _ List.mem_cons_self)
    | case2 c cs hc ih => rw [ih fun d hd => hcs d (List.mem_cons_of_mem _ hd)]
    | case3 => rfl
  have hunix : ((replaceCrLf text.toList).map fun c => if c = '\r' then '\n' else c) = text.toList := by
    rw [hcrlf _ hcr]
    refine (List.map_congr_left fun c hc => if_neg (hcr c hc)).trans (List.map_id _)
  have hlines : Text.lines text.toList = [text.toList] := by
    have hparts : text.toList.splitOnP Text.isLineBreak = [text.toList] := by
      refine List.splitOnP_eq_singleton fun c hc => ?_
      by_contra hbreak
      have hspace := Text.isSpace_of_isLineBreak (Bool.not_eq_false _ ▸ hbreak)
      rw [hword.2 c hc] at hspace
      cases hspace
    rw [Text.lines, hparts]
    exact if_neg fun h => hword.1 (Option.some.inj h)
  have hstrip : Text.rstrip text.toList = text.toList := by
    refine List.rdropWhile_eq_self_iff.mpr fun hne => ?_
    rw [hword.2 _ (List.getLast_mem hne)]
    exact Bool.false_ne_true
  have hfront : text.toList.dropWhile Text.isSpace = text.toList := by
    refine List.dropWhile_eq_self_iff.mpr fun hpos => ?_
    rw [hword.2 _ (List.getElem_mem hpos)]
    exact Bool.false_ne_true
  unfold canonicalChars
  rw [hnfc]
  dsimp only
  rw [hunix, List.filter_eq_self.mpr hkept, hlines, List.map_cons, List.map_nil, hstrip,
    Text.join_singleton, Text.strip, hfront, hstrip]

/-- One character over and over. -/
def repeated (c : Char) (n : Nat) : String := String.ofList (List.replicate n c)

/-- **A character over and over is canonical, and one word**, unless it is whitespace or is dropped. -/
theorem canonical_repeated {c : Char} (hspace : Text.isSpace c = false) (hkept : keptChar c = true) {n : Nat}
    (hpos : 0 < n) (hlen : n ≤ maxMemoryText) :
    canonicalText id (repeated c n) = .ok (repeated c n) ∧
      Text.words (repeated c n).toList = [List.replicate n c] := by
  have hall : ∀ d ∈ List.replicate n c, d = c := fun d hd => List.eq_of_mem_replicate hd
  have hne : List.replicate n c ≠ [] := List.ne_nil_of_length_pos (by simpa using hpos)
  have hword : Text.IsWord (repeated c n).toList := by
    rw [repeated, String.toList_ofList]
    exact ⟨hne, fun d hd => (hall d hd).symm ▸ hspace⟩
  have hkept : ∀ d ∈ (repeated c n).toList, keptChar d = true := by
    rw [repeated, String.toList_ofList]
    exact fun d hd => (hall d hd).symm ▸ hkept
  have hchars : canonicalChars id (repeated c n) = (repeated c n).toList := canonicalChars_word rfl hword hkept
  constructor
  · unfold canonicalText
    dsimp only
    rw [hchars, repeated, String.toList_ofList, if_neg]
    rw [List.length_replicate]
    exact not_or.mpr ⟨hne, by omega⟩
  · rw [Text.words_word hword, repeated, String.toList_ofList]

/-- One word of ideographs, each of three bytes. -/
def wideWord (n : Nat) : String := repeated (Char.ofNat 0x4e2d) n

/-- **A text within the bound is refused**: 65,536 ideographs make one chunk of 49,152 tokens. -/
theorem chunking_refuses : ∃ canonical, canonicalText id (wideWord 65536) = .ok canonical ∧
    (Text.words canonical.toList).length ≤
      (defaultChunker.maximumChunks - 1) * defaultChunker.step + defaultChunker.maximumTokens ∧
    ¬∃ chunks, split Sha256.constant id defaultChunker chunkTenant.val chunkMemory.val (wideWord 65536) chunkCitation =
      .ok chunks := by
  obtain ⟨hcanonical, hwords⟩ := canonical_repeated (c := Char.ofNat 0x4e2d) (by decide) (by decide)
    (by decide : 0 < 65536) (le_refl _)
  have hcount : (Text.words (wideWord 65536).toList).length ≤
      (defaultChunker.maximumChunks - 1) * defaultChunker.step + defaultChunker.maximumTokens := by
    rw [wideWord, hwords, List.length_singleton]
    decide
  refine ⟨_, hcanonical, hcount, fun hsplit => ?_⟩
  have hcut : defaultChunker.windows (Text.words (wideWord 65536).toList) =
      [[List.replicate 65536 (Char.ofNat 0x4e2d)]] := by
    rw [wideWord, hwords]
    exact Segments.cut_of_le (by rw [List.length_singleton]; decide)
  obtain ⟨-, -, hest, -⟩ :=
    (split_fits_iff hcanonical hcount).mp hsplit _ (hcut ▸ List.mem_cons_self)
  rw [Text.join_singleton, estimate_le_iff, Text.byteLength_replicate] at hest
  revert hest
  decide

end Memory

end Aegis
