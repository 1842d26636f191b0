/-
  ARCHIVES: `safe_extract_zip`.

  The members of an archive are taken one by one: what an entry declares of itself is checked, then what it
  holds is written below a STAGING directory, chunk by chunk, and checked again.  When all are written the
  staging directory is moved to its destination; when anything is raised it is removed.

  `zipfile` lists the members and streams what they hold; names, sizes, modes and flags may be anything.
  Every call of the file system may fail, but for the removal of the staging directory.  The tree of files
  is followed by one invariant (`Extracting`): outside the staging directory nothing has changed, and inside
  it are the members that were taken.
-/
import Mathlib
import Aegis.Lib.Files
import Aegis.Lib.Frames
import Aegis.Sandbox.Paths

namespace Aegis

namespace Sandbox

namespace Archives

open Files (look Adds Grew)

/-! ## Archives -/

/-- What is raised: the exceptions that are passed on, and any other. -/
inductive Raised where
  | artifactQuarantined (message : String)
  | valueError (message : String)
  | badZipFile (message : String)
  | other (message : String)

/-- `raise ArtifactQuarantined(message)` unless the condition holds. -/
def quarantineUnless (c : Prop) [Decidable c] (message : String) : Except Raised Unit :=
  if c then .ok () else .error (.artifactQuarantined message)

/-- `64 * 1024`. -/
def chunkBytes : Nat := 64 * 1024

/-- What an opened member gives: the chunks that `read(64 * 1024)` returns one after the other, none of
    them empty, and then the end or an exception. -/
structure Stream where
  chunks : List (List UInt8)
  ending : Except Raised Unit
  chunks_ok : ∀ c ∈ chunks, c ≠ [] ∧ c.length ≤ chunkBytes

/-- A `ZipInfo`, with what `archive.open` does with it. -/
structure Member where
  filename : String
  flagBits : Nat
  externalAttr : Nat
  fileSize : Nat
  compressSize : Nat
  opened : Except Raised Stream

/-- All that a member holds. -/
def Member.content (m : Member) : List UInt8 :=
  match m.opened with
  | .ok stream => stream.chunks.flatten
  | .error _ => []

/-- `member.is_dir()`. -/
def Member.isDir (m : Member) : Bool := m.filename.toList.getLast? = some '/'

/-- `member.filename.rstrip("/")`. -/
def Member.path (m : Member) : String :=
  String.ofList (m.filename.toList.reverse.dropWhile (· = '/')).reverse

/-- `stat.S_IFMT(member.external_attr >> 16)`. -/
def Member.fileType (m : Member) : Nat := m.externalAttr / 2 ^ 16 &&& 0o170000

/-- A symbolic link, or a character or block device. -/
def Member.special (m : Member) : Prop := m.fileType ∈ [0o120000, 0o020000, 0o060000]

instance (m : Member) : Decidable m.special := inferInstanceAs (Decidable (_ ∈ _))

structure Bounds where
  maximumMembers : Nat
  maximumUncompressedBytes : Nat
  maximumMemberBytes : Nat

/-- The bounds that are admitted. -/
def Bounds.Admitted (b : Bounds) : Prop :=
  1 ≤ b.maximumMembers ∧ b.maximumMembers ≤ 1000 ∧ 1 ≤ b.maximumUncompressedBytes ∧
    b.maximumUncompressedBytes ≤ 128 * 1024 * 1024 ∧ 1 ≤ b.maximumMemberBytes ∧
    b.maximumMemberBytes ≤ b.maximumUncompressedBytes

instance (b : Bounds) : Decidable b.Admitted :=
  inferInstanceAs (Decidable (_ ∧ _ ∧ _ ∧ _ ∧ _ ∧ _))

/-! ## The disk -/

/-- A resolved path: its segments. -/
abbrev Path : Type := List (List Char)

abbrev FileTree : Type := Files.Tree (List Char) UInt8

/-- The files; the bytes read of each member, by its place in the archive; the calls of the file system. -/
structure Disk where
  files : FileTree
  taken : Nat → Nat
  calls : Nat

def Disk.of (files : FileTree) : Disk := { files, taken := fun _ => 0, calls := 0 }

abbrev DiskAction (α : Type) : Type := Exec Raised Disk α

/-- The name of the staging directory of a destination, before its random suffix. -/
def stagingPrefix (destination : Path) : List Char := '.' :: (destination.getLast?.getD [] ++ ['.'])

/-- Where files are staged: beside the destination. -/
def stagingPath (destination : Path) (suffix : List Char) : Path :=
  destination.dropLast ++ [stagingPrefix destination ++ suffix]

/-- How `mkdtemp` finds a name: one where nothing is. -/
structure TempNames where
  pick : FileTree → Path → Except Raised (List Char)
  fresh : ∀ files destination suffix, pick files destination = .ok suffix →
    ∀ p, stagingPath destination suffix <+: p → files p = none

section

variable (texts : Texts) (casefold : String → String) (zipfile : List UInt8 → Except Raised (List Member))
  (temp : TempNames) (faults : Nat → Option Raised) (bounds : Bounds)

/-- A call of the file system, which fails when the system says so or when the files do not allow it. -/
def system (op : FileTree → Option FileTree) : DiskAction Unit := fun s =>
  match faults s.calls with
  | some e => (.error e, { s with calls := s.calls + 1 })
  | none =>
    match op s.files with
    | some files => (.ok (), { s with files, calls := s.calls + 1 })
    | none => (.error (.other "OSError"), { s with calls := s.calls + 1 })

/-- `mkdir(parents=True, exist_ok=True)`, from a directory on. -/
def makeDirs : Path → Path → DiskAction Unit
  | _, [] => pure ()
  | base, name :: rest => do
    system faults (Files.makeDir (base ++ [name]))
    makeDirs (base ++ [name]) rest

/-- `tempfile.mkdtemp`. -/
def mkdtemp (destination : Path) : DiskAction Path := do
  let s ← Exec.read
  let suffix ← Exec.lift (temp.pick s.files destination)
  system faults (Files.makeDir (stagingPath destination suffix))
  pure (stagingPath destination suffix)

/-! ## Members -/

/-- What the loop knows of the members before. -/
structure Progress where
  total : Nat
  seen : List String
  extracted : List Path

/-- `validate_relative_path`, whose exceptions are `ValueError`s. -/
def validatePath (path : String) : Except Raised Unit :=
  match validateRelativePath texts path with
  | .ok () => .ok ()
  | .error e => .error (.valueError e.message)

/-- What a member declares is checked.  No member that comes to the ratio has more bytes than a float can
    count. -/
def checkMember (progress : Progress) (m : Member) : Except Raised Unit := do
  quarantineUnless (m.flagBits % 2 = 0) "encrypted archive members are prohibited"
  validatePath texts m.path
  quarantineUnless (casefold m.path ∉ progress.seen)
    "duplicate or case-conflicting archive paths are prohibited"
  quarantineUnless (¬m.special) "archive links and device entries are prohibited"
  quarantineUnless (m.fileSize ≤ bounds.maximumMemberBytes) "archive member exceeds its byte bound"
  quarantineUnless (progress.total + m.fileSize ≤ bounds.maximumUncompressedBytes)
    "archive expansion exceeds total bound"
  quarantineUnless (¬(m.compressSize = 0 ∧ 0 < m.fileSize)) "archive compression ratio is invalid"
  quarantineUnless (¬(0 < m.compressSize ∧ 100 * m.compressSize < m.fileSize))
    "archive compression ratio exceeds bound"

def Progress.admitted (progress : Progress) (m : Member) : Progress :=
  { progress with total := progress.total + m.fileSize, seen := progress.seen ++ [casefold m.path] }

/-- `while chunk := source.read(64 * 1024)`; how much was observed. -/
def copyChunks (index : Nat) (m : Member) (target : Path) (ending : Except Raised Unit) :
    List (List UInt8) → Nat → DiskAction Nat
  | [], observed => do
    Exec.lift ending
    pure observed
  | chunk :: rest, observed => do
    Exec.modify fun s =>
      { s with taken := Function.update s.taken index (s.taken index + chunk.length) }
    Exec.require (observed + chunk.length ≤ m.fileSize ∧
        observed + chunk.length ≤ bounds.maximumMemberBytes)
      (.artifactQuarantined "archive member changed size during extraction")
    system faults (Files.extend target chunk)
    copyChunks index m target ending rest (observed + chunk.length)

/-- One member. -/
def extractMember (staging : Path) (index : Nat) (progress : Progress) (m : Member) :
    DiskAction Progress := do
  Exec.lift (checkMember texts casefold bounds progress m)
  let progress := progress.admitted casefold m
  let target := staging ++ parts m.path
  if m.isDir = true then do
    makeDirs faults [] target
    pure progress
  else do
    makeDirs faults [] target.dropLast
    let stream ← Exec.lift m.opened
    system faults (Files.create target)
    let observed ← copyChunks faults bounds index m target stream.ending stream.chunks 0
    -- both files are closed
    system faults some
    Exec.require (observed = m.fileSize) (.artifactQuarantined "archive member size is inconsistent")
    pure { progress with extracted := progress.extracted ++ [target] }

/-- `for member in members`, from a place of the archive on. -/
def extractMembers (staging : Path) : Nat → List Member → Progress → DiskAction Progress
  | _, [], progress => pure progress
  | index, m :: rest, progress => do
    let progress ← extractMember texts casefold faults bounds staging index progress m
    extractMembers staging (index + 1) rest progress

/-- The body of the `try`. -/
def extractInto (payload : List UInt8) (staging destination : Path) : DiskAction (List Path) := do
  let members ← Exec.lift (zipfile payload)
  Exec.require (members ≠ [] ∧ members.length ≤ bounds.maximumMembers)
    (.artifactQuarantined "archive member count is outside bounds")
  let progress ← extractMembers texts casefold faults bounds staging 0 members ⟨0, [], []⟩
  let s ← Exec.read
  Exec.require ((look s.files destination).isNone = true)
    (.artifactQuarantined "atomic staging destination already exists")
  system faults fun files => some (Files.rename staging destination files)
  pure (progress.extracted.map fun item => destination ++ item.drop staging.length)

/-- What an exception of the body becomes. -/
def Raised.closed : Raised → Raised
  | .other _ => .artifactQuarantined "archive extraction failed closed"
  | e => e

/-- `safe_extract_zip`, for a destination that is resolved. -/
def safeExtractZip (payload : List UInt8) (destination : Path) : DiskAction (List Path) := do
  Exec.require bounds.Admitted (.valueError "archive extraction bounds are invalid")
  makeDirs faults [] destination.dropLast
  let staging ← mkdtemp temp faults destination
  Exec.catching (extractInto texts casefold zipfile faults bounds payload staging destination) fun e => do
    Exec.modify fun s => { s with files := Files.remove staging s.files }
    Exec.raise e.closed

end

/-! ## What is kept -/

/-- Since a staging directory was made only what is inside has changed. -/
structure Staged (base : FileTree) (staging : Path) (files : FileTree) : Prop where
  outside : ∀ p, ¬staging <+: p → files p = base p
  ancestors : ∀ p, p <+: staging → look files p = some .dir

/-- **No more is read of a member than it declares, and a chunk.**  What was read only grows. -/
def Measured (members : List Member) (taken : Nat → Nat) : Prop :=
  ∀ i, taken i ≤ members[i]?.elim 0 fun m => m.fileSize + chunkBytes

/-- Directories that are made on the way into the staging directory are inside it. -/
theorem Staged.adds {base files files' : FileTree} {staging rest : Path} (h : Staged base staging files)
    (hadds : Adds (fun q => q <+: staging ++ rest ∧ q ≠ []) files files') : Staged base staging files' where
  outside := by
    intro p hp
    rcases hadds p with heq | ⟨⟨hancestor, hne⟩, hnone, -⟩
    · exact heq.trans (h.outside p hp)
    · -- an ancestor of the staging directory was there already
      rcases List.prefix_or_prefix_of_prefix hancestor (List.prefix_append staging rest) with hin | hin
      · have hdir := h.ancestors p hin
        rw [Files.look_of_ne_nil hne, hnone] at hdir
        cases hdir
      · exact absurd hin hp
  ancestors := fun p hp => hadds.grew.look (h.ancestors p hp)

/-- So is a change at one path beneath it. -/
theorem Staged.update {base files : FileTree} {staging rest : Path} (h : Staged base staging files)
    (hrest : rest ≠ []) (node : Option (Files.Node UInt8)) :
    Staged base staging (Function.update files (staging ++ rest) node) where
  outside := by
    intro p hp
    have hne : p ≠ staging ++ rest := fun heq => hp (heq ▸ List.prefix_append staging rest)
    rw [Function.update_of_ne hne]
    exact h.outside p hp
  ancestors := by
    intro p hp
    have hne : p ≠ staging ++ rest := by
      rintro rfl
      have hlength := hp.length_le
      have hpos := List.length_pos_iff.mpr hrest
      rw [List.length_append] at hlength
      omega
    have hlook := h.ancestors p hp
    cases p with
    | nil => exact hlook
    | cons name p =>
      rw [look, Function.update_of_ne hne]
      exact hlook

theorem Measured.append {members : List Member} {taken : Nat → Nat} (h : Measured members taken)
    (more : List Member) : Measured (members ++ more) taken := by
  intro i
  refine (h i).trans ?_
  cases hm : members[i]? with
  | none => exact Nat.zero_le _
  | some m =>
    obtain ⟨hi, -⟩ := List.getElem?_eq_some_iff.mp hm
    rw [List.getElem?_append_left hi, hm]

/-- What is read of the next member. -/
theorem Measured.next {members : List Member} {taken : Nat → Nat} (h : Measured members taken) {m : Member}
    {n : Nat} (hn : n ≤ m.fileSize + chunkBytes) :
    Measured (members ++ [m]) (Function.update taken members.length n) := by
  intro i
  by_cases hi : i = members.length
  · subst hi
    rw [Function.update_self, List.getElem?_concat_length]
    exact hn
  · rw [Function.update_of_ne hi]
    exact h.append [m] i

theorem Measured.unread {members : List Member} {taken : Nat → Nat} (h : Measured members taken) :
    taken members.length = 0 := by
  have hle := h members.length
  rw [List.getElem?_eq_none (le_refl _)] at hle
  exact Nat.le_zero.mp hle

/-! ## What the calls do -/

section

variable {texts : Texts} {casefold : String → String} {zipfile : List UInt8 → Except Raised (List Member)}
  {temp : TempNames} {faults : Nat → Option Raised} {bounds : Bounds}

theorem system_sat {op : FileTree → Option FileTree} {s : Disk} {Q : Unit → Disk → Prop}
    {R : Raised → Disk → Prop}
    (hok : ∀ files, op s.files = some files → Q () { s with files, calls := s.calls + 1 })
    (hfail : ∀ e, R e { s with calls := s.calls + 1 }) : Exec.Sat (system faults op) s Q R := by
  unfold Exec.Sat system
  cases faults s.calls with
  | some e => exact hfail e
  | none =>
    cases hop : op s.files with
    | some files => exact hok files hop
    | none => exact hfail _

/-- **The directories on the way to a path**: where nothing was, a directory is made. -/
theorem makeDirs_sat : ∀ (rest base : Path) (s : Disk), look s.files base = some .dir →
    Exec.Sat (makeDirs faults base rest) s
      (fun _ s' => s'.taken = s.taken ∧ Adds (fun q => q <+: base ++ rest ∧ q ≠ []) s.files s'.files ∧
        ∀ q, base <+: q → q <+: base ++ rest → look s'.files q = some .dir)
      (fun _ s' => s'.taken = s.taken ∧ Adds (fun q => q <+: base ++ rest ∧ q ≠ []) s.files s'.files) := by
  intro rest
  induction rest with
  | nil =>
    intro base s hbase
    refine ⟨rfl, Adds.refl _ _, fun q hq hq' => ?_⟩
    rw [List.append_nil] at hq'
    rw [hq'.eq_of_length_le hq.length_le]
    exact hbase
  | cons name rest ih =>
    intro base s hbase
    unfold makeDirs
    have hsplit : base ++ name :: rest = (base ++ [name]) ++ rest := List.append_cons ..
    rw [hsplit]
    refine Exec.Sat.call (system_sat (Q := fun _ s' => s'.taken = s.taken ∧
      Adds (fun q => q <+: base ++ [name] ++ rest ∧ q ≠ []) s.files s'.files ∧
        look s'.files (base ++ [name]) = some .dir) (R := fun _ s' => s'.taken = s.taken ∧ s'.files = s.files)
      (fun files hfiles => ?_) fun e => ⟨rfl, rfl⟩) (fun e s' ⟨htaken, hfiles⟩ => ⟨htaken, ?_⟩) ?_
    · obtain ⟨hadds, hdir⟩ := Files.makeDir_adds hfiles
      refine ⟨rfl, hadds.mono fun q ⟨hq, hne⟩ => ⟨?_, hne⟩, hdir⟩
      rw [hq]
      exact List.prefix_append _ _
    · rw [hfiles]
      exact Adds.refl _ _
    · rintro - s₁ ⟨htaken, hadds, hdir⟩
      refine Exec.Sat.mono (ih (base ++ [name]) s₁ hdir) ?_ ?_
      · rintro - s₂ ⟨htaken', hadds', hdirs⟩
        refine ⟨htaken'.trans htaken, hadds.trans hadds', fun q hq hq' => ?_⟩
        -- the path to begin with, or one of those that were made
        rcases List.prefix_or_prefix_of_prefix (List.prefix_append (base ++ [name]) rest) hq' with hin | hin
        · exact hdirs q hin hq'
        · rcases List.prefix_concat_iff.mp hin with heq | hin
          · rw [heq]
            exact hdirs _ (List.prefix_refl _) (List.prefix_append _ _)
          · rw [hin.eq_of_length_le hq.length_le]
            exact (hadds.trans hadds').grew.look hbase
      · rintro e s₂ ⟨htaken', hadds'⟩
        exact ⟨htaken'.trans htaken, hadds.trans hadds'⟩

/-- **The chunks of a member** are written one after the other, until one is too many. -/
theorem copyChunks_sat {index : Nat} {m : Member} {target : Path} {ending : Except Raised Unit}
    (hne : target ≠ []) : ∀ (chunks : List (List UInt8)) (observed : Nat) (s : Disk) (written : List UInt8),
    (∀ c ∈ chunks, c.length ≤ chunkBytes) → s.files target = some (.file written) →
    s.taken index = observed → observed ≤ m.fileSize →
    Exec.Sat (copyChunks faults bounds index m target ending chunks observed) s
      (fun n s' => n = observed + chunks.flatten.length ∧ n ≤ m.fileSize ∧
        s'.files = Function.update s.files target (some (.file (written ++ chunks.flatten))) ∧
        s'.taken = Function.update s.taken index n)
      (fun _ s' => (∃ node, s'.files = Function.update s.files target node) ∧
        ∃ n ≤ m.fileSize + chunkBytes, s'.taken = Function.update s.taken index n) := by
  intro chunks
  induction chunks with
  | nil =>
    intro observed s written _ hfile htaken hle
    have hsame : s.files = Function.update s.files target (some (.file written)) := by
      rw [← hfile, Function.update_eq_self]
    have hread : s.taken = Function.update s.taken index observed := by
      rw [← htaken, Function.update_eq_self]
    refine Exec.Sat.attempt (fun e _ => ⟨⟨_, hsame⟩, observed, by omega, hread⟩) fun _ _ => ?_
    refine ⟨rfl, hle, ?_, hread⟩
    rw [List.flatten_nil, List.append_nil]
    exact hsame
  | cons chunk chunks ih =>
    intro observed s written hchunks hfile htaken hle
    have hchunk := hchunks chunk List.mem_cons_self
    unfold copyChunks
    rw [Exec.sat_bind, Exec.sat_modify]
    have hsame : s.files = Function.update s.files target (some (.file written)) := by
      rw [← hfile, Function.update_eq_self]
    have hstop : ∃ n ≤ m.fileSize + chunkBytes,
        Function.update s.taken index (s.taken index + chunk.length) = Function.update s.taken index n :=
      ⟨observed + chunk.length, by omega, by rw [htaken]⟩
    refine Exec.Sat.check (fun _ => ⟨⟨_, hsame⟩, hstop⟩) fun hbounds => ?_
    refine Exec.Sat.call (system_sat
      (Q := fun _ s' => s'.files = Function.update s.files target (some (.file (written ++ chunk))) ∧
        s'.taken = Function.update s.taken index (observed + chunk.length))
      (R := fun _ s' => s'.files = s.files ∧
        s'.taken = Function.update s.taken index (s.taken index + chunk.length))
      (fun files hfiles => ⟨Files.extend_some hne hfile hfiles, by rw [htaken]⟩) fun e => ⟨rfl, rfl⟩)
      (fun e s' ⟨hfiles, hread⟩ => ⟨⟨_, hfiles.trans hsame⟩, by rw [hread]; exact hstop⟩) ?_
    rintro - s₁ ⟨hfiles, hread⟩
    refine Exec.Sat.mono (ih (observed + chunk.length) s₁ (written ++ chunk)
      (fun c hc => hchunks c (List.mem_cons_of_mem _ hc)) (by rw [hfiles, Function.update_self])
      (by rw [hread, Function.update_self]) hbounds.1) ?_ ?_
    · rintro n s₂ ⟨hn, hle', hfiles', hread'⟩
      refine ⟨?_, hle', ?_, ?_⟩
      · rw [hn, List.flatten_cons, List.length_append, Nat.add_assoc]
      · rw [hfiles', hfiles, Function.update_idem, List.flatten_cons, List.append_assoc]
      · rw [hread', hread, Function.update_idem]
    · rintro e s₂ ⟨⟨node, hfiles'⟩, n, hn, hread'⟩
      refine ⟨⟨node, ?_⟩, n, hn, ?_⟩
      · rw [hfiles', hfiles, Function.update_idem]
      · rw [hread', hread, Function.update_idem]

/-! ## Members that are taken -/

theorem quarantineUnless_ok {c : Prop} [Decidable c] {message : String}
    (h : quarantineUnless c message = .ok ()) : c := by
  by_contra hc
  rw [quarantineUnless, if_neg hc] at h
  cases h

theorem validatePath_ok {path : String} (h : validatePath texts path = .ok ()) :
    validateRelativePath texts path = .ok () := by
  unfold validatePath at h
  split at h
  · assumption
  · cases h

/-- What a member that passes the checks declares. -/
structure Declared (texts : Texts) (casefold : String → String) (bounds : Bounds) (progress : Progress)
    (m : Member) : Prop where
  path : validateRelativePath texts m.path = .ok ()
  unseen : casefold m.path ∉ progress.seen
  size : m.fileSize ≤ bounds.maximumMemberBytes
  total : progress.total + m.fileSize ≤ bounds.maximumUncompressedBytes

theorem checkMember_ok {progress : Progress} {m : Member}
    (h : checkMember texts casefold bounds progress m = .ok ()) :
    Declared texts casefold bounds progress m := by
  unfold checkMember at h
  obtain ⟨-, -, h⟩ := except_bind_ok.mp h
  obtain ⟨⟨⟩, hpath, h⟩ := except_bind_ok.mp h
  obtain ⟨⟨⟩, hunseen, h⟩ := except_bind_ok.mp h
  obtain ⟨-, -, h⟩ := except_bind_ok.mp h
  obtain ⟨⟨⟩, hsize, h⟩ := except_bind_ok.mp h
  obtain ⟨⟨⟩, htotal, h⟩ := except_bind_ok.mp h
  exact ⟨validatePath_ok hpath, quarantineUnless_ok hunseen, quarantineUnless_ok hsize,
    quarantineUnless_ok htotal⟩

/-- A small file passes. -/
example : checkMember KubernetesJobs.sampleTexts (fun path => path) ⟨1, 100, 50⟩ ⟨0, [], []⟩
    ⟨"a/b", 0, 0, 2, 2, .ok ⟨[[1, 2]], .ok (), by decide⟩⟩ = .ok () := by rfl

/-- A member that was written. -/
structure Written (bounds : Bounds) (staging : Path) (files : FileTree) (m : Member) : Prop where
  content : files (staging ++ parts m.path) = some (.file m.content)
  size : m.content.length = m.fileSize
  bounded : m.fileSize ≤ bounds.maximumMemberBytes

theorem Written.grew {staging : Path} {files files' : FileTree} {m : Member}
    (h : Written bounds staging files m) (hgrew : Grew files files') : Written bounds staging files' m where
  content := by
    have hne : files (staging ++ parts m.path) ≠ none := by
      rw [h.content]
      exact Option.some_ne_none _
    rw [hgrew _ hne]
    exact h.content
  size := h.size
  bounded := h.bounded

/-- **What is known when some members are taken**: the staging directory holds them. -/
structure Extracting (texts : Texts) (casefold : String → String) (bounds : Bounds) (base : FileTree)
    (staging : Path) (done : List Member) (progress : Progress) (s : Disk) : Prop where
  staged : Staged base staging s.files
  measured : Measured done s.taken
  total : progress.total = (done.map fun m => m.fileSize).sum
  bounded : progress.total ≤ bounds.maximumUncompressedBytes
  seen : progress.seen = done.map fun m => casefold m.path
  distinct : progress.seen.Nodup
  valid : ∀ m ∈ done, validateRelativePath texts m.path = .ok ()
  extracted : progress.extracted =
    (done.filter fun m => !m.isDir).map fun m => staging ++ parts m.path
  written : ∀ m ∈ done, m.isDir = false → Written bounds staging s.files m

section

variable {base : FileTree} {staging : Path} {done : List Member} {progress : Progress} {m : Member} {s : Disk}

/-- A member is added, as a directory or as a file. -/
theorem Extracting.next (h : Extracting texts casefold bounds base staging done progress s)
    (hdeclared : Declared texts casefold bounds progress m) {progress' : Progress} {s' : Disk}
    (hprogress : progress' = { progress.admitted casefold m with extracted := progress'.extracted })
    (hextracted : progress'.extracted =
      progress.extracted ++ ([m].filter fun m => !m.isDir).map fun m => staging ++ parts m.path)
    (hstaged : Staged base staging s'.files) (hmeasured : Measured (done ++ [m]) s'.taken)
    (hgrew : Grew s.files s'.files) (hwritten : m.isDir = false → Written bounds staging s'.files m) :
    Extracting texts casefold bounds base staging (done ++ [m]) progress' s' where
  staged := hstaged
  measured := hmeasured
  total := by
    rw [hprogress, List.map_append, List.sum_append, ← h.total]
    simp [Progress.admitted]
  bounded := by
    rw [hprogress]
    exact hdeclared.total
  seen := by
    rw [hprogress, List.map_append, ← h.seen]
    rfl
  distinct := by
    rw [hprogress]
    refine List.nodup_append.mpr ⟨h.distinct, List.nodup_singleton _, ?_⟩
    intro a ha b hb heq
    rw [heq, List.mem_singleton.mp hb] at ha
    exact hdeclared.unseen ha
  valid := by
    intro m' hm'
    rcases List.mem_append.mp hm' with hm' | hm'
    · exact h.valid m' hm'
    · rw [List.mem_singleton.mp hm']
      exact hdeclared.path
  extracted := by rw [hextracted, h.extracted, List.filter_append, List.map_append]
  written := by
    intro m' hm' hfile
    rcases List.mem_append.mp hm' with hm' | hm'
    · exact (h.written m' hm' hfile).grew hgrew
    · rw [List.mem_singleton.mp hm'] at hfile ⊢
      exact hwritten hfile

/-- What is known wherever the loop stops. -/
structure Stopped (base : FileTree) (staging : Path) (members : List Member) (s : Disk) : Prop where
  staged : Staged base staging s.files
  measured : Measured members s.taken

theorem parts_ne_nil (path : String) : parts path ≠ [] := Paths.segments_ne_nil _

/-- **One member.** -/
theorem extractMember_sat (h : Extracting texts casefold bounds base staging done progress s) (m : Member) :
    Exec.Sat (extractMember texts casefold faults bounds staging done.length progress m) s
      (fun progress' s' => Extracting texts casefold bounds base staging (done ++ [m]) progress' s')
      (fun _ s' => Stopped base staging (done ++ [m]) s') := by
  have hmeasured := h.measured.append [m]
  unfold extractMember
  refine Exec.Sat.attempt (fun e _ => ⟨h.staged, hmeasured⟩) fun u hcheck => ?_
  have hdeclared := checkMember_ok hcheck
  dsimp only
  by_cases hdir : m.isDir = true
  · rw [if_pos hdir]
    refine Exec.Sat.call (makeDirs_sat (staging ++ parts m.path) [] s rfl) ?_ ?_
    · rintro e s' ⟨htaken, hadds⟩
      refine ⟨h.staged.adds hadds, ?_⟩
      rw [htaken]
      exact hmeasured
    · rintro - s' ⟨htaken, hadds, -⟩
      refine h.next hdeclared rfl ?_ (h.staged.adds hadds) (htaken ▸ hmeasured) hadds.grew fun hfile => ?_
      · rw [List.filter_cons_of_neg (by simp [hdir]), List.filter_nil, List.map_nil, List.append_nil]
        rfl
      · rw [hdir] at hfile
        cases hfile
  · have hfile : m.isDir = false := by simpa using hdir
    rw [if_neg hdir]
    have hne : staging ++ parts m.path ≠ [] := List.append_ne_nil_of_right_ne_nil _ (parts_ne_nil _)
    rw [List.dropLast_append_of_ne_nil (parts_ne_nil _)]
    refine Exec.Sat.call (makeDirs_sat (staging ++ (parts m.path).dropLast) [] s rfl) ?_ ?_
    · rintro e s' ⟨htaken, hadds⟩
      exact ⟨h.staged.adds hadds, htaken ▸ hmeasured⟩
    · rintro - s₁ ⟨htaken, hadds, -⟩
      have hstaged := h.staged.adds hadds
      refine Exec.Sat.attempt (fun e _ => ⟨hstaged, htaken ▸ hmeasured⟩) fun stream hopened => ?_
      have hcontent : m.content = stream.chunks.flatten := by rw [Member.content, hopened]
      -- the file is new
      refine Exec.Sat.call (system_sat
        (Q := fun _ s' => s₁.files (staging ++ parts m.path) = none ∧ s'.taken = s.taken ∧
          s'.files = Function.update s₁.files (staging ++ parts m.path) (some (.file [])))
        (R := fun _ s' => s'.files = s₁.files ∧ s'.taken = s.taken)
        (fun files hfiles => ?_) fun e => ⟨rfl, htaken⟩) ?_ ?_
      · obtain ⟨-, hnone, hnew⟩ := Files.create_some hfiles
        exact ⟨hnone, htaken, hnew⟩
      · rintro e s' ⟨hfiles, hread⟩
        exact ⟨hfiles ▸ hstaged, hread ▸ hmeasured⟩
      · rintro - s₂ ⟨hnone, hread, hnew⟩
        have hunread : s₂.taken done.length = 0 := by
          rw [hread]
          exact h.measured.unread
        refine Exec.Sat.call (copyChunks_sat hne stream.chunks 0 s₂ [] (fun c hc => (stream.chunks_ok c hc).2)
          (by rw [hnew, Function.update_self]) hunread (Nat.zero_le _)) ?_ ?_
        · rintro e s' ⟨⟨node, hfiles⟩, n, hn, htaken'⟩
          refine ⟨?_, ?_⟩
          · rw [hfiles, hnew, Function.update_idem]
            exact hstaged.update (parts_ne_nil _) node
          · rw [htaken', hread]
            exact h.measured.next hn
        · rintro observed s₃ ⟨hobserved, hle, hfiles, htaken'⟩
          rw [hnew, Function.update_idem, List.nil_append] at hfiles
          rw [Nat.zero_add, ← hcontent] at hobserved
          rw [← hcontent] at hfiles
          have hstaged₃ : Staged base staging s₃.files := by
            rw [hfiles]
            exact hstaged.update (parts_ne_nil _) _
          have hmeasured₃ : Measured (done ++ [m]) s₃.taken := by
            rw [htaken', hread]
            exact h.measured.next (by omega)
          refine Exec.Sat.call (system_sat (Q := fun _ s' => s'.files = s₃.files ∧ s'.taken = s₃.taken)
            (R := fun _ s' => s'.files = s₃.files ∧ s'.taken = s₃.taken)
            (fun files hsame => ⟨(Option.some.inj hsame).symm, rfl⟩) fun e => ⟨rfl, rfl⟩) ?_ ?_
          · rintro e s' ⟨hsame, htaken₄⟩
            exact ⟨hsame ▸ hstaged₃, htaken₄ ▸ hmeasured₃⟩
          · rintro - s₄ ⟨hsame, htaken₄⟩
            rw [← hsame] at hstaged₃ hfiles
            rw [← htaken₄] at hmeasured₃
            refine Exec.Sat.check (fun _ => ⟨hstaged₃, hmeasured₃⟩) fun hsize => ?_
            refine h.next hdeclared rfl ?_ hstaged₃ hmeasured₃ ?_ fun _ => ?_
            · rw [List.filter_cons_of_pos (by simp [hfile])]
              rfl
            · intro q hq
              have hq₁ : s₁.files q = s.files q := hadds.grew q hq
              have hother : q ≠ staging ++ parts m.path := by
                rintro rfl
                exact hq (hq₁ ▸ hnone)
              rw [hfiles, Function.update_of_ne hother]
              exact hq₁
            · refine ⟨?_, ?_, hdeclared.size⟩
              · rw [hfiles, Function.update_self]
              · rw [← hobserved, hsize]

/-- **All members.** -/
theorem extractMembers_sat : ∀ (rest done : List Member) (progress : Progress) (s : Disk),
    Extracting texts casefold bounds base staging done progress s →
    Exec.Sat (extractMembers texts casefold faults bounds staging done.length rest progress) s
      (fun progress' s' => Extracting texts casefold bounds base staging (done ++ rest) progress' s')
      (fun _ s' => Stopped base staging (done ++ rest) s') := by
  intro rest
  induction rest with
  | nil =>
    intro done progress s h
    rw [List.append_nil]
    exact h
  | cons m rest ih =>
    intro done progress s h
    rw [List.append_cons]
    refine Exec.Sat.call (extractMember_sat h m) ?_ ?_
    · rintro e s' ⟨hstaged, hmeasured⟩
      exact ⟨hstaged, hmeasured.append rest⟩
    · intro progress' s' h'
      have hstep := ih (done ++ [m]) progress' s' h'
      rw [List.length_append, List.length_singleton] at hstep
      exact hstep

end

/-! ## The staging directory -/

/-- Nothing was where the files are staged, and the directory is there now. -/
theorem mkdtemp_sat {destination : Path} {s : Disk}
    (hdirs : ∀ p, p <+: destination.dropLast → look s.files p = some .dir) :
    Exec.Sat (mkdtemp temp faults destination) s
      (fun staging s' => (∀ p, staging <+: p → s.files p = none) ∧ Staged s.files staging s'.files ∧
        s'.taken = s.taken)
      (fun _ s' => s'.files = s.files ∧ s'.taken = s.taken) := by
  unfold mkdtemp
  rw [Exec.sat_bind, Exec.sat_read]
  refine Exec.Sat.attempt (fun _ _ => ⟨rfl, rfl⟩) fun suffix hsuffix => ?_
  have hfresh := temp.fresh s.files destination suffix hsuffix
  refine Exec.Sat.call (system_sat
    (Q := fun _ s' => Staged s.files (stagingPath destination suffix) s'.files ∧ s'.taken = s.taken)
    (R := fun _ s' => s'.files = s.files ∧ s'.taken = s.taken)
    (fun files hfiles => ⟨?_, rfl⟩) fun _ => ⟨rfl, rfl⟩) (fun _ _ h => h) ?_
  · obtain ⟨hadds, hdir⟩ := Files.makeDir_adds hfiles
    refine ⟨fun p hp => ?_, fun p hp => ?_⟩
    · rcases hadds p with heq | ⟨⟨rfl, -⟩, -⟩
      · exact heq
      · exact absurd (List.prefix_refl _) hp
    · rcases List.prefix_concat_iff.mp hp with heq | hp
      · rw [heq]
        exact hdir
      · exact hadds.grew.look (hdirs p hp)
  · rintro - s' ⟨hstaged, htaken⟩
    exact ⟨hfresh, hstaged, htaken⟩

/-- **The body of the `try`**: all members are taken and moved, or what has changed is staged. -/
theorem extractInto_sat {base : FileTree} {staging destination : Path} {payload : List UInt8} {s : Disk}
    (hstaged : Staged base staging s.files) (htaken : s.taken = fun _ => 0) :
    Exec.Sat (extractInto texts casefold zipfile faults bounds payload staging destination) s
      (fun paths s' => ∃ members, zipfile payload = .ok members ∧ ∃ progress s₁,
        Extracting texts casefold bounds base staging members progress s₁ ∧
        s'.files = Files.rename staging destination s₁.files ∧ s'.taken = s₁.taken ∧
        paths = progress.extracted.map fun item => destination ++ item.drop staging.length)
      (fun _ s' => Staged base staging s'.files ∧
        ∀ members, zipfile payload = .ok members → Measured members s'.taken) := by
  have hunread : ∀ members, Measured members s.taken := by
    intro members i
    rw [htaken]
    exact Nat.zero_le _
  have hstart : Extracting texts casefold bounds base staging [] ⟨0, [], []⟩ s :=
    { staged := hstaged, measured := hunread [], total := rfl, bounded := Nat.zero_le _, seen := rfl,
      distinct := List.nodup_nil, valid := fun _ hm => (by cases hm), extracted := rfl,
      written := fun _ hm => (by cases hm) }
  unfold extractInto
  refine Exec.Sat.attempt (fun _ _ => ⟨hstaged, fun members _ => hunread members⟩) fun members hmembers => ?_
  have hmeasured : ∀ {taken : Nat → Nat}, Measured members taken →
      ∀ members', zipfile payload = .ok members' → Measured members' taken := by
    intro taken h members' hmembers'
    obtain rfl := Except.ok.inj (hmembers.symm.trans hmembers')
    exact h
  refine Exec.Sat.check (fun _ => ⟨hstaged, fun members _ => hunread members⟩) fun _ => ?_
  refine Exec.Sat.call (extractMembers_sat members [] ⟨0, [], []⟩ s hstart)
    (fun _ s' h => ⟨h.staged, hmeasured h.measured⟩) ?_
  intro progress s₁ hextracting
  rw [List.nil_append] at hextracting
  rw [Exec.sat_bind, Exec.sat_read]
  refine Exec.Sat.check (fun _ => ⟨hextracting.staged, hmeasured hextracting.measured⟩) fun _ => ?_
  refine Exec.Sat.call (system_sat
    (Q := fun _ s' => s'.files = Files.rename staging destination s₁.files ∧ s'.taken = s₁.taken)
    (R := fun _ s' => s'.files = s₁.files ∧ s'.taken = s₁.taken)
    (fun files hfiles => ⟨(Option.some.inj hfiles).symm, rfl⟩) fun _ => ⟨rfl, rfl⟩) ?_ ?_
  · rintro - s' ⟨hfiles, hread⟩
    exact ⟨hfiles ▸ hextracting.staged, hmeasured (hread ▸ hextracting.measured)⟩
  · rintro - s' ⟨hfiles, hread⟩
    exact ⟨members, hmembers, progress, s₁, hextracting, hfiles, hread, rfl⟩

/-! ## Extraction -/

/-- A path that comes out of the destination by names alone. -/
def Beneath (destination path : Path) : Prop :=
  ∃ rest, rest ≠ [] ∧ path = destination ++ rest ∧ ∀ part ∈ rest, part ∉ [[], ['.'], ['.', '.']]

/-- **What an archive that was extracted has become**: its files, at the paths that are returned. -/
structure Extracted (casefold : String → String) (bounds : Bounds) (destination : Path) (before : FileTree)
    (members : List Member) (paths : List Path) (after : FileTree) : Prop where
  returned : paths = (members.filter fun m => !m.isDir).map fun m => destination ++ parts m.path
  beneath : ∀ p ∈ paths, Beneath destination p
  distinct : (members.map fun m => casefold m.path).Nodup
  content : ∀ m ∈ members, m.isDir = false →
    after (destination ++ parts m.path) = some (.file m.content)
  size : ∀ m ∈ members, m.isDir = false → m.content.length ≤ bounds.maximumMemberBytes
  total : ((members.filter fun m => !m.isDir).map fun m => m.content.length).sum ≤
    bounds.maximumUncompressedBytes
  others : ∀ p, ¬destination <+: p → ¬p <+: destination.dropLast → after p = before p

/-- **What is left when extraction raises**: the destination is as it was, nothing is staged, and all else is
    as it was but for directories made on the way to the destination. -/
structure Restored (destination : Path) (before after : FileTree) : Prop where
  kept : ∀ p, destination <+: p → look after p = look before p
  unstaged : ∀ suffix p, stagingPath destination suffix <+: p → after p = before p
  others : ∀ p, ¬p <+: destination.dropLast → after p = before p

theorem not_prefix_dropLast {destination p : Path} (h : destination <+: p) (hne : p ≠ []) :
    ¬p <+: destination.dropLast := by
  intro hp
  have hlength := h.length_le.trans hp.length_le
  rw [List.length_dropLast] at hlength
  have hzero : destination.length = 0 := by omega
  have hnil := List.length_eq_zero_iff.mp hzero
  rw [hnil] at hp
  exact hne (List.prefix_nil.mp hp)

/-- Where files are staged is no ancestor of the destination. -/
theorem staging_not_ancestor {destination p : Path} {suffix : List Char}
    (h : stagingPath destination suffix <+: p) : ¬p <+: destination.dropLast := by
  intro hp
  have hlength := h.length_le.trans hp.length_le
  rw [stagingPath, List.length_append, List.length_singleton] at hlength
  omega

theorem restored_of {destination : Path} {before after : FileTree}
    (h : ∀ p, ¬p <+: destination.dropLast → after p = before p) : Restored destination before after where
  kept := by
    intro p hp
    cases p with
    | nil => rfl
    | cons name rest => exact h _ (not_prefix_dropLast hp (List.cons_ne_nil _ _))
  unstaged := fun suffix p hp => h p (staging_not_ancestor hp)
  others := h

theorem validate_parts {path : String} (h : validateRelativePath texts path = .ok ()) :
    ∀ part ∈ parts path, part ∉ [[], ['.'], ['.', '.']] := by
  unfold validateRelativePath at h
  obtain ⟨-, -, h⟩ := except_bind_ok.mp h
  obtain ⟨-, -, h⟩ := except_bind_ok.mp h
  obtain ⟨⟨⟩, hparts, -⟩ := except_bind_ok.mp h
  exact KubernetesJobs.demand_ok hparts

/-- The members that were staged are where they were moved. -/
theorem Extracting.moved {base before : FileTree} {destination staging : Path} {members : List Member}
    {progress : Progress} {s : Disk}
    (h : Extracting texts casefold bounds base staging members progress s)
    (hfresh : ∀ p, staging <+: p → base p = none)
    (hbase : ∀ p, ¬p <+: destination.dropLast → base p = before p) :
    Extracted casefold bounds destination before members
      (progress.extracted.map fun item => destination ++ item.drop staging.length)
      (Files.rename staging destination s.files) := by
  have hpaths : (progress.extracted.map fun item => destination ++ item.drop staging.length) =
      (members.filter fun m => !m.isDir).map fun m => destination ++ parts m.path := by
    rw [h.extracted, List.map_map]
    refine List.map_congr_left fun m _ => ?_
    rw [Function.comp_apply, List.drop_left]
  refine ⟨hpaths, ?_, ?_, ?_, ?_, ?_, ?_⟩
  · rw [hpaths]
    intro p hp
    obtain ⟨m, hm, rfl⟩ := List.mem_map.mp hp
    have hvalid := h.valid m (List.mem_of_mem_filter hm)
    exact ⟨parts m.path, parts_ne_nil _, rfl, validate_parts hvalid⟩
  · rw [← h.seen]
    exact h.distinct
  · intro m hm hfile
    rw [Files.rename_within]
    exact (h.written m hm hfile).content
  · intro m hm hfile
    have hwritten := h.written m hm hfile
    rw [hwritten.size]
    exact hwritten.bounded
  · -- the files are some of the members, and hold what they declare
    have hsizes : ((members.filter fun m => !m.isDir).map fun m => m.content.length) =
        (members.filter fun m => !m.isDir).map fun m => m.fileSize := by
      refine List.map_congr_left fun m hm => ?_
      obtain ⟨hm, hfile⟩ := List.mem_filter.mp hm
      exact (h.written m hm (by simpa using hfile)).size
    rw [hsizes]
    have hsub : ((members.filter fun m => !m.isDir).map fun m => m.fileSize).Sublist
        (members.map fun m => m.fileSize) := (List.filter_sublist ..).map _
    exact hsub.sum_le_sum (fun _ _ => Nat.zero_le _) |>.trans (h.total ▸ h.bounded)
  · intro p hp hancestor
    by_cases hin : staging <+: p
    · rw [Files.rename_from _ hp hin, ← hbase p hancestor, hfresh p hin]
    · rw [Files.rename_outside _ hp hin, h.staged.outside p hin, hbase p hancestor]

end

end Archives

end Sandbox

end Aegis
