import Autolean.Machine.Files
import Autolean.Machine.Raising
import Autolean.Text.CodePoints
import Autolean.Contracts.Values

/-! Windows of a sequence that is read in chunks, and the single-pass inspection of a cached
reference that captures one while it hashes the whole file. -/
namespace Autolean.Builder.References
open Contracts Machine Machine.Raising Text

/-! Windows -/

section Window
variable {α : Type}

/-- The elements from `first` up to `last`. -/
def window (first last : Nat) (l : List α) : List α := (l.drop first).take (last - first)

theorem window_append (first last : Nat) (l m : List α) :
    window first last (l ++ m) = window first last l ++ window (first - l.length) (last - l.length) m := by
  unfold window
  rw [List.drop_append, List.take_append, List.length_drop]
  have hlength : last - first - (l.length - first) = last - l.length - (first - l.length) := by omega
  rw [hlength]

theorem window_nil (first last : Nat) : window first last ([] : List α) = [] := by
  rw [window, List.drop_nil, List.take_nil]

/-- A window that stops where it starts, or before, is empty. -/
theorem window_of_le {first last : Nat} (h : last ≤ first) (l : List α) : window first last l = [] := by
  rw [window, Nat.sub_eq_zero_of_le h, List.take_zero]

theorem window_of_length_le {first last : Nat} {l : List α} (h : l.length ≤ first) : window first last l = [] := by
  rw [window, List.drop_of_length_le h, List.take_nil]

/-- A window takes no more than there is. -/
theorem window_min (first last : Nat) (l : List α) : window first (min last l.length) l = window first last l := by
  unfold window
  rcases le_total last l.length with h | h
  · rw [min_eq_left h]
  · rw [min_eq_right h, List.take_of_length_le (by rw [List.length_drop]), List.take_of_length_le]
    rw [List.length_drop]
    omega

end Window

/-! The inspection -/

inductive FileKind where
  | regular
  | linkOrReparse
  | directory
  | other
  deriving DecidableEq

/-- What the inspection reads of a status; `samestat` compares the identity. -/
structure FileStat where
  kind : FileKind
  identity : Nat × Nat
  deriving DecidableEq

/-- What `os.lstat` answers. -/
inductive LstatAnswer where
  | found (stat : FileStat)
  | absent
  | failed

/-- What the operating system answers during one inspection: the status of the path, of the
opened descriptor, each chunk that is read and the status of the path at the end. -/
structure FileReadings where
  before : LstatAnswer
  opened : Option FileStat
  chunks : List Bytes
  after : LstatAnswer

structure FileInspection where
  size : Nat
  sha256 : Digest
  spanBytes : Option Bytes
  deriving DecidableEq

/-- A `ReferenceCacheError` with its message, whose last part is the name of the path. -/
abbrev CacheOutcome (α : Type) := Except String α

/-- `_lstat_optional`. -/
def lstatOptional (name : String) : LstatAnswer → CacheOutcome (Option FileStat)
  | .found stat => .ok (some stat)
  | .absent => .ok none
  | .failed => .error ("cannot inspect reference cache path: " ++ name)

def requireRegularStat (name : String) (stat : FileStat) : CacheOutcome Unit := do
  ensure (stat.kind ≠ .linkOrReparse)
    ("reference cache artifacts cannot be symlinks or reparse points: " ++ name)
  ensure (stat.kind = .regular) ("reference cache artifact is not a regular file: " ++ name)

def requireDirectoryStat (name : String) (stat : FileStat) : CacheOutcome Unit := do
  ensure (stat.kind ≠ .linkOrReparse)
    ("reference cache directories cannot be symlinks or junctions: " ++ name)
  ensure (stat.kind = .directory) ("reference cache path is not a directory: " ++ name)

/-- What the loop over the chunks has gathered; the hasher is the bytes it was given. -/
structure Capture where
  size : Nat
  hashed : Bytes
  captured : Bytes

/-- `chunk[first:last]` with the bounds the loop computes. -/
def Capture.overlap (span : Int × Int) (size : Nat) (chunk : Bytes) : Bytes :=
  let overlapStart := max span.1 size
  let overlapEnd := min span.2 (size + chunk.length)
  if overlapStart < overlapEnd then window (overlapStart - size).toNat (overlapEnd - size).toNat chunk else []

/-- One chunk of the loop. -/
def Capture.step (span : Option (Int × Int)) (s : Capture) (chunk : Bytes) : Capture :=
  ⟨s.size + chunk.length, s.hashed ++ chunk,
    match span with
    | none => s.captured
    | some span => s.captured ++ Capture.overlap span s.size chunk⟩

/-- `_inspect_regular_file`. -/
def inspectRegularFile (sha256 : Bytes → Digest) (parent name : String) (readings : FileReadings) (span : Option (Int × Int)) :
    CacheOutcome FileInspection := do
  match ← lstatOptional name readings.before with
  | none => .error ("reference is absent from the local cache: " ++ parent)
  | some before => do
    requireRegularStat name before
    match readings.opened with
    | none => .error ("cannot open cached reference: " ++ name)
    | some opened => do
      requireRegularStat name opened
      ensure (before.identity = opened.identity) "reference cache artifact changed while opening"
      let capture := readings.chunks.foldl (Capture.step span) ⟨0, [], []⟩
      match ← lstatOptional name readings.after with
      | none => .error "reference cache artifact changed during verification"
      | some after => do
        ensure (before.identity = after.identity) "reference cache artifact changed during verification"
        requireRegularStat name after
        ensure (∀ bounds ∈ span, bounds.2 ≤ capture.size) "text excerpt byte offsets exceed the cached artifact"
        pure ⟨capture.size, sha256 capture.hashed, span.map fun _ => capture.captured⟩

/-! The capture over any chunks -/

/-- The bounds as places of the content: a negative one is its start. -/
def spanOf (span : Int × Int) (content : Bytes) : Bytes := window span.1.toNat span.2.toNat content

theorem Capture.overlap_eq (span : Int × Int) (size : Nat) (chunk : Bytes) :
    Capture.overlap span size chunk = window (span.1.toNat - size) (span.2.toNat - size) chunk := by
  unfold Capture.overlap
  dsimp only
  split_ifs with h
  · have hfirst : (max span.1 (size : Int) - size).toNat = span.1.toNat - size := by omega
    have hlast : (min span.2 ((size : Int) + chunk.length) - size).toNat = min (span.2.toNat - size) chunk.length := by omega
    rw [hfirst, hlast, window_min]
  · rw [← window_min]
    rcases le_or_gt chunk.length (span.1.toNat - size) with hlength | hlength
    · exact (window_of_length_le hlength).symm
    · exact (window_of_le (by omega) _).symm

/-- After any chunks the loop has their length, their bytes and the part of the span in them. -/
theorem Capture.foldl_step (span : Option (Int × Int)) (chunks : List Bytes) (content : Bytes) :
    chunks.foldl (Capture.step span) ⟨content.length, content, (span.map (spanOf · content)).getD []⟩ =
      ⟨(content ++ chunks.flatten).length, content ++ chunks.flatten,
        (span.map (spanOf · (content ++ chunks.flatten))).getD []⟩ := by
  induction chunks generalizing content with
  | nil => simp
  | cons chunk rest ih =>
    have hstep : Capture.step span ⟨content.length, content, (span.map (spanOf · content)).getD []⟩ chunk =
        ⟨(content ++ chunk).length, content ++ chunk, (span.map (spanOf · (content ++ chunk))).getD []⟩ := by
      cases span with
      | none => simp [Capture.step]
      | some span => simp [Capture.step, spanOf, Capture.overlap_eq, window_append]
    rw [List.foldl_cons, hstep, ih, List.flatten_cons, List.append_assoc]

/-! A cached file -/

/-- A regular file that nobody touches while it is inspected, and how its reads are split. -/
structure CachedFile where
  identity : Nat × Nat
  chunks : List Bytes
  chunks_nonempty : [] ∉ chunks

namespace CachedFile

def content (file : CachedFile) : Bytes := file.chunks.flatten

def readings (file : CachedFile) : FileReadings :=
  ⟨.found ⟨.regular, file.identity⟩, some ⟨.regular, file.identity⟩, file.chunks, .found ⟨.regular, file.identity⟩⟩

/-- An inspection rejects a span that ends past the file, and only such a span. -/
theorem inspect (file : CachedFile) (sha256 : Bytes → Digest) (parent name : String) (span : Int × Int) :
    inspectRegularFile sha256 parent name file.readings (some span) =
      if span.2 ≤ file.content.length then
        .ok ⟨file.content.length, sha256 file.content, some (spanOf span file.content)⟩
      else .error "text excerpt byte offsets exceed the cached artifact" := by
  have hfold := Capture.foldl_step (some span) file.chunks []
  have hempty : spanOf span [] = [] := window_nil _ _
  have hcontent : file.chunks.flatten = file.content := rfl
  rw [hcontent, List.nil_append, List.length_nil, Option.map_some, Option.getD_some, hempty, Option.map_some,
    Option.getD_some] at hfold
  have hregular (name : String) : requireRegularStat name ⟨.regular, file.identity⟩ = .ok () := rfl
  have hbound (size : Nat) : (∀ bounds ∈ some span, bounds.2 ≤ (size : Int)) ↔ span.2 ≤ size := by simp
  unfold inspectRegularFile
  simp only [readings, lstatOptional, hregular, ok_bind, ensure_of, hfold, hbound]
  rw [ensure]
  by_cases h : span.2 ≤ file.content.length
  · rw [if_pos h, if_pos h]
    rfl
  · rw [if_neg h, if_neg h]
    rfl

end CachedFile

/-! Excerpts -/

inductive ReferenceArtifactKind where
  | sourceDocument
  | derivedText
  deriving DecidableEq

structure ReferenceEntry where
  referenceId : String
  fileExtension : String
  mediaType : String
  artifactKind : ReferenceArtifactKind
  derived : Bool
  sizeBytes : Nat
  sha256 : Digest

/-- The manifest and the place of the cache. -/
structure ReferenceCache where
  entries : List ReferenceEntry
  manifestSha256 : Digest
  cacheRoot : String

structure VerifiedReference where
  entry : ReferenceEntry
  cachePath : String
  manifestSha256 : Digest

/-- What the operating system answers during one verification: the directories from the
confinement root to the artifact, and the artifact. -/
structure CacheReadings where
  directories : List (String × LstatAnswer)
  file : FileReadings

namespace ReferenceCache

/-- `manifest.require`. -/
def require (cache : ReferenceCache) (referenceId : String) : CacheOutcome ReferenceEntry :=
  match cache.entries.find? fun entry => entry.referenceId = referenceId with
  | some entry => .ok entry
  | none => .error ("reference is not manifest-allowlisted: " ++ referenceId)

def artifactName (entry : ReferenceEntry) : String := entry.sha256.value ++ entry.fileExtension

/-- `path_for`. The identifier and the extension of an entry have no separators, so the path
lies under the root. -/
def pathFor (cache : ReferenceCache) (referenceId : String) : CacheOutcome String := do
  let entry ← cache.require referenceId
  pure (cache.cacheRoot ++ "/" ++ entry.referenceId ++ "/" ++ artifactName entry)

def requireDirectory (name : String) (answer : LstatAnswer) : CacheOutcome Unit := do
  match ← lstatOptional name answer with
  | none => .error ("reference cache directory is absent: " ++ name)
  | some stat => requireDirectoryStat name stat

/-- `_require_existing_directory_tree`. -/
def requireExistingDirectoryTree (directories : List (String × LstatAnswer)) : CacheOutcome Unit :=
  directories.forM fun directory => requireDirectory directory.1 directory.2

def validateInspection (entry : ReferenceEntry) (inspection : FileInspection) (cached : Bool) : CacheOutcome Unit := do
  let label := if cached then "cached reference" else "downloaded reference"
  ensure (inspection.size = entry.sizeBytes) (label ++ " size mismatch for " ++ entry.referenceId ++ ": " ++
    toString inspection.size ++ " != " ++ toString entry.sizeBytes)
  ensure (inspection.sha256 = entry.sha256) (label ++ " hash mismatch for " ++ entry.referenceId)

/-- `str.encode("utf-8")`, unless the text holds a surrogate. -/
def encodeUtf8 (text : PyText) : Option Bytes :=
  if text.all fun c => c.IsScalar then some (String.ofList (text.map fun c => Char.ofNat c.val)).toUTF8.data.toList else none

def verifyUtf8Excerpt (sha256 : Bytes → Digest) (cache : ReferenceCache) (readings : CacheReadings) (referenceId : String)
    (startOffset endOffset : Int) (permittedExcerpt : PyText) : CacheOutcome VerifiedReference := do
  let entry ← cache.require referenceId
  ensure (entry.artifactKind = .derivedText ∧ entry.mediaType = "text/plain" ∧ entry.derived = true)
    "statement excerpts require a manifest-typed derived text artifact"
  ensure (0 ≤ startOffset ∧ startOffset < endOffset) "text excerpt byte offsets must form a nonempty range"
  let path ← cache.pathFor referenceId
  requireExistingDirectoryTree readings.directories
  let inspection ← inspectRegularFile sha256 entry.referenceId (artifactName entry) readings.file (some (startOffset, endOffset))
  validateInspection entry inspection true
  match encodeUtf8 permittedExcerpt with
  | none => .error "permitted_excerpt is not valid UTF-8 text"
  | some expectedBytes => do
    ensure (inspection.spanBytes = some expectedBytes)
      "cached UTF-8 bytes at the declared offsets differ from permitted_excerpt"
    pure ⟨entry, path, cache.manifestSha256⟩

end ReferenceCache

/-! Slicing in memory -/

/-- A bound of a Python slice as a place of the sequence: a negative one counts from the end. -/
def sliceBound (length : Nat) (bound : Int) : Nat := min (if bound < 0 then bound + length else bound).toNat length

/-- `content[start:end]`. -/
def slice (content : Bytes) (startOffset endOffset : Int) : Bytes :=
  window (sliceBound content.length startOffset) (sliceBound content.length endOffset) content

theorem spanOf_eq_slice {content : Bytes} {startOffset endOffset : Int} (hstart : 0 ≤ startOffset)
    (horder : startOffset ≤ endOffset) (hend : endOffset ≤ content.length) :
    spanOf (startOffset, endOffset) content = slice content startOffset endOffset := by
  have hfirst : sliceBound content.length startOffset = startOffset.toNat := by
    rw [sliceBound, if_neg (by omega)]
    omega
  have hlast : sliceBound content.length endOffset = endOffset.toNat := by
    rw [sliceBound, if_neg (by omega)]
    omega
  rw [slice, hfirst, hlast, spanOf]

/-- The file is stored under its entry, in directories that are there. -/
structure StoredReference where
  file : CachedFile
  directories : List (String × (Nat × Nat))

def StoredReference.readings (stored : StoredReference) : CacheReadings :=
  ⟨stored.directories.map fun d => (d.1, .found ⟨.directory, d.2⟩), stored.file.readings⟩

/-- The bytes an excerpt is accepted for: those of a text entry whose file has the recorded
size and hash, at a nonempty range of its content. -/
structure ExcerptMatches (sha256 : Bytes → Digest) (entry : ReferenceEntry) (content : Bytes)
    (startOffset endOffset : Int) (permittedExcerpt : PyText) : Prop where
  derivedText : entry.artifactKind = .derivedText ∧ entry.mediaType = "text/plain" ∧ entry.derived = true
  range : 0 ≤ startOffset ∧ startOffset < endOffset ∧ endOffset ≤ content.length
  size : content.length = entry.sizeBytes
  hash : sha256 content = entry.sha256
  excerpt : ReferenceCache.encodeUtf8 permittedExcerpt = some (slice content startOffset endOffset)

theorem requireExistingDirectoryTree_found (directories : List (String × (Nat × Nat))) :
    ReferenceCache.requireExistingDirectoryTree (directories.map fun d => (d.1, .found ⟨.directory, d.2⟩)) = .ok () := by
  induction directories with
  | nil => rfl
  | cons directory rest ih => exact ih

/-- An excerpt is verified exactly when slicing the file in memory gives its bytes. -/
theorem verifyUtf8Excerpt_returns {sha256 : Bytes → Digest} {cache : ReferenceCache} (stored : StoredReference)
    {referenceId : String} {startOffset endOffset : Int} {permittedExcerpt : PyText} :
    (∃ verified, cache.verifyUtf8Excerpt sha256 stored.readings referenceId startOffset endOffset permittedExcerpt =
      .ok verified) ↔
      ∃ entry, cache.require referenceId = .ok entry ∧
        ExcerptMatches sha256 entry stored.file.content startOffset endOffset permittedExcerpt := by
  have hdirectories := requireExistingDirectoryTree_found stored.directories
  constructor
  · rintro ⟨verified, h⟩
    obtain ⟨entry, hentry, h⟩ := bind_eq_ok.mp h
    obtain ⟨hkind, h⟩ := ensure_bind_eq_ok.mp h
    obtain ⟨⟨hstart, horder⟩, h⟩ := ensure_bind_eq_ok.mp h
    obtain ⟨_, -, h⟩ := bind_eq_ok.mp h
    obtain ⟨_, -, h⟩ := bind_eq_ok.mp h
    obtain ⟨inspection, hinspection, h⟩ := bind_eq_ok.mp h
    obtain ⟨_, hvalid, h⟩ := bind_eq_ok.mp h
    obtain ⟨hsize, hhash⟩ := ensure_bind_eq_ok.mp hvalid
    rw [ensure_eq_ok] at hhash
    have hfile := stored.file.inspect sha256 entry.referenceId (ReferenceCache.artifactName entry) (startOffset, endOffset)
    rw [StoredReference.readings, hfile] at hinspection
    split_ifs at hinspection with hend
    cases hinspection
    refine ⟨entry, hentry, hkind, ⟨hstart, horder, hend⟩, hsize, hhash, ?_⟩
    cases hencode : ReferenceCache.encodeUtf8 permittedExcerpt with
    | none =>
      rw [hencode] at h
      cases h
    | some bytes =>
      rw [hencode] at h
      obtain ⟨hbytes, -⟩ := ensure_bind_eq_ok.mp h
      rw [spanOf_eq_slice hstart horder.le hend] at hbytes
      exact hbytes.symm
  · rintro ⟨entry, hentry, hmatch⟩
    obtain ⟨hstart, horder, hend⟩ := hmatch.range
    have hfile := stored.file.inspect sha256 entry.referenceId (ReferenceCache.artifactName entry) (startOffset, endOffset)
    rw [if_pos hend] at hfile
    obtain ⟨path, hpath⟩ : ∃ path, cache.pathFor referenceId = .ok path := by
      rw [ReferenceCache.pathFor, hentry]
      exact ⟨_, rfl⟩
    refine ⟨⟨entry, path, cache.manifestSha256⟩, bind_eq_ok.mpr ⟨entry, hentry, ?_⟩⟩
    refine ensure_bind_eq_ok.mpr ⟨hmatch.derivedText, ensure_bind_eq_ok.mpr ⟨⟨hstart, horder⟩, ?_⟩⟩
    refine bind_eq_ok.mpr ⟨_, hpath, ?_⟩
    refine bind_eq_ok.mpr ⟨(), hdirectories, ?_⟩
    refine bind_eq_ok.mpr ⟨_, hfile, ?_⟩
    refine bind_eq_ok.mpr ⟨(), ?_, ?_⟩
    · exact ensure_bind_eq_ok.mpr ⟨hmatch.size, ensure_eq_ok.mpr hmatch.hash⟩
    · rw [hmatch.excerpt]
      refine ensure_bind_eq_ok.mpr ⟨?_, rfl⟩
      rw [spanOf_eq_slice hstart horder.le hend]

/-- The capture of an undisturbed file, however its reads are split, is the slice of its
content, and an excerpt is verified exactly when it is that slice. A span is rejected by the
capture when it ends past the file; one that starts before it or stops before its start is
refused by the caller. -/
theorem capture_agrees_with_slicing :
    (∀ (file : CachedFile) sha256 parent name startOffset endOffset,
      ((∃ inspection, inspectRegularFile sha256 parent name file.readings (some (startOffset, endOffset)) = .ok inspection) ↔
        endOffset ≤ file.content.length) ∧
      (0 ≤ startOffset → startOffset ≤ endOffset → endOffset ≤ file.content.length →
        inspectRegularFile sha256 parent name file.readings (some (startOffset, endOffset)) = .ok
          ⟨file.content.length, sha256 file.content, some (slice file.content startOffset endOffset)⟩)) ∧
    ∀ (stored : StoredReference) sha256 (cache : ReferenceCache) referenceId startOffset endOffset permittedExcerpt,
      (∃ verified, cache.verifyUtf8Excerpt sha256 stored.readings referenceId startOffset endOffset permittedExcerpt =
        .ok verified) ↔
        ∃ entry, cache.require referenceId = .ok entry ∧
          ExcerptMatches sha256 entry stored.file.content startOffset endOffset permittedExcerpt := by
  refine ⟨fun file sha256 parent name startOffset endOffset => ⟨?_, fun hstart horder hend => ?_⟩,
    fun stored sha256 cache referenceId startOffset endOffset permittedExcerpt => verifyUtf8Excerpt_returns stored⟩
  · rw [file.inspect]
    split_ifs with hend
    · exact ⟨fun _ => hend, fun _ => ⟨_, rfl⟩⟩
    · constructor
      · rintro ⟨_, h⟩
        cases h
      · exact fun h => absurd h hend
  · rw [file.inspect, if_pos hend, spanOf_eq_slice hstart horder hend]

/-- A span that starts before the file is captured from its start, by the inspection itself. -/
theorem negative_start_captured :
    ∃ (file : CachedFile) (startOffset endOffset : Int), startOffset < 0 ∧ ∀ sha256 parent name,
      inspectRegularFile sha256 parent name file.readings (some (startOffset, endOffset)) =
        .ok ⟨2, sha256 [97, 98], some [97]⟩ ∧ slice file.content startOffset endOffset ≠ [97] := by
  refine ⟨⟨(0, 0), [[97, 98]], by decide⟩, -1, 1, by decide, fun sha256 parent name => ⟨?_, by decide⟩⟩
  rw [CachedFile.inspect]
  rfl

end Autolean.Builder.References
