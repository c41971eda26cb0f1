import Autolean.Library.InputCopy

/-! The Builder's own digest of the build inputs of a Library root. It agrees with the
Library's digest of another root exactly when the two roots have the same inputs. -/
namespace Autolean.Builder.LibraryInputs
open Machine Machine.Raising Library Library.DependencyNode

inductive SelfCalibrationError where
  | selfCalibration (message : String)
  deriving DecidableEq

/-- `root_files`. -/
def rootFiles : List String := ["lean-toolchain", "lakefile.lean", "lake-manifest.json", "AutoLeanLibrary.lean"]

/-- What one file adds to the digest. -/
def update (h : Hashing) (relative : String) (content : Bytes) : Bytes :=
  encode relative ++ encode "\x00" ++ h.sha256 content ++ encode "\n"

/-- The body of the loop over the sorted paths. -/
def updateAt (h : Hashing) (libraryRoot : DependencyNode) (relative : String) : Except SelfCalibrationError Bytes :=
  match libraryRoot.find (posixParts relative) with
  | some (.file content) => .ok (update h relative content)
  | _ => .error (.selfCalibration "Library build input is linked or unavailable")

/-- `_library_input_tree_sha256`. -/
def libraryInputTreeSha256 (h : Hashing) (libraryRoot : DependencyNode) : Except SelfCalibrationError String := do
  ensure (isDirectory (libraryRoot.find ["AutoLeanLibrary"]) = true)
    (.selfCalibration "Library AutoLeanLibrary module root is unavailable")
  (walkedFiles libraryRoot).forM fun candidate =>
    ensure (isFile (libraryRoot.find candidate) = true)
      (.selfCalibration "Library build input is linked or unavailable")
  let relativePaths := rootFiles ++ (walkedFiles libraryRoot).map joinPath
  ensure relativePaths.Nodup (.selfCalibration "Library build input closure contains duplicate paths")
  let updates ← (relativePaths.insertionSort (· ≤ ·)).mapM (updateAt h libraryRoot)
  pure (hexdigest h (encode "autolean.library-build-input-tree.v2\n" ++ updates.flatten))

variable {h : Hashing} {root : LibraryRoot} {d : String}

theorem updates_eq {paths : List String} {updates : List Bytes}
    (hupdates : paths.mapM (updateAt h root.node) = .ok updates) :
    updates = (paths.filterMap fun relative => (root.contentAt relative).map fun content => (relative, content)).map
      (Root.inputLine h) := by
  induction paths generalizing updates with
  | nil =>
    cases hupdates
    rfl
  | cons relative paths ih =>
    rw [List.mapM_cons] at hupdates
    obtain ⟨line, hline, hrest⟩ := bind_eq_ok.mp hupdates
    obtain ⟨lines, hlines, hdone⟩ := bind_eq_ok.mp hrest
    cases hdone
    rw [List.filterMap_cons, ih hlines]
    unfold updateAt at hline
    split at hline
    · next content hfound =>
      cases hline
      rw [LibraryRoot.contentAt, hfound]
      rfl
    · cases hline

theorem libraryInputTreeSha256_ok (hdigest : libraryInputTreeSha256 h root.node = .ok d) :
    d = hexdigest h (root.inputPayload h) ∧ root.relativePaths.Nodup := by
  obtain ⟨-, hrest⟩ := ensure_bind_eq_ok.mp hdigest
  obtain ⟨-, hrest⟩ := seq_eq_ok.mp hrest
  obtain ⟨hnodup, hrest⟩ := ensure_bind_eq_ok.mp hrest
  obtain ⟨updates, hupdates, hdone⟩ := bind_eq_ok.mp hrest
  cases hdone
  have hheader : encode "autolean.library-build-input-tree.v2\n" = encode buildInputSchema ++ encode "\n" :=
    encode_append buildInputSchema "\n"
  rw [hheader, updates_eq hupdates]
  exact ⟨rfl, (List.perm_insertionSort _ _).nodup_iff.mpr hnodup⟩

/-- The two digests agree on two roots exactly when the roots have the same build inputs, and
a copy that succeeds has the inputs of its root and no other file. -/
theorem inputs_agree {h : Hashing} (hlength : ∀ payload, (h.sha256 payload).length = 32) :
    (∀ (first second : LibraryRoot) (a b : String), libraryInputTreeSha256 h first.node = .ok a →
      second.files.inputTreeSha256 h = .ok b → Set.InjOn h.sha256 (first.hashed h ∪ second.hashed h) →
      (a = b ↔ ∀ path content, BuildInput first.node path content ↔ BuildInput second.node path content)) ∧
    (∀ (root : LibraryRoot) (copy : DependencyNode), root.copyInputTree = .ok copy →
      (∀ path content, copy.find path = some (.file content) ↔ BuildInput root.node path content) ∧
      ∀ path found, copy.find path = some found → isFile (some found) = true ∨ isDirectory (some found) = true) := by
  refine ⟨?_, fun root copy => LibraryRoot.copyInputTree_spec⟩
  intro first second a b ha hb hinj
  obtain ⟨rfl, hfirst⟩ := libraryInputTreeSha256_ok ha
  obtain ⟨rfl, hsecond⟩ := LibraryRoot.inputTreeSha256_files hb
  constructor
  · exact fun heq path content => LibraryRoot.buildInput_iff hlength hinj heq path content
  · intro hsame
    have htree := LibraryRoot.inputTree_eq hfirst hsecond hsame
    rw [LibraryRoot.inputPayload, LibraryRoot.inputPayload, htree]

/-! Roots with one module -/

/-- A digest that tells the payloads of the sample roots apart by a checksum. -/
def checksumHashing : Hashing := ⟨fun payload => payload.foldl (fun sum byte => 33 * sum + byte + 1) 0 :: List.replicate 31 0⟩

/-- A root with a file of notes beside its build inputs. -/
def sampleNode (notes code : Bytes) : DependencyNode := .directory [
  ("README.md", .file notes),
  ("lakefile.lean", .file [1]),
  ("lake-manifest.json", .file [2]),
  ("lean-toolchain", .file [3]),
  ("AutoLeanLibrary", .directory [("A.lean", .file code)]),
  ("AutoLeanLibrary.lean", .file [])]

theorem noNul_file (content : Bytes) : (file content).NoNul := by
  intro path found hfound
  cases path with
  | nil => simp
  | cons name path => cases hfound

theorem noNul_directory {children : List (String × DependencyNode)} (h : ∀ c ∈ children, 0 ∉ encode c.1 ∧ c.2.NoNul) :
    (directory children).NoNul := by
  intro path found hfound
  cases path with
  | nil => simp
  | cons name path =>
    rw [find_cons] at hfound
    obtain ⟨node, hnode, hrest⟩ := Option.bind_eq_some_iff.mp hfound
    obtain ⟨before, behind, rfl, -⟩ := List.lookup_eq_some_iff.mp hnode
    obtain ⟨hname, hbelow⟩ := h (name, node) (List.mem_append_right _ List.mem_cons_self)
    exact List.forall_mem_cons.mpr ⟨hname, hbelow path found hrest⟩

theorem wellFormed_file (content : Bytes) : (file content).WellFormed := wellFormed_leaf fun _ h => by cases h

section
variable (notes code : Bytes)

theorem sampleModules_wellFormed : (directory [("A.lean", file code)]).WellFormed := by
  apply wellFormed_directory
  · simp
  · simp [IsFileName]
  · simp [wellFormed_file]

theorem sampleNode_wellFormed : (sampleNode notes code).WellFormed := by
  apply wellFormed_directory
  · simp
  · simp [IsFileName]
  · simp [wellFormed_file, sampleModules_wellFormed]

theorem sampleNode_noNul : (sampleNode notes code).NoNul := by
  have hmodules : (directory [("A.lean", file code)]).NoNul := by
    apply noNul_directory
    rw [List.forall_mem_singleton]
    have hname : 0 ∉ encode "A.lean" := by decide +kernel
    exact ⟨hname, noNul_file _⟩
  apply noNul_directory
  have hnames : ∀ name ∈ rootFiles, 0 ∉ encode name := by decide +kernel
  simp only [rootFiles, List.forall_mem_cons] at hnames
  have hdirectory : 0 ∉ encode "AutoLeanLibrary" := by decide +kernel
  have hnotes : 0 ∉ encode "README.md" := by decide +kernel
  simp [noNul_file, hmodules, hnames, hdirectory, hnotes]

def sampleRoot : LibraryRoot := ⟨sampleNode notes code, sampleNode_wellFormed notes code, sampleNode_noNul notes code⟩

variable {notes code}

theorem notes_not_input {path : List String} : ¬ IsInputPath ("README.md" :: path) := by
  rintro (⟨file, hfile, heq⟩ | ⟨dirs, name, heq, -⟩)
  · rw [← (List.cons.inj heq).1] at hfile
    exact absurd hfile (by decide)
  · exact absurd (List.cons.inj heq).1 (by decide)

/-- The build inputs are the same whatever the notes say. -/
theorem sampleNode_buildInput {notes' : Bytes} {path : List String} {content : Bytes} :
    BuildInput (sampleNode notes code) path content → BuildInput (sampleNode notes' code) path content := by
  rintro ⟨hpath, hfound⟩
  refine ⟨hpath, ?_⟩
  cases path with
  | nil => cases hfound
  | cons name path =>
    have hname : name ≠ "README.md" := by
      rintro rfl
      exact notes_not_input hpath
    rw [sampleNode, find_cons, Keyed.lookup_cons, if_neg hname] at hfound ⊢
    exact hfound

end

/-- What the two digests of a root hash. -/
def hashedPayloads (root : LibraryRoot) : List Bytes := root.inputPayload checksumHashing :: root.inputTree.map Prod.snd

theorem mem_hashedPayloads {root : LibraryRoot} {payload : Bytes} (h : payload ∈ root.hashed checksumHashing) :
    payload ∈ hashedPayloads root := by
  rcases h with rfl | ⟨path, hinput⟩
  · exact List.mem_cons_self
  · exact List.mem_cons_of_mem _ (List.mem_map_of_mem (LibraryRoot.mem_inputTree.mpr ⟨path, rfl, hinput⟩))

/-- The payloads of three roots: two with the same inputs, and one with other code. -/
def samplePayloads : List Bytes := hashedPayloads (sampleRoot [9] [4]) ++ hashedPayloads (sampleRoot [8] [4]) ++
  hashedPayloads (sampleRoot [9] [5])

theorem samplePayloads_injective : ∀ p ∈ samplePayloads, ∀ q ∈ samplePayloads,
    checksumHashing.sha256 p = checksumHashing.sha256 q → p = q := by
  decide +kernel

theorem sampleRoots_injOn {first second : LibraryRoot} (hfirst : ∀ p ∈ hashedPayloads first, p ∈ samplePayloads)
    (hsecond : ∀ p ∈ hashedPayloads second, p ∈ samplePayloads) :
    Set.InjOn checksumHashing.sha256 (first.hashed checksumHashing ∪ second.hashed checksumHashing) := by
  have hall : ∀ p ∈ first.hashed checksumHashing ∪ second.hashed checksumHashing, p ∈ samplePayloads := by
    rintro p (hp | hp)
    · exact hfirst p (mem_hashedPayloads hp)
    · exact hsecond p (mem_hashedPayloads hp)
  exact fun p hp q hq => samplePayloads_injective p (hall p hp) q (hall q hq)

theorem sampleRoots_run : (libraryInputTreeSha256 checksumHashing (sampleNode [9] [4])).toOption.isSome = true ∧
    ((sampleRoot [8] [4]).files.inputTreeSha256 checksumHashing).toOption.isSome = true ∧
    ((sampleRoot [9] [5]).files.inputTreeSha256 checksumHashing).toOption.isSome = true ∧
    (sampleRoot [9] [4]).copyInputTree.toOption.isSome = true := by
  decide +kernel

theorem ok_of_isSome {ε α : Type} {x : Except ε α} (h : x.toOption.isSome = true) : ∃ a, x = .ok a := by
  cases x with
  | error e => cases h
  | ok a => exact ⟨a, rfl⟩

/-- Other notes leave the digest as it is and other code does not, and the notes are not copied. -/
theorem sample_agrees : (∃ digest other,
      libraryInputTreeSha256 checksumHashing (sampleNode [9] [4]) = .ok digest ∧
      (sampleRoot [8] [4]).files.inputTreeSha256 checksumHashing = .ok digest ∧
      (sampleRoot [9] [5]).files.inputTreeSha256 checksumHashing = .ok other ∧ digest ≠ other) ∧
    ∃ copy, (sampleRoot [9] [4]).copyInputTree = .ok copy ∧
      copy.find ["AutoLeanLibrary", "A.lean"] = some (.file [4]) ∧
      ∀ content, copy.find ["README.md"] ≠ some (.file content) := by
  obtain ⟨hdigest, hsame, hother, hcopy⟩ := sampleRoots_run
  obtain ⟨digest, hdigest⟩ := ok_of_isSome hdigest
  obtain ⟨digest', hsame⟩ := ok_of_isSome hsame
  obtain ⟨other, hother⟩ := ok_of_isSome hother
  obtain ⟨copy, hcopy⟩ := ok_of_isSome hcopy
  have hagree := inputs_agree (h := checksumHashing) fun _ => rfl
  have hinput : BuildInput (sampleNode [9] [4]) ["AutoLeanLibrary", "A.lean"] [4] :=
    ⟨.inr ⟨[], "A.lean", rfl, by decide⟩, rfl⟩
  refine ⟨⟨digest, other, hdigest, ?_, hother, ?_⟩, copy, hcopy, ?_, ?_⟩
  · have hinj := @sampleRoots_injOn (sampleRoot [9] [4]) (sampleRoot [8] [4])
      (fun p hp => by simp [samplePayloads, hp]) (fun p hp => by simp [samplePayloads, hp])
    have hequal := (hagree.1 (sampleRoot [9] [4]) (sampleRoot [8] [4]) digest digest' hdigest hsame hinj).mpr
      fun path content => ⟨sampleNode_buildInput, sampleNode_buildInput⟩
    rw [hequal, hsame]
  · have hinj := @sampleRoots_injOn (sampleRoot [9] [4]) (sampleRoot [9] [5])
      (fun p hp => by simp [samplePayloads, hp]) (fun p hp => by simp [samplePayloads, hp])
    intro hequal
    have hinputs := (hagree.1 (sampleRoot [9] [4]) (sampleRoot [9] [5]) digest other hdigest hother hinj).mp hequal
    obtain ⟨-, hfound⟩ := (hinputs _ _).mp hinput
    cases hfound
  · exact ((hagree.2 _ copy hcopy).1 _ _).mpr hinput
  · intro content hfound
    obtain ⟨hpath, -⟩ := ((hagree.2 _ copy hcopy).1 _ _).mp hfound
    exact notes_not_input hpath

end Autolean.Builder.LibraryInputs
