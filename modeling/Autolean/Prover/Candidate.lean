import Autolean.Prover.Workspace
import Autolean.ControlPlane.Verdicts

/-! The text a verifier compiles against the text whose digest binds a verdict. Both are
rendered from the frozen header and the submitted proof, the first one through files that
are read back in text mode. -/
namespace Autolean.Prover
open Contracts Machine Machine.Raising Text ControlPlane

namespace Runtime

/-- `TrustedLeanVerifier._validate_binding`. -/
def validateBinding (runtime : Runtime) (bundle : FormalizationTaskBundle) (submission : ProofSubmission) :
    Outcome Unit := do
  ensure (submission.contractId = bundle.contract.contractId)
    (.validationError "validation_error" "proof submission binds a different contract ID")
  ensure (submission.revision = bundle.contract.revision)
    (.validationError "validation_error" "proof submission binds a different contract revision")
  ensure (submission.contractHash = runtime.hashing.semanticHash bundle.contract.toContractSemantics)
    (.validationError "validation_error" "proof submission binds a different frozen statement hash")
  ensure (submission.proofBoundaryHash = bundle.proofBoundary.boundaryHash)
    (.validationError "validation_error" "proof submission binds a different frozen proof boundary")
  ensure (submission.environmentHash = bundle.contract.formal.environment.environmentHash)
    (.validationError "validation_error" "proof submission uses a different Lean environment")

/-- `\b(?:sorry|admit)\b|sorryAx` matches at this place of the text. -/
def placeholderAt (runtime : Runtime) (before : Option Char) (rest : List Char) : Bool :=
  "sorryAx".toList.isPrefixOf rest || ["sorry", "admit"].any fun word =>
    word.toList.isPrefixOf rest && !before.any runtime.isWordChar &&
      !(rest.drop word.length).head?.any runtime.isWordChar

def hasPlaceholder (runtime : Runtime) : Option Char → List Char → Bool
  | _, [] => false
  | before, c :: rest => runtime.placeholderAt before (c :: rest) || runtime.hasPlaceholder (some c) rest

/-- `TrustedLeanVerifier._append_axiom_query`. -/
def appendAxiomQuery (declaration : String) (files : Files) : Files :=
  files.appendText "Candidate.lean" ("\n#print axioms " ++ declaration ++ "\n")

/-- `TrustedLeanVerifier.observe` up to the runner: the content of the file that is compiled. -/
def compiledCandidate (runtime : Runtime) (workspace : MaterializedWorkspace) (submission : ProofSubmission)
    (files : Files) : Outcome ByteArray := do
  runtime.validateBinding workspace.bundle submission
  ensure (runtime.hasPlaceholder none submission.proofSource.value.toList = false)
    (.validationError "validation_error" "proof source contains a prohibited placeholder")
  let files ← runtime.writeProof workspace submission.proofSource.value files
  let files ← runtime.renderCandidate workspace files
  (appendAxiomQuery workspace.bundle.proofBoundary.expectedDeclaration.value files).readBytes "Candidate.lean"

/-- The text `_candidate_sha256` of the attestation hashes. -/
def attestedCandidate (boundary : ProofBoundary) (submission : ProofSubmission) : String :=
  boundary.trustedStatementSource.value ++ " := " ++ rstrip submission.proofSource.value ++ "\n" ++
    "\n#print axioms " ++ boundary.expectedDeclaration.value ++ "\n"

def candidateSha256 (runtime : Runtime) (bundle : FormalizationTaskBundle) (submission : ProofSubmission) : Digest :=
  runtime.hashing.sha256Text (attestedCandidate bundle.proofBoundary submission)

end Runtime

/-! What the files hold -/

section
variable {runtime : Runtime} {workspace : MaterializedWorkspace} {files files' : Files}

theorem toList_rstrip (s : String) : (rstrip s).toList = s.toList.rdropWhile isSpace := by
  simp [rstrip, List.rdropWhile]

theorem Files.decode_toUTF8 (text : String) :
    decode text.toUTF8 = .ok (String.ofList (universalNewlines text.toList)) := by
  have htext : String.fromUTF8? text.toUTF8 = some text := dif_pos text.isValidUTF8
  rw [decode, htext]

theorem Files.readBytes_writeText (files : Files) (name text : String) :
    (files.writeText name text).readBytes name = .ok text.toUTF8 := by
  simp [readBytes, writeText]

theorem Files.readText_writeText (files : Files) (name text : String) :
    (files.writeText name text).readText name = .ok (String.ofList (universalNewlines text.toList)) := by
  rw [readText, readBytes_writeText]
  exact decode_toUTF8 text

theorem Files.readBytes_appendText (files : Files) (name text suffix : String) :
    ((files.writeText name text).appendText name suffix).readBytes name = .ok (text ++ suffix).toUTF8 := by
  simp [readBytes, writeText, appendText]

theorem writeProof_ok {proofSource : String} (h : runtime.writeProof workspace proofSource files = .ok files') :
    files' = files.writeText "Proof.lean" (rstrip proofSource ++ "\n") := by
  unfold Runtime.writeProof at h
  obtain ⟨-, h⟩ := ensure_bind_eq_ok.mp h
  obtain ⟨_, -, h⟩ := bind_eq_ok.mp h
  obtain ⟨_, -, h⟩ := bind_eq_ok.mp h
  obtain ⟨_, -, h⟩ := bind_eq_ok.mp h
  exact (Except.ok.inj h).symm

/-- The candidate is rendered from what the proof slot and the statement read as, after the
protected files have passed their check. -/
theorem renderCandidate_ok (h : runtime.renderCandidate workspace files = .ok files') :
    ∃ proof header, runtime.validateIntegrity workspace files = .ok () ∧ files.readText "Proof.lean" = .ok proof ∧
      files.readText "TrustedStatement.lean" = .ok header ∧
      files' = files.writeText "Candidate.lean" (header ++ " := " ++ rstrip proof ++ "\n") := by
  unfold Runtime.renderCandidate at h
  obtain ⟨_, hintegrity, h⟩ := bind_eq_ok.mp h
  obtain ⟨proof, hproof, h⟩ := bind_eq_ok.mp h
  obtain ⟨-, h⟩ := ensure_bind_eq_ok.mp h
  obtain ⟨_, -, h⟩ := bind_eq_ok.mp h
  obtain ⟨header, hheader, h⟩ := bind_eq_ok.mp h
  obtain ⟨_, -, h⟩ := bind_eq_ok.mp h
  obtain ⟨_, -, h⟩ := bind_eq_ok.mp h
  exact ⟨proof, header, hintegrity, hproof, hheader, (Except.ok.inj h).symm⟩

/-- Protected files that pass the check have the digests of the files that were materialized. -/
theorem validateIntegrity_ok {bundle : FormalizationTaskBundle} {f : String × ByteArray}
    (h : runtime.validateIntegrity (runtime.materialize bundle) files = .ok ())
    (hf : f ∈ runtime.trustedFiles bundle.proofBoundary) :
    ∃ content, files.readBytes f.1 = .ok content ∧ runtime.sha256 content = runtime.sha256 f.2 := by
  unfold Runtime.validateIntegrity at h
  obtain ⟨_, -, h⟩ := bind_eq_ok.mp h
  have hprotected := forM_eq_ok.mp h ⟨f.1, runtime.sha256 f.2⟩ (List.mem_map_of_mem hf)
  unfold Runtime.validateProtected at hprotected
  obtain ⟨_, -, hprotected⟩ := bind_eq_ok.mp hprotected
  cases hread : files.readBytes f.1 with
  | error e => simp [hread] at hprotected
  | ok content =>
    refine ⟨content, rfl, ?_⟩
    simpa [hread] using hprotected

/-- A trimmed proof that is written with its newline and read back is trimmed to what text
mode makes of it. -/
theorem rstrip_readBack (proofSource : String) :
    rstrip (String.ofList (universalNewlines (rstrip proofSource ++ "\n").toList)) =
      String.ofList (universalNewlines (rstrip proofSource).toList) := by
  apply String.toList_injective
  have htrim : (proofSource.toList.rdropWhile isSpace ++ ['\n']).rdropWhile isSpace =
      proofSource.toList.rdropWhile isSpace := by
    rw [List.rdropWhile_concat_pos _ _ _ rfl, List.rdropWhile_idempotent]
  rw [toList_rstrip, String.toList_ofList, String.toList_ofList, rdropWhile_universalNewlines _ rfl rfl,
    String.toList_append, toList_rstrip]
  exact congrArg universalNewlines htrim

/-- What is compiled: the header and the trimmed proof, each as text mode reads it. -/
theorem compiledCandidate_ok {bundle : FormalizationTaskBundle} {submission : ProofSubmission} {content : ByteArray}
    (hcollision : ∀ other, runtime.sha256 other = runtime.sha256 bundle.proofBoundary.trustedStatementSource.value.toUTF8 →
      other = bundle.proofBoundary.trustedStatementSource.value.toUTF8)
    (h : runtime.compiledCandidate (runtime.materialize bundle) submission files = .ok content) :
    content = (String.ofList (universalNewlines bundle.proofBoundary.trustedStatementSource.value.toList) ++ " := " ++
      String.ofList (universalNewlines (rstrip submission.proofSource.value).toList) ++ "\n" ++
        ("\n#print axioms " ++ bundle.proofBoundary.expectedDeclaration.value ++ "\n")).toUTF8 := by
  unfold Runtime.compiledCandidate at h
  obtain ⟨_, -, h⟩ := bind_eq_ok.mp h
  obtain ⟨-, h⟩ := ensure_bind_eq_ok.mp h
  obtain ⟨written, hwritten, h⟩ := bind_eq_ok.mp h
  obtain ⟨rendered, hrendered, h⟩ := bind_eq_ok.mp h
  obtain ⟨proof, header, hintegrity, hproof, hheader, rfl⟩ := renderCandidate_ok hrendered
  obtain rfl := writeProof_ok hwritten
  have hslot : proof = String.ofList (universalNewlines (rstrip submission.proofSource.value ++ "\n").toList) := by
    exact Except.ok.inj (hproof.symm.trans (Files.readText_writeText _ _ _))
  have hstatement : header = String.ofList (universalNewlines bundle.proofBoundary.trustedStatementSource.value.toList) := by
    obtain ⟨content, hread, hdigest⟩ := validateIntegrity_ok hintegrity List.mem_cons_self
    rw [Files.readText, hread, hcollision content hdigest] at hheader
    exact Except.ok.inj (hheader.symm.trans (Files.decode_toUTF8 _))
  rw [Runtime.appendAxiomQuery, Files.readBytes_appendText] at h
  rw [← Except.ok.inj h, hslot, hstatement, rstrip_readBack]
  rfl

theorem blank_iff {s : String} : Blank s ↔ (rstrip s).toList = [] := by
  rw [toList_rstrip, List.rdropWhile_eq_nil_iff, Blank, List.all_eq_true]

/-- The protected files are in place, as they were materialized. -/
def TrustedIn (runtime : Runtime) (boundary : ProofBoundary) (files : Files) : Prop :=
  ∀ f ∈ runtime.trustedFiles boundary, files f.1 = some (.file f.2)

theorem TrustedIn.writeText {boundary : ProofBoundary} {name : String} (h : TrustedIn runtime boundary files)
    (hname : name ∉ ["TrustedStatement.lean", "bundle-manifest.json"]) (text : String) :
    TrustedIn runtime boundary (files.writeText name text) := by
  intro f hf
  have hne : f.1 ≠ name := by
    rintro rfl
    exact hname (List.mem_map_of_mem (f := Prod.fst) hf)
  rw [Files.writeText, Function.update_of_ne hne, h f hf]

theorem materializedFiles_trusted (runtime : Runtime) (bundle : FormalizationTaskBundle) :
    TrustedIn runtime bundle.proofBoundary (runtime.materializedFiles bundle) := by
  apply TrustedIn.writeText _ (by decide)
  intro f hf
  simp only [Runtime.trustedFiles, List.mem_cons, List.not_mem_nil, or_false] at hf
  rcases hf with rfl | rfl <;> rfl

theorem validateIntegrity_of {bundle : FormalizationTaskBundle} (h : TrustedIn runtime bundle.proofBoundary files) :
    runtime.validateIntegrity (runtime.materialize bundle) files = .ok () := by
  have hinput : runtime.validateInput (runtime.fromBundle bundle) = .ok () := by
    simp [Runtime.validateInput, Runtime.fromBundle, ensure_of]
  refine bind_eq_ok.mpr ⟨(), hinput, forM_eq_ok.mpr fun p hp => ?_⟩
  obtain ⟨f, hf, rfl⟩ := List.mem_map.mp hp
  have hentry := h f hf
  simp [Runtime.validateProtected, Files.resolve, Files.readBytes, hentry, ensure_of]

theorem writeProof_of {bundle : FormalizationTaskBundle} {proofSource : String} (hproof : ¬ Blank proofSource)
    (htrusted : TrustedIn runtime bundle.proofBoundary files) (hslot : safeAttemptWritePath files "Proof.lean" = .ok ()) :
    runtime.writeProof (runtime.materialize bundle) proofSource files =
      .ok (files.writeText "Proof.lean" (rstrip proofSource ++ "\n")) := by
  have hwritten := htrusted.writeText (by decide : "Proof.lean" ∉ _) (rstrip proofSource ++ "\n")
  refine ensure_bind_eq_ok.mpr ⟨hproof, bind_eq_ok.mpr ⟨(), validateIntegrity_of htrusted, ?_⟩⟩
  exact bind_eq_ok.mpr ⟨(), hslot, bind_eq_ok.mpr ⟨(), validateIntegrity_of hwritten, rfl⟩⟩

theorem renderCandidate_of {bundle : FormalizationTaskBundle} {proof : String}
    (htrusted : TrustedIn runtime bundle.proofBoundary files) (hread : files.readText "Proof.lean" = .ok proof)
    (hproof : ¬ Blank proof) (hslot : safeAttemptWritePath files "Candidate.lean" = .ok ()) :
    runtime.renderCandidate (runtime.materialize bundle) files = .ok (files.writeText "Candidate.lean"
      (String.ofList (universalNewlines bundle.proofBoundary.trustedStatementSource.value.toList) ++ " := " ++
        rstrip proof ++ "\n")) := by
  have hentry := htrusted _ List.mem_cons_self
  have hresolve : files.resolve "TrustedStatement.lean" = .ok () := by
    simp only [Files.resolve, hentry]
  have hheader : files.readText "TrustedStatement.lean" =
      .ok (String.ofList (universalNewlines bundle.proofBoundary.trustedStatementSource.value.toList)) := by
    rw [Files.readText, Files.readBytes, hentry]
    exact Files.decode_toUTF8 _
  refine bind_eq_ok.mpr ⟨(), validateIntegrity_of htrusted, bind_eq_ok.mpr ⟨_, hread, ?_⟩⟩
  refine ensure_bind_eq_ok.mpr ⟨hproof, bind_eq_ok.mpr ⟨(), hresolve, bind_eq_ok.mpr ⟨_, hheader, ?_⟩⟩⟩
  exact bind_eq_ok.mpr ⟨(), hslot, bind_eq_ok.mpr ⟨(), validateIntegrity_of (htrusted.writeText (by decide) _), rfl⟩⟩

theorem compiledCandidate_of {submission : ProofSubmission} {text : String}
    (hbinding : runtime.validateBinding workspace.bundle submission = .ok ())
    (hplaceholder : runtime.hasPlaceholder none submission.proofSource.value.toList = false)
    (hwrite : runtime.writeProof workspace submission.proofSource.value files = .ok files')
    (hrender : runtime.renderCandidate workspace files' = .ok (files'.writeText "Candidate.lean" text)) :
    runtime.compiledCandidate workspace submission files =
      .ok (text ++ ("\n#print axioms " ++ workspace.bundle.proofBoundary.expectedDeclaration.value ++ "\n")).toUTF8 := by
  refine bind_eq_ok.mpr ⟨(), hbinding, ensure_bind_eq_ok.mpr ⟨hplaceholder, bind_eq_ok.mpr ⟨_, hwrite, ?_⟩⟩⟩
  exact bind_eq_ok.mpr ⟨_, hrender, Files.readBytes_appendText _ _ _ _⟩

/-- On the directory as it was materialized, a bound and readable proof is compiled. -/
theorem compiledCandidate_materialized {bundle : FormalizationTaskBundle} {submission : ProofSubmission}
    (hbinding : runtime.validateBinding bundle submission = .ok ())
    (hplaceholder : runtime.hasPlaceholder none submission.proofSource.value.toList = false)
    (hproof : ¬ Blank submission.proofSource.value) :
    ∃ content, runtime.compiledCandidate (runtime.materialize bundle) submission (runtime.materializedFiles bundle) =
      .ok content := by
  have htrusted := materializedFiles_trusted runtime bundle
  have hwrite := writeProof_of hproof htrusted rfl
  have hnonblank : ¬ Blank (String.ofList
      (universalNewlines (rstrip submission.proofSource.value ++ "\n").toList)) := by
    rw [blank_iff, rstrip_readBack, String.toList_ofList, universalNewlines_eq_nil, ← blank_iff]
    exact hproof
  have hrender := renderCandidate_of (htrusted.writeText (by decide : "Proof.lean" ∉ _) _)
    (Files.readText_writeText _ _ _) hnonblank rfl
  exact ⟨_, compiledCandidate_of hbinding hplaceholder hwrite hrender⟩

/-- The compiled bytes are the text the attestation hashes and the control plane renders again. -/
def CompilesHashedText (bundle : FormalizationTaskBundle) (submission : ProofSubmission) (content : ByteArray) : Prop :=
  content = (Runtime.attestedCandidate bundle.proofBoundary submission).toUTF8 ∧
    content = (candidateText bundle.proofBoundary submission).toUTF8

/-- Neither the header nor the trimmed proof has a carriage return. -/
def CarriageFree (bundle : FormalizationTaskBundle) (submission : ProofSubmission) : Prop :=
  '\r' ∉ bundle.proofBoundary.trustedStatementSource.value.toList ∧
    '\r' ∉ (rstrip submission.proofSource.value).toList

instance (bundle : FormalizationTaskBundle) (submission : ProofSubmission) :
    Decidable (CarriageFree bundle submission) :=
  inferInstanceAs (Decidable (_ ∧ _))

theorem attestedCandidate_eq (boundary : ProofBoundary) (submission : ProofSubmission) :
    Runtime.attestedCandidate boundary submission = candidateText boundary submission := by
  apply String.toList_injective
  simp [Runtime.attestedCandidate, candidateText]

/-- Whatever the worker left in the attempt directory, the compiled text is the hashed text
exactly when neither of its sources has a carriage return. -/
theorem compiled_is_hashed {bundle : FormalizationTaskBundle} {submission : ProofSubmission} {content : ByteArray}
    (hcollision : ∀ other, runtime.sha256 other = runtime.sha256 bundle.proofBoundary.trustedStatementSource.value.toUTF8 →
      other = bundle.proofBoundary.trustedStatementSource.value.toUTF8)
    (h : runtime.compiledCandidate (runtime.materialize bundle) submission files = .ok content) :
    CompilesHashedText bundle submission content ↔ CarriageFree bundle submission := by
  rw [CompilesHashedText, attestedCandidate_eq, and_self, compiledCandidate_ok hcollision h]
  have hquery : "\n\n#print axioms ".toList = "\n".toList ++ "\n#print axioms ".toList := rfl
  rw [String.toUTF8_eq_toByteArray, String.toUTF8_eq_toByteArray, String.toByteArray_inj, ← String.toList_inj,
    CarriageFree, ← @universalNewlines_append_eq _ _ " := ".toList]
  simp only [candidateText, String.toList_append, String.toList_ofList, hquery, ← List.append_assoc,
    List.append_cancel_right_eq]

end

/-! One runtime and two proofs -/

/-- The digests of the two protected files. No other content has the first one's. -/
def sampleSha256 (content : ByteArray) : String :=
  if content = "theorem t : True".toUTF8 then "91d1fd43bbb604f4f5542504168293071aa0542522f34d1b4098ec46e38815a6"
  else "ca3d163bab055381827226140568f3bef7eaac187cebd76878e0b63e9e442356"

def sampleRuntime : Runtime := ⟨sampleService.hashing, sampleSha256, fun _ => "{}\n", Char.isAlphanum⟩

theorem sampleSha256_collision (other : ByteArray)
    (h : sampleSha256 other = sampleSha256 "theorem t : True".toUTF8) : other = "theorem t : True".toUTF8 := by
  by_contra hne
  have hstatement : sampleSha256 "theorem t : True".toUTF8 =
      "91d1fd43bbb604f4f5542504168293071aa0542522f34d1b4098ec46e38815a6" := if_pos rfl
  have hother : sampleSha256 other = "ca3d163bab055381827226140568f3bef7eaac187cebd76878e0b63e9e442356" := if_neg hne
  rw [hstatement, hother] at h
  exact absurd h (by decide)

theorem compiled_is_hashed_sample :
    ∃ content, sampleRuntime.compiledCandidate (sampleRuntime.materialize (sampleBundle [])) sampleSubmission
        (sampleRuntime.materializedFiles (sampleBundle [])) = .ok content ∧
      CompilesHashedText (sampleBundle []) sampleSubmission content := by
  obtain ⟨content, h⟩ := @compiledCandidate_materialized sampleRuntime (sampleBundle []) sampleSubmission rfl
    (by decide +kernel) (by decide +kernel)
  exact ⟨content, h, (compiled_is_hashed sampleSha256_collision h).mpr (by decide +kernel)⟩

/-- The thread has returned the event of its submission. -/
def returnsEvent {θ : Type} (c : CommandPool θ) (i : θ) : Bool :=
  match c.threads i with
  | .done (.ok (.event _)) => true
  | _ => false

/-- The control plane accepts the submission for a bundle registered in the same run. -/
def AcceptsProof (svc : Service) (bundle : FormalizationTaskBundle) (submission : ProofSubmission) : Prop :=
  ∃ (commands : ℕ → Command) (labels : List (ℕ × ServiceInput)) (lease : Lease),
    commands 0 = .registerBundle bundle "register" ∧
      commands 2 = .submitProof bundle.bundleId.value lease submission "submit" ∧
      returnsEvent (run (CommandPool.step svc) (CommandPool.start svc commands) labels) 2 = true

/-- A proof whose lines end in carriage returns. -/
def carriageSubmission : ProofSubmission := { sampleSubmission with proofSource := ⟨"by\r  trivial", by decide⟩ }

def acceptingCommands : ℕ → Command
  | 0 => .registerBundle (sampleBundle []) "register"
  | 1 => .claimLease sampleId.value "worker" 60
  | _ => .submitProof sampleId.value sampleLeaseOf carriageSubmission "submit"

def acceptingRun : List (ℕ × ServiceInput) :=
  List.replicate 4 (stepOf 0 0 'a') ++ [stepOf 1 0 'b'] ++ List.replicate 5 (stepOf 2 0 'c')

theorem carriage_return_compiled :
    ¬ ∀ (svc : Service) (runtime : Runtime) (bundle : FormalizationTaskBundle) (submission : ProofSubmission)
        (content : ByteArray), AcceptsProof svc bundle submission →
      runtime.compiledCandidate (runtime.materialize bundle) submission (runtime.materializedFiles bundle) = .ok content →
      CompilesHashedText bundle submission content := by
  intro h
  have haccepts : AcceptsProof sampleService (sampleBundle []) carriageSubmission :=
    ⟨acceptingCommands, acceptingRun, sampleLeaseOf, rfl, rfl, by decide +kernel⟩
  obtain ⟨content, hcompiled⟩ := @compiledCandidate_materialized sampleRuntime (sampleBundle []) carriageSubmission rfl
    (by decide +kernel) (by decide +kernel)
  obtain ⟨hhashed, -⟩ := h _ _ _ _ _ haccepts hcompiled
  rw [compiledCandidate_ok sampleSha256_collision hcompiled] at hhashed
  exact absurd (String.toByteArray_inj.mp hhashed) (by decide +kernel)

end Autolean.Prover
