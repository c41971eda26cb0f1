import Autolean.Prover.OciPolicy
import Autolean.ControlPlane.Claims

/-! An invocation that passes the policy check, as a container runtime reads it. Host paths
stand unescaped in mounts, so it is the frozen one exactly when none of them needs quotes
and the image is not read as an option. -/
namespace Autolean.Prover
open Contracts Machine Machine.Raising Text ControlPlane OciVerifierExecutionPolicyV2

/-! Mounts -/

section
variable {g : RunGrammar} {m m' : Mount}

/-- The fields a bind mount is written with. -/
def bindFields (source destination : String) (readonly : Bool) : List (List Char) :=
  "type=bind".toList :: ("src=".toList ++ source.toList) :: ("dst=".toList ++ destination.toList) ::
    if readonly then ["readonly".toList] else []

theorem bindMount_toList (source destination : String) (readonly : Bool) :
    (bindMount source destination readonly).toList = [','].intercalate (bindFields source destination readonly) := by
  delta bindMount bindFields
  cases readonly <;> simp [modeField, List.intercalate_cons_cons]

theorem bindFields_plain {source destination : String} (readonly : Bool) (hs : ¬ NeedsQuotes source.toList)
    (hd : ¬ NeedsQuotes destination.toList) : ∀ f ∈ bindFields source destination readonly, ¬ NeedsQuotes f := by
  intro f hf
  have hsource : ¬ NeedsQuotes ("src=".toList ++ source.toList) := by
    rw [needsQuotes_append]
    exact not_or.mpr ⟨by decide, hs⟩
  have hdestination : ¬ NeedsQuotes ("dst=".toList ++ destination.toList) := by
    rw [needsQuotes_append]
    exact not_or.mpr ⟨by decide, hd⟩
  simp only [bindFields, List.mem_cons] at hf
  rcases hf with rfl | rfl | rfl | hf
  · decide
  · exact hsource
  · exact hdestination
  · cases readonly with
    | false => cases hf
    | true =>
      obtain rfl := List.mem_singleton.mp hf
      decide

private theorem setWord_source {word : String} (h : g.setWord m word = some m') : m'.source = m.source := by
  unfold RunGrammar.setWord at h
  split at h
  · cases h
    rfl
  · split at h
    · cases h
      rfl
    · cases h

private theorem setValue_source {key value : String} (h : g.setValue m key value = some m') :
    m'.source = m.source ∨ m'.source = value := by
  unfold RunGrammar.setValue at h
  split_ifs at h with htype hsource htarget hreadonly hother
  · cases h
    exact .inl rfl
  · cases h
    exact .inr rfl
  · cases h
    exact .inl rfl
  · obtain ⟨b, -, rfl⟩ := Option.map_eq_some_iff.mp h
    exact .inl rfl
  · cases h
    exact .inl rfl

theorem setField_source {field : List Char} (h : g.setField m field = some m') :
    m'.source = m.source ∨ m'.source.toList <:+ field := by
  unfold RunGrammar.setField at h
  split at h
  · exact .inl (setWord_source h)
  · next c value hdrop =>
    rcases setValue_source h with hs | hs
    · exact .inl hs
    · right
      rw [hs, String.toList_ofList]
      exact (List.suffix_cons c value).trans (hdrop ▸ List.dropWhile_suffix _)

theorem foldlM_setField_source {fields : List (List Char)} (h : fields.foldlM g.setField m = some m') :
    m'.source = m.source ∨ ∃ field ∈ fields, m'.source.toList <:+ field := by
  induction fields generalizing m with
  | nil =>
    cases h
    exact .inl rfl
  | cons field fields ih =>
    rw [List.foldlM_cons] at h
    obtain ⟨between, hstep, hrest⟩ := Option.bind_eq_some_iff.mp h
    rcases ih hrest with heq | ⟨f, hf, hsuffix⟩
    · rw [heq]
      rcases setField_source hstep with hs | hs
      · exact .inl hs
      · exact .inr ⟨field, List.mem_cons_self, hs⟩
    · exact .inr ⟨f, List.mem_cons_of_mem _ hf, hsuffix⟩

theorem bindFields_quotes {source destination : String} {readonly : Bool} (hd : ¬ NeedsQuotes destination.toList) :
    ([','].intercalate (bindFields source destination readonly)).count '"' = source.toList.count '"' := by
  have hdestination : destination.toList.count '"' = 0 :=
    List.count_eq_zero.mpr fun hmem => hd (.inr (.inl hmem))
  have htype : "type=bind".toList.count '"' = 0 := by simp
  have hsrc : "src=".toList.count '"' = 0 := by simp
  have hdst : "dst=".toList.count '"' = 0 := by simp
  have hreadonly : "readonly".toList.count '"' = 0 := by simp
  have hcomma : [','].count '"' = 0 := by decide
  delta bindFields
  cases readonly <;>
    simp only [Bool.false_eq_true, if_true, if_false, List.intercalate_cons_cons, List.intercalate_singleton,
      List.count_append, htype, hsrc, hdst, hreadonly, hcomma, hdestination, Nat.zero_add, Nat.add_zero]

theorem foldlM_bindFields (source destination : String) (readonly : Bool) :
    (bindFields source destination readonly).foldlM g.setField ⟨"volume", "", "", false, []⟩ =
      some ⟨"bind", source, destination, readonly, []⟩ := by
  cases readonly <;> simp [bindFields, RunGrammar.setField, RunGrammar.setValue, RunGrammar.setWord]

/-- A bind mount is read as it was meant exactly when its host path needs no quotes. -/
theorem parseMount_bindMount {source destination : String} {readonly : Bool} (hd : ¬ NeedsQuotes destination.toList) :
    g.parseMount (bindMount source destination readonly) = some ⟨"bind", source, destination, readonly, []⟩ ↔
      ¬ NeedsQuotes source.toList := by
  rw [RunGrammar.parseMount, bindMount_toList]
  constructor
  · intro h hquotes
    obtain ⟨fields, hfields, hfold⟩ := Option.bind_eq_some_iff.mp h
    rcases foldlM_setField_source hfold with hs | ⟨f, hf, hsuffix⟩
    · obtain rfl : source = "" := hs
      exact absurd hquotes (by decide)
    · have hpaid := readRecord_quotes hfields hf (hquotes.of_suffix hsuffix)
      have hheld : source.toList.count '"' ≤ f.count '"' := hsuffix.sublist.count_le '"'
      rw [bindFields_quotes hd] at hpaid
      omega
  · intro hs
    rw [bindFields, readRecord_intercalate (bindFields_plain readonly hs hd), ← bindFields]
    exact foldlM_bindFields source destination readonly

end

/-! Requests -/

/-- The binds with their host paths resolved. -/
def HostFiles.resolveBinds (host : HostFiles) (binds : List (String × String × Bool)) :
    Option (List (String × String × Bool)) :=
  binds.mapM fun b => (host.resolve b.1).map fun resolved => (resolved, b.2)

/-- The options of an invocation with the given resolved binds. -/
def OciWorkerSpec.runOptions (spec : OciWorkerSpec) (containerName : Option String)
    (binds : List (String × String × Bool)) : List (String × Option String) :=
  [("--rm", none)] ++ (containerName.elim [] fun name => [("--name", some name)]) ++
    [("--network", some "none"), ("--read-only", none), ("--cap-drop", some "ALL"),
      ("--security-opt", some "no-new-privileges"), ("--pids-limit", some (toString spec.pidsLimit)),
      ("--memory", some spec.memoryLimit), ("--tmpfs", some "/tmp:rw,noexec,nosuid,size=512m"),
      ("--user", some spec.runtimeUser)] ++
    binds.map (fun b => ("--mount", some (bindMount b.1 b.2.1 b.2.2))) ++ [("--workdir", some "/work")]

section
variable {spec : OciWorkerSpec} {host : HostFiles} {source workspace declaration : String}
    {containerName : Option String}
  {phase : Phase} {request : ProcessRequest}

private theorem resolveStrict_ok {path resolved : String} (h : host.resolveStrict path = .ok resolved) :
    host.resolve path = some resolved := by
  unfold HostFiles.resolveStrict at h
  split at h
  · next hr => rw [hr, Except.ok.inj h]
  · cases h

private theorem resolveFile_ok {path linkMessage fileMessage resolved : String}
    (h : host.resolveFile path linkMessage fileMessage = .ok resolved) : host.resolve path = some resolved := by
  obtain ⟨-, h⟩ := ensure_bind_eq_ok.mp h
  obtain ⟨r, hr, h⟩ := bind_eq_ok.mp h
  obtain ⟨-, h⟩ := ensure_bind_eq_ok.mp h
  cases h
  exact resolveStrict_ok hr

private theorem resolveDirectory_ok {path linkMessage directoryMessage resolved : String}
    (h : host.resolveDirectory path linkMessage directoryMessage = .ok resolved) :
    host.resolve path = some resolved := by
  obtain ⟨-, h⟩ := ensure_bind_eq_ok.mp h
  obtain ⟨r, hr, h⟩ := bind_eq_ok.mp h
  obtain ⟨-, h⟩ := ensure_bind_eq_ok.mp h
  cases h
  exact resolveStrict_ok hr

private theorem resolveOptional_some {resolve : String → Outcome String} {path : String} {resolved : Option String}
    (h : resolveOptional resolve (some path) = .ok resolved) : ∃ r, resolve path = .ok r ∧ resolved = some r := by
  simp only [resolveOptional] at h
  cases hr : resolve path with
  | error e => rw [hr] at h; cases h
  | ok r =>
    rw [hr] at h
    cases h
    exact ⟨r, rfl, rfl⟩

private theorem processRequest_ok {argv : List String} {cwd : String} {timeout : PyFloat} {limit : Int}
    (h : processRequest argv cwd timeout limit = .ok request) : request.argv = argv := by
  obtain ⟨-, h⟩ := ensure_bind_eq_ok.mp h
  obtain ⟨-, h⟩ := ensure_bind_eq_ok.mp h
  obtain ⟨-, h⟩ := ensure_bind_eq_ok.mp h
  obtain ⟨-, h⟩ := ensure_bind_eq_ok.mp h
  cases h
  rfl

/-- A phase's request runs the image with the fixed options and the phase's resolved binds. -/
theorem buildRequest_ok
    (h : spec.buildRequest host (phase.arguments source workspace declaration containerName) = .ok request) :
    ∃ binds, host.resolveBinds (phase.binds spec source) = some binds ∧
      request.argv = spec.runtime :: "run" :: ((spec.runOptions containerName binds).flatMap renderOption ++
        spec.image :: phase.command declaration) := by
  unfold OciWorkerSpec.buildRequest at h
  obtain ⟨-, h⟩ := ensure_bind_eq_ok.mp h
  obtain ⟨src, hsrc, h⟩ := bind_eq_ok.mp h
  obtain ⟨_, -, h⟩ := bind_eq_ok.mp h
  obtain ⟨deps, hdeps, h⟩ := bind_eq_ok.mp h
  obtain ⟨-, h⟩ := ensure_bind_eq_ok.mp h
  obtain ⟨-, h⟩ := ensure_bind_eq_ok.mp h
  obtain ⟨-, h⟩ := ensure_bind_eq_ok.mp h
  obtain ⟨candidate, hcandidate, h⟩ := bind_eq_ok.mp h
  obtain ⟨output, houtput, h⟩ := bind_eq_ok.mp h
  obtain ⟨compiled, hcompiled, h⟩ := bind_eq_ok.mp h
  rw [processRequest_ok h]
  have hsource : host.resolve source = some src := by cases phase <;> exact resolveStrict_ok hsrc
  have hdependencies := resolveStrict_ok hdeps
  have houtputPath : parentPath compilerOutputPath = "/output" := by decide
  cases phase with
  | compile c o =>
    obtain ⟨c', hc, rfl⟩ := resolveOptional_some hcandidate
    obtain ⟨o', ho, rfl⟩ := resolveOptional_some houtput
    cases hcompiled
    have hc := resolveFile_ok hc
    have ho := resolveDirectory_ok ho
    refine ⟨[(src, "/source", true), (deps, "/deps", true), (c', "/input/Candidate.lean", true),
      (o', parentPath compilerOutputPath, false)], ?_, ?_⟩
    · simp [HostFiles.resolveBinds, Phase.binds, hsource, hdependencies, hc, ho, sourceMountPath,
        sourceMountReadOnly, dependenciesMountPath, dependenciesMountReadOnly, candidatePath, candidateMountReadOnly]
    · cases containerName <;> simp [OciWorkerSpec.runOptions, Phase.arguments, renderOption, houtputPath]
  | query s =>
    cases hcandidate
    cases houtput
    obtain ⟨s', hs, rfl⟩ := resolveOptional_some hcompiled
    have hs := resolveFile_ok hs
    refine ⟨[(src, "/source", true), (deps, "/deps", true), (s', "/compiled/Candidate.olean", true)], ?_, ?_⟩
    · simp [HostFiles.resolveBinds, Phase.binds, hsource, hdependencies, hs, sourceMountPath,
        sourceMountReadOnly, dependenciesMountPath, dependenciesMountReadOnly, compiledCandidatePath]
    · cases containerName <;> simp [OciWorkerSpec.runOptions, Phase.arguments, renderOption]

theorem mem_resolveBinds {binds resolved : List (String × String × Bool)} (h : host.resolveBinds binds = some resolved)
    {r : String × String × Bool} : r ∈ resolved ↔ ∃ b ∈ binds, host.resolve b.1 = some r.1 ∧ b.2 = r.2 := by
  induction binds generalizing resolved with
  | nil =>
    cases h
    simp
  | cons b binds ih =>
    rw [HostFiles.resolveBinds, List.mapM_cons] at h
    obtain ⟨first, hfirst, h⟩ := Option.bind_eq_some_iff.mp h
    obtain ⟨rest, hrest, h⟩ := Option.bind_eq_some_iff.mp h
    obtain ⟨path, hpath, rfl⟩ := Option.map_eq_some_iff.mp hfirst
    cases h
    rw [List.mem_cons, ih hrest]
    constructor
    · rintro (rfl | ⟨b', hb', hr⟩)
      · exact ⟨b, List.mem_cons_self, hpath, rfl⟩
      · exact ⟨b', List.mem_cons_of_mem _ hb', hr⟩
    · rintro ⟨b', hb', hr, he⟩
      rcases List.mem_cons.mp hb' with rfl | hb'
      · left
        rw [hpath] at hr
        exact Prod.ext (Option.some.inj hr).symm he.symm
      · exact .inr ⟨b', hb', hr, he⟩

/-- The check leaves the image's digest and the wrapper as the policy has them. -/
theorem validateExecutionPolicy_ok {bundle : FormalizationTaskBundle}
    (h : spec.validateExecutionPolicy bundle request phase = .ok ()) :
    imageDigest spec.image =
        bundle.contract.formal.environment.verifierExecutionPolicy.workerImageDigest.value ∧
      phase.expectedWrapper bundle.proofBoundary.expectedDeclaration.value =
        .ok (phase.command bundle.proofBoundary.expectedDeclaration.value) := by
  unfold OciWorkerSpec.validateExecutionPolicy at h
  obtain ⟨policy, hpolicy, h⟩ := bind_eq_ok.mp h
  obtain ⟨hdigest, h⟩ := ensure_bind_eq_ok.mp h
  obtain ⟨expected, hexpected, h⟩ := bind_eq_ok.mp h
  obtain ⟨hcommand, -⟩ := ensure_bind_eq_ok.mp h
  refine ⟨?_, by rw [hcommand, hexpected]⟩
  rw [hdigest]
  unfold requireV2Policy at hpolicy
  split at hpolicy
  · cases hpolicy
    rfl
  · cases hpolicy

private theorem optionNames_shaped : ∀ name ∈ optionNames, IsOption name ∧ name ≠ "--" ∧ '=' ∉ name.toList := by
  decide

theorem runOptions_known (g : RunGrammar) (binds : List (String × String × Bool)) :
    ∀ o ∈ spec.runOptions containerName binds, o.1 ∈ optionNames ∧ Known g.arity o := by
  have hflag {name : String} (h : name ∈ flagOptions) :
      name ∈ optionNames ∧ Known g.arity (name, none) := by
    have hname : name ∈ optionNames := List.mem_append_left _ h
    obtain ⟨hoption, hdashes, hequals⟩ := optionNames_shaped name hname
    exact ⟨hname, hoption, hdashes, hequals, g.flags name h⟩
  have hvalued {name value : String} (h : name ∈ valuedOptions) :
      name ∈ optionNames ∧ Known g.arity (name, some value) := by
    have hname : name ∈ optionNames := List.mem_append_right _ h
    obtain ⟨hoption, hdashes, hequals⟩ := optionNames_shaped name hname
    exact ⟨hname, hoption, hdashes, hequals, g.valued name h⟩
  have hname : ∀ o ∈ (containerName.elim [] fun name => [("--name", some name)] : List (String × Option String)),
      o.1 ∈ optionNames ∧ Known g.arity o := by
    cases containerName with
    | none => simp
    | some name => exact List.forall_mem_singleton.mpr (hvalued (show "--name" ∈ valuedOptions by decide))
  have hmounts : ∀ o ∈ binds.map (fun b => (("--mount", some (bindMount b.1 b.2.1 b.2.2)) : String × Option String)),
      o.1 ∈ optionNames ∧ Known g.arity o := by
    intro o ho
    obtain ⟨b, -, rfl⟩ := List.mem_map.mp ho
    exact hvalued (show "--mount" ∈ valuedOptions by decide)
  simp only [OciWorkerSpec.runOptions, List.forall_mem_append, List.forall_mem_cons]
  refine ⟨⟨⟨⟨⟨hflag (by decide), ?_⟩, hname⟩, hvalued (by decide), hflag (by decide), hvalued (by decide),
    hvalued (by decide), hvalued (by decide), hvalued (by decide), hvalued (by decide), hvalued (by decide), ?_⟩,
    hmounts⟩, hvalued (by decide), ?_⟩ <;> simp

end

/-! The frozen invocation -/

/-- The command line is the policy's: its isolation options and no other ones, its image, its
wrapper, and the phase's binds as mounts. -/
structure FrozenInvocation (g : RunGrammar) (spec : OciWorkerSpec) (host : HostFiles) (source : String)
    (bundle : FormalizationTaskBundle) (phase : Phase) (line : CommandLine) : Prop where
  network : optionValues line "--network" = [some networkMode]
  read_only_root : optionValues line "--read-only" = [none]
  capabilities : optionValues line "--cap-drop" = [some "ALL"]
  privileges : optionValues line "--security-opt" = [some "no-new-privileges"]
  nothing_else : ∀ o ∈ line.options, o.1 ∈ optionNames
  image : line.program = spec.image ∧ imageDigest line.program =
    bundle.contract.formal.environment.verifierExecutionPolicy.workerImageDigest.value
  wrapper : phase.expectedWrapper bundle.proofBoundary.expectedDeclaration.value = .ok line.arguments
  mounts : (optionValues line "--mount").mapM (fun value => value.bind g.parseMount) =
    (host.resolveBinds (phase.binds spec source)).map (·.map fun b => ⟨"bind", b.1, b.2.1, b.2.2, []⟩)

/-- The runtime reads the argument vector as the frozen invocation. -/
def RunsFrozen (g : RunGrammar) (spec : OciWorkerSpec) (host : HostFiles) (source : String)
    (bundle : FormalizationTaskBundle) (phase : Phase) (argv : List String) : Prop :=
  ∃ line, g.parseRun argv = some line ∧ FrozenInvocation g spec host source bundle phase line

/-- The image is not read as an option, and no resolved host path of the phase holds a comma,
a quote or a line feed. -/
def Unambiguous (spec : OciWorkerSpec) (host : HostFiles) (source : String) (phase : Phase) : Prop :=
  ¬ IsOption spec.image ∧
    ∀ b ∈ phase.binds spec source, ∀ resolved ∈ host.resolve b.1, ¬ NeedsQuotes resolved.toList

private theorem mapM_map_eq {α β γ : Type} {f : α → β} {k : β → Option γ} {h : α → γ} {l : List α} :
    (l.map f).mapM k = some (l.map h) ↔ ∀ x ∈ l, k (f x) = some (h x) := by
  induction l with
  | nil => simp
  | cons x l ih =>
    rw [List.map_cons, List.mapM_cons, List.forall_mem_cons, ← ih]
    constructor
    · intro hm
      obtain ⟨y, hy, hm⟩ := Option.bind_eq_some_iff.mp hm
      obtain ⟨ys, hys, hm⟩ := Option.bind_eq_some_iff.mp hm
      obtain ⟨rfl, rfl⟩ := List.cons.inj (Option.some.inj hm)
      exact ⟨hy, hys⟩
    · rintro ⟨hx, hl⟩
      rw [hx, hl]
      rfl

section
variable {spec : OciWorkerSpec} {host : HostFiles} {source workspace : String} {containerName : Option String}
  {phase : Phase} {request : ProcessRequest} {bundle : FormalizationTaskBundle}

theorem optionValues_mount (binds : List (String × String × Bool)) (inner : CommandLine) (h : inner.options = []) :
    optionValues (inner.withOptions (spec.runOptions containerName binds)) "--mount" =
      binds.map fun b => some (bindMount b.1 b.2.1 b.2.2) := by
  cases containerName <;>
    simp [optionValues, CommandLine.withOptions, OciWorkerSpec.runOptions, h, List.filter_map, Function.comp_def]

theorem optionValues_isolation (spec : OciWorkerSpec) (containerName : Option String)
    (binds : List (String × String × Bool)) (inner : CommandLine) (h : inner.options = []) :
    let line := inner.withOptions (spec.runOptions containerName binds)
    optionValues line "--network" = [some networkMode] ∧ optionValues line "--read-only" = [none] ∧
      optionValues line "--cap-drop" = [some "ALL"] ∧
      optionValues line "--security-opt" = [some "no-new-privileges"] := by
  cases containerName <;>
    simp [optionValues, CommandLine.withOptions, OciWorkerSpec.runOptions, h, List.filter_map, Function.comp_def,
      networkMode]

/-- The policy's destinations need no quotes. -/
theorem binds_destination : ∀ b ∈ phase.binds spec source, ¬ NeedsQuotes b.2.1.toList := by
  cases phase with
  | compile c o =>
    simp only [Phase.binds, List.forall_mem_append, List.forall_mem_cons]
    exact ⟨⟨by decide, by decide, by simp⟩, by decide, by decide, by simp⟩
  | query s =>
    simp only [Phase.binds, List.forall_mem_append, List.forall_mem_cons]
    exact ⟨⟨by decide, by decide, by simp⟩, by decide, by simp⟩

/-- The mounts of the binds are read as they were meant exactly when no host path needs quotes. -/
theorem mounts_frozen {binds : List (String × String × Bool)} (g : RunGrammar)
    (hbinds : host.resolveBinds (phase.binds spec source) = some binds) :
    (binds.map fun b => some (bindMount b.1 b.2.1 b.2.2)).mapM (fun value => value.bind g.parseMount) =
        some (binds.map fun b => ⟨"bind", b.1, b.2.1, b.2.2, []⟩) ↔
      ∀ b ∈ phase.binds spec source, ∀ resolved ∈ host.resolve b.1, ¬ NeedsQuotes resolved.toList := by
  rw [mapM_map_eq]
  simp only [Option.bind_some]
  constructor
  · intro h b hb resolved hr
    have hmem : (resolved, b.2) ∈ binds := (mem_resolveBinds hbinds).mpr ⟨b, hb, hr, rfl⟩
    exact (parseMount_bindMount (binds_destination b hb)).mp (h (resolved, b.2) hmem)
  · intro h r hr
    obtain ⟨b, hb, hresolved, he⟩ := (mem_resolveBinds hbinds).mp hr
    have hdestination : ¬ NeedsQuotes r.2.1.toList := by
      rw [← he]
      exact binds_destination b hb
    exact (parseMount_bindMount hdestination).mpr (h b hb r.1 hresolved)

/-- The image is the program of the command line, unless it is read as an option. -/
theorem image_program {g : RunGrammar} {inner : CommandLine} {image : String} {command : List String}
    (h : parseOptions g.arity (image :: command) = some inner) (hcommand : inner.arguments = command) :
    ¬ IsOption image := by
  intro hoption
  have hlt := parseOptions_option_lt hoption h
  rw [hcommand] at hlt
  exact lt_irrefl _ hlt

/-- An invocation that is read as the frozen one was unambiguous. -/
theorem RunsFrozen.unambiguous {g : RunGrammar} (h : RunsFrozen g spec host source bundle phase request.argv)
    (hbuild : spec.buildRequest host (phase.arguments source workspace bundle.proofBoundary.expectedDeclaration.value
      containerName) = .ok request)
    (haccept : spec.validateExecutionPolicy bundle request phase = .ok ()) : Unambiguous spec host source phase := by
  obtain ⟨binds, hbinds, hargv⟩ := buildRequest_ok hbuild
  obtain ⟨-, hwrapper⟩ := validateExecutionPolicy_ok haccept
  obtain ⟨line, hline, hfrozen⟩ := h
  rw [hargv, RunGrammar.parseRun, parseOptions_render fun o ho => (runOptions_known g binds o ho).2] at hline
  obtain ⟨inner, hinner, rfl⟩ := Option.map_eq_some_iff.mp hline
  have hcommand : inner.arguments = phase.command bundle.proofBoundary.expectedDeclaration.value :=
    Except.ok.inj (hfrozen.wrapper.symm.trans hwrapper)
  have himage := image_program hinner hcommand
  rw [parseOptions_positional himage] at hinner
  cases hinner
  refine ⟨himage, (mounts_frozen g hbinds).mp ?_⟩
  have hmounts := hfrozen.mounts
  rw [optionValues_mount _ _ rfl, hbinds] at hmounts
  exact hmounts

/-- A request that the policy check accepts is run as the frozen invocation exactly when its
image is not read as an option and no host path of its phase needs quotes. -/
theorem accepted_invocation_frozen (g : RunGrammar)
    (hbuild : spec.buildRequest host (phase.arguments source workspace bundle.proofBoundary.expectedDeclaration.value
      containerName) = .ok request)
    (haccept : spec.validateExecutionPolicy bundle request phase = .ok ()) :
    RunsFrozen g spec host source bundle phase request.argv ↔ Unambiguous spec host source phase := by
  refine ⟨fun h => h.unambiguous hbuild haccept, ?_⟩
  rintro ⟨himage, hplain⟩
  obtain ⟨binds, hbinds, hargv⟩ := buildRequest_ok hbuild
  obtain ⟨hdigest, hwrapper⟩ := validateExecutionPolicy_ok haccept
  obtain ⟨hnetwork, hroot, hcapabilities, hprivileges⟩ := optionValues_isolation spec containerName binds
    ⟨[], spec.image, phase.command bundle.proofBoundary.expectedDeclaration.value⟩ rfl
  refine ⟨_, ?_, hnetwork, hroot, hcapabilities, hprivileges, ?_, ⟨rfl, hdigest⟩, hwrapper, ?_⟩
  · rw [hargv, RunGrammar.parseRun, parseOptions_render fun o ho => (runOptions_known g binds o ho).2,
      parseOptions_positional himage, Option.map_some]
  · intro o ho
    rw [CommandLine.withOptions, List.append_nil] at ho
    exact (runOptions_known g binds o ho).1
  · rw [optionValues_mount _ _ rfl, hbinds]
    exact (mounts_frozen g hbinds).mpr hplain

end

/-! One worker, a runtime and two source directories -/

def sampleWorker : OciWorkerSpec where
  runtime := "docker"
  image := "worker@sha256:" ++ sampleHash
  dependencyRoot := "/srv/deps"
  memoryLimit := "8g"
  pidsLimit := 512
  timeoutSeconds := .finite 900
  maxOutputBytes := 16777216
  runtimeUser := "1000:1000"
  runtime_nonblank := by decide
  image_pinned := by decide +kernel
  limits_positive := by decide +kernel
  user_numeric := by decide

/-- Every path is a resolved file and directory. -/
def sampleHost : HostFiles := ⟨some, fun _ => false, fun _ => true, fun _ => true⟩

def sampleGrammar : RunGrammar where
  arity o := if o ∈ flagOptions then some .flag else if o ∈ valuedOptions then some .valued else none
  otherField field := field ∈ ["bind-propagation", "consistency"]
  flags := by decide
  valued := by decide

/-- A bundle frozen under the two-phase policy. -/
def policyBundle : FormalizationTaskBundle :=
  { sampleBundle [] with
    contract := { (sampleBundle []).contract with
      formal := ⟨⟨sampleVersion, sampleRevision, ⟨.v2, sampleImage⟩, none, sampleDigest⟩, []⟩ }
    fidelity_bound := rfl }

def samplePhase : Phase := .query "/run/sealed/Candidate.olean"

/-- The policy check on the request of the sample phase with the given source directory. -/
def checkedRequest (source : String) : Outcome Unit := do
  let request ← sampleWorker.buildRequest sampleHost
    (samplePhase.arguments source "/run/attempt" policyBundle.proofBoundary.expectedDeclaration.value (some "query-1"))
  sampleWorker.validateExecutionPolicy policyBundle request samplePhase

theorem checkedRequest_ok {source : String} (h : checkedRequest source = .ok ()) :
    ∃ request, sampleWorker.buildRequest sampleHost (samplePhase.arguments source "/run/attempt"
        policyBundle.proofBoundary.expectedDeclaration.value (some "query-1")) = .ok request ∧
      sampleWorker.validateExecutionPolicy policyBundle request samplePhase = .ok () :=
  bind_eq_ok.mp h

/-- The policy check accepts both directories, only one of which reads as it was meant. -/
theorem sampleRequests_checked :
    (checkedRequest "/srv/snapshot" = .ok () ∧ checkedRequest "/srv/snapshot,src=/etc" = .ok ()) ∧
      ¬ IsOption sampleWorker.image ∧
      (∀ b ∈ samplePhase.binds sampleWorker "/srv/snapshot", ¬ NeedsQuotes b.1.toList) ∧
      NeedsQuotes "/srv/snapshot,src=/etc".toList ∧
      sampleGrammar.parseMount (bindMount "/srv/snapshot,src=/etc" "/source" true) =
        some ⟨"bind", "/etc", "/source", true, []⟩ := by decide +kernel

theorem accepted_invocation_frozen_sample :
    ∃ request, sampleWorker.buildRequest sampleHost (samplePhase.arguments "/srv/snapshot" "/run/attempt"
        policyBundle.proofBoundary.expectedDeclaration.value (some "query-1")) = .ok request ∧
      RunsFrozen sampleGrammar sampleWorker sampleHost "/srv/snapshot" policyBundle samplePhase request.argv := by
  obtain ⟨⟨hchecked, -⟩, himage, hplain, -⟩ := sampleRequests_checked
  obtain ⟨request, hbuild, haccept⟩ := checkedRequest_ok hchecked
  refine ⟨request, hbuild, (accepted_invocation_frozen sampleGrammar hbuild haccept).mpr ⟨himage, ?_⟩⟩
  rintro b hb resolved ⟨rfl⟩
  exact hplain b hb

theorem accepted_invocation_mounts_elsewhere :
    (¬ ∀ (g : RunGrammar) (spec : OciWorkerSpec) (host : HostFiles) (bundle : FormalizationTaskBundle)
        (source workspace : String) (containerName : Option String) (phase : Phase) (request : ProcessRequest),
      spec.buildRequest host (phase.arguments source workspace bundle.proofBoundary.expectedDeclaration.value
          containerName) = .ok request →
        spec.validateExecutionPolicy bundle request phase = .ok () →
          RunsFrozen g spec host source bundle phase request.argv) ∧
      sampleGrammar.parseMount (bindMount "/srv/snapshot,src=/etc" "/source" true) =
        some ⟨"bind", "/etc", "/source", true, []⟩ := by
  obtain ⟨⟨-, hchecked⟩, -, -, hquotes, hmount⟩ := sampleRequests_checked
  refine ⟨fun h => ?_, hmount⟩
  obtain ⟨request, hbuild, haccept⟩ := checkedRequest_ok hchecked
  obtain ⟨-, hplain⟩ := (h sampleGrammar _ _ _ _ _ _ _ _ hbuild haccept).unambiguous hbuild haccept
  exact hplain _ List.mem_cons_self _ rfl hquotes

end Autolean.Prover
