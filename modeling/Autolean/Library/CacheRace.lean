import Autolean.Library.DependencyCache
import Autolean.Machine.Progress

/-! Calls that prepare one cache entry at the same time. An entry is never changed once it
is published, but the rename of a call that comes too late raises an error that the
verifier does not handle. -/
namespace Autolean.Library
open Machine Machine.Raising

/-- A checkout that nobody edits. -/
def Checkout.root (c : Checkout) : Root (Except VerifyError) where
  readBytes relative := (c.file relative).mapError .osError
  inputs := .ok c.listing

/-- The sources can be read and copied, and the copy passes the check of its lock. -/
def Checkout.Locked (c : Checkout) (tree : SourceTree) : Prop :=
  c.root.copyInputTree = .ok tree ∧ tree.root.checkLock = .ok ()

/-- The binding of an entry's manifest. -/
def entryBinding (h : Hashing) (manifest : DependencyManifest) : DependencyTreeBinding :=
  dependencyTreeBinding h manifest (hexdigest h (manifestBytes manifest))

variable {h : Hashing} {git : Git} {checkout : Checkout} {key : String}

/-- An entry that the check accepts for the checkout. -/
structure Sealed (h : Hashing) (git : Git) (checkout : Checkout) (entry : CacheEntry) : Prop where
  packages : verifyPackageDirectory git entry.packages = .ok ()
  manifest : dependencyTreeManifest h entry.packages = .ok entry.manifest
  identity : cacheIdentity h checkout.root (entryBinding h entry.manifest) = .ok entry.identity

/-- A Lake command that succeeds leaves a locked tree and packages that Git and the walk accept. -/
def LakeSucceeds (h : Hashing) (git : Git) (w : Surroundings) (arguments : List String) (seed : Seed) : Prop :=
  ∃ after, w.lake arguments seed = some after ∧ after.tree.root.checkLock = .ok () ∧
    verifyPackageDirectory git after.packagesRoot = .ok () ∧
      ∃ manifest, dependencyTreeManifest h after.packagesRoot = .ok manifest

/-- What every step of a run is given: the one checkout, and commands that succeed. -/
def Given (h : Hashing) (git : Git) (checkout : Checkout) (op : VerifyOp) (w : Surroundings) : Prop :=
  w.checkout = checkout ∧ ∀ arguments seed, op = .lake arguments seed → LakeSucceeds h git w arguments seed

/-- The step renames onto no entry. -/
def RenamesAlone (s : Cache) : VerifyOp → Prop
  | .rename _ key => s.entries key = none
  | _ => True

/-- What a call promises of an operation. -/
def Publishes (h : Hashing) (git : Git) (checkout : Checkout) (key : String) : VerifyOp → Prop
  | .rename entry k => k = key ∧ Sealed h git checkout entry
  | .lakeIn _ _ _ => False
  | _ => True

theorem publish_keeps {s : Cache} {entry : CacheEntry} (hfree : s.entries key = none) :
    ∀ k e, s.entries k = some e → (s.publish key entry).entries k = some e := by
  intro k e hk
  have hne : k ≠ key := by
    rintro rfl
    rw [hfree] at hk
    cases hk
  exact (Function.update_of_ne hne _ _).trans hk

/-- A call changes the cache only by publishing where nothing is. -/
theorem semantics_cases (op : VerifyOp) (hop : ∀ arguments worktree k, op ≠ .lakeIn arguments worktree k) (w : Surroundings)
    (s : Cache) : (Cache.semantics op w s).2 = s ∨
      ∃ entry k, op = .rename entry k ∧ s.entries k = none ∧ (Cache.semantics op w s).2 = s.publish k entry := by
  cases op with
  | rename entry k =>
    cases hk : s.entries k with
    | none => exact .inr ⟨entry, k, rfl, hk, by simp [Cache.semantics, Cache.renameOnto, hk]⟩
    | some taken => exact .inl (by simp [Cache.semantics, Cache.renameOnto, hk])
  | lakeIn arguments worktree k => exact absurd rfl (hop arguments worktree k)
  | readSource | listSource | cacheExists | readIdentity | readManifest | readPackages | lake | requireExt4 | writeEvidence =>
    exact .inl rfl

variable (h git checkout key) in
/-- Calls for the entry of one checkout, none of which renames onto another's entry. -/
def race : Protocol verifierInterface VerifyError Surroundings Cache where
  exec := Cache.semantics
  Inv s := ∀ entry, s.entries key = some entry → Sealed h git checkout entry
  Evolves s t := ∀ k entry, s.entries k = some entry → t.entries k = some entry
  Allowed _ := Publishes h git checkout key
  may s op w := Given h git checkout op w ∧ RenamesAlone s op
  refl _ _ _ hk := hk
  trans hab hbc k entry hk := hbc k entry (hab k entry hk)
  step := by
    intro s op w hs ha _
    obtain heq | ⟨entry, k, rfl, hfree, heq⟩ := semantics_cases op (by rintro _ _ _ rfl; exact ha) w s
    · rw [heq]
      exact ⟨hs, fun _ _ hk => hk⟩
    · obtain ⟨rfl, hsealed⟩ := ha
      rw [heq]
      refine ⟨fun e he => ?_, publish_keeps hfree⟩
      cases (Function.update_self ..).symm.trans he
      exact hsealed

/-! What the calls read of the checkout -/

section
variable {s : Cache} {α β : Type}

/-- The program returns the value, whatever the others do. -/
abbrev Gives (h : Hashing) (git : Git) (checkout : Checkout) (key : String) (a : α) (p : VerifierProgram α) (s : Cache) : Prop :=
  p.Returns (race h git checkout key) (fun x _ => x = a) s

theorem Gives.pure (a : α) : Gives h git checkout key a (Pure.pure a) s := Prog.Returns.pure fun _ _ _ => rfl

theorem Gives.raise {x : Except VerifyError α} {a : α} (hx : x = .ok a) : Gives h git checkout key a (Library.raise x) s := by
  subst hx
  exact Gives.pure a

theorem Gives.bind {p : VerifierProgram α} {f : α → VerifierProgram β} {a : α} {Q : β → Cache → Prop}
    (hs : (race h git checkout key).Inv s) (hp : Gives h git checkout key a p s)
    (hf : ∀ t, (race h git checkout key).Evolves s t → (race h git checkout key).Inv t →
      (f a).Returns (race h git checkout key) Q t) : (p >>= f).Returns (race h git checkout key) Q s := by
  refine Prog.Returns.bind hs hp ?_
  rintro _ t hst ht rfl
  exact hf t hst ht

theorem readBytes_gives {relative : String} {payload : Bytes} (hread : checkout.root.readBytes relative = .ok payload) :
    Gives h git checkout key payload (source.readBytes relative) s := by
  refine Prog.Returns.perform (fun _ _ _ => trivial) fun t w _ _ hmay => ⟨payload, ?_, fun _ _ _ => rfl⟩
  obtain ⟨⟨rfl, -⟩, -⟩ := hmay
  exact hread

theorem inputs_gives : Gives h git checkout key checkout.listing source.inputs s := by
  refine Prog.Returns.perform (fun _ _ _ => trivial) fun t w _ _ hmay => ⟨checkout.listing, ?_, fun _ _ _ => rfl⟩
  obtain ⟨⟨rfl, -⟩, -⟩ := hmay
  rfl

theorem readAll_gives (hs : (race h git checkout key).Inv s) {paths : List String} {tree : SourceTree}
    (hread : checkout.root.readAll paths = .ok tree) : Gives h git checkout key tree (source.readAll paths) s := by
  induction paths generalizing tree s with
  | nil =>
    cases hread
    exact Gives.pure []
  | cons relative rest ih =>
    obtain ⟨payload, hpayload, hread⟩ := bind_eq_ok.mp hread
    obtain ⟨others, hothers, hread⟩ := bind_eq_ok.mp hread
    cases hread
    refine Gives.bind hs (readBytes_gives hpayload) fun t _ ht => ?_
    exact Gives.bind ht (ih ht hothers) fun _ _ _ => Gives.pure _

@[simp] theorem raise_eq (x : Except VerifyError α) : Library.raise x = x := by
  cases x <;> rfl

theorem require_of {condition : Prop} [Decidable condition] {message : String} (hc : condition) :
    raise (require condition message) = (.ok () : Except VerifyError Unit) := by
  rw [raise_eq, require, ensure_of _ hc]

theorem orUnavailable_ok {α : Type} (a : α) (message : String) :
    Root.orUnavailable (Except.ok a : Except VerifyError α) message = .ok a := rfl

theorem copyInputTree_gives (hs : (race h git checkout key).Inv s) {tree : SourceTree}
    (hread : checkout.root.copyInputTree = .ok tree) : Gives h git checkout key tree source.copyInputTree s := by
  obtain ⟨paths, hpaths, hread⟩ := bind_eq_ok.mp hread
  refine Gives.bind (a := paths) hs ?_ fun t _ ht => readAll_gives ht hread
  refine Gives.bind hs inputs_gives fun t _ _ => Gives.raise ?_
  obtain ⟨_, ⟨rfl⟩, hpaths⟩ := bind_eq_ok.mp hpaths
  rwa [raise_eq] at hpaths

theorem readText_gives (hs : (race h git checkout key).Inv s) {relative : String} {text : List Char}
    (hread : checkout.root.readText relative = .ok text) : Gives h git checkout key text (source.readText relative) s := by
  obtain ⟨payload, hpayload, htext⟩ := bind_eq_ok.mp hread
  refine Gives.bind hs (readBytes_gives hpayload) fun t _ _ => Gives.raise ?_
  rwa [raise_eq] at htext

theorem manifestSha256_gives (hs : (race h git checkout key).Inv s) {digest : String}
    (hread : checkout.root.manifestSha256 h = .ok digest) : Gives h git checkout key digest (source.manifestSha256 h) s := by
  obtain ⟨payload, hpayload, ⟨⟩⟩ := bind_eq_ok.mp hread
  exact Gives.bind hs (readBytes_gives hpayload) fun _ _ _ => Gives.pure _

theorem dependencyCacheKey_gives (hs : (race h git checkout key).Inv s) {k : String}
    (hread : checkout.root.dependencyCacheKey h = .ok k) : Gives h git checkout key k (source.dependencyCacheKey h) s := by
  obtain ⟨toolchain, htoolchain, hread⟩ := bind_eq_ok.mp hread
  obtain ⟨manifest, hmanifest, hread⟩ := bind_eq_ok.mp hread
  obtain ⟨lakefile, hlakefile, ⟨⟩⟩ := bind_eq_ok.mp hread
  refine Gives.bind hs (readBytes_gives htoolchain) fun t _ ht => ?_
  refine Gives.bind ht (readBytes_gives hmanifest) fun u _ hu => ?_
  exact Gives.bind hu (readBytes_gives hlakefile) fun _ _ _ => Gives.pure _

theorem cacheIdentity_gives (hs : (race h git checkout key).Inv s) {binding : DependencyTreeBinding} {identity : CacheIdentity}
    (hread : cacheIdentity h checkout.root binding = .ok identity) :
    Gives h git checkout key identity (cacheIdentity h source binding) s := by
  obtain ⟨toolchain, htoolchain, hread⟩ := bind_eq_ok.mp hread
  obtain ⟨manifest, hmanifest, ⟨⟩⟩ := bind_eq_ok.mp hread
  refine Gives.bind hs (readText_gives hs htoolchain) fun t _ ht => ?_
  exact Gives.bind ht (manifestSha256_gives ht hmanifest) fun _ _ _ => Gives.pure _

/-! The check of an entry -/

/-- An operation whose answer nothing can change any more. -/
theorem op_gives {op : VerifyOp} {a : op.Res} (hop : Publishes h git checkout key op)
    (hread : ∀ t, (race h git checkout key).Evolves s t → ∀ w, (Cache.semantics op w t).1 = .ok a) :
    Gives h git checkout key a (issue op) s :=
  Prog.Returns.perform (fun _ _ _ => hop) fun t w hst _ _ => ⟨a, hread t hst w, fun _ _ _ => rfl⟩

theorem orUnavailable_gives (hs : (race h git checkout key).Inv s) {p : VerifierProgram α} {a : α} {message : String}
    (hp : Gives h git checkout key a p s) : Gives h git checkout key a (Root.orUnavailable p message) s :=
  Prog.Returns.handle hs hp

theorem readEntry_eq {t : Cache} {part : CacheEntry → α} {entry : CacheEntry} (hentry : t.entries key = some entry) :
    t.readEntry key part = .ok (part entry) := by
  simp only [Cache.readEntry, hentry]

theorem Sealed.stored {entry : CacheEntry} (hsealed : Sealed h git checkout entry) :
    checkStoredManifest h (entryBinding h entry.manifest) entry.manifest = .ok () := by
  obtain ⟨entries, -, hmanifest⟩ := bind_eq_ok.mp hsealed.manifest
  have hmanifest : ⟨dependencyTreeSchema, dependencyTreeRoot, [dependencyTreeExclusion], entries⟩ = entry.manifest :=
    Except.ok.inj hmanifest
  rw [← hmanifest]
  exact seq_eq_ok.mpr ⟨ensure_of _ rfl, seq_eq_ok.mpr ⟨ensure_of _ rfl, seq_eq_ok.mpr ⟨ensure_of _ rfl, ensure_of _ rfl⟩⟩⟩

theorem Sealed.current {entry : CacheEntry} (hsealed : Sealed h git checkout entry) :
    checkCurrentTree h (entryBinding h entry.manifest) entry.manifest entry.packages = .ok (entryBinding h entry.manifest) := by
  rw [checkCurrentTree, hsealed.manifest, ok_bind, require, ensure_of _ rfl, ok_bind, require]
  exact seq_eq_ok.mpr ⟨ensure_of _ rfl, rfl⟩

/-- A check that holds is passed. -/
theorem require_gives {condition : Prop} [Decidable condition] {message : String} (hc : condition) :
    Gives h git checkout key () (Library.raise (require condition message)) s :=
  Gives.raise (ensure_of _ hc)

/-- The check accepts a published entry and gives its binding. -/
theorem validate_gives (hs : (race h git checkout key).Inv s) {entry : CacheEntry} (hentry : s.entries key = some entry) :
    Gives h git checkout key (entryBinding h entry.manifest) (validateDependencyCache h git key) s := by
  have hsealed := hs entry hentry
  obtain ⟨toolchain, htoolchain, hidentity⟩ := bind_eq_ok.mp hsealed.identity
  obtain ⟨digest, hdigest, hidentity⟩ := bind_eq_ok.mp hidentity
  have hidentity : entry.identity = ⟨dependencyCacheSchema, strip toolchain, digest, expectedPackageRevisions,
    dependencyManifestFilename, entryBinding h entry.manifest⟩ := (Except.ok.inj hidentity).symm
  have hstored : validateDependencyTreeBinding entry.identity.dependencyTree = .ok (entryBinding h entry.manifest) := by
    rw [hidentity]
    exact validate_binding h _ _
  refine Gives.bind hs (orUnavailable_gives hs (op_gives trivial fun t ht w => readEntry_eq (ht _ _ hentry))) fun a hsa ha => ?_
  refine Gives.bind ha (require_gives (by rw [hidentity])) fun b hab hb => ?_
  refine Gives.bind hb (readText_gives hb htoolchain) fun c hbc hc => ?_
  refine Gives.bind hc (require_gives (by rw [hidentity])) fun d hcd hd => ?_
  refine Gives.bind hd (manifestSha256_gives hd hdigest) fun e hde he => ?_
  refine Gives.bind he (require_gives (by rw [hidentity])) fun f hef hf => ?_
  refine Gives.bind hf (require_gives (by rw [hidentity])) fun g hfg hg => ?_
  refine Gives.bind hg (require_gives (by rw [hidentity])) fun i hgi hi => ?_
  refine Gives.bind hi (Gives.raise hstored) fun j hij hj => ?_
  have hkept : j.entries key = some entry :=
    hij _ _ (hgi _ _ (hfg _ _ (hef _ _ (hde _ _ (hcd _ _ (hbc _ _ (hab _ _ (hsa _ _ hentry))))))))
  refine Gives.bind hj (orUnavailable_gives hj (op_gives trivial fun t ht w => readEntry_eq (ht _ _ hkept))) fun k hjk hk => ?_
  refine Gives.bind hk (Gives.raise hsealed.stored) fun l hkl hl => ?_
  have hkept' := hkl _ _ (hjk _ _ hkept)
  refine Gives.bind hl (op_gives trivial fun t ht w => readEntry_eq (ht _ _ hkept')) fun m hlm hm => ?_
  refine Gives.bind hm (Gives.raise hsealed.packages) fun n hmn hn => ?_
  refine Gives.bind hn (op_gives trivial fun t ht w => readEntry_eq (ht _ _ (hmn _ _ (hlm _ _ hkept')))) fun o _ ho => ?_
  refine Gives.bind ho (Gives.raise hsealed.current) fun p _ hp => ?_
  refine Gives.bind hp (cacheIdentity_gives hp hsealed.identity) fun q _ hq => ?_
  exact Gives.bind hq (require_gives rfl) fun _ _ _ => Gives.pure _

/-! Building and publishing -/

/-- Packages that Git and the walk accept. -/
def Walkable (h : Hashing) (git : Git) (packages : DependencyNode) : Prop :=
  verifyPackageDirectory git packages = .ok () ∧ ∃ manifest, dependencyTreeManifest h packages = .ok manifest

theorem lake_returns {arguments : List String} {seed : Seed} :
    (issue (.lake arguments seed)).Returns (race h git checkout key)
      (fun after _ => after.tree.root.checkLock = .ok () ∧ Walkable h git after.packagesRoot) s := by
  refine Prog.Returns.perform (fun _ _ _ => trivial) fun t w _ _ hmay => ?_
  obtain ⟨after, hafter, hlock, hpackages⟩ := hmay.1.2 arguments seed rfl
  refine ⟨after, ?_, fun _ _ _ => ⟨hlock, hpackages⟩⟩
  change Cache.orFailed (w.lake arguments seed) = _
  rw [hafter]
  rfl

theorem buildSeed_returns (hs : (race h git checkout key).Inv s) {tree : SourceTree} (hlocked : checkout.Locked tree) :
    (buildSeed git).Returns (race h git checkout key) (fun seed _ => Walkable h git seed.packagesRoot) s := by
  refine Gives.bind hs (copyInputTree_gives hs hlocked.1) fun a _ ha => ?_
  refine Gives.bind ha (Gives.raise hlocked.2) fun b _ hb => ?_
  refine Prog.Returns.bind hb lake_returns fun updated c _ hc hupdated => ?_
  refine Gives.bind hc (Gives.raise hupdated.1) fun d _ hd => ?_
  refine Gives.bind hd (Gives.raise hupdated.2.1) fun e _ he => ?_
  refine Prog.Returns.bind he lake_returns fun fetched f _ hf hfetched => ?_
  refine Gives.bind hf (Gives.raise hfetched.2.1) fun g _ hg => ?_
  refine Prog.Returns.bind (Q := fun built _ => Walkable h git built.packagesRoot) hg ?_ fun built i _ hi hbuilt => ?_
  · refine Prog.Returns.bind hg lake_returns fun first j _ hj _ => ?_
    refine Prog.Returns.bind hj lake_returns fun second k _ hk _ => ?_
    refine Prog.Returns.bind hk lake_returns fun third l _ hl hthird => ?_
    exact Prog.Returns.pure fun _ _ _ => hthird.2
  · refine Gives.bind hi (Gives.raise hbuilt.1) fun j _ hj => ?_
    exact Prog.Returns.pure fun _ _ _ => hbuilt

theorem readAll_lookup {root : Root (Except VerifyError)} {paths : List String} {tree : SourceTree}
    (hread : root.readAll paths = .ok tree) {relative : String} (hr : relative ∈ paths) :
    ∃ payload, root.readBytes relative = .ok payload ∧ tree.lookup relative = some payload := by
  induction paths generalizing tree with
  | nil => cases hr
  | cons first rest ih =>
    obtain ⟨payload, hpayload, hread⟩ := bind_eq_ok.mp hread
    obtain ⟨others, hothers, ⟨⟩⟩ := bind_eq_ok.mp hread
    by_cases hfirst : relative = first
    · subst hfirst
      exact ⟨payload, hpayload, by simp⟩
    · obtain ⟨found, hfound, hlookup⟩ := ih hothers ((List.mem_cons.mp hr).resolve_left hfirst)
      refine ⟨found, hfound, ?_⟩
      rw [Keyed.lookup_cons, if_neg hfirst]
      exact hlookup

theorem rootFile_mem {l : InputListing} {paths : List String} (h : inputRelativePaths l = .ok paths) {relative : String}
    (hr : relative ∈ buildInputRootFiles) : relative ∈ paths := by
  obtain ⟨-, h⟩ := seq_eq_ok.mp h
  obtain ⟨-, h⟩ := seq_eq_ok.mp h
  obtain ⟨-, h⟩ := seq_eq_ok.mp h
  obtain ⟨-, ⟨⟩⟩ := seq_eq_ok.mp h
  exact (List.perm_insertionSort _ _).mem_iff.mpr (List.mem_append_left _ hr)

theorem orUnavailable_eq_ok {x : Except VerifyError α} {message : String} {a : α}
    (hx : Root.orUnavailable x message = .ok a) : x = .ok a := by
  cases x with
  | ok b => exact hx
  | error e => cases e <;> cases hx

/-- The toolchain file of a locked checkout is a text. -/
theorem Checkout.Locked.toolchain {tree : SourceTree} (hlocked : checkout.Locked tree) :
    ∃ text, checkout.root.readText "lean-toolchain" = .ok text := by
  obtain ⟨hcopy, hlock⟩ := hlocked
  obtain ⟨texts, htexts, -⟩ := bind_eq_ok.mp hlock
  obtain ⟨text, htext, -⟩ := bind_eq_ok.mp (orUnavailable_eq_ok htexts)
  obtain ⟨paths, hpaths, hread⟩ := bind_eq_ok.mp hcopy
  obtain ⟨_, ⟨rfl⟩, hpaths⟩ := bind_eq_ok.mp hpaths
  rw [raise_eq] at hpaths
  obtain ⟨payload, hpayload, hlookup⟩ :=
    readAll_lookup hread (rootFile_mem hpaths (by decide : "lean-toolchain" ∈ buildInputRootFiles))
  refine ⟨text, bind_eq_ok.mpr ⟨payload, hpayload, ?_⟩⟩
  obtain ⟨copied, hcopied, htext⟩ := bind_eq_ok.mp htext
  simp only [SourceTree.root, hlookup, Except.ok.injEq] at hcopied
  rwa [hcopied]

/-- A locked checkout has an identity for every binding. -/
theorem Checkout.Locked.identity {tree : SourceTree} (hlocked : checkout.Locked tree)
    (hkey : checkout.root.dependencyCacheKey h = .ok key) (binding : DependencyTreeBinding) :
    ∃ identity, cacheIdentity h checkout.root binding = .ok identity := by
  obtain ⟨text, htext⟩ := hlocked.toolchain
  obtain ⟨_, -, hkey⟩ := bind_eq_ok.mp hkey
  obtain ⟨manifest, hmanifest, -⟩ := bind_eq_ok.mp hkey
  exact ⟨_, bind_eq_ok.mpr ⟨text, htext, bind_eq_ok.mpr ⟨_, bind_eq_ok.mpr ⟨manifest, hmanifest, rfl⟩, rfl⟩⟩⟩

theorem makeEntry_returns (hs : (race h git checkout key).Inv s) {tree : SourceTree} (hlocked : checkout.Locked tree)
    (hkey : checkout.root.dependencyCacheKey h = .ok key) {packages : DependencyNode} (hpackages : Walkable h git packages) :
    (makeEntry h packages).Returns (race h git checkout key) (fun entry _ => Sealed h git checkout entry) s := by
  obtain ⟨hgit, manifest, hmanifest⟩ := hpackages
  obtain ⟨identity, hidentity⟩ := hlocked.identity hkey (entryBinding h manifest)
  refine Gives.bind hs (Gives.raise hmanifest) fun a _ ha => ?_
  refine Gives.bind ha (cacheIdentity_gives ha hidentity) fun b _ _ => ?_
  exact Prog.Returns.pure fun _ _ _ => ⟨hgit, hmanifest, hidentity⟩

theorem publishEntry_returns (hs : (race h git checkout key).Inv s) {entry : CacheEntry} (hsealed : Sealed h git checkout entry) :
    (publishEntry entry key).Returns (race h git checkout key) (fun _ t => t.entries key = some entry) s := by
  apply Prog.Returns.handle hs
  refine Prog.Returns.perform (fun _ _ _ => ⟨rfl, hsealed⟩) fun t w _ _ hmay => ?_
  have hfree : t.entries key = none := hmay.2
  have hrename : Cache.semantics (.rename entry key) w t = (.ok (), t.publish key entry) := by
    simp only [Cache.semantics, Cache.renameOnto, hfree]
  refine ⟨(), congrArg Prod.fst hrename, fun u hu _ => hu key entry ?_⟩
  exact (congrArg (fun r => r.2.entries key) hrename).trans (Function.update_self ..)

/-- A call that never renames onto another's entry returns the binding of the entry. -/
theorem ensureDependencyCache_returns (hs : (race h git checkout key).Inv s) {tree : SourceTree} (hlocked : checkout.Locked tree)
    (hkey : checkout.root.dependencyCacheKey h = .ok key) :
    (ensureDependencyCache h git).Returns (race h git checkout key)
      (fun r t => ∃ entry, t.entries key = some entry ∧ r = (key, entryBinding h entry.manifest)) s := by
  have hvalidated : ∀ {t : Cache} {entry : CacheEntry}, (race h git checkout key).Inv t → t.entries key = some entry →
      (do let binding ← validateDependencyCache h git key; pure (key, binding) : VerifierProgram _).Returns
        (race h git checkout key) (fun r t => ∃ entry, t.entries key = some entry ∧
          r = (key, entryBinding h entry.manifest)) t := by
    intro t entry ht hentry
    refine Gives.bind ht (validate_gives ht hentry) fun u htu _ => ?_
    exact Prog.Returns.pure fun v huv _ => ⟨entry, huv _ _ (htu _ _ hentry), rfl⟩
  refine Gives.bind hs (dependencyCacheKey_gives hs hkey) fun a _ ha => ?_
  refine Prog.Returns.bind (Q := fun found t => found = true →
    ∃ entry, t.entries key = some entry) ha ?_ fun found b _ hb hfound => ?_
  · refine Prog.Returns.perform (fun _ _ _ => trivial) fun t w _ _ _ => ⟨_, rfl, fun u hu _ hfound => ?_⟩
    obtain ⟨entry, hentry⟩ := Option.isSome_iff_exists.mp hfound
    exact ⟨entry, hu _ _ hentry⟩
  · cases found with
    | true =>
      obtain ⟨entry, hentry⟩ := hfound rfl
      exact hvalidated hb hentry
    | false =>
      refine Prog.Returns.bind hb (buildSeed_returns hb hlocked) fun seed c _ hc hseed => ?_
      refine Prog.Returns.bind hc (makeEntry_returns hc hlocked hkey hseed) fun entry d _ hd hentry => ?_
      refine Prog.Returns.bind hd (publishEntry_returns hd hentry) fun _ e _ he hpublished => ?_
      exact hvalidated he hpublished

end
end Autolean.Library
