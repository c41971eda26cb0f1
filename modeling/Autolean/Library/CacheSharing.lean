import Autolean.Library.CacheRace

/-! When calls that prepare one cache entry at the same time share it: exactly when none of
them issues its rename after another call has published the entry. -/
namespace Autolean.Library
open Machine Machine.Raising Text Contracts

variable {h : Hashing} {git : Git} {checkout : Checkout} {key : String}

/-! The one operation that can fail for a call that comes too late -/

/-- The rename of the call finds the entry of another. -/
def LosesRace : (op : VerifyOp) → Except VerifyError op.Res → Prop
  | .rename _ _, r => r = .error (.osError .directoryNotEmpty)
  | _, _ => False

/-- The operation leaves the published entries as they are. -/
def VerifyOp.Reads : VerifyOp → Prop
  | .rename _ _ | .lakeIn _ _ _ => False
  | _ => True

section
variable {α β : Type}

theorem raise_reads (x : Except VerifyError α) : (Library.raise x : VerifierProgram α).Issues VerifyOp.Reads := by
  cases x <;> trivial

theorem readBytes_reads (relative : String) : (source.readBytes relative).Issues VerifyOp.Reads :=
  Prog.Issues.perform (by trivial)

theorem relativePaths_reads : source.relativePaths.Issues VerifyOp.Reads := by
  refine Prog.Issues.bind (Prog.Issues.perform (by trivial)) fun found => raise_reads _

theorem readAll_reads (paths : List String) : (source.readAll paths).Issues VerifyOp.Reads := by
  induction paths with
  | nil => exact Prog.Issues.pure _
  | cons relative rest ih =>
    refine Prog.Issues.bind (readBytes_reads relative) fun payload => ?_
    exact Prog.Issues.bind ih fun others => Prog.Issues.pure _

theorem readText_reads (relative : String) : (source.readText relative).Issues VerifyOp.Reads :=
  Prog.Issues.bind (readBytes_reads relative) fun _ => raise_reads _

theorem manifestSha256_reads : (source.manifestSha256 h).Issues VerifyOp.Reads :=
  Prog.Issues.bind (readBytes_reads _) fun _ => Prog.Issues.pure _

theorem dependencyCacheKey_reads : (source.dependencyCacheKey h).Issues VerifyOp.Reads := by
  refine Prog.Issues.bind (readBytes_reads _) fun toolchain => ?_
  refine Prog.Issues.bind (readBytes_reads _) fun manifest => ?_
  exact Prog.Issues.bind (readBytes_reads _) fun lakefile => Prog.Issues.pure _

theorem cacheIdentity_reads (binding : DependencyTreeBinding) : (cacheIdentity h source binding).Issues VerifyOp.Reads := by
  refine Prog.Issues.bind (readText_reads _) fun toolchain => ?_
  exact Prog.Issues.bind manifestSha256_reads fun manifest => Prog.Issues.pure _

theorem orUnavailable_reads {p : VerifierProgram α} {message : String} (hp : p.Issues VerifyOp.Reads) :
    (Root.orUnavailable p message).Issues VerifyOp.Reads := by
  refine Prog.Issues.handle hp fun e => ?_
  cases e <;> trivial

theorem validate_reads (key : String) : (validateDependencyCache h git key).Issues VerifyOp.Reads := by
  refine Prog.Issues.bind (orUnavailable_reads (Prog.Issues.perform (by trivial))) fun identity => ?_
  refine Prog.Issues.bind (raise_reads _) fun _ => ?_
  refine Prog.Issues.bind (readText_reads _) fun toolchain => ?_
  refine Prog.Issues.bind (raise_reads _) fun _ => ?_
  refine Prog.Issues.bind manifestSha256_reads fun manifest => ?_
  refine Prog.Issues.bind (raise_reads _) fun _ => ?_
  refine Prog.Issues.bind (raise_reads _) fun _ => ?_
  refine Prog.Issues.bind (raise_reads _) fun _ => ?_
  refine Prog.Issues.bind (raise_reads _) fun stored => ?_
  refine Prog.Issues.bind (orUnavailable_reads (Prog.Issues.perform (by trivial))) fun manifest => ?_
  refine Prog.Issues.bind (raise_reads _) fun _ => ?_
  refine Prog.Issues.bind (Prog.Issues.perform (by trivial)) fun packages => ?_
  refine Prog.Issues.bind (raise_reads _) fun _ => ?_
  refine Prog.Issues.bind (Prog.Issues.perform (by trivial)) fun packages => ?_
  refine Prog.Issues.bind (raise_reads _) fun binding => ?_
  refine Prog.Issues.bind (cacheIdentity_reads _) fun expected => ?_
  exact Prog.Issues.bind (raise_reads _) fun _ => Prog.Issues.pure _

theorem lake_reads (arguments : List String) (seed : Seed) : (issue (.lake arguments seed)).Issues VerifyOp.Reads :=
  Prog.Issues.perform (by trivial)

theorem buildSeed_reads : (buildSeed git).Issues VerifyOp.Reads := by
  refine Prog.Issues.bind (Prog.Issues.bind relativePaths_reads readAll_reads) fun tree => ?_
  refine Prog.Issues.bind (raise_reads _) fun _ => ?_
  refine Prog.Issues.bind (lake_reads _ _) fun updated => ?_
  refine Prog.Issues.bind (raise_reads _) fun _ => ?_
  refine Prog.Issues.bind (raise_reads _) fun _ => ?_
  refine Prog.Issues.bind (lake_reads _ _) fun fetched => ?_
  refine Prog.Issues.bind (raise_reads _) fun _ => ?_
  refine Prog.Issues.bind ?_ fun built => Prog.Issues.bind (raise_reads _) fun _ => Prog.Issues.pure _
  refine Prog.Issues.bind (lake_reads _ _) fun first => ?_
  refine Prog.Issues.bind (lake_reads _ _) fun second => ?_
  exact Prog.Issues.bind (lake_reads _ _) fun third => Prog.Issues.pure _

theorem makeEntry_reads (packages : DependencyNode) : (makeEntry h packages).Issues VerifyOp.Reads := by
  refine Prog.Issues.bind (raise_reads _) fun manifest => ?_
  exact Prog.Issues.bind (cacheIdentity_reads _) fun identity => Prog.Issues.pure _

theorem endsOn_of_reads {p : VerifierProgram α} (hp : p.Issues VerifyOp.Reads) : p.EndsOn LosesRace := by
  refine Prog.EndsOn.ofIssues hp ?_
  intro op hop r
  cases op <;> first | exact id | exact hop.elim

/-- `except FileExistsError` does not handle the error of a rename that comes too late. -/
theorem publishEntry_endsOn (entry : CacheEntry) (key : String) : (publishEntry entry key).EndsOn LosesRace := by
  refine ⟨?_, fun r => ?_⟩
  · rintro _ rfl
    exact ⟨.osError .directoryNotEmpty, rfl⟩
  · cases r with
    | ok _ => trivial
    | error e =>
      by_cases he : e = .osError .fileExists
      · subst he
        trivial
      · change Prog.EndsOn (I := verifierInterface) LosesRace (if e = .osError .fileExists then pure () else throw e)
        rw [if_neg he]
        trivial

theorem ensureDependencyCache_endsOn : (ensureDependencyCache h git).EndsOn LosesRace := by
  have hvalidated : ∀ key, (do let binding ← validateDependencyCache h git key; pure (key, binding) :
      VerifierProgram (String × DependencyTreeBinding)).EndsOn LosesRace := fun key =>
    endsOn_of_reads (Prog.Issues.bind (validate_reads key) fun _ => Prog.Issues.pure _)
  refine Prog.EndsOn.bind (endsOn_of_reads dependencyCacheKey_reads) fun key => ?_
  refine Prog.EndsOn.bind (endsOn_of_reads (Prog.Issues.perform (by trivial))) fun found => ?_
  cases found with
  | true => exact hvalidated key
  | false =>
    refine Prog.EndsOn.bind (endsOn_of_reads buildSeed_reads) fun seed => ?_
    refine Prog.EndsOn.bind (endsOn_of_reads (makeEntry_reads _)) fun entry => ?_
    exact Prog.EndsOn.bind (publishEntry_endsOn entry key) fun _ => hvalidated key

end

/-! Runs of several calls -/

section
variable {θ : Type} {c : Pool verifierInterface VerifyError Cache θ (String × DependencyTreeBinding)}
  {labels : List (θ × Surroundings)}

/-- Calls of `_ensure_dependency_cache`, none of which has begun. -/
def calls (θ : Type) (h : Hashing) (git : Git) (cache : Cache) :
    Pool verifierInterface VerifyError Cache θ (String × DependencyTreeBinding) :=
  ⟨cache, fun _ => ensureDependencyCache h git⟩

/-- What a call has returned, as the cache stands. -/
def Returned (h : Hashing) (key : String) (r : Except VerifyError (String × DependencyTreeBinding)) (s : Cache) : Prop :=
  ∃ entry, s.entries key = some entry ∧ r = .ok (key, entryBinding h entry.manifest)

theorem calls_sound {start : Cache} {tree : SourceTree} (hstart : (race h git checkout key).Inv start)
    (hlocked : checkout.Locked tree) (hkey : checkout.root.dependencyCacheKey h = .ok key) :
    (calls θ h git start).Sound (race h git checkout key) fun _ => Returned h key := by
  refine ⟨hstart, fun i => (ensureDependencyCache_returns hstart hlocked hkey).mono ?_⟩
  rintro _ t - ⟨_, rfl, entry, hentry, rfl⟩
  exact ⟨entry, hentry, rfl⟩

variable [DecidableEq θ]

/-- The calls that have come to an end returned the entry's key and one binding, and what was
published at any time is still what it was. -/
structure SharesEntry (c : Pool verifierInterface VerifyError Cache θ (String × DependencyTreeBinding)) (key : String)
    (labels : List (θ × Surroundings)) : Prop where
  returns : ∀ i r, (run (Pool.step Cache.semantics) c labels).threads i = .done r → ∃ binding, r = .ok (key, binding)
  agree : ∀ i j a b, (run (Pool.step Cache.semantics) c labels).threads i = .done (.ok a) →
    (run (Pool.step Cache.semantics) c labels).threads j = .done (.ok b) → a = b
  unchanged : ∀ xs ys k entry, labels = xs ++ ys → (run (Pool.step Cache.semantics) c xs).state.entries k = some entry →
    (run (Pool.step Cache.semantics) c labels).state.entries k = some entry

/-- Every step of the run is given the checkout and commands that succeed. -/
def AllGiven (h : Hashing) (git : Git) (checkout : Checkout)
    (c : Pool verifierInterface VerifyError Cache θ (String × DependencyTreeBinding)) (labels : List (θ × Surroundings)) : Prop :=
  StepsMeet (Pool.step Cache.semantics) (Pool.Admits fun _ op w => Given h git checkout op w) c labels

/-- No call of the run renames onto a published entry. -/
def NoneLate (c : Pool verifierInterface VerifyError Cache θ (String × DependencyTreeBinding))
    (labels : List (θ × Surroundings)) :
    Prop :=
  StepsMeet (Pool.step Cache.semantics) (Pool.Admits fun s op _ => RenamesAlone s op) c labels

theorem AllGiven.race (hgiven : AllGiven h git checkout c labels) (hnone : NoneLate c labels) :
    StepsMeet (Pool.step Cache.semantics) (Pool.Admits (race h git checkout key).may) c labels :=
  (hgiven.and hnone).mono fun _ _ hand => hand.1.and hand.2

/-- Calls none of which is late share the entry. -/
theorem sharesEntry_of_noneLate (hsound : c.Sound (race h git checkout key) fun _ => Returned h key)
    (hgiven : AllGiven h git checkout c labels) (hnone : NoneLate c labels) : SharesEntry c key labels := by
  have hmay : StepsMeet (Pool.step Cache.semantics) (Pool.Admits (race h git checkout key).may) c labels := hgiven.race hnone
  obtain ⟨hend, -⟩ := hsound.run hmay
  refine ⟨fun i r hr => ?_, fun i j a b ha hb => ?_, ?_⟩
  · obtain ⟨entry, -, rfl⟩ := hend.result hr
    exact ⟨_, rfl⟩
  · obtain ⟨entry, hentry, ⟨⟩⟩ := hend.result ha
    obtain ⟨entry', hentry', ⟨⟩⟩ := hend.result hb
    cases hentry.symm.trans hentry'
    rfl
  · rintro xs ys k entry rfl hk
    obtain ⟨hxs, hys⟩ := (stepsMeet_append c xs ys).mp hmay
    obtain ⟨-, hkept⟩ := (hsound.run hxs).1.run hys
    rw [run_append]
    exact hkept k entry hk

/-- Where no call raises, none of them was late. -/
theorem noneLate_of_returns (hends : ∀ i, (c.threads i).EndsOn LosesRace)
    (hreturns : ∀ i e, (run (Pool.step Cache.semantics) c labels).threads i ≠ .done (.error e)) :
    NoneLate c labels := by
  refine (Pool.stepsMeet_of_endsOn hends hreturns).mono fun c l => Pool.Admits.mono fun op hop => ?_
  cases op with
  | rename entry k =>
    cases hk : c.state.entries k with
    | none => exact hk
    | some taken =>
      refine absurd ?_ hop
      simp only [LosesRace, Cache.semantics, Cache.renameOnto, hk]
  | readSource | listSource | cacheExists | readIdentity | readManifest | readPackages | lake | requireExt4 | lakeIn
    | writeEvidence => trivial

/-- Where the calls share the entry, none of them was late. -/
theorem noneLate_of_sharesEntry (hends : ∀ i, (c.threads i).EndsOn LosesRace) (hshares : SharesEntry c key labels) :
    NoneLate c labels := by
  refine noneLate_of_returns hends fun i e he => ?_
  obtain ⟨_, hr⟩ := hshares.returns i _ he
  cases hr

/-- Every call comes to its end under every fair schedule, and the calls of a run share the
entry exactly when none of them renames onto it. -/
theorem calls_share_entry_iff {start : Cache} {tree : SourceTree} (hlocked : checkout.Locked tree)
    (hkey : checkout.root.dependencyCacheKey h = .ok key)
    (hstart : ∀ entry, start.entries key = some entry → Sealed h git checkout entry) :
    (∀ (schedule : Nat → θ × Surroundings) (i : θ), (∀ n, ∃ m, n ≤ m ∧ (schedule m).1 = i) →
      ∃ n r, ((calls θ h git start).after Cache.semantics schedule n).threads i = .done r) ∧
    ∀ labels : List (θ × Surroundings), AllGiven h git checkout (calls θ h git start) labels →
      (SharesEntry (calls θ h git start) key labels ↔ NoneLate (calls θ h git start) labels) := by
  refine ⟨fun schedule i hturns => Pool.after_ends hturns, fun labels hgiven => ⟨fun hshares => ?_, fun hnone => ?_⟩⟩
  · exact noneLate_of_sharesEntry (fun _ => ensureDependencyCache_endsOn) hshares
  · exact sharesEntry_of_noneLate (calls_sound hstart hlocked hkey) hgiven hnone

/-! A run in which no call is late -/

section
variable {w : Surroundings} {s : Cache} {tree : SourceTree}

/-- Alone, a part that only reads returns what it is certain to return. -/
theorem reads_alone (hw : ∀ op, Given h git checkout op w) {α : Type} {p : VerifierProgram α} {Q : α → Cache → Prop}
    (hp : p.Issues VerifyOp.Reads) (hs : (race h git checkout key).Inv s)
    (hreturns : p.Returns (race h git checkout key) Q s) :
    ∃ a, p.execute Cache.semantics (fun _ => w) s = (.ok a, fun _ => w, s) ∧ Q a s := by
  induction p with
  | done r =>
    obtain ⟨a, rfl, hq⟩ := hreturns s ((race h git checkout key).refl s) hs
    exact ⟨a, rfl, hq⟩
  | call op k ih =>
    obtain ⟨hread, hreads⟩ := hp
    obtain ⟨-, hnext⟩ := hreturns s ((race h git checkout key).refl s) hs
    have hstate : (Cache.semantics op w s).2 = s := by
      cases op <;> first | rfl | exact hread.elim
    have hmay : (race h git checkout key).may s op w := by
      refine ⟨hw op, ?_⟩
      cases op <;> trivial
    have hrest := hnext w hmay
    change Prog.Meets _ _ (k (Cache.semantics op w s).1) (Cache.semantics op w s).2 at hrest
    change ∃ a, (k (Cache.semantics op w s).1).execute Cache.semantics (fun _ => w) (Cache.semantics op w s).2 = _ ∧ _
    rw [hstate] at hrest ⊢
    exact ih _ (hreads _) hrest

/-- Alone, a call that finds the entry returns its binding. -/
theorem found_alone (hw : ∀ op, Given h git checkout op w) (hs : (race h git checkout key).Inv s)
    (hkey : checkout.root.dependencyCacheKey h = .ok key) {entry : CacheEntry} (hentry : s.entries key = some entry) :
    (ensureDependencyCache h git).execute Cache.semantics (fun _ => w) s =
      (.ok (key, entryBinding h entry.manifest), fun _ => w, s) := by
  obtain ⟨_, hkeyed, hname⟩ := reads_alone hw dependencyCacheKey_reads hs (dependencyCacheKey_gives hs hkey)
  rw [hname] at hkeyed
  obtain ⟨_, hvalid, rfl⟩ := reads_alone hw (validate_reads _) hs (validate_gives hs hentry)
  have hfound : (Cache.semantics (.cacheExists key) w s).1 = .ok true := by
    simp only [Cache.semantics, hentry, Option.isSome_some]
  refine Prog.execute_bind_eq_ok.mpr ⟨_, _, _, hkeyed, ?_⟩
  refine Prog.execute_bind_eq_ok.mpr ⟨true, _, _, Prog.execute_perform_eq_ok.mpr ⟨hfound, rfl, rfl⟩, ?_⟩
  exact Prog.execute_bind_eq_ok.mpr ⟨_, _, _, hvalid, rfl⟩

/-- Alone, a call that finds no entry publishes one and returns its binding. -/
theorem published_alone (hw : ∀ op, Given h git checkout op w) (hs : (race h git checkout key).Inv s)
    (hlocked : checkout.Locked tree) (hkey : checkout.root.dependencyCacheKey h = .ok key)
    (hfree : s.entries key = none) :
    ∃ entry, Sealed h git checkout entry ∧ (ensureDependencyCache h git).execute Cache.semantics (fun _ => w) s =
      (.ok (key, entryBinding h entry.manifest), fun _ => w, s.publish key entry) := by
  obtain ⟨_, hkeyed, hname⟩ := reads_alone hw dependencyCacheKey_reads hs (dependencyCacheKey_gives hs hkey)
  rw [hname] at hkeyed
  obtain ⟨seed, hseed, hwalkable⟩ := reads_alone hw buildSeed_reads hs (buildSeed_returns hs hlocked)
  obtain ⟨entry, hmade, hsealed⟩ := reads_alone hw (makeEntry_reads _) hs (makeEntry_returns hs hlocked hkey hwalkable)
  have hentry : (s.publish key entry).entries key = some entry := Function.update_self ..
  have hs' : (race h git checkout key).Inv (s.publish key entry) := by
    intro published hpublished
    rw [hentry, Option.some.injEq] at hpublished
    exact hpublished ▸ hsealed
  obtain ⟨_, hvalid, rfl⟩ := reads_alone hw (validate_reads _) hs' (validate_gives hs' hentry)
  have hfound : (Cache.semantics (.cacheExists key) w s).1 = .ok false := by
    simp only [Cache.semantics, hfree, Option.isSome_none]
  have hrename : Cache.semantics (.rename entry key) w s = (.ok (), s.publish key entry) := by
    simp only [Cache.semantics, Cache.renameOnto, hfree]
  have hpublished : (publishEntry entry key).execute Cache.semantics (fun _ => w) s =
      (.ok (), fun _ => w, s.publish key entry) :=
    Prog.execute_handle_ok (Prog.execute_perform_eq_ok.mpr ⟨congrArg Prod.fst hrename, rfl, congrArg Prod.snd hrename⟩)
  refine ⟨entry, hsealed, Prog.execute_bind_eq_ok.mpr ⟨_, _, _, hkeyed, ?_⟩⟩
  refine Prog.execute_bind_eq_ok.mpr ⟨false, _, _, Prog.execute_perform_eq_ok.mpr ⟨hfound, rfl, rfl⟩, ?_⟩
  refine Prog.execute_bind_eq_ok.mpr ⟨_, _, _, hseed, ?_⟩
  refine Prog.execute_bind_eq_ok.mpr ⟨_, _, _, hmade, ?_⟩
  refine Prog.execute_bind_eq_ok.mpr ⟨_, _, _, hpublished, ?_⟩
  exact Prog.execute_bind_eq_ok.mpr ⟨_, _, _, hvalid, rfl⟩

/-- Two calls in turn: the first publishes the entry and the second finds it. -/
theorem run_in_turn {θ : Type} [DecidableEq θ] (hw : ∀ op, Given h git checkout op w)
    (hs : (race h git checkout key).Inv s) (hlocked : checkout.Locked tree)
    (hkey : checkout.root.dependencyCacheKey h = .ok key) (hfree : s.entries key = none) {i j : θ} (hij : i ≠ j) :
    ∃ (threads : List θ) (entry : CacheEntry),
      run (Pool.step Cache.semantics) (calls θ h git s) (threads.map fun k => (k, w)) =
        ⟨s.publish key entry, Function.update
          (Function.update (calls θ h git s).threads i (.done (.ok (key, entryBinding h entry.manifest))))
          j (.done (.ok (key, entryBinding h entry.manifest)))⟩ := by
  obtain ⟨entry, hsealed, hfirst⟩ := published_alone hw hs hlocked hkey hfree
  have hentry : (s.publish key entry).entries key = some entry := Function.update_self ..
  have hs' : (race h git checkout key).Inv (s.publish key entry) := by
    intro published hpublished
    rw [hentry, Option.some.injEq] at hpublished
    exact hpublished ▸ hsealed
  obtain ⟨n, hn⟩ := Pool.run_alone (c := calls θ h git s) (i := i) rfl hfirst
  have hwaiting : (run (Pool.step Cache.semantics) (calls θ h git s) (List.replicate n (i, w))).threads j =
      ensureDependencyCache h git := by
    rw [hn]
    exact Function.update_of_ne hij.symm ..
  have hsecond := found_alone hw hs' hkey hentry
  have hpublished : (run (Pool.step Cache.semantics) (calls θ h git s) (List.replicate n (i, w))).state =
      s.publish key entry := congrArg Pool.state hn
  rw [← hpublished] at hsecond
  obtain ⟨m, hm⟩ := Pool.run_alone hwaiting hsecond
  refine ⟨List.replicate n i ++ List.replicate m j, entry, ?_⟩
  rw [List.map_append, List.map_replicate, List.map_replicate, run_append, hm, hn]

end

/-! A run in which one call is late -/

/-- Alone, a call that has not returned comes to its rename and leaves the cache as it was. -/
theorem reaches_rename {w : Surroundings} (hw : ∀ op, Given h git checkout op w) {i : θ}
    (hsound : c.Sound (race h git checkout key) fun _ => Returned h key) (hfree : c.state.entries key = none) :
    ∃ n entry k, (run (Pool.step Cache.semantics) c (List.replicate n (i, w))).Sound (race h git checkout key)
        (fun _ => Returned h key) ∧
      (run (Pool.step Cache.semantics) c (List.replicate n (i, w))).state = c.state ∧
      (run (Pool.step Cache.semantics) c (List.replicate n (i, w))).threads =
        Function.update c.threads i (.call (.rename entry key) k) := by
  generalize hp : c.threads i = p
  induction p generalizing c with
  | done r =>
    obtain ⟨entry, hentry, -⟩ := hsound.result hp
    rw [hfree] at hentry
    cases hentry
  | call op k ih =>
    have hallowed := hsound.allowed hp
    by_cases hrename : ∃ entry k', op = .rename entry k'
    · obtain ⟨entry, k', rfl⟩ := hrename
      obtain ⟨rfl, -⟩ := hallowed
      refine ⟨0, entry, k, hsound, rfl, ?_⟩
      rw [← hp]
      exact (Function.update_eq_self ..).symm
    · have hmay : c.Admits (race h git checkout key).may (i, w) := by
        simp only [Pool.Admits, hp]
        refine ⟨hw op, ?_⟩
        cases op with
        | rename entry k' => exact absurd ⟨entry, k', rfl⟩ hrename
        | readSource | listSource | cacheExists | readIdentity | readManifest | readPackages | lake | requireExt4 | lakeIn
          | writeEvidence => trivial
      have hstate : (Cache.semantics op w c.state).2 = c.state := by
        obtain heq | ⟨entry, k', rfl, -⟩ := semantics_cases op (by rintro _ _ _ rfl; exact hallowed) w c.state
        · exact heq
        · exact absurd ⟨entry, k', rfl⟩ hrename
      obtain ⟨hsound', -⟩ := hsound.step hmay
      have hstep := Pool.step_call (race h git checkout key).exec (l := (i, w)) hp
      have hfree' : (c.step (race h git checkout key).exec (i, w)).state.entries key = none := by
        rw [hstep]
        exact (congrArg (fun s => s.entries key) hstate).trans hfree
      obtain ⟨n, entry, k', hs, ht, hthreads⟩ := ih _ hsound' hfree' (by rw [hstep]; exact Function.update_self ..)
      refine ⟨n + 1, entry, k', hs, ht.trans ?_, hthreads.trans ?_⟩
      · rw [hstep]
        exact hstate
      · rw [hstep]
        exact Function.update_idem ..

/-- Two calls that both come to their rename before either issues it: the second is late. -/
theorem late_run {w : Surroundings} (hw : ∀ op, Given h git checkout op w) {i j : θ} (hij : i ≠ j)
    (hsound : c.Sound (race h git checkout key) fun _ => Returned h key) (hfree : c.state.entries key = none) :
    ∃ n m, ¬ NoneLate c (List.replicate n (i, w) ++ (List.replicate m (j, w) ++ [(j, w), (i, w)])) := by
  obtain ⟨n, entry, k, hsound₁, hstate₁, hthreads₁⟩ := reaches_rename hw (i := i) hsound hfree
  obtain ⟨m, entry', k', -, hstate₂, hthreads₂⟩ := reaches_rename hw (i := j) hsound₁ (by rw [hstate₁, hfree])
  refine ⟨n, m, fun hnone => ?_⟩
  obtain ⟨-, hnone⟩ := (stepsMeet_append ..).mp hnone
  obtain ⟨-, -, hlate, -⟩ := (stepsMeet_append ..).mp hnone
  generalize run (Pool.step Cache.semantics) (run (Pool.step Cache.semantics) c (List.replicate n (i, w)))
    (List.replicate m (j, w)) = d at hstate₂ hthreads₂ hlate
  have hj : d.threads j = .call (.rename entry' key) k' := by
    rw [hthreads₂]
    exact Function.update_self ..
  have hi : d.threads i = .call (.rename entry key) k := by
    rw [hthreads₂, Function.update_of_ne hij, hthreads₁]
    exact Function.update_self ..
  rw [Pool.step_call Cache.semantics (l := (j, w)) hj] at hlate
  simp only [Pool.Admits, Function.update_of_ne hij, hi, RenamesAlone, Cache.semantics, Cache.renameOnto, hstate₂, hstate₁,
    hfree, Cache.publish, Function.update_self] at hlate
  cases hlate

end

/-! A sample checkout -/

def samplePackage (p : String × String) : JsonValue Unit :=
  .dict (JsonDict.of [("name", .text p.1), ("rev", .text p.2), ("inputRev", .text "v4.28.0"),
    ("inherited", .bool (p.1 != "mathlib"))])

def sampleManifest : JsonDict Unit :=
  JsonDict.of [("version", .text "1.1.0"), ("name", .text "AutoLeanLibrary"),
    ("packages", .list (expectedPackageRevisions.map samplePackage))]

theorem sampleManifest_plain : (JsonTree.dict sampleManifest).Everywhere JsonTree.Plain := by
  have hpackages : ∀ v ∈ expectedPackageRevisions.map samplePackage, v.Everywhere JsonTree.Plain := by
    refine List.forall_mem_map.mpr fun p _ => JsonTree.everywhere_plain_of (by simp) ?_
    simp only [List.forall_mem_cons, List.not_mem_nil, false_imp_iff, implies_true, and_true]
    exact ⟨PyText.isScalar_of _, PyText.isScalar_of _, PyText.isScalar_of _, trivial⟩
  refine JsonTree.everywhere_plain_of (by simp) ?_
  simp only [List.forall_mem_cons, List.not_mem_nil, false_imp_iff, implies_true, and_true]
  exact ⟨PyText.isScalar_of _, PyText.isScalar_of _, JsonTree.everywhere_list.mpr ⟨trivial, hpackages⟩⟩

def sampleTree : SourceTree := [
  ("AutoLeanLibrary.lean", []),
  ("AutoLeanLibrary/Basic.lean", []),
  ("lake-manifest.json", canonicalJsonBytes (.dict sampleManifest)),
  ("lakefile.lean", encode ("require mathlib from git " ++ requiredDeclaration)),
  ("lean-toolchain", encode expectedToolchain)]

def sampleCheckout : Checkout where
  file relative := (sampleTree.lookup relative).elim (.error .fileNotFound) .ok
  listing := sampleTree.listing

theorem sample_listing : inputRelativePaths sampleTree.listing = .ok sampleTree.paths := by
  decide +kernel

theorem sampleTree_locked : sampleTree.root.checkLock = .ok () := by
  obtain ⟨manifest, hsorted, hread⟩ := readManifest_canonicalJsonBytes sampleManifest_plain
  have htexts : Root.orUnavailable (m := Except VerifyError) (do
      let toolchain ← sampleTree.root.readText "lean-toolchain"
      let lakefile ← sampleTree.root.readText "lakefile.lean"
      pure (strip toolchain, lakefile)) "required Lake input is unavailable" =
      .ok (expectedToolchain.toList, "require mathlib from git ".toList ++ requiredDeclaration.toList) := by
    have htoolchain : strip (universalNewlines expectedToolchain.toList) = expectedToolchain.toList := by decide +kernel
    have hlakefile : '\r' ∉ ("require mathlib from git " ++ requiredDeclaration).toList := by decide +kernel
    have htoolchainText : sampleTree.root.readText "lean-toolchain" = .ok (universalNewlines expectedToolchain.toList) :=
      decode_encode expectedToolchain
    have hlakefileText : sampleTree.root.readText "lakefile.lean" =
        .ok (universalNewlines ("require mathlib from git " ++ requiredDeclaration).toList) :=
      decode_encode ("require mathlib from git " ++ requiredDeclaration)
    rw [htoolchainText, hlakefileText, universalNewlines_eq_self.mpr hlakefile, String.toList_append]
    rw [ok_bind, ok_bind, htoolchain]
    exact orUnavailable_ok _ _
  have hmanifest : Root.orUnavailable (sampleTree.root.readBytes "lake-manifest.json") "invalid lake-manifest.json" =
      .ok (canonicalJsonBytes (.dict sampleManifest)) := rfl
  have hcheck : checkManifest manifest = .ok () := by
    have hsample : checkManifest ((JsonTree.sortFields sampleManifest).insertionSort fun a b => a.1 ≤ b.1) = .ok () := by
      decide +kernel
    rw [JsonTree.sortKeys] at hsorted
    rwa [JsonTree.dict.inj hsorted] at hsample
  have hdeclared : requiredDeclaration.toList <:+: "require mathlib from git ".toList ++ requiredDeclaration.toList :=
    ⟨_, [], List.append_nil _⟩
  rw [Root.checkLock, htexts, ok_bind, hmanifest]
  refine seq_eq_ok.mpr ⟨require_of rfl, seq_eq_ok.mpr ⟨require_of hdeclared, ?_⟩⟩
  rw [ok_bind, hread]
  exact bind_eq_ok.mpr ⟨manifest, rfl, (raise_eq _).trans hcheck⟩

theorem sample_locked : sampleCheckout.Locked sampleTree := by
  refine ⟨?_, sampleTree_locked⟩
  rw [Root.copyInputTree, Root.relativePaths]
  change ((do let found ← Except.ok sampleTree.listing; raise (inputRelativePaths found)) >>= _) = _
  rw [ok_bind, sample_listing]
  rfl

def samplePackageRoot (revision : String) : DependencyNode :=
  .directory [(".git", .directory [("HEAD", .file (encode revision))])]

def samplePackages : DependencyNode :=
  .directory (expectedPackageRevisions.map fun p => (p.1, samplePackageRoot p.2))

def sampleGit : Git where
  revision node :=
    match node.find [".git", "HEAD"] with
    | some (.file content) => String.fromUTF8? ⟨content.toArray⟩
    | _ => none
  status _ := some ""

def sampleHashing : Hashing := ⟨fun _ => List.replicate 32 0⟩

theorem visitChildren_sample (h : Hashing) (root : DependencyNode) (parent : List String)
    {children : List (String × DependencyNode)}
    (hc : ∀ c ∈ children, safeDependencyName c.1 = .ok () ∧ c.1 ≠ ".git" ∧ ∃ revision, c.2 = samplePackageRoot revision) :
    ∃ entries, visitChildren h root parent children = .ok entries := by
  induction children with
  | nil => exact ⟨[], by rw [visitChildren]; rfl⟩
  | cons c rest ih =>
    obtain ⟨name, node⟩ := c
    obtain ⟨⟨hsafe, hname, revision, rfl⟩, hrest⟩ := List.forall_mem_cons.mp hc
    obtain ⟨entries, hentries⟩ := ih hrest
    have hgit : safeDependencyName ".git" = .ok () := safeDependencyName_of (by simp)
    simp only [visitChildren, hsafe, ok_bind, samplePackageRoot, visit, if_neg hname, hgit, if_true, hentries]
    exact ⟨_, rfl⟩

theorem sortedChildren_sample (l : List (String × String)) :
    DependencyNode.sortedChildren (l.map fun p => (p.1, samplePackageRoot p.2)) = l.map fun p =>
      (p.1, samplePackageRoot p.2) := by
  induction l with
  | nil => rfl
  | cons p rest ih =>
    rw [List.map_cons, DependencyNode.sortedChildren, ih]
    congr 2

theorem samplePackages_sorted : samplePackages.sorted = .directory
    ((expectedPackageRevisions.map fun p => (p.1, samplePackageRoot p.2)).insertionSort fun a b => a.1 ≤ b.1) := by
  rw [samplePackages, DependencyNode.sorted, sortedChildren_sample]

theorem expectedNames_safe : ∀ p ∈ expectedPackageRevisions, safeDependencyName p.1 = .ok () ∧ p.1 ≠ ".git" := by
  intro p hp
  refine ⟨safeDependencyName_of ?_, ?_⟩ <;> revert p <;> simp [expectedPackageRevisions]

theorem samplePackages_walk : ∃ manifest, dependencyTreeManifest sampleHashing samplePackages = .ok manifest := by
  have hchildren : ∀ c ∈ (expectedPackageRevisions.map fun p => (p.1, samplePackageRoot p.2)).insertionSort fun a b => a.1 ≤ b.1,
      safeDependencyName c.1 = .ok () ∧ c.1 ≠ ".git" ∧ ∃ revision, c.2 = samplePackageRoot revision := by
    intro c hc
    obtain ⟨p, hp, rfl⟩ := List.mem_map.mp ((List.perm_insertionSort _ _).mem_iff.mp hc)
    exact ⟨(expectedNames_safe p hp).1, (expectedNames_safe p hp).2, p.2, rfl⟩
  obtain ⟨entries, hentries⟩ := visitChildren_sample sampleHashing samplePackages.sorted [] hchildren
  have hwalk : dependencyTreeEntries sampleHashing samplePackages = .ok entries := by
    rw [dependencyTreeEntries]
    rw [samplePackages_sorted] at hentries ⊢
    exact hentries
  exact ⟨_, bind_eq_ok.mpr ⟨entries, hwalk, rfl⟩⟩

theorem expectedRevisions_clean : ∀ p ∈ expectedPackageRevisions,
    p.2.toList ≠ [] ∧ p.2.toList.all (fun c => !isSpace c) = true := by
  decide +kernel

theorem samplePackages_child : ∀ p ∈ expectedPackageRevisions, samplePackages.child p.1 = some (samplePackageRoot p.2) := by
  simp only [expectedPackageRevisions, List.forall_mem_cons, List.not_mem_nil, false_imp_iff, implies_true, and_true]
  exact ⟨rfl, rfl, rfl, rfl, rfl, rfl, rfl, rfl, rfl⟩

theorem samplePackages_verified : verifyPackageDirectory sampleGit samplePackages = .ok () := by
  rw [verifyPackageDirectory, forM_eq_ok]
  intro p hp
  obtain ⟨hne, hall⟩ := expectedRevisions_clean p hp
  have hspace : ∀ c ∈ p.2.toList, isSpace c = false := by simpa using hall
  have hstrip : strip p.2.toList = p.2.toList := strip_eq_self hspace
  have hnewline : '\n' ∉ p.2.toList := fun hmem => absurd (hspace _ hmem) (by decide)
  have hreturn : '\r' ∉ p.2.toList := fun hmem => absurd (hspace _ hmem) (by decide)
  have hrevision : gitRevision sampleGit (samplePackageRoot p.2) = .ok p.2 := by
    have hhead : sampleGit.revision (samplePackageRoot p.2) = some p.2 :=
      fromUTF8?_encode p.2
    rw [gitRevision, hhead]
    simp only [hstrip, String.ofList_toList]
    exact seq_eq_ok.mpr ⟨ensure_of _ ⟨hne, hnewline, hreturn⟩, rfl⟩
  rw [verifyPackage, samplePackages_child p hp]
  refine bind_eq_ok.mpr ⟨p.2, hrevision, seq_eq_ok.mpr ⟨ensure_of _ rfl, ?_⟩⟩
  exact ensure_of _ rfl

theorem sample_hexdigest (payload : Bytes) : hexdigest sampleHashing payload = String.ofList (List.replicate 64 '0') := rfl

theorem sample_key : sampleCheckout.root.dependencyCacheKey sampleHashing = .ok (String.ofList (List.replicate 64 '0')) :=
  bind_eq_ok.mpr ⟨_, rfl, bind_eq_ok.mpr ⟨_, rfl, bind_eq_ok.mpr ⟨_, rfl, congrArg Except.ok (sample_hexdigest _)⟩⟩⟩

/-- Lake leaves the locked tree and the packages at their revisions. -/
def sampleSurroundings : Surroundings where
  checkout := sampleCheckout
  lake _ _ := some ⟨sampleTree, some samplePackages⟩
  ext4 := true
  lakeIn _ _ packages := some ("", packages)
  evidenceWritten := true

theorem sample_given (op : VerifyOp) : Given sampleHashing sampleGit sampleCheckout op sampleSurroundings := by
  refine ⟨rfl, fun arguments seed _ => ⟨_, rfl, sampleTree_locked, samplePackages_verified, samplePackages_walk⟩⟩

theorem sample_allGiven (c : Pool verifierInterface VerifyError Cache Bool (String × DependencyTreeBinding))
    (threads : List Bool) :
    AllGiven sampleHashing sampleGit sampleCheckout c (threads.map fun i => (i, sampleSurroundings)) := by
  induction threads generalizing c with
  | nil => trivial
  | cons i rest ih =>
    refine ⟨?_, ih _⟩
    unfold Pool.Admits
    cases c.threads i with
    | done r => trivial
    | call op k => exact sample_given op

theorem sampleEmpty_sealed : (race sampleHashing sampleGit sampleCheckout (String.ofList (List.replicate 64 '0'))).Inv
    ⟨fun _ => none⟩ := by
  rintro entry ⟨⟩

/-- Two calls in turn come to their ends and share the entry. -/
theorem calls_share_entry_iff_sample : ∃ (labels : List (Bool × Surroundings)) (binding : DependencyTreeBinding),
    AllGiven sampleHashing sampleGit sampleCheckout (calls Bool sampleHashing sampleGit ⟨fun _ => none⟩) labels ∧
    NoneLate (calls Bool sampleHashing sampleGit ⟨fun _ => none⟩) labels ∧
    SharesEntry (calls Bool sampleHashing sampleGit ⟨fun _ => none⟩) (String.ofList (List.replicate 64 '0')) labels ∧
    ∀ i, (run (Pool.step Cache.semantics) (calls Bool sampleHashing sampleGit ⟨fun _ => none⟩) labels).threads i =
      .done (.ok (String.ofList (List.replicate 64 '0'), binding)) := by
  obtain ⟨threads, entry, hrun⟩ := run_in_turn (θ := Bool) sample_given sampleEmpty_sealed sample_locked sample_key rfl
    (i := true) (j := false) (by decide)
  have hdone : ∀ i, (run (Pool.step Cache.semantics) (calls Bool sampleHashing sampleGit ⟨fun _ => none⟩)
      (threads.map fun i => (i, sampleSurroundings))).threads i =
      .done (.ok (String.ofList (List.replicate 64 '0'), entryBinding sampleHashing entry.manifest)) := by
    intro i
    rw [hrun]
    cases i <;> rfl
  have hgiven := sample_allGiven (calls Bool sampleHashing sampleGit ⟨fun _ => none⟩) threads
  have hnone := noneLate_of_returns (fun _ => ensureDependencyCache_endsOn) fun i e he => by
    rw [hdone i] at he
    cases he
  exact ⟨_, _, hgiven, hnone,
    ((calls_share_entry_iff sample_locked sample_key sampleEmpty_sealed).2 _ hgiven).mpr hnone, hdone⟩

/-- Two calls that prepare the entry in parallel: the one that renames last raises. -/
theorem late_call_raises : ¬ ∀ labels : List (Bool × Surroundings),
    AllGiven sampleHashing sampleGit sampleCheckout (calls Bool sampleHashing sampleGit ⟨fun _ => none⟩) labels →
    SharesEntry (calls Bool sampleHashing sampleGit ⟨fun _ => none⟩) (String.ofList (List.replicate 64 '0')) labels := by
  intro hall
  have hsound := calls_sound (θ := Bool) sampleEmpty_sealed sample_locked sample_key
  obtain ⟨n, m, hlate⟩ := late_run sample_given (i := true) (j := false) (by decide) hsound rfl
  have hgiven := sample_allGiven (calls Bool sampleHashing sampleGit ⟨fun _ => none⟩)
    (List.replicate n true ++ (List.replicate m false ++ [false, true]))
  simp only [List.map_append, List.map_replicate, List.map_cons, List.map_nil] at hgiven
  exact hlate (noneLate_of_sharesEntry (fun _ => ensureDependencyCache_endsOn) (hall _ hgiven))

end Autolean.Library
