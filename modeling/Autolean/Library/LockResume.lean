import Autolean.Library.LockUpdate

/-! What killed and resumed updates of the source lock leave: a lock that is as it was or valid,
and no package downloaded again whose archive is locked and cached. -/
namespace Autolean.Library.SourceLock
open Machine Machine.Raising Text

/-! The lock document is read back -/

section Document
variable {manifest : Manifest} {packages : List GitPackage} {hashes stated : Hashes} {document : JsonDict Unit}

theorem expectExactKeys_of {fields : List (String × JsonValue Unit)} {expected : List String} (label : PyText)
    (h : fields.map Prod.fst = expected) : expectExactKeys (JsonDict.of fields) expected label = .ok () := by
  apply ensure_of
  rw [JsonDict.keys_of, h]
  exact ⟨List.Subset.refl _, List.Subset.refl _⟩

theorem validateRecord_archiveRecord {package : GitPackage} {digest : Option PyText} (h : ∀ d ∈ digest, IsHex 64 d) :
    validateRecord package (archiveRecord package digest) = .ok digest := by
  unfold archiveRecord validateRecord
  cases digest with
  | none => simp [expectExactKeys_of, isText, requireFor, pure, Except.pure]
  | some d => simp [expectExactKeys_of, isText, requireFor, pure, Except.pure, h d rfl]

theorem validateRecords_records (hashes start : Hashes) (packages : List GitPackage)
    (h : ∀ p ∈ packages, ∀ d ∈ hashes p.name, IsHex 64 d) :
    ∃ stated, validateRecords (packages.zip (packages.map fun p => archiveRecord p
      (hashes p.name))) start = .ok stated ∧
      (∀ p ∈ packages, stated p.name = hashes p.name) ∧ ∀ name ∉ packages.map (·.name), stated name = start name := by
  induction packages generalizing start with
  | nil => exact ⟨start, rfl, by simp, fun _ _ => rfl⟩
  | cons p rest ih =>
    obtain ⟨hp, hrest⟩ := List.forall_mem_cons.mp h
    obtain ⟨stated, hstated, hin, hout⟩ := ih (Function.update start p.name (hashes p.name)) hrest
    refine ⟨stated, ?_, ?_, ?_⟩
    · rw [List.map_cons, List.zip_cons_cons, validateRecords, validateRecord_archiveRecord hp, ok_bind]
      exact hstated
    · refine List.forall_mem_cons.mpr ⟨?_, hin⟩
      by_cases hmem : p.name ∈ rest.map (·.name)
      · obtain ⟨q, hq, hname⟩ := List.mem_map.mp hmem
        rw [← hname]
        exact hin q hq
      · rw [hout _ hmem, Function.update_self]
    · intro name hname
      rw [List.map_cons, List.mem_cons, not_or] at hname
      rw [hout name hname.2, Function.update_of_ne hname.1]

theorem stateOf_congr
    (h : ∀ p ∈ packages, stated p.name = hashes p.name) : stateOf packages stated = stateOf packages hashes := by
  have hiff : IsComplete packages stated ↔ IsComplete packages hashes :=
    forall₂_congr fun p hp => by rw [h p hp]
  unfold stateOf
  simp only [hiff]

/-- What a lock document states for its packages are the hashes it was made of. -/
theorem statedHashes_lockDocument (h : lockDocument manifest.sha256 packages hashes = .ok document) :
    ∃ stated, statedHashes manifest packages (some (.dict document)) false = .ok stated ∧
      ∀ p ∈ packages, stated p.name = hashes p.name := by
  obtain ⟨records, hrecords, hdocument⟩ := bind_eq_ok.mp h
  have hhex : ∀ p ∈ packages, ∀ d ∈ hashes p.name, IsHex 64 d := by
    intro p hp
    obtain ⟨record, -, hrecord⟩ := (mapM_ok hrecords).1 p hp
    exact (ensure_bind_eq_ok.mp hrecord).1
  have hmap : packages.mapM (lockRecord hashes) = .ok (packages.map fun p => archiveRecord p (hashes p.name)) :=
    mapM_of fun p hp => ensure_bind_eq_ok.mpr ⟨hhex p hp, rfl⟩
  rw [hmap, Except.ok.injEq] at hrecords
  cases hrecords
  cases hdocument
  obtain ⟨stated, hstated, hin, -⟩ := validateRecords_records hashes (fun _ => none) packages hhex
  refine ⟨stated, ?_, hin⟩
  rw [statedHashes, readJson, ok_bind, validateLockDocument]
  simp [expectExactKeys_of, isText, require, requireFor, JsonTree.text, hstated, stateOf_congr hin, pure, Except.pure]

/-- A complete lock states hashes for all packages. -/
theorem statedHashes_complete_iff {json : JsonFile} :
    statedHashes manifest packages json true = .ok stated ↔
      statedHashes manifest packages json false = .ok stated ∧ IsComplete packages stated := by
  cases hread : readJson "source lock" json with
  | error e => simp [statedHashes, hread]
  | ok document =>
    simp only [statedHashes, hread, ok_bind, validateLockDocument, expectExactKeys, require, requireFor,
      ensure_bind_eq_ok,
      and_assoc]
    split
    · simp only [bind_eq_ok, ensure_eq_ok, exists_const, forall_const, Bool.false_eq_true, IsEmpty.forall_iff, true_and]
      constructor
      · rintro ⟨h₁, h₂, h₃, h₄, h₅, hlength, hashes, hhashes, hstate, hcomplete, hpure⟩
        cases hpure
        exact ⟨h₁, h₂, h₃, h₄, h₅, ⟨hlength, _, hhashes, hstate, rfl⟩, hcomplete⟩
      · rintro ⟨h₁, h₂, h₃, h₄, h₅, ⟨hlength, hashes, hhashes, hstate, hpure⟩, hcomplete⟩
        cases hpure
        exact ⟨h₁, h₂, h₃, h₄, h₅, hlength, _, hhashes, hstate, hcomplete, rfl⟩
    · simp [lockError, lockErrorFor]

end Document

/-! Runs -/

/-- The lock states the digest of the package, and its cached archive has it. -/
def Settled (tools : Tools) (manifest : Manifest) (packages : List GitPackage) (w : World) (p : GitPackage)
    (digest : PyText) :
    Prop :=
  ∃ stated, statedHashes manifest packages w.lock.json false = .ok stated ∧ stated p.name = some digest ∧
    validateSourceArchive tools (w.cache p.cachePath) p = .ok digest

/-- No other package is cached at the same path. -/
def Alone (packages : List GitPackage) (p : GitPackage) : Prop := ∀ q ∈ packages, q.cachePath = p.cachePath → q = p

/-- What every operation of an update does: it leaves the lock or a valid one, and keeps what is settled. -/
structure Progress (tools : Tools) (manifest : Manifest) (packages : List GitPackage) (w w' : World) : Prop where
  lock : w'.lock = w.lock ∨ ∃ stated, statedHashes manifest packages w'.lock.json false = .ok stated
  settled : ∀ p ∈ packages, Alone packages p → ∀ digest, Settled tools manifest packages w p digest →
    Settled tools manifest packages w' p digest ∧ w'.requests.count p = w.requests.count p

/-- The program makes progress, and leaves `Q` when it returns. -/
def Leads (tools : Tools) (manifest : Manifest) (packages : List GitPackage) {α : Type} (Q : α → World → Prop)
    (p : LockProg α)
    (w : World) : Prop :=
  p.Moves exec (Progress tools manifest packages) (fun r w => ∀ a, r = .ok a → Q a w) w

/-- The hashes an update holds against the lock and the cache. -/
structure Tracks (tools : Tools) (manifest : Manifest) (packages : List GitPackage) (hashes : Hashes)
    (w : World) : Prop where
  recorded : ∀ p ∈ packages, ∀ digest, hashes p.name = some digest → ∃ q ∈ packages, q.cachePath = p.cachePath ∧
    ∃ digest', hashes q.name = some digest' ∧ validateSourceArchive tools (w.cache p.cachePath) q = .ok digest'
  fresh : ∀ p ∈ packages, Alone packages p → hashes p.name = none → ∀ digest,
    ¬ Settled tools manifest packages w p digest

section Runs
variable {tools : Tools} {manifest : Manifest} {options : Options} {packages : List GitPackage} {w w' : World}
  {hashes : Hashes} {p q : GitPackage} {α β : Type}

theorem Progress.refl (w : World) : Progress tools manifest packages w w := ⟨.inl rfl, fun _ _ _ _ h => ⟨h, rfl⟩⟩

theorem Progress.trans {w'' : World} (h : Progress tools manifest packages w w')
    (h' : Progress tools manifest packages w' w'') :
    Progress tools manifest packages w w'' where
  lock := by
    rcases h'.lock with heq | hvalid
    · rw [heq]
      exact h.lock
    · exact .inr hvalid
  settled p hp halone digest hsettled := by
    obtain ⟨hmid, hcount⟩ := h.settled p hp halone digest hsettled
    obtain ⟨hlast, hcount'⟩ := h'.settled p hp halone digest hmid
    exact ⟨hlast, hcount'.trans hcount⟩

namespace Leads
variable {Q : α → World → Prop} {Q' : β → World → Prop}

theorem bind {p : LockProg α} {f : α → LockProg β} (h : Leads tools manifest packages Q p w)
    (hf : ∀ a w, Q a w → Leads tools manifest packages Q' (f a) w) : Leads tools manifest packages Q' (p >>= f) w :=
  Prog.Moves.bind h (fun a w ha => hf a w (ha a rfl)) (fun _ _ _ => nofun)

theorem pure {a : α} (h : Q a w) : Leads tools manifest packages Q (Pure.pure a) w := by
  rintro _ ⟨rfl⟩
  exact h

theorem raised {e : LockFault} : Leads tools manifest packages Q (.done (.error e)) w := nofun

theorem ofExcept_bind {x : Raises α} {f : α → LockProg β}
    (h : ∀ a, x = .ok a → Leads tools manifest packages Q' (f a) w) :
    Leads tools manifest packages Q' (Prog.ofExcept x >>= f) w :=
  Prog.Moves.ofExcept_bind h fun _ _ => nofun

theorem orElse_bind {x : Raises α} {fallback : α} {f : α → LockProg β}
    (h : ∀ a, x = .ok a → Leads tools manifest packages Q' (f a) w)
    (hfallback : (∀ a, x ≠ .ok a) → Leads tools manifest packages Q' (f fallback) w) :
    Leads tools manifest packages Q' (orElse x fallback >>= f) w := by
  unfold orElse
  split
  · exact h _ rfl
  · exact hfallback nofun
  · exact raised

/-- A read leaves everything as it is. -/
theorem read_bind (op : LockOp) (value : op.Reply) {f : op.Reply → LockProg β}
    (hread : ∀ i, exec op i w = (.ok value, w)) (h : Leads tools manifest packages Q' (f value) w) :
    Leads tools manifest packages Q' (issue op >>= f) w := by
  intro i
  rw [hread]
  exact ⟨.refl w, h⟩

/-- A write happens or fails. -/
theorem write_bind (op : LockOp) (value : op.Reply) {f : op.Reply → LockProg β}
    (hprogress : Progress tools manifest packages w w')
    (hwrite : ∀ i, exec op i w = (.ok value, w') ∨ ∃ e, exec op i w = (.error e, w))
    (h : Leads tools manifest packages Q' (f value) w') : Leads tools manifest packages Q' (issue op >>= f) w := by
  intro i
  rcases hwrite i with heq | ⟨e, heq⟩
  · rw [heq]
    exact ⟨hprogress, h⟩
  · rw [heq]
    exact ⟨.refl w, nofun⟩

/-- The package of a download is asked for, whatever comes of it. -/
theorem download_bind {url : PyText} {f : Bytes → LockProg β}
    (hprogress : Progress tools manifest packages w { w with requests := w.requests ++ [q] })
    (h : ∀ content, Leads tools manifest packages Q' (f content) { w with requests := w.requests ++ [q] }) :
    Leads tools manifest packages Q' (issue (.download q url) >>= f) w := by
  intro outcome
  refine ⟨hprogress, ?_⟩
  simp only [exec]
  cases outcome.failure with
  | none => exact h outcome.downloaded
  | some e => exact raised

end Leads

theorem World.write_cases (w w' : World) (outcome : Outcome) :
    w.write w' outcome = (.ok (), w') ∨ ∃ e, w.write w' outcome = (.error e, w) := by
  unfold World.write
  split
  · exact .inl rfl
  · exact .inr ⟨_, rfl⟩

/-! The resumed hashes -/

theorem verifyCandidates_leads (candidates : Hashes) (rest : List GitPackage) (verified : Hashes) (w : World)
    (hnames : (rest.map (·.name)).Nodup) :
    Leads tools manifest packages (fun r w' => w' = w ∧ (∀ p ∈ rest, ∀ digest, r p.name = some digest ↔
        candidates p.name = some digest ∧ validateSourceArchive tools (w.cache p.cachePath) p = .ok digest) ∧
      ∀ name ∉ rest.map (·.name), r name = verified name) (verifyCandidates tools candidates rest verified) w := by
  induction rest generalizing verified with
  | nil => exact Leads.pure ⟨rfl, by simp, fun _ _ => rfl⟩
  | cons p rest ih =>
    rw [List.map_cons, List.nodup_cons] at hnames
    have hnext (value : Option PyText)
        (hvalue : ∀ digest, value = some digest ↔
          candidates p.name = some digest ∧ validateSourceArchive tools (w.cache p.cachePath) p = .ok digest) :
        Leads tools manifest packages (fun r w' => w' = w ∧ (∀ q ∈ p :: rest, ∀ digest, r q.name = some digest ↔
            candidates q.name = some digest ∧ validateSourceArchive tools (w.cache q.cachePath) q = .ok digest) ∧
          ∀ name ∉ (p :: rest).map (·.name), r name = verified name)
          (verifyCandidates tools candidates rest (Function.update verified p.name value)) w := by
      apply (ih (Function.update verified p.name value) hnames.2).mono
      rintro r w' h a rfl
      obtain ⟨rfl, hin, hout⟩ := h a rfl
      refine ⟨rfl, List.forall_mem_cons.mpr ⟨fun digest => ?_, hin⟩, fun name hname => ?_⟩
      · rw [hout _ hnames.1, Function.update_self, hvalue]
      · rw [List.map_cons, List.mem_cons, not_or] at hname
        rw [hout name hname.2, Function.update_of_ne hname.1]
    unfold verifyCandidates
    split
    · rename_i hnone
      apply hnext
      intro digest
      rw [hnone]
      exact ⟨nofun, fun h => absurd h.1 nofun⟩
    · rename_i expected hexpected
      apply Leads.read_bind (.readArchive p.cachePath) (w.cache p.cachePath) fun _ => rfl
      apply Leads.orElse_bind
      · intro actual hactual
        apply hnext
        intro digest
        cases hvalid : validateSourceArchive tools (w.cache p.cachePath) p with
        | error e => simp [hvalid, Except.map] at hactual
        | ok found =>
          rw [hvalid, Except.map, Except.ok.injEq] at hactual
          subst hactual
          rw [hexpected]
          by_cases hfound : found = expected
          · rw [hfound, if_pos rfl, Option.some.injEq, Except.ok.injEq, and_self]
          · rw [if_neg (hfound ∘ Option.some.inj)]
            exact ⟨nofun, fun h => absurd ((Except.ok.inj h.2).trans (Option.some.inj h.1).symm) hfound⟩
      · intro hfails
        apply hnext
        intro digest
        refine ⟨fun h => absurd h (by simp), fun h => ?_⟩
        rw [h.2] at hfails
        exact absurd rfl (hfails (some digest))

/-- The hashes an update resumes from are those of the settled packages. -/
theorem resumeArchiveHashes_leads (w : World) (hnames : (packages.map (·.name)).Nodup) :
    Leads tools manifest packages (fun r w' => w' = w ∧ ∀ p ∈ packages, ∀ digest,
      r p.name = some digest ↔ Settled tools manifest packages w p digest)
        (resumeArchiveHashes tools manifest packages) w := by
  have hcandidates (candidates : Hashes) (hstated : ∀ p ∈ packages, ∀ digest, candidates p.name = some digest ↔
      ∃ stated, statedHashes manifest packages w.lock.json false = .ok stated ∧ stated p.name = some digest) :
      Leads tools manifest packages (fun r w' => w' = w ∧ ∀ p ∈ packages, ∀ digest,
        r p.name = some digest ↔ Settled tools manifest packages w p digest)
        (verifyCandidates tools candidates packages fun _ => none) w := by
    apply (verifyCandidates_leads candidates packages (fun _ => none) w hnames).mono
    rintro r w' h a rfl
    obtain ⟨rfl, hin, -⟩ := h a rfl
    refine ⟨rfl, fun p hp digest => ?_⟩
    rw [hin p hp, hstated p hp]
    constructor
    · rintro ⟨⟨stated, hstated, hdigest⟩, hvalid⟩
      exact ⟨stated, hstated, hdigest, hvalid⟩
    · rintro ⟨stated, hstated, hdigest, hvalid⟩
      exact ⟨⟨stated, hstated, hdigest⟩, hvalid⟩
  have hnothing (hfails : ∀ stated, statedHashes manifest packages w.lock.json false ≠ .ok stated) :
      Leads tools manifest packages (fun r w' => w' = w ∧ ∀ p ∈ packages, ∀ digest,
        r p.name = some digest ↔ Settled tools manifest packages w p digest)
        (verifyCandidates tools (fun _ => none) packages fun _ => none) w := by
    apply hcandidates
    intro p _ digest
    exact ⟨nofun, fun ⟨stated, hstated, _⟩ => absurd hstated (hfails stated)⟩
  unfold resumeArchiveHashes
  apply Leads.read_bind .lockIsFile w.lock.isFile fun _ => rfl
  cases hlock : w.lock with
  | missing =>
    apply hnothing
    rw [hlock]
    intro stated
    rw [statedHashes]
    exact nofun
  | file json =>
    rw [if_pos (show (LockFile.file json).isFile = true from rfl)]
    apply Leads.read_bind .readLock json fun _ => by rw [exec, hlock]; rfl
    have hjson : w.lock.json = json := by rw [hlock]; rfl
    apply Leads.orElse_bind
    · intro stated hstated
      apply hcandidates
      intro p _ digest
      rw [hjson, hstated]
      exact ⟨fun h => ⟨stated, rfl, h⟩, fun ⟨_, heq, h⟩ => Except.ok.inj heq ▸ h⟩
    · intro hfails
      apply hnothing
      rw [hjson]
      exact hfails

theorem Tracks.resumed {r : Hashes}
    (h : ∀ p ∈ packages, ∀ digest, r p.name = some digest ↔ Settled tools manifest packages w p digest) :
    Tracks tools manifest packages r w where
  recorded p hp digest hdigest := by
    obtain ⟨_, _, _, hvalid⟩ := (h p hp digest).mp hdigest
    exact ⟨p, hp, rfl, digest, hdigest, hvalid⟩
  fresh p hp _ hnone digest hsettled := by
    rw [(h p hp digest).mpr hsettled] at hnone
    cases hnone

/-! The downloads -/

theorem Tracks.settled (h : Tracks tools manifest packages hashes w) (hp : p ∈ packages) (halone : Alone packages p)
    {digest : PyText} (hsettled : Settled tools manifest packages w p digest) : hashes p.name = some digest := by
  cases hrecord : hashes p.name with
  | none => exact absurd hsettled (h.fresh p hp halone hrecord digest)
  | some found =>
    obtain ⟨q, hq, hpath, digest', hdigest', hvalid⟩ := h.recorded p hp found hrecord
    cases halone q hq hpath
    obtain ⟨_, _, _, hvalid'⟩ := hsettled
    rw [hvalid, Except.ok.injEq] at hvalid'
    rw [← hrecord, hdigest', hvalid']

theorem Tracks.alone (h : Tracks tools manifest packages hashes w) (hp : p ∈ packages) (halone : Alone packages p)
    {digest : PyText} (hdigest : hashes p.name = some digest) :
    validateSourceArchive tools (w.cache p.cachePath) p = .ok digest := by
  obtain ⟨q, hq, hpath, digest', hdigest', hvalid⟩ := h.recorded p hp digest hdigest
  cases halone q hq hpath
  rw [hdigest, Option.some.injEq] at hdigest'
  rw [hdigest', hvalid]

/-- A package without a hash is not settled, and a request for it disturbs no settled one. -/
theorem Tracks.request (h : Tracks tools manifest packages hashes w) (hnone : hashes q.name = none) :
    Progress tools manifest packages w { w with requests := w.requests ++ [q] } ∧
      Tracks tools manifest packages hashes { w with requests := w.requests ++ [q] } := by
  refine ⟨⟨.inl rfl, fun p hp halone digest hsettled => ⟨hsettled, ?_⟩⟩, h.recorded, h.fresh⟩
  have hne : q ≠ p := by
    rintro rfl
    rw [h.settled hp halone hsettled] at hnone
    cases hnone
  rw [List.count_append, List.count_singleton, beq_eq_false_iff_ne.mpr hne]
  rfl

/-- The archive of a package without a hash is cached, and its hash recorded. -/
theorem Tracks.place (h : Tracks tools manifest packages hashes w) (hnames : (packages.map (·.name)).Nodup)
    (hq : q ∈ packages)
    (hnone : hashes q.name = none) {content : Bytes} {digest : PyText}
    (hvalid : validateSourceArchive tools (.file content) q = .ok digest) :
    Progress tools manifest packages w { w with cache := Function.update w.cache q.cachePath (.file content) } ∧
      Tracks tools manifest packages (Function.update hashes q.name (some digest))
        { w with cache := Function.update w.cache q.cachePath (.file content) } := by
  have named {p : GitPackage} (hp : p ∈ packages) (hname : p.name = q.name) : p = q :=
    List.inj_on_of_nodup_map hnames hp hq hname
  refine ⟨⟨.inl rfl, fun p hp halone found hsettled => ?_⟩, ⟨?_, ?_⟩⟩
  · have hpath : p.cachePath ≠ q.cachePath := by
      intro hpath
      cases halone q hq hpath.symm
      rw [h.settled hp halone hsettled] at hnone
      cases hnone
    obtain ⟨stated, hstated, hdigest, hcached⟩ := hsettled
    refine ⟨⟨stated, hstated, hdigest, ?_⟩, rfl⟩
    simp only [Function.update_of_ne hpath]
    exact hcached
  · intro p hp found hfound
    by_cases hpath : q.cachePath = p.cachePath
    · refine ⟨q, hq, hpath, digest, Function.update_self .., ?_⟩
      simp only [← hpath, Function.update_self]
      exact hvalid
    · have hname : p.name ≠ q.name := fun hname => hpath (by rw [named hp hname])
      rw [Function.update_of_ne hname] at hfound
      obtain ⟨p', hp', hpath', digest', hdigest', hcached⟩ := h.recorded p hp found hfound
      have hname' : p'.name ≠ q.name := fun hname => hpath (by rw [← named hp' hname, hpath'])
      refine ⟨p', hp', hpath', digest', by rw [Function.update_of_ne hname', hdigest'], ?_⟩
      simp only [Function.update_of_ne (Ne.symm hpath)]
      exact hcached
  · intro p hp halone hfresh found hsettled
    have hname : p.name ≠ q.name := by
      intro hname
      rw [hname, Function.update_self] at hfresh
      cases hfresh
    have hpath : p.cachePath ≠ q.cachePath := by
      intro hpath
      rw [halone q hq hpath.symm] at hname
      exact hname rfl
    rw [Function.update_of_ne hname] at hfresh
    obtain ⟨stated, hstated, hdigest, hcached⟩ := hsettled
    simp only [Function.update_of_ne hpath] at hcached
    exact h.fresh p hp halone hfresh found ⟨stated, hstated, hdigest, hcached⟩

/-- The recorded hashes are locked. -/
theorem Tracks.lock (h : Tracks tools manifest packages hashes w) {document : JsonDict Unit}
    (hdocument : lockDocument manifest.sha256 packages hashes = .ok document) :
    Progress tools manifest packages w { w with lock := .file (some (.dict document)) } ∧
      Tracks tools manifest packages hashes { w with lock := .file (some (.dict document)) } := by
  obtain ⟨stated, hstated, hsame⟩ := statedHashes_lockDocument hdocument
  refine ⟨⟨.inr ⟨stated, hstated⟩, fun p hp halone digest hsettled => ⟨?_, rfl⟩⟩, h.recorded, ?_⟩
  · have hdigest := h.settled hp halone hsettled
    exact ⟨stated, hstated, (hsame p hp).trans hdigest, h.alone hp halone hdigest⟩
  · rintro p hp halone hnone digest ⟨stated', hstated', hdigest, -⟩
    have heq : stated = stated' := Except.ok.inj (hstated.symm.trans hstated')
    rw [← heq, hsame p hp, hnone] at hdigest
    cases hdigest

/-- A download ends with the archive in the cache, or raises. -/
theorem cacheSourceArchive_leads (h : Tracks tools manifest packages hashes w) (hnames : (packages.map (·.name)).Nodup)
    (hq : q ∈ packages) (hnone : hashes q.name = none) :
    Leads tools manifest packages
      (fun digest w' => Tracks tools manifest packages (Function.update hashes q.name (some digest)) w')
      (cacheSourceArchive tools options q) w := by
  unfold cacheSourceArchive
  apply Leads.write_bind (.makeDirectory q.cachePath) () (.refl w) fun i => World.write_cases w w i
  apply Leads.ofExcept_bind
  intro _ _
  obtain ⟨hrequest, htracks⟩ := h.request hnone
  apply Leads.download_bind hrequest
  intro content
  apply Leads.ofExcept_bind
  intro digest hdigest
  obtain ⟨hplace, hplaced⟩ := htracks.place hnames hq hnone hdigest
  apply Leads.write_bind (.placeArchive q.cachePath content) () hplace fun i => World.write_cases _ _ i
  exact Leads.pure hplaced

/-- The loop records a hash for each of its packages. -/
theorem downloadMissing_leads (hnames : (packages.map (·.name)).Nodup) (rest : List GitPackage)
    (hrest : rest ⊆ packages)
    (h : Tracks tools manifest packages hashes w) :
    Leads tools manifest packages (fun r w' => Tracks tools manifest packages r w' ∧ (∀ p ∈ rest, (r p.name).isSome) ∧
      ∀ name, (hashes name).isSome → (r name).isSome)
        (downloadMissing tools manifest options packages rest hashes) w := by
  induction rest generalizing hashes w with
  | nil => exact Leads.pure ⟨h, by simp, fun _ hname => hname⟩
  | cons q rest ih =>
    obtain ⟨hq, hrest⟩ := List.cons_subset.mp hrest
    unfold downloadMissing
    split
    · rename_i hsome
      apply (ih hrest h).mono
      rintro r w' hr a rfl
      obtain ⟨htracks, hin, hkept⟩ := hr a rfl
      exact ⟨htracks, List.forall_mem_cons.mpr ⟨hkept _ hsome, hin⟩, hkept⟩
    · rename_i hnone
      rw [Option.not_isSome_iff_eq_none] at hnone
      apply (cacheSourceArchive_leads h hnames hq hnone).bind
      intro digest w htracks
      apply Leads.ofExcept_bind
      intro document hdocument
      obtain ⟨hlock, hlocked⟩ := htracks.lock hdocument
      apply Leads.write_bind (.placeLock document) () hlock fun i => World.write_cases _ _ i
      apply (ih hrest hlocked).mono
      rintro r w' hr a rfl
      obtain ⟨htracks', hin, hkept⟩ := hr a rfl
      have hupdated (name : PyText) (hname : (hashes name).isSome ∨ name = q.name) : (a name).isSome := by
        apply hkept
        by_cases heq : name = q.name
        · rw [heq, Function.update_self]
          rfl
        · rw [Function.update_of_ne heq]
          exact hname.resolve_right heq
      exact ⟨htracks', List.forall_mem_cons.mpr ⟨hupdated _ (.inr rfl), hin⟩, fun name hname => hupdated name
        (.inl hname)⟩

/-- The lock is complete, and each locked hash is that of the cached archive of some package there. -/
def Complete (tools : Tools) (manifest : Manifest) (packages : List GitPackage) (w : World) : Prop :=
  ∃ stated, statedHashes manifest packages w.lock.json true = .ok stated ∧ Tracks tools manifest packages stated w

/-- The folded name of a package is none of those before it. -/
theorem readGitPackage_fresh {seen : List PyText} {index : Nat} {raw : JsonValue Unit}
    (h : readGitPackage tools seen index raw = .ok p) : tools.casefold p.name ∉ seen := by
  unfold readGitPackage at h
  split at h
  · obtain ⟨-, h⟩ := ensure_bind_eq_ok.mp h
    split at h
    · obtain ⟨-, h⟩ := ensure_bind_eq_ok.mp h
      obtain ⟨hfresh, h⟩ := ensure_bind_eq_ok.mp h
      split at h
      · obtain ⟨-, h⟩ := ensure_bind_eq_ok.mp h
        obtain ⟨coordinates, -, h⟩ := bind_eq_ok.mp h
        cases h
        exact hfresh
      · cases h
      · cases h
    · cases h
  · cases h

theorem readPackages_names {seen : List PyText} {index : Nat} {raw : List (JsonValue Unit)}
    (h : readPackages tools seen index raw = .ok packages) :
    (packages.map fun p => tools.casefold p.name).Nodup ∧ ∀ p ∈ packages, tools.casefold p.name ∉ seen := by
  induction raw generalizing seen index packages with
  | nil =>
    cases h
    exact ⟨List.nodup_nil, by simp⟩
  | cons first raw ih =>
    obtain ⟨p, hp, h⟩ := bind_eq_ok.mp h
    obtain ⟨rest, hrest, h⟩ := bind_eq_ok.mp h
    cases h
    obtain ⟨hnodup, hfresh⟩ := ih hrest
    constructor
    · rw [List.map_cons, List.nodup_cons]
      refine ⟨fun hmem => ?_, hnodup⟩
      obtain ⟨q, hq, hname⟩ := List.mem_map.mp hmem
      exact hfresh q hq (hname ▸ List.mem_cons_self)
    · refine List.forall_mem_cons.mpr ⟨readGitPackage_fresh hp, fun q hq hseen => ?_⟩
      exact hfresh q hq (List.mem_cons_of_mem _ hseen)

theorem readGitPackages_names (h : readGitPackages tools manifest = .ok packages) : (packages.map (·.name)).Nodup := by
  obtain ⟨document, -, h⟩ := bind_eq_ok.mp h
  split at h
  · obtain ⟨-, h⟩ := ensure_bind_eq_ok.mp h
    have hfolded := (readPackages_names h).1
    have hmap : (packages.map fun p => tools.casefold p.name) = (packages.map (·.name)).map tools.casefold := by
      rw [List.map_map]
      rfl
    rw [hmap] at hfolded
    exact hfolded.of_map _
  · cases h

theorem Tracks.congr {stated : Hashes} (h : Tracks tools manifest packages hashes w)
    (hsame : ∀ p ∈ packages, stated p.name = hashes p.name) : Tracks tools manifest packages stated w where
  recorded p hp digest hdigest := by
    obtain ⟨q, hq, hpath, digest', hdigest', hvalid⟩ := h.recorded p hp digest ((hsame p hp).symm.trans hdigest)
    exact ⟨q, hq, hpath, digest', (hsame q hq).trans hdigest', hvalid⟩
  fresh p hp halone hnone := h.fresh p hp halone ((hsame p hp).symm.trans hnone)

theorem updateSourceLock_leads (options : Options) (hpackages : readGitPackages tools manifest = .ok packages) (w : World) :
    Leads tools manifest packages (fun ps w' => ps = packages ∧ Complete tools manifest packages w')
      (updateSourceLock tools manifest options) w := by
  have hnames := readGitPackages_names hpackages
  unfold updateSourceLock
  apply Leads.ofExcept_bind
  intro packages' hpackages'
  cases hpackages.symm.trans hpackages'
  apply (resumeArchiveHashes_leads w hnames).bind
  rintro resumed _ ⟨rfl, hresumed⟩
  apply (downloadMissing_leads hnames packages (List.Subset.refl _) (Tracks.resumed hresumed)).bind
  rintro hashes w' ⟨htracks, hall, -⟩
  apply Leads.ofExcept_bind
  intro document hdocument
  apply Leads.ofExcept_bind
  intro _ _
  obtain ⟨hlock, hlocked⟩ := htracks.lock hdocument
  apply Leads.write_bind (.placeLock document) () hlock fun i => World.write_cases _ _ i
  obtain ⟨stated, hstated, hsame⟩ := statedHashes_lockDocument hdocument
  refine Leads.pure ⟨rfl, stated, statedHashes_complete_iff.mpr ⟨hstated, fun p hp => ?_⟩, ?_⟩
  · rw [hsame p hp]
    exact hall p hp
  · exact hlocked.congr hsame

theorem validateArchiveName_label {name expectedRoot label label' : PyText} {parts : List PyText}
    (h : validateArchiveName tools name expectedRoot label = .ok parts) :
    validateArchiveName tools name expectedRoot label' = .ok parts := by
  unfold validateArchiveName at h ⊢
  obtain ⟨hpath, h⟩ := ensure_bind_eq_ok.mp h
  obtain ⟨hsafe, h⟩ := ensure_bind_eq_ok.mp h
  refine ensure_bind_eq_ok.mpr ⟨hpath, ensure_bind_eq_ok.mpr ⟨hsafe, ?_⟩⟩
  cases hparts : components name with
  | nil =>
    rw [hparts] at h
    cases h
  | cons root below =>
    rw [hparts] at h
    simpa only [requireFor, ensure_bind_eq_ok] using h

theorem foldlM_ok_mono {f g : β → α → Raises β} (hfg : ∀ b a c, f b a = .ok c → g b a = .ok c) {l : List α} {b c : β}
    (h : l.foldlM f b = .ok c) : l.foldlM g b = .ok c := by
  induction l generalizing b with
  | nil => exact h
  | cons a rest ih =>
    rw [List.foldlM_cons] at h ⊢
    obtain ⟨mid, hmid, h⟩ := bind_eq_ok.mp h
    rw [hfg b a mid hmid, ok_bind]
    exact ih h

theorem validateSymlinkTarget_label {linkname expectedRoot label label' : PyText} {memberPath : List PyText}
    (h : validateSymlinkTarget tools linkname memberPath expectedRoot label = .ok ()) :
    validateSymlinkTarget tools linkname memberPath expectedRoot label' = .ok () := by
  unfold validateSymlinkTarget at h ⊢
  obtain ⟨hpath, h⟩ := ensure_bind_eq_ok.mp h
  obtain ⟨hsafe, h⟩ := ensure_bind_eq_ok.mp h
  obtain ⟨hparent, h⟩ := ensure_bind_eq_ok.mp h
  obtain ⟨normalized, hnormalized, h⟩ := bind_eq_ok.mp h
  obtain ⟨parts, hparts, -⟩ := bind_eq_ok.mp h
  refine ensure_bind_eq_ok.mpr ⟨hpath, ensure_bind_eq_ok.mpr ⟨hsafe, ensure_bind_eq_ok.mpr ⟨hparent, ?_⟩⟩⟩
  have htarget : (linkname.splitOn slash).foldlM (targetPart label') memberPath.dropLast = .ok normalized := by
    apply foldlM_ok_mono _ hnormalized
    intro b a c hc
    unfold targetPart at hc ⊢
    split_ifs at hc ⊢ with hempty hup
    · exact hc
    · exact ensure_bind_eq_ok.mpr (ensure_bind_eq_ok.mp hc)
    · exact hc
  exact bind_eq_ok.mpr ⟨normalized, htarget, bind_eq_ok.mpr ⟨parts, validateArchiveName_label hparts, rfl⟩⟩

theorem visit_name {expectedRoot name name' : PyText} {walk walk' : Walk} {member : TarMember}
    (h : walk.visit tools expectedRoot name member = .ok walk') :
    walk.visit tools expectedRoot name' member = .ok walk' := by
  unfold Walk.visit at h ⊢
  obtain ⟨hcount, h⟩ := ensure_bind_eq_ok.mp h
  obtain ⟨parts, hparts, h⟩ := bind_eq_ok.mp h
  obtain ⟨hseen, h⟩ := ensure_bind_eq_ok.mp h
  refine ensure_bind_eq_ok.mpr ⟨hcount, bind_eq_ok.mpr ⟨parts, validateArchiveName_label hparts, ?_⟩⟩
  refine ensure_bind_eq_ok.mpr ⟨hseen, ?_⟩
  cases hkind : member.kind with
  | file =>
    rw [hkind] at h
    simpa only [requireFor, ensure_bind_eq_ok] using h
  | directory =>
    rw [hkind] at h
    exact h
  | symlink linkname =>
    rw [hkind] at h
    obtain ⟨_, htarget, h⟩ := bind_eq_ok.mp h
    exact bind_eq_ok.mpr ⟨(), validateSymlinkTarget_label htarget, h⟩
  | hardLink | special =>
    rw [hkind] at h
    cases h

/-- Packages cached at one path are checked alike. -/
theorem validateSourceArchive_congr (hpath : p.cachePath = q.cachePath) {entry : CacheEntry} {digest : PyText}
    (h : validateSourceArchive tools entry p = .ok digest) : validateSourceArchive tools entry q = .ok digest := by
  obtain ⟨-, hrepository, hrev⟩ := CachePath.mk.inj hpath
  cases entry with
  | missing | other => cases h
  | file content =>
    unfold validateSourceArchive at h ⊢
    obtain ⟨hsize, h⟩ := ensure_bind_eq_ok.mp h
    obtain ⟨walked, hwalked, h⟩ := bind_eq_ok.mp h
    rw [hrepository, hrev] at hwalked
    refine ensure_bind_eq_ok.mpr ⟨hsize, bind_eq_ok.mpr ⟨walked, ?_, ?_⟩⟩
    · exact foldlM_ok_mono (fun _ _ _ => visit_name) hwalked
    · simpa only [requireFor, ensure_bind_eq_ok] using h

/-- The hash the lock states for a package. -/
def lockedHash (manifest : Manifest) (packages : List GitPackage) (w : World) (p : GitPackage) : Option PyText :=
  match statedHashes manifest packages w.lock.json false with
  | .ok stated => stated p.name
  | .error _ => none

/-- A complete lock is verified exactly when packages cached at one path have one hash. -/
theorem Complete.verified_iff (h : Complete tools manifest packages w)
    (hpackages : readGitPackages tools manifest = .ok packages) :
    (∃ ps, verifyCachedArchives tools manifest w = .ok ps) ↔ ∀ p ∈ packages, ∀ q ∈ packages, p.cachePath = q.cachePath →
      lockedHash manifest packages w p = lockedHash manifest packages w q := by
  obtain ⟨stated, hstated, htracks⟩ := h
  obtain ⟨hlocked, hcomplete⟩ := statedHashes_complete_iff.mp hstated
  simp only [lockedHash, hlocked]
  have hverified : (∃ ps, verifyCachedArchives tools manifest w = .ok ps) ↔ ∀ p ∈ packages, ∃ digest,
      validateSourceArchive tools (w.cache p.cachePath) p = .ok digest ∧ stated p.name = some digest := by
    rw [verifyCachedArchives, hpackages, ok_bind, hstated, ok_bind]
    constructor
    · rintro ⟨ps, h⟩ p hp
      obtain ⟨_, hall, -⟩ := bind_eq_ok.mp h
      obtain ⟨digest, hvalid, hdigest⟩ := bind_eq_ok.mp (forM_eq_ok.mp hall p hp)
      exact ⟨digest, hvalid, ensure_eq_ok.mp hdigest⟩
    · intro hall
      refine ⟨packages, bind_eq_ok.mpr ⟨(), forM_eq_ok.mpr fun p hp => ?_, rfl⟩⟩
      obtain ⟨digest, hvalid, hdigest⟩ := hall p hp
      exact bind_eq_ok.mpr ⟨digest, hvalid, ensure_eq_ok.mpr hdigest⟩
  rw [hverified]
  constructor
  · intro hall p hp q hq hpath
    obtain ⟨digest, hvalid, hdigest⟩ := hall p hp
    obtain ⟨digest', hvalid', hdigest'⟩ := hall q hq
    have hsame := validateSourceArchive_congr hpath hvalid
    rw [hpath, hvalid', Except.ok.injEq] at hsame
    rw [hdigest, hdigest', hsame]
  · intro hall p hp
    obtain ⟨digest, hdigest⟩ := Option.isSome_iff_exists.mp (hcomplete p hp)
    obtain ⟨q, hq, hpath, digest', hdigest', hvalid⟩ := htracks.recorded p hp digest hdigest
    refine ⟨digest', validateSourceArchive_congr hpath hvalid, ?_⟩
    rw [hall p hp q hq hpath.symm, hdigest']

end Runs

/-- Updates of one lock in a row, each killed at any point or run to its end. At every instant the lock
is the first one or a valid one; a package that is settled and has its cache path to itself stays settled
and is not asked for again; and where an update has returned, the cached archives are verified exactly when
packages that share a cache path have the same hash. -/
theorem resume_keeps_settled (tools : Tools) (manifest : Manifest) (options : Options) (packages : List GitPackage)
    (w : World)
    (labels more : List (Option Outcome)) (hpackages : readGitPackages tools manifest = .ok packages) :
    let start := updateSourceLock tools manifest options
    let c := run (Session.step exec start) ⟨w, start⟩ labels
    let d := run (Session.step exec start) c more
    (c.state.lock = w.lock ∨ ∃ stated, statedHashes manifest packages c.state.lock.json false = .ok stated) ∧
      (∀ p ∈ packages, Alone packages p → ∀ digest, Settled tools manifest packages c.state p digest →
        Settled tools manifest packages d.state p digest ∧ d.state.requests.count p = c.state.requests.count p) ∧
      ∀ ps, c.program = .done (.ok ps) → ((∃ verified, verifyCachedArchives tools manifest c.state = .ok verified) ↔
        ∀ p ∈ packages, ∀ q ∈ packages, p.cachePath = q.cachePath →
          lockedHash manifest packages c.state p = lockedHash manifest packages c.state q) := by
  intro start c d
  have hstart := fun w => updateSourceLock_leads options hpackages w
  have trans {a b c : World} (h : Progress tools manifest packages a b)
    (h' : Progress tools manifest packages b c) := h.trans h'
  obtain ⟨hprogress, hprogram⟩ := Session.run_moves Progress.refl trans hstart (c := ⟨w, start⟩) (hstart w) labels
  obtain ⟨hlater, -⟩ := Session.run_moves Progress.refl trans hstart hprogram more
  refine ⟨hprogress.lock, hlater.settled, fun ps hdone => ?_⟩
  change Prog.Moves _ _ _ c.program c.state at hprogram
  rw [hdone] at hprogram
  obtain ⟨-, hcomplete⟩ := hprogram ps rfl
  exact hcomplete.verified_iff hpackages

/-! Nine packages, the first of them downloaded by an update that is killed -/

def sampleRev : PyText := repeated 40 '0'

/-- An archive that holds one file below the directory it names. -/
def sampleTools : Tools where
  urlsplit url := some ⟨PyText.of "https", some (PyText.of "github.com"), false, false, false, url.drop 18, [], []⟩
  casefold := id
  sha256 _ := repeated 64 '0'
  sha256_hex _ := isHex_repeated 64 (by decide)
  members content := ([⟨PyText.ofChars (content.map fun b => Char.ofNat b.toNat) ++ PyText.of "/f", .file, 1⟩], true)

def sampleRepositories : List String := ["a", "b", "c", "d", "e", "f", "g", "h", "i"]

def samplePackageJson (name : String) : JsonValue Unit :=
  .dict (JsonDict.of [("type", .text "git"), ("name", .text name), ("url", .text ("https://github.com/o/" ++ name)),
    ("rev", .str sampleRev)])

def sampleManifest : Manifest :=
  ⟨some (.dict (JsonDict.of [("packages", .list (sampleRepositories.map samplePackageJson))])), repeated 64 '0'⟩

def samplePackage (name : String) : GitPackage :=
  ⟨PyText.of name, PyText.of ("https://github.com/o/" ++ name), sampleRev, PyText.of "o", PyText.of name,
    PyText.of "https://codeload.github.com/" ++ PyText.of "o" ++ [slash] ++ PyText.of name ++ PyText.of "/tar.gz/" ++
      sampleRev⟩

def sampleOptions : Options := ⟨fun _ => none, false⟩

def sampleWorld : World := ⟨.missing, fun _ => .missing, []⟩

/-- Every write happens, and the archive of package `name` comes. -/
def sampleOutcome (name : String) : Option Outcome :=
  some ⟨none, (name ++ "-" ++ String.ofList (List.replicate 40 '0')).toUTF8.data.toList⟩

/-- The first package is locked, the second is being downloaded. -/
def interruptedUpdate : List (Option Outcome) := List.replicate 5 (sampleOutcome "a") ++ List.replicate 2
    (sampleOutcome "b")

/-- The update is killed, and a new one goes as far. -/
def resumedUpdate : List (Option Outcome) := none :: List.replicate 6 (sampleOutcome "b")

theorem settled_of_lockedHash {tools : Tools} {manifest : Manifest} {packages : List GitPackage} {w : World}
    {p : GitPackage}
    {digest : PyText} (h : lockedHash manifest packages w p = some digest)
    (hvalid : validateSourceArchive tools (w.cache p.cachePath) p = .ok digest) :
    Settled tools manifest packages w p digest := by
  unfold lockedHash at h
  split at h
  · rename_i stated hstated
    exact ⟨stated, hstated, h, hvalid⟩
  · cases h

theorem resume_keeps_settled_sample :
    let start := updateSourceLock sampleTools sampleManifest sampleOptions
    let c := run (Session.step exec start) ⟨sampleWorld, start⟩ interruptedUpdate
    let d := run (Session.step exec start) c resumedUpdate
    c.state.requests = [samplePackage "a", samplePackage "b"] ∧
      d.state.requests.count (samplePackage "a") = c.state.requests.count (samplePackage "a") := by
  refine ⟨by decide +kernel, ?_⟩
  have hpackages : readGitPackages sampleTools sampleManifest = .ok (sampleRepositories.map samplePackage) :=
    by decide +kernel
  have h :=
    resume_keeps_settled sampleTools sampleManifest sampleOptions _ sampleWorld interruptedUpdate resumedUpdate
      hpackages
  refine (h.2.1 (samplePackage "a") (by decide) ?_ (repeated 64 '0') ?_).2
  · unfold Alone
    decide +kernel
  · apply settled_of_lockedHash
    · decide +kernel
    · decide +kernel

end Autolean.Library.SourceLock
