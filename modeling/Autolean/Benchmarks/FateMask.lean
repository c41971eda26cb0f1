import Autolean.Benchmarks.FateManifest
import Autolean.Machine.Lookahead

/-! The mask that blanks the comments and strings of a Lean source and keeps every offset: the
loop over the bytes with its flags, and the five lexical modes that the flags encode. -/
namespace Autolean.Benchmarks.Fate.Mask
open Machine

abbrev lf : UInt8 := 0x0A
abbrev space : UInt8 := 0x20
abbrev quote : UInt8 := 0x22
abbrev dash : UInt8 := 0x2D
abbrev slash : UInt8 := 0x2F
abbrev backslash : UInt8 := 0x5C

/-! The loop -/

/-- The local variables of `_mask_non_code`. -/
structure Masking where
  masked : List UInt8
  index : Nat
  blockDepth : Nat
  lineComment : Bool
  inString : Bool
  escaped : Bool
  deriving DecidableEq

def Masking.initial (source : List UInt8) : Masking := ⟨source, 0, 0, false, false, false⟩

/-- `masked[index] = 0x20`. -/
def Masking.blank (s : Masking) : List UInt8 := s.masked.set s.index space

/-- `masked[index] = masked[index + 1] = 0x20`. -/
def Masking.blankBoth (s : Masking) : List UInt8 := (s.masked.set s.index space).set (s.index + 1) space

/-- One turn of the loop. -/
def Masking.step (source : List UInt8) (s : Masking) : Masking :=
  match source[s.index]? with
  | none => s
  | some current =>
    let nextByte := source[s.index + 1]?
    if s.lineComment then
      if current = lf then { s with lineComment := false, index := s.index + 1 }
      else { s with masked := s.blank, index := s.index + 1 }
    else if s.blockDepth ≠ 0 then
      if current = slash ∧ nextByte = some dash then
        { s with masked := s.blankBoth, blockDepth := s.blockDepth + 1, index := s.index + 2 }
      else if current = dash ∧ nextByte = some slash then
        { s with masked := s.blankBoth, blockDepth := s.blockDepth - 1, index := s.index + 2 }
      else { s with masked := if current = lf then s.masked else s.blank, index := s.index + 1 }
    else if s.inString then
      let kept : Masking := { s with masked := if current = lf then s.masked else s.blank, index := s.index + 1 }
      if s.escaped then { kept with escaped := false }
      else if current = backslash then { kept with escaped := true }
      else if current = quote then { kept with inString := false }
      else kept
    else if current = dash ∧ nextByte = some dash then
      { s with masked := s.blankBoth, lineComment := true, index := s.index + 2 }
    else if current = slash ∧ nextByte = some dash then
      { s with masked := s.blankBoth, blockDepth := 1, index := s.index + 2 }
    else if current = quote then { s with masked := s.blank, inString := true, index := s.index + 1 }
    else { s with index := s.index + 1 }

/-- The variables after the loop; each turn passes at least one byte. -/
def lexed (source : List UInt8) : Masking := (Masking.step source)^[source.length] (.initial source)

/-- `_mask_non_code`. -/
def maskNonCode (source : List UInt8) : Raises (List UInt8) :=
  let s := lexed source
  if s.blockDepth ≠ 0 ∨ s.inString then .error (.integrity "FATE source has an unterminated comment or string")
  else .ok s.masked

/-! The modes -/

/-- Where a byte stands; a block comment with the number of comments around it. -/
inductive Mode where
  | code
  | line
  | block (outer : Nat)
  | string (escaped : Bool)
  deriving DecidableEq

/-- A block comment or a string has begun and has not ended. -/
def Mode.isOpen : Mode → Bool
  | .block _ | .string _ => true
  | .code | .line => false

/-- The mode behind the end of a block comment. -/
def Mode.around : Nat → Mode
  | 0 => .code
  | outer + 1 => .block outer

/-- A mode, and whether the byte is the second one of a delimiter that leads into it. -/
@[ext]
structure Reading where
  mode : Mode
  second : Bool
  deriving DecidableEq

def inCode : Reading := ⟨.code, false⟩

/-- The two bytes begin a comment: a dash or a slash, and a dash. -/
def BeginsComment (current : UInt8) (nextByte : Option UInt8) : Prop :=
  (current = dash ∨ current = slash) ∧ nextByte = some dash

instance decidableBeginsComment (current : UInt8) (nextByte : Option UInt8) :
    Decidable (BeginsComment current nextByte) := inferInstanceAs (Decidable (_ ∧ _))

/-- The mode behind a byte that is not the second one of a delimiter. -/
def Mode.next (current : UInt8) (nextByte : Option UInt8) : Mode → Reading
  | .line => ⟨if current = lf then .code else .line, false⟩
  | .block outer =>
    if current = slash ∧ nextByte = some dash then ⟨.block (outer + 1), true⟩
    else if current = dash ∧ nextByte = some slash then ⟨.around outer, true⟩
    else ⟨.block outer, false⟩
  | .string true => ⟨.string false, false⟩
  | .string false =>
    if current = backslash then ⟨.string true, false⟩
    else if current = quote then ⟨.code, false⟩
    else ⟨.string false, false⟩
  | .code =>
    if current = dash ∧ nextByte = some dash then ⟨.line, true⟩
    else if current = slash ∧ nextByte = some dash then ⟨.block 0, true⟩
    else if current = quote then ⟨.string false, false⟩
    else ⟨.code, false⟩

/-- Code is kept, and so is every line feed. -/
def lexicon : Transducer Reading UInt8 UInt8 where
  next s current nextByte := if s.second then ⟨s.mode, false⟩ else s.mode.next current nextByte
  emit s current nextByte :=
    if current = lf then lf
    else if s = inCode ∧ current ≠ quote ∧ ¬ BeginsComment current nextByte then current
    else space

/-- The mode behind the last byte. -/
def endMode (source : List UInt8) : Mode := (lexicon.final none inCode source).mode

/-! The loop computes the modes -/

/-- The variables when `done` has been emitted, `rest` is still to be read and the mode is known. -/
def Masking.reading (done : List UInt8) (mode : Mode) (rest : List UInt8) : Masking where
  masked := done ++ rest
  index := done.length
  blockDepth := match mode with
    | .block outer => outer + 1
    | _ => 0
  lineComment := mode = .line
  inString := match mode with
    | .string _ => true
    | _ => false
  escaped := mode = .string true

variable {front done rest : List UInt8} {mode : Mode} {current : UInt8}

/-- The state behind a byte, or behind the two bytes of a delimiter. -/
def Masking.advanced (done : List UInt8) (mode : Mode) (current : UInt8) (rest : List UInt8) : Masking :=
  match lexicon.next ⟨mode, false⟩ current rest.head? with
  | ⟨after, false⟩ => .reading (done ++ [lexicon.emit ⟨mode, false⟩ current rest.head?]) after rest
  | ⟨after, true⟩ => .reading (done ++ [space, space]) after rest.tail

section Step
variable (hlen : done.length = front.length)

include hlen in
theorem current_byte : (front ++ current :: rest)[done.length]? = some current := by simp [hlen]

include hlen in
theorem next_byte : (front ++ current :: rest)[done.length + 1]? = rest.head? := by
  rw [hlen, List.getElem?_append_right (Nat.le_succ _)]
  cases rest <;> simp

include hlen in
theorem step_line : Masking.step (front ++ current :: rest) (.reading done .line (current :: rest)) =
    Masking.advanced done .line current rest := by
  simp only [Masking.step, Masking.reading, current_byte hlen]
  by_cases hlf : current = lf
  · simp [Masking.advanced, Masking.reading, lexicon, Mode.next, hlf]
  · simp [Masking.advanced, Masking.reading, lexicon, Mode.next, hlf, Masking.blank, inCode]

include hlen in
theorem step_block {outer : Nat} :
    Masking.step (front ++ current :: rest) (.reading done (.block outer) (current :: rest)) =
      Masking.advanced done (.block outer) current rest := by
  simp only [Masking.step, Masking.reading, current_byte hlen, next_byte hlen]
  by_cases hopen : current = slash ∧ rest.head? = some dash
  · obtain ⟨rfl, hhead⟩ := hopen
    obtain ⟨rest, rfl⟩ := List.head?_eq_some_iff.mp hhead
    simp [Masking.advanced, Masking.reading, lexicon, Mode.next, Masking.blankBoth]
  · by_cases hclose : current = dash ∧ rest.head? = some slash
    · obtain ⟨rfl, hhead⟩ := hclose
      obtain ⟨rest, rfl⟩ := List.head?_eq_some_iff.mp hhead
      cases outer <;>
        simp [Masking.advanced, Masking.reading, lexicon, Mode.next, Mode.around, Masking.blankBoth, dash, slash]
    · by_cases hlf : current = lf
      · simp [Masking.advanced, Masking.reading, lexicon, Mode.next, hlf, lf, dash, slash]
      · simp [Masking.advanced, Masking.reading, lexicon, Mode.next, hopen, hclose, hlf, Masking.blank, inCode]

include hlen in
theorem step_string {escaped : Bool} :
    Masking.step (front ++ current :: rest) (.reading done (.string escaped) (current :: rest)) =
      Masking.advanced done (.string escaped) current rest := by
  simp only [Masking.step, Masking.reading, current_byte hlen]
  cases escaped with
  | true =>
    by_cases hlf : current = lf <;>
      simp [Masking.advanced, Masking.reading, lexicon, Mode.next, hlf, Masking.blank, inCode]
  | false =>
    by_cases hlf : current = lf
    · simp [Masking.advanced, Masking.reading, lexicon, Mode.next, hlf, lf, backslash, quote]
    · by_cases hescape : current = backslash
      · simp [Masking.advanced, Masking.reading, lexicon, Mode.next, hescape, Masking.blank, inCode, lf, backslash]
      · by_cases hquote : current = quote
        · simp [Masking.advanced, Masking.reading, lexicon, Mode.next, hquote, Masking.blank, inCode, lf,
            backslash, quote]
        · simp [Masking.advanced, Masking.reading, lexicon, Mode.next, hescape, hquote, hlf, Masking.blank, inCode]

include hlen in
theorem step_code : Masking.step (front ++ current :: rest) (.reading done .code (current :: rest)) =
    Masking.advanced done .code current rest := by
  simp only [Masking.step, Masking.reading, current_byte hlen, next_byte hlen]
  by_cases hline : current = dash ∧ rest.head? = some dash
  · obtain ⟨rfl, hhead⟩ := hline
    obtain ⟨rest, rfl⟩ := List.head?_eq_some_iff.mp hhead
    simp [Masking.advanced, Masking.reading, lexicon, Mode.next, Masking.blankBoth]
  · by_cases hblock : current = slash ∧ rest.head? = some dash
    · obtain ⟨rfl, hhead⟩ := hblock
      obtain ⟨rest, rfl⟩ := List.head?_eq_some_iff.mp hhead
      simp [Masking.advanced, Masking.reading, lexicon, Mode.next, Masking.blankBoth, dash, slash]
    · by_cases hquote : current = quote
      · simp [Masking.advanced, Masking.reading, lexicon, Mode.next, hquote, Masking.blank, inCode, lf, dash,
          slash, quote]
      · have hnone : ¬ BeginsComment current rest.head? := fun h => h.1.elim (hline ⟨·, h.2⟩) (hblock ⟨·, h.2⟩)
        by_cases hlf : current = lf
        · simp [Masking.advanced, Masking.reading, lexicon, Mode.next, hlf, lf, dash, slash, quote]
        · simp [Masking.advanced, Masking.reading, lexicon, Mode.next, hline, hblock, hquote, hlf, hnone, inCode]

include hlen in
theorem step_reading : Masking.step (front ++ current :: rest) (.reading done mode (current :: rest)) =
    Masking.advanced done mode current rest := by
  cases mode with
  | code => exact step_code hlen
  | line => exact step_line hlen
  | block outer => exact step_block hlen
  | string escaped => exact step_string hlen

end Step

theorem delimiter_of_second {after : Mode} {nextByte : Option UInt8} (h : mode.next current nextByte = ⟨after, true⟩) :
    BeginsComment current nextByte ∨ mode ≠ .code ∧ current = dash ∧ nextByte = some slash := by
  cases mode with
  | line => cases h
  | string escaped =>
    cases escaped with
    | true => cases h
    | false =>
      simp only [Mode.next] at h
      split_ifs at h <;> cases h
  | block outer =>
    simp only [Mode.next] at h
    split_ifs at h with hopen hclose
    · exact .inl ⟨.inr hopen.1, hopen.2⟩
    · exact .inr ⟨Mode.noConfusion, hclose⟩
    · cases h
  | code =>
    simp only [Mode.next] at h
    split_ifs at h with hline hblock
    · exact .inl ⟨.inl hline.1, hline.2⟩
    · exact .inl ⟨.inr hblock.1, hblock.2⟩
    · cases h
    · cases h

/-- Both bytes of a delimiter are blanked. -/
theorem second_blank {after : Mode} {nextByte : Option UInt8}
    (h : lexicon.next ⟨mode, false⟩ current nextByte = ⟨after, true⟩) :
    lexicon.emit ⟨mode, false⟩ current nextByte = space ∧
      ∃ second, nextByte = some second ∧ ∀ third, lexicon.emit ⟨after, true⟩ second third = space := by
  rcases delimiter_of_second h with hopen | ⟨hmode, rfl, rfl⟩
  · have hlf : current ≠ lf := by
      rintro rfl
      exact absurd hopen.1 (by decide)
    refine ⟨by simp [lexicon, hlf, hopen], dash, hopen.2, fun third => ?_⟩
    simp [lexicon, inCode, dash, lf]
  · refine ⟨by simp [lexicon, inCode, hmode, dash, lf], slash, rfl, fun third => ?_⟩
    simp [lexicon, inCode, slash, lf]

theorem run_reading {source : List UInt8} (front done : List UInt8) (mode : Mode) (rounds : Nat)
    (hsource : source = front ++ rest)
    (hlen : done.length = front.length) (hrounds : rest.length ≤ rounds) :
    (Masking.step source)^[rounds] (.reading done mode rest) =
      .reading (done ++ lexicon.output none ⟨mode, false⟩ rest) (lexicon.final none ⟨mode, false⟩ rest).mode [] := by
  induction rounds generalizing front done rest mode with
  | zero =>
    rw [List.eq_nil_of_length_eq_zero (Nat.le_zero.mp hrounds)]
    simp [Transducer.output, Transducer.final]
  | succ rounds ih =>
    cases rest with
    | nil =>
      rw [List.append_nil] at hsource
      have hstep : (Masking.reading done mode []).step source = .reading done mode [] := by
        simp [Masking.step, Masking.reading, hsource, hlen]
      rw [Function.iterate_fixed hstep]
      simp [Transducer.output, Transducer.final]
    | cons current rest =>
      rw [List.length_cons, Nat.succ_le_succ_iff] at hrounds
      rw [Function.iterate_succ_apply, hsource, step_reading hlen, ← hsource]
      simp only [Masking.advanced, Transducer.output, Transducer.final, Option.or_none]
      rcases hnext : lexicon.next ⟨mode, false⟩ current rest.head? with ⟨after, second⟩
      cases second with
      | false =>
        simp only
        rw [ih (front ++ [current]) _ _ (by simp [hsource]) (by simp [hlen]) hrounds]
        simp
      | true =>
        obtain ⟨hblank, byte, hbyte, hsecond⟩ := second_blank hnext
        obtain ⟨rest, rfl⟩ := List.head?_eq_some_iff.mp hbyte
        rw [List.length_cons] at hrounds
        simp only [List.tail_cons]
        rw [ih (front ++ [current, byte]) _ _ (by simp [hsource]) (by simp [hlen]) (by omega)]
        simp only [Transducer.output, Transducer.final, hblank, hsecond]
        simp [lexicon]

theorem lexed_eq (source : List UInt8) :
    lexed source = .reading (lexicon.output none inCode source) (endMode source) [] :=
  run_reading [] [] .code source.length rfl rfl le_rfl

theorem maskNonCode_eq (source : List UInt8) : maskNonCode source =
    if (endMode source).isOpen then .error (.integrity "FATE source has an unterminated comment or string")
    else .ok (lexicon.output none inCode source) := by
  unfold maskNonCode
  rw [lexed_eq]
  cases endMode source <;> simp [Masking.reading, Mode.isOpen]

/-! What the modes do with the bytes -/

theorem emit_cases (s : Reading) (current : UInt8) (nextByte : Option UInt8) :
    (current = lf ∧ lexicon.emit s current nextByte = lf) ∨ (current ≠ lf ∧ lexicon.emit s current nextByte = space) ∨
      (lexicon.emit s current nextByte = current ∧ current ≠ quote ∧ ¬ BeginsComment current nextByte) := by
  simp only [lexicon]
  split_ifs with hlf hkept
  · exact .inl ⟨hlf, rfl⟩
  · exact .inr (.inr ⟨rfl, hkept.2⟩)
  · exact .inr (.inl ⟨hlf, rfl⟩)

theorem code_kept {nextByte : Option UInt8} (hquote : current ≠ quote) (hnone : ¬ BeginsComment current nextByte) :
    lexicon.next inCode current nextByte = inCode ∧ lexicon.emit inCode current nextByte = current := by
  have hline : ¬ (current = dash ∧ nextByte = some dash) := fun h => hnone ⟨.inl h.1, h.2⟩
  have hblock : ¬ (current = slash ∧ nextByte = some dash) := fun h => hnone ⟨.inr h.1, h.2⟩
  by_cases hlf : current = lf
  · simp [lexicon, inCode, Mode.next, hlf, lf, dash, slash, quote]
  · simp [lexicon, inCode, Mode.next, hline, hblock, hlf, hquote, hnone]

/-- What has been emitted is code. -/
theorem lexicon_settles : lexicon.Settles inCode := by
  intro s current nextByte seen hseen
  rcases emit_cases s current nextByte with ⟨-, hemit⟩ | ⟨-, hemit⟩ | ⟨hemit, hquote, hnone⟩
  · rw [hemit]
    exact code_kept (by decide) fun h => absurd h.1 (by decide)
  · rw [hemit]
    exact code_kept (by decide) fun h => absurd h.1 (by decide)
  · rw [hemit]
    apply code_kept hquote
    rintro ⟨hcurrent, rfl⟩
    apply hnone
    cases hseen with
    | some h =>
      obtain ⟨s', third, hsecond⟩ := h
      refine ⟨hcurrent, congrArg some ?_⟩
      rcases emit_cases s' _ third with ⟨-, hother⟩ | ⟨-, hother⟩ | ⟨hother, -, -⟩
      · exact absurd (hsecond.trans hother) (by decide)
      · exact absurd (hsecond.trans hother) (by decide)
      · exact (hsecond.trans hother).symm

/-! The mask -/

variable {source masked a b : List UInt8}

theorem maskNonCode_ok (h : maskNonCode source = .ok masked) : masked = lexicon.output none inCode source := by
  rw [maskNonCode_eq] at h
  split_ifs at h
  exact (Except.ok.inj h).symm

theorem maskNonCode_fixed (h : maskNonCode source = .ok masked) : maskNonCode masked = .ok masked := by
  obtain ⟨houtput, hfinal⟩ := lexicon_settles.output_fixed inCode source
  rw [maskNonCode_ok h, maskNonCode_eq, houtput, endMode, hfinal]
  rfl

theorem maskNonCode_bytes (h : maskNonCode source = .ok masked) :
    List.Forall₂ (fun byte out => if byte = lf then out = lf else out = byte ∨ out = space) source masked := by
  rw [maskNonCode_ok h]
  apply Transducer.forall₂_output
  intro s byte nextByte
  rcases emit_cases s byte nextByte with ⟨hlf, hemit⟩ | ⟨hlf, hemit⟩ | ⟨hemit, -, -⟩
  · rw [if_pos hlf, hemit]
  · rw [if_neg hlf]
    exact .inr hemit
  · split_ifs with hlf
    · exact hemit.trans hlf
    · exact .inl hemit

/-- Without a byte behind it no byte begins a delimiter. -/
theorem final_second (source : List UInt8) : (lexicon.final none inCode source).second = false := by
  rcases List.eq_nil_or_concat source with rfl | ⟨front, byte, rfl⟩
  · rfl
  · rw [List.concat_eq_append, Transducer.final_append]
    generalize lexicon.final _ inCode front = s
    have hlast : lexicon.final none s [byte] = lexicon.next s byte none := rfl
    rw [hlast]
    rcases s with ⟨mode, _ | _⟩
    · rcases hnext : lexicon.next ⟨mode, false⟩ byte none with ⟨after, _ | _⟩
      · rfl
      · obtain ⟨-, _, hnone, -⟩ := second_blank hnext
        cases hnone
    · rfl

/-- A byte behind which the source is in code, whatever stands behind it. -/
theorem boundary {s : Reading} {byte : UInt8} {nextByte : Option UInt8}
    (hcode : (lexicon.next s byte none).mode = .code) (hnone : ¬ BeginsComment byte nextByte) :
    lexicon.next s byte none = lexicon.next s byte nextByte ∧
      lexicon.emit s byte none = lexicon.emit s byte nextByte := by
  have hend : ¬ BeginsComment byte none := fun h => by cases h.2
  constructor
  · rcases s with ⟨mode, _ | _⟩
    · cases mode with
      | line => rfl
      | string escaped => cases escaped <;> rfl
      | block outer => simp [lexicon, Mode.next] at hcode
      | code =>
        have hline : ¬ (byte = dash ∧ nextByte = some dash) := fun h => hnone ⟨.inl h.1, h.2⟩
        have hblock : ¬ (byte = slash ∧ nextByte = some dash) := fun h => hnone ⟨.inr h.1, h.2⟩
        simp [lexicon, Mode.next, hline, hblock]
    · rfl
  · simp only [lexicon, hnone, hend]

theorem maskNonCode_append (hcode : endMode a = .code) (hboundary : ∀ byte ∈ a.getLast?, ¬ BeginsComment byte b.head?) :
    maskNonCode (a ++ b) = (maskNonCode a >>= fun first => maskNonCode b >>= fun second => pure (first ++ second)) := by
  obtain ⟨hfinal, houtput⟩ : lexicon.final none inCode a = lexicon.final b.head? inCode a ∧
      lexicon.output none inCode a = lexicon.output b.head? inCode a := by
    apply Transducer.after_irrelevant
    rintro front byte rfl
    rw [endMode, Transducer.final_append] at hcode
    exact boundary hcode (hboundary byte List.getLast?_concat)
  have hstart : lexicon.final b.head? inCode a = inCode := hfinal ▸ Reading.ext hcode (final_second a)
  have hmode : endMode (a ++ b) = endMode b := by
    rw [endMode, Transducer.final_append, Option.or_none, hstart]
    rfl
  rw [maskNonCode_eq, maskNonCode_eq, maskNonCode_eq, hmode, hcode, Transducer.output_append, Option.or_none,
    ← houtput, hstart]
  cases (endMode b).isOpen <;> rfl

/-- The flags say that the source ends in code. -/
def EndsInCode (source : List UInt8) : Prop :=
  (lexed source).blockDepth = 0 ∧ (lexed source).lineComment = false ∧ (lexed source).inString = false

theorem endsInCode_iff : EndsInCode source ↔ endMode source = .code := by
  unfold EndsInCode
  rw [lexed_eq]
  cases endMode source <;> simp [Masking.reading]

theorem maskNonCode_at (h : maskNonCode source = .ok masked) (i : Nat) :
    (source[i]? = some lf → masked[i]? = some lf) ∧ (masked[i]? = source[i]? ∨ masked[i]? = some space) := by
  have hbytes := maskNonCode_bytes h
  clear h
  induction hbytes generalizing i with
  | nil => exact ⟨id, .inl rfl⟩
  | cons hbyte _ ih =>
    cases i with
    | zero =>
      simp only [List.getElem?_cons_zero, Option.some.injEq]
      split_ifs at hbyte with hlf
      · exact ⟨fun _ => hbyte, .inl (hbyte.trans hlf.symm)⟩
      · exact ⟨fun h => absurd h hlf, hbyte⟩
    | succ i => exact ih i

/-- The mask of every source: offsets, line feeds and code are kept, the rest is blank, masked
sources and sources joined in code are masked alike, and only open ones are refused. -/
theorem maskNonCode_spec :
    (∀ source masked, maskNonCode source = .ok masked →
      masked.length = source.length ∧
      (∀ i : Nat, source[i]? = some lf → masked[i]? = some lf) ∧
      (∀ i : Nat, masked[i]? = source[i]? ∨ masked[i]? = some space) ∧
      maskNonCode masked = .ok masked) ∧
    (∀ a b, EndsInCode a → (∀ byte ∈ a.getLast?, ¬ BeginsComment byte b.head?) →
      maskNonCode (a ++ b) = (maskNonCode a >>= fun first => maskNonCode b >>= fun second => pure (first ++ second))) ∧
    (∀ source, (∃ e, maskNonCode source = .error e) ↔ (endMode source).isOpen = true) := by
  refine ⟨?_, fun a b hcode => maskNonCode_append (endsInCode_iff.mp hcode), ?_⟩
  · intro source masked h
    exact ⟨(maskNonCode_bytes h).length_eq.symm, fun i => (maskNonCode_at h i).1, fun i => (maskNonCode_at h i).2,
      maskNonCode_fixed h⟩
  · intro source
    rw [maskNonCode_eq]
    split_ifs with hopen
    · exact ⟨fun _ => hopen, fun _ => ⟨_, rfl⟩⟩
    · constructor
      · rintro ⟨e, he⟩
        cases he
      · exact fun h => absurd h hopen

/-! A line with a comment -/

/-- The bytes of `x --y`, a line feed and `z`. -/
def commented : List UInt8 := [0x78, space, dash, dash, 0x79, lf, 0x7A]

def uncommented : List UInt8 := [0x78, space, space, space, space, lf, 0x7A]

theorem maskNonCode_commented : maskNonCode commented = .ok uncommented := by decide +kernel

/-- The mask of the line twice is twice its mask, and behind an open comment it has none. -/
theorem maskNonCode_spec_commented :
    maskNonCode (commented ++ commented) = .ok (uncommented ++ uncommented) ∧
      maskNonCode uncommented = .ok uncommented ∧ ∃ e, maskNonCode (slash :: dash :: commented) = .error e := by
  obtain ⟨hmasked, hjoined, hrefused⟩ := maskNonCode_spec
  obtain ⟨-, -, -, hfixed⟩ := hmasked _ _ maskNonCode_commented
  refine ⟨?_, hfixed, (hrefused _).mpr (by decide +kernel)⟩
  rw [hjoined commented commented ⟨by decide +kernel, by decide +kernel, by decide +kernel⟩ (by decide +kernel),
    maskNonCode_commented]
  rfl

end Autolean.Benchmarks.Fate.Mask
