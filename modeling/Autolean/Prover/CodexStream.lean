import Autolean.Prover.CodexCli
import Autolean.Text.JsonRoundTrip
import Autolean.Text.Trimming

/-! Which streams of events are read back whole. The lines of a stream end at its line feeds,
but it is cut wherever `str.splitlines` cuts, inside an event too. -/
namespace Autolean.Prover.Providers
open Text
open Machine Machine.Raising
open Contracts (isSpace)

/-- An event as it is written: the text of a JSON object on one line. -/
structure CodexEvent where
  text : List Char
  fields : JsonDict Unit
  one_line : '\n' ∉ text
  loads : codexHooks.loads text = .ok (.dict fields)

/-- The events one a line, with or without a line feed after the last. -/
def stream (events : List CodexEvent) (terminated : Bool) : List Char :=
  ['\n'].intercalate (events.map CodexEvent.text) ++ if terminated then ['\n'] else []

/-- The texts of the agent messages. -/
def messages (events : List CodexEvent) : List PyText := events.filterMap fun e => agentMessage e.fields

/-- The usage of the last event that carries one. -/
def lastUsage (events : List CodexEvent) : Except Raised TokenUsage :=
  match (events.filterMap fun e => eventUsage e.fields).getLast? with
  | some usage => parseUsage usage
  | none => .ok ⟨0, 0, 0⟩

/-- White space around it apart, the text is one line for `str.splitlines`. -/
def Unbroken (text : List Char) : Prop := (trim isJsonSpace text).all (!isLineBoundary ·) = true

instance (text : List Char) : Decidable (Unbroken text) := inferInstanceAs (Decidable (_ = true))

/-- Neither a list nor a dict. -/
def hasHash : Option (JsonValue Unit) → Bool
  | some (.list _) | some (.dict _) => false
  | _ => true

/-- The reader can take the event in: its type has a hash, its usage passes its checks. -/
def Readable (event : JsonDict Unit) : Prop :=
  hasHash (event.get "type") = true ∧ ∀ usage ∈ eventUsage event, ∃ counts, parseUsage usage = .ok counts

/-! One event -/

theorem isOneOf_returns {value : Option (JsonValue Unit)} {texts : List String} :
    (∃ b, isOneOf value texts = .ok b) ↔ hasHash value = true := by
  unfold isOneOf hasHash
  split <;> simp_all

theorem read_eq_ok {s s' : CodexStream} {event : JsonDict Unit} (h : s.read event = .ok s') :
    Readable event ∧ s'.textParts = s.textParts ++ (agentMessage event).toList ∧
      s.readUsage event = .ok s'.usage := by
  unfold CodexStream.read at h
  obtain ⟨starts, hstarts, h⟩ := bind_eq_ok.mp h
  obtain ⟨usage, husage, h⟩ := bind_eq_ok.mp h
  cases h
  refine ⟨⟨isOneOf_returns.mp ⟨starts, hstarts⟩, ?_⟩, rfl, husage⟩
  intro value hvalue
  rw [CodexStream.readUsage, hvalue] at husage
  exact ⟨usage, husage⟩

theorem read_returns {event : JsonDict Unit} (h : Readable event) (s : CodexStream) : ∃ s', s.read event = .ok s' := by
  obtain ⟨starts, hstarts⟩ := (@isOneOf_returns _ ["thread.started", "session_start"]).mpr h.1
  obtain ⟨counts, hcounts⟩ : ∃ counts, s.readUsage event = .ok counts := by
    unfold CodexStream.readUsage
    cases husage : eventUsage event with
    | none => exact ⟨s.usage, rfl⟩
    | some usage => exact h.2 usage husage
  unfold CodexStream.read
  rw [hstarts, ok_bind, hcounts, ok_bind]
  exact ⟨_, rfl⟩

/-! The lines -/

/-- What one line does to the stream read so far; `none` when it is rejected. -/
def consume (s : CodexStream) (line : List Char) : Option CodexStream :=
  if line.all isSpace then some s
  else
    match codexHooks.loads line with
    | .ok (.dict event) => (s.read event).toOption
    | _ => none

theorem parseLines_toOption (lineNumber : Nat) (lines : List (List Char)) (s : CodexStream) :
    (parseLines lineNumber lines s).toOption = lines.foldlM consume s := by
  induction lines generalizing lineNumber s with
  | nil => rfl
  | cons line lines ih =>
    rw [List.foldlM_cons, parseLines]
    unfold consume
    split_ifs with hblank
    · exact ih (lineNumber + 1) s
    · cases hloads : codexHooks.loads line with
      | error e => rfl
      | ok value =>
        cases value with
        | dict event =>
          dsimp only
          cases hread : s.read event with
          | error e => rfl
          | ok s' => exact ih (lineNumber + 1) s'
        | _ => rfl

theorem isSpace_of_isJsonSpace {c : Char} (h : isJsonSpace c = true) : isSpace c = true := by
  simp only [isJsonSpace, Bool.or_eq_true, decide_eq_true_eq] at h
  rcases h with ((rfl | rfl) | rfl) | rfl <;> decide

theorem foldlM_blank {lines : List (List Char)} (h : ∀ line ∈ lines, ∀ c ∈ line, isJsonSpace c = true) (s : CodexStream) :
    lines.foldlM consume s = some s := by
  induction lines with
  | nil => rfl
  | cons line lines ih =>
    obtain ⟨hline, hlines⟩ := List.forall_mem_cons.mp h
    have hblank : line.all isSpace = true := List.all_eq_true.mpr fun c hc => isSpace_of_isJsonSpace (hline c hc)
    rw [List.foldlM_cons, consume, if_pos hblank]
    exact ih hlines

/-- A line with a brace in it is no blank line. -/
theorem not_blank_of_brace {line : List Char} (h : '{' ∈ line) : ¬ line.all isSpace = true :=
  fun hall => absurd (List.all_eq_true.mp hall '{' h) (by decide)

theorem codexHooks_constant (name : List Char) (fields : JsonDict Unit) : codexHooks.constant name ≠ .ok (.dict fields) :=
  nofun

namespace CodexEvent
variable (e : CodexEvent)

/-- The object of an event within the white space around it. -/
theorem exists_core :
    ∃ before after, e.text = before ++ (trim isJsonSpace e.text ++ after) ∧ (∀ c ∈ before, isJsonSpace c = true) ∧
      (∀ c ∈ after, isJsonSpace c = true) ∧ (trim isJsonSpace e.text).head? = some '{' := by
  obtain ⟨before, after, htext, hbefore, hafter⟩ := exists_trim isJsonSpace e.text
  refine ⟨before, after, htext, hbefore, hafter, ?_⟩
  have hhead := JsonHooks.head_of_loads codexHooks_constant e.loads
  rw [htext, JsonHooks.skipSpace_spaces hbefore] at hhead
  cases hcore : trim isJsonSpace e.text with
  | nil =>
    rw [hcore, List.nil_append, ← after.append_nil, JsonHooks.skipSpace_spaces hafter] at hhead
    cases hhead
  | cons c tail =>
    have hc : isJsonSpace c = false := (trimmed_trim isJsonSpace e.text).1 c (by rw [hcore]; rfl)
    rw [hcore, skipSpace_eq_self (by intro d hd; cases hd; exact hc)] at hhead
    exact hhead

/-- The lines before the object, and what stands before the object on its own line. -/
theorem splitlines_text : ∃ before after lines inline, e.text = before ++ (trim isJsonSpace e.text ++ after) ∧
    (∀ c ∈ before, isJsonSpace c = true) ∧ (∀ c ∈ after, isJsonSpace c = true) ∧
    (∀ line ∈ lines, ∀ c ∈ line, isJsonSpace c = true) ∧ (∀ c ∈ inline, isJsonSpace c = true) ∧
    inline.all (!isLineBoundary ·) = true ∧
    splitlines (e.text ++ ['\n']) = lines ++ splitlines (inline ++ (trim isJsonSpace e.text ++ (after ++ ['\n']))) := by
  obtain ⟨before, after, htext, hbefore, hafter, hopen⟩ := e.exists_core
  have hfeed : '\n' ∉ before := by
    intro hmem
    apply e.one_line
    rw [htext]
    exact List.mem_append_left _ hmem
  have hhead : (trim isJsonSpace e.text ++ (after ++ ['\n'])).head? ≠ some '\n' := by
    rw [JsonHooks.head?_append_left hopen]
    exact fun he => absurd (Option.some.inj he) (by decide)
  obtain ⟨lines, inline, hlines, hmem, hinline, hplain⟩ := splitlines_space hfeed hhead
  refine ⟨before, after, lines, inline, htext, hbefore, hafter, ?_, ?_, hplain, ?_⟩
  · exact fun line hline c hc => hbefore c (hmem line hline c hc)
  · exact fun c hc => hbefore c (hinline c hc)
  · have hwhole : e.text ++ ['\n'] = before ++ (trim isJsonSpace e.text ++ (after ++ ['\n'])) :=
      (congrArg (· ++ ['\n']) htext).trans (by simp)
    rw [hwhole, hlines]

theorem opens : (trim isJsonSpace e.text).head? = some '{' := by
  obtain ⟨-, -, -, -, -, hopen⟩ := e.exists_core
  exact hopen

theorem closes : ∀ c ∈ (trim isJsonSpace e.text).getLast?, isJsonSpace c = false := (trimmed_trim isJsonSpace e.text).2

/-- An event that is one line is read as it stands. -/
theorem consume_unbroken (h : Unbroken e.text) (s : CodexStream) :
    (splitlines (e.text ++ ['\n'])).foldlM consume s = (s.read e.fields).toOption := by
  obtain ⟨before, after, lines, inline, htext, hbefore, hafter, hlines, hinline, hplain, hsplit⟩ := e.splitlines_text
  have hspace : ∀ c ∈ after ++ ['\n'], isJsonSpace c = true :=
    List.forall_mem_append.mpr ⟨hafter, List.forall_mem_singleton.mpr rfl⟩
  obtain ⟨trailing, c, rest, htrailing, hplain', hc⟩ := @exists_boundary (after ++ ['\n']) (by simp [isLineBoundary])
  rw [htrailing] at hspace
  obtain ⟨htrail, hrest⟩ := List.forall_mem_append.mp hspace
  have hline : (inline ++ (trim isJsonSpace e.text ++ trailing)).all (!isLineBoundary ·) = true := by
    rw [List.all_append, List.all_append, hplain, hplain', h]
    rfl
  obtain ⟨others, hothers, hmem⟩ := splitlines_first hline hc rest
  have hloads := JsonHooks.loads_object hbefore hafter hinline htrail e.opens e.closes (htext ▸ e.loads)
  have hbrace : '{' ∈ inline ++ (trim isJsonSpace e.text ++ trailing) :=
    List.mem_append_right _ (List.mem_append_left _ (List.mem_of_mem_head? e.opens))
  have hblank : ∀ line ∈ others, ∀ d ∈ line, isJsonSpace d = true :=
    fun line hline d hd => hrest d (List.mem_cons_of_mem _ (hmem line hline d hd))
  have hsplit' : splitlines (e.text ++ ['\n']) = lines ++ (inline ++ (trim isJsonSpace e.text ++ trailing)) :: others := by
    rw [hsplit, htrailing, ← hothers]
    simp only [List.append_assoc]
  rw [hsplit', List.foldlM_append, foldlM_blank hlines, Option.bind_eq_bind, Option.bind_some,
    List.foldlM_cons, consume, if_neg (not_blank_of_brace hbrace), hloads]
  dsimp only
  cases hread : s.read e.fields with
  | error _ => rfl
  | ok s' => exact foldlM_blank hblank s'

/-- An event that is cut within its object is rejected. -/
theorem consume_broken (h : ¬ Unbroken e.text) (s : CodexStream) : (splitlines (e.text ++ ['\n'])).foldlM consume s = none := by
  obtain ⟨before, after, lines, inline, htext, hbefore, hafter, hlines, hinline, hplain, hsplit⟩ := e.splitlines_text
  obtain ⟨part, c, rest, hcore, hpart, hc⟩ := exists_boundary (Bool.eq_false_iff.mpr h)
  have hopen : part.head? = some '{' := by
    have hhead := e.opens
    rw [hcore] at hhead
    cases part with
    | nil =>
      cases hhead
      cases hc
    | cons d part => exact hhead
  have hrest : ∃ d ∈ c :: rest ++ after, isJsonSpace d = false := by
    obtain ⟨d, hd⟩ : ∃ d, (c :: rest).getLast? = some d := ⟨_, List.getLast?_eq_some_getLast (List.cons_ne_nil _ _)⟩
    refine ⟨d, List.mem_append_left _ (List.mem_of_getLast? hd), e.closes d ?_⟩
    rw [hcore]
    exact getLast?_append_right hd
  have hline : (inline ++ part).all (!isLineBoundary ·) = true := by
    rw [List.all_append, hplain, hpart]
    rfl
  obtain ⟨others, hothers, -⟩ := splitlines_first hline hc (rest ++ (after ++ ['\n']))
  have hloads : codexHooks.loads (before ++ (part ++ (c :: rest ++ after))) = .ok (.dict e.fields) := by
    rw [← e.loads]
    exact congrArg codexHooks.loads (by rw [← List.append_assoc part, ← hcore, ← htext])
  have hrejected : ∀ v, codexHooks.loads (inline ++ part) ≠ .ok v :=
    fun v => JsonHooks.loads_part hbefore hinline hopen hrest hloads
  have hbrace : '{' ∈ inline ++ part := List.mem_append_right _ (List.mem_of_mem_head? hopen)
  have hsplit' : splitlines (e.text ++ ['\n']) = lines ++ (inline ++ part) :: others := by
    rw [hsplit, hcore, ← hothers]
    simp only [List.append_assoc, List.cons_append]
  rw [hsplit', List.foldlM_append, foldlM_blank hlines, Option.bind_eq_bind, Option.bind_some,
    List.foldlM_cons, consume, if_neg (not_blank_of_brace hbrace)]
  cases hpiece : codexHooks.loads (inline ++ part) with
  | error _ => rfl
  | ok v => exact absurd hpiece (hrejected v)

end CodexEvent

/-! The stream -/

theorem splitlines_stream {events : List CodexEvent} (h : events ≠ []) :
    splitlines (stream events true) = events.flatMap fun e => splitlines (e.text ++ ['\n']) := by
  induction events with
  | nil => exact absurd rfl h
  | cons e events ih =>
    cases events with
    | nil => simp [stream]
    | cons e' events =>
      have hstream : stream (e :: e' :: events) true = e.text ++ '\n' :: stream (e' :: events) true := by
        simp [stream, List.intercalate_cons_cons]
      rw [hstream, splitlines_append_newline, ih (List.cons_ne_nil _ _)]
      rfl

/-- A line feed after the last event makes no difference. -/
theorem foldlM_stream (events : List CodexEvent) (terminated : Bool) (s : CodexStream) :
    (splitlines (stream events terminated)).foldlM consume s = (splitlines (stream events true)).foldlM consume s := by
  cases terminated with
  | true => rfl
  | false =>
    have hstream : stream events true = stream events false ++ ['\n'] := by simp [stream]
    rw [hstream]
    rcases splitlines_concat_newline (stream events false) with h | h
    · rw [h]
    · rw [h, List.foldlM_append]
      cases (splitlines (stream events false)).foldlM consume s <;> rfl

/-- The stream is read when no event is cut, and then it is read event by event. -/
theorem foldlM_events (events : List CodexEvent) (s s' : CodexStream) :
    (events.flatMap fun e => splitlines (e.text ++ ['\n'])).foldlM consume s = some s' ↔
      (∀ e ∈ events, Unbroken e.text) ∧ events.foldlM (fun s e => (s.read e.fields).toOption) s = some s' := by
  induction events generalizing s with
  | nil => simp
  | cons e events ih =>
    rw [List.flatMap_cons, List.foldlM_append, List.foldlM_cons, List.forall_mem_cons]
    by_cases h : Unbroken e.text
    · rw [e.consume_unbroken h]
      cases s.read e.fields with
      | error _ => simp [Except.toOption]
      | ok s₁ => simpa [Except.toOption, h] using ih s₁
    · rw [e.consume_broken h]
      simp [h]

theorem foldlM_read {events : List CodexEvent} {s s' : CodexStream}
    (h : events.foldlM (fun s e => (s.read e.fields).toOption) s = some s') :
    (∀ e ∈ events, Readable e.fields) ∧ s'.textParts = s.textParts ++ messages events ∧
      (match (events.filterMap fun e => eventUsage e.fields).getLast? with
        | some usage => parseUsage usage
        | none => .ok s.usage) = .ok s'.usage := by
  induction events generalizing s with
  | nil =>
    cases h
    exact ⟨List.forall_mem_nil _, (List.append_nil _).symm, rfl⟩
  | cons e events ih =>
    rw [List.foldlM_cons] at h
    obtain ⟨s₁, hs₁, h⟩ := Option.bind_eq_some_iff.mp h
    cases hread : s.read e.fields with
    | error _ =>
      rw [hread] at hs₁
      cases hs₁
    | ok s₂ =>
      rw [hread] at hs₁
      cases hs₁
      obtain ⟨hreadable, htext, husage⟩ := read_eq_ok hread
      obtain ⟨hreadables, htexts, husages⟩ := ih h
      refine ⟨List.forall_mem_cons.mpr ⟨hreadable, hreadables⟩, ?_, ?_⟩
      · rw [htexts, htext, messages, messages, List.append_assoc]
        congr 1
        cases hmessage : agentMessage e.fields with
        | none => simp [hmessage]
        | some message => simp [hmessage]
      · cases hevent : eventUsage e.fields with
        | none =>
          rw [CodexStream.readUsage, hevent] at husage
          simp only [List.filterMap_cons, hevent, Except.ok.inj husage]
          exact husages
        | some usage =>
          rw [CodexStream.readUsage, hevent] at husage
          simp only [List.filterMap_cons, hevent, List.getLast?_cons]
          cases hlast : (events.filterMap fun e => eventUsage e.fields).getLast? with
          | none =>
            rw [hlast] at husages
            exact husage.trans husages
          | some last =>
            rw [hlast] at husages
            exact husages

theorem foldlM_returns {events : List CodexEvent} (h : ∀ e ∈ events, Readable e.fields) (s : CodexStream) :
    ∃ s', events.foldlM (fun s e => (s.read e.fields).toOption) s = some s' := by
  induction events generalizing s with
  | nil => exact ⟨s, rfl⟩
  | cons e events ih =>
    obtain ⟨he, hevents⟩ := List.forall_mem_cons.mp h
    obtain ⟨s₁, hs₁⟩ := read_returns he s
    obtain ⟨s', hs'⟩ := ih hevents s₁
    exact ⟨s', by rw [List.foldlM_cons, hs₁]; exact hs'⟩

/-! The response -/

variable (settings : CodexCliSettings) {events : List CodexEvent} {terminated : Bool}

theorem parseJsonl_eq_ok {output : List Char} {response : ModelResponse} :
    settings.parseJsonl output = .ok response ↔ ∃ s, (splitlines output).foldlM consume .start = some s ∧
      s.textParts ≠ [] ∧ response = {
        providerId := .str (PyText.of "codex-cli"), modelId := .str settings.modelId, text := .str s.textParts.flatten,
        responseId := optionalText s.responseId, toolCalls := .toolCalls [], usage := .usage s.usage } := by
  rw [← parseLines_toOption 1]
  unfold CodexCliSettings.parseJsonl
  cases parseLines 1 (splitlines output) .start with
  | error e => simp [Except.toOption]
  | ok s =>
    rw [ok_bind, ensure_bind_eq_ok]
    simp [Except.toOption, pure, Except.pure, eq_comm]

/-- An agent message in its short shape. -/
def messageText (text : List Char) : List Char :=
  '{' :: '"' :: (['t', 'y', 'p', 'e'] ++ '"' :: ':' :: '"' :: (['m', 'e', 's', 's', 'a', 'g', 'e'] ++ '"' :: ',' :: '"' ::
    (['t', 'e', 'x', 't'] ++ '"' :: ':' :: '"' :: (text ++ ['"', '}']))))

def messageFields (text : List Char) : JsonDict Unit :=
  [(PyText.ofChars ['t', 'y', 'p', 'e'], .str (PyText.ofChars ['m', 'e', 's', 's', 'a', 'g', 'e'])),
    (PyText.ofChars ['t', 'e', 'x', 't'], .str (PyText.ofChars text))]

theorem messageKeys_nodup : [PyText.ofChars ['t', 'y', 'p', 'e'], PyText.ofChars ['t', 'e', 'x', 't']].Nodup := by decide

theorem loads_message {text : List Char} (h : text.all isPlainChar = true) :
    codexHooks.loads (messageText text) = .ok (.dict (messageFields text)) :=
  codexHooks.loads_plain rfl rfl rfl h (congrArg Except.ok (dictOf_of_nodup messageKeys_nodup))

theorem plain_one_line : '\n' ∉ messageText ['a', 'b'] := by decide

theorem separated_one_line : '\n' ∉ messageText ['a', '\u2028', 'b'] := by decide

theorem plain_loads : codexHooks.loads (messageText ['a', 'b']) = .ok (.dict (messageFields ['a', 'b'])) := loads_message rfl

theorem separated_loads :
    codexHooks.loads (messageText ['a', '\u2028', 'b']) = .ok (.dict (messageFields ['a', '\u2028', 'b'])) :=
  loads_message rfl

def plainEvent : CodexEvent := ⟨messageText ['a', 'b'], messageFields ['a', 'b'], plain_one_line, plain_loads⟩

theorem next_one_line : '\n' ∉ messageText ['c'] := by decide

def nextEvent : CodexEvent := ⟨messageText ['c'], messageFields ['c'], next_one_line, loads_message rfl⟩

/-- The message holds a line separator, which JSON allows as it is. -/
def separatedEvent : CodexEvent :=
  ⟨messageText ['a', '\u2028', 'b'], messageFields ['a', '\u2028', 'b'], separated_one_line, separated_loads⟩

/-- A stream with a message and a last usage in order is read back exactly when no event is cut
within its object and every event can be taken in. -/
theorem parseJsonl_returns_iff {usage : TokenUsage} (hmessage : messages events ≠ []) (husage : lastUsage events = .ok usage) :
    (∃ response, settings.parseJsonl (stream events terminated) = .ok response ∧
      response.text = .str (messages events).flatten ∧ response.usage = .usage usage) ↔
      ∀ e ∈ events, Unbroken e.text ∧ Readable e.fields := by
  have hevents : events ≠ [] := by
    rintro rfl
    exact hmessage rfl
  simp only [parseJsonl_eq_ok, foldlM_stream, splitlines_stream hevents, foldlM_events]
  constructor
  · rintro ⟨response, ⟨s, ⟨hunbroken, hread⟩, -, -⟩, -, -⟩
    obtain ⟨hreadable, -, -⟩ := foldlM_read hread
    exact fun e he => ⟨hunbroken e he, hreadable e he⟩
  · intro h
    obtain ⟨s, hs⟩ := foldlM_returns (fun e he => (h e he).2) .start
    obtain ⟨-, htexts, husages⟩ := foldlM_read hs
    have htexts' : s.textParts = messages events := htexts
    have husages' : s.usage = usage := Except.ok.inj (husages.symm.trans husage)
    refine ⟨_, ⟨s, ⟨fun e he => (h e he).1, hs⟩, htexts' ▸ hmessage, rfl⟩, ?_, ?_⟩
    · rw [htexts']
    · rw [husages']

/-! An event that carries the counts of the turn -/

theorem codexHooks_keeps : codexHooks.Keeps := by
  intro d hd
  change Except.ok (dictOf d) = _
  rw [dictOf_of_nodup hd]

def countFields : JsonDict Unit := JsonDict.of [("input_tokens", .int 3), ("output_tokens", .int 2)]

def usageFields : JsonDict Unit := JsonDict.of [("type", .text "turn.completed"), ("usage", .dict countFields)]

def usageText : List Char := (JsonTree.dict usageFields).dumps fun _ => []

theorem usageFields_plain : (JsonTree.dict usageFields).Everywhere JsonTree.Plain := by
  refine JsonTree.everywhere_plain_of (by simp) ?_
  simp only [List.forall_mem_cons, List.not_mem_nil, false_imp_iff, implies_true, and_true]
  exact ⟨PyText.isScalar_of _, JsonTree.everywhere_plain_of (by simp) (by simp [JsonTree.Everywhere, JsonTree.Plain])⟩

theorem usageFields_ascend : (JsonTree.dict usageFields).Everywhere JsonTree.KeysAscend := by
  have hcounts : (JsonDict.keys countFields).Pairwise (· ≤ ·) := by decide +kernel
  have hfields : (JsonDict.keys usageFields).Pairwise (· ≤ ·) := by decide +kernel
  refine JsonTree.everywhere_dict.mpr ⟨hfields, ?_⟩
  simp only [usageFields, JsonDict.of, List.map_cons, List.map_nil, List.forall_mem_cons, List.not_mem_nil, false_imp_iff,
    implies_true, and_true]
  refine ⟨trivial, JsonTree.everywhere_dict.mpr ⟨hcounts, ?_⟩⟩
  simp [countFields, JsonDict.of, JsonTree.Everywhere, JsonTree.KeysAscend]

theorem usage_loads : codexHooks.loads usageText = .ok (.dict usageFields) := by
  have hloads := @JsonHooks.loads_dumps _ _ _ codexHooks_keeps (fun _ => []) _ usageFields_plain [] (by simp)
  rwa [List.append_nil, JsonTree.sortKeys_eq_self usageFields_ascend] at hloads

theorem usage_one_line : '\n' ∉ usageText := by decide +kernel

theorem usageText_unbroken : Unbroken usageText := by decide +kernel

theorem usageFields_parsed : (eventUsage usageFields).map parseUsage = some (.ok ⟨3, 2, 0⟩) := rfl

theorem usageFields_readable : Readable usageFields := by
  refine ⟨by decide +kernel, fun usage husage => ⟨⟨3, 2, 0⟩, ?_⟩⟩
  exact Option.some.inj ((congrArg (Option.map parseUsage) husage).symm.trans usageFields_parsed)

def usageEvent : CodexEvent := ⟨usageText, usageFields, usage_one_line, usage_loads⟩

def sampleSettings : CodexCliSettings := ⟨PyText.of "gpt", PyText.of "codex", PyText.of "read-only", none, .finite 900, 1000⟩

/-- Two messages and the counts of the turn are read back. -/
theorem parseJsonl_returns_plain :
    ∃ response, sampleSettings.parseJsonl (stream [plainEvent, nextEvent, usageEvent] true) = .ok response ∧
      response.text = .str (PyText.ofChars ['a', 'b', 'c']) ∧ response.usage = .usage ⟨3, 2, 0⟩ := by
  refine (parseJsonl_returns_iff sampleSettings (by decide) ?_).mpr ?_
  · exact Option.some.inj usageFields_parsed
  · simp only [List.forall_mem_cons, List.not_mem_nil, false_imp_iff, implies_true, and_true]
    exact ⟨⟨by decide, by decide, nofun⟩, ⟨by decide, by decide, nofun⟩, usageText_unbroken, usageFields_readable⟩

/-- A stream of one message whose text holds a line separator is rejected. -/
theorem separated_stream_rejected :
    messages [separatedEvent] = [PyText.ofChars ['a', '\u2028', 'b']] ∧ lastUsage [separatedEvent] = .ok ⟨0, 0, 0⟩ ∧
      ∀ response, sampleSettings.parseJsonl (stream [separatedEvent] true) ≠ .ok response := by
  refine ⟨rfl, rfl, fun response h => ?_⟩
  obtain ⟨s, hs, -⟩ := (parseJsonl_eq_ok sampleSettings).mp h
  have hbroken : ¬ Unbroken separatedEvent.text := by decide
  rw [splitlines_stream (List.cons_ne_nil _ _), foldlM_events] at hs
  exact hbroken (hs.1 separatedEvent List.mem_cons_self)

end Autolean.Prover.Providers
