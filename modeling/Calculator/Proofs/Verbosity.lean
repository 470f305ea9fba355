import Calculator.Proofs.Carets
import Calculator.Proofs.Positionals

/-!
# Verbose runs

The switch for verbosity decides what is shown of a run, not what it does: reading a command
line with the switch in front gives the same request, but for the wish to see the records
(`Request.read_verbose`), and a request is served without asking for it. So there is one run
for both command lines (`runFor_verbose`), of which one shows the records for debugging as well.

These records do not disturb what else is on the standard error. Whatever a run writes there
ends its line (`foreseen_runFor`), and in a record about an expression the text of the expression
is quoted, so that none of its characters breaks a line (`Text.onOneLine_quoted`).
-/

namespace Calculator

/-! ## Quoted texts -/

namespace Text

/-- The breaks of a file do not show. -/
theorem isFileBreak_of_isPrintable {c : Char} (h : isPrintable c = true) :
    isFileBreak c = false := by
  have hhidden : ∀ r ∈ hiddenRanges, ¬ (r.1 ≤ c.toNat ∧ c.toNat ≤ r.2) := by
    rw [isPrintable, Bool.not_eq_true', List.any_eq_false] at h
    intro r hr hc
    exact h r hr (by simpa using hc)
  have hcontrols := hhidden (0x0, 0x1F) (by decide +kernel)
  have hlatin := hhidden (0x7F, 0xA0) (by decide +kernel)
  have hseparators := hhidden (0x2028, 0x202F) (by decide +kernel)
  simp only [isFileBreak, Bool.or_eq_false_iff, Bool.and_eq_false_iff, decide_eq_false_iff_not,
    beq_eq_false_iff_ne]
  omega

/-- Digits break no line, in base sixteen either. -/
theorem isFileBreak_of_mem_toDigits {n : Nat} {c : Char} (h : c ∈ Nat.toDigits 16 n) :
    isFileBreak c = false := by
  have hdigits : ∀ d < 16, isFileBreak (Nat.digitChar d) = false := by decide
  induction n using Nat.strong_induction_on with
  | _ n ih =>
    rw [Nat.toDigits_eq_if (by decide)] at h
    split at h
    · rename_i hlt
      rw [List.mem_singleton.1 h]
      exact hdigits n hlt
    · rcases List.mem_append.1 h with h | h
      · exact ih (n / 16) (by omega) h
      · rw [List.mem_singleton.1 h]
        exact hdigits (n % 16) (Nat.mod_lt _ (by decide))

theorem isFileBreak_of_mem_hexCode {width : Nat} {c d : Char} (h : d ∈ hexCode width c) :
    isFileBreak d = false := by
  rw [hexCode, List.leftpad, List.mem_append] at h
  rcases h with h | h
  · rw [List.eq_of_mem_replicate h]
    rfl
  · exact isFileBreak_of_mem_toDigits h

/-- Between quotes, no character breaks a line: those that would are given by their names or
    codes. -/
theorem isFileBreak_of_mem_quotedChar {quote c d : Char} (hquote : isFileBreak quote = false)
    (h : d ∈ quotedChar quote c) : isFileBreak d = false := by
  have hnamed : ∀ a, isFileBreak a = false → ∀ d ∈ ['\\', a], isFileBreak d = false :=
    fun a ha => List.forall_mem_cons.2 ⟨rfl, List.forall_mem_singleton.2 ha⟩
  have hcoded : ∀ a width, isFileBreak a = false →
      ∀ d ∈ '\\' :: a :: hexCode width c, isFileBreak d = false := fun a width ha =>
    List.forall_mem_cons.2 ⟨rfl, List.forall_mem_cons.2
      ⟨ha, fun _ hd => isFileBreak_of_mem_hexCode hd⟩⟩
  rw [quotedChar] at h
  split at h
  · rename_i hescaped
    have hself : c = '\\' ∨ c = quote := by simpa using hescaped
    rcases hself with rfl | rfl
    · exact hnamed _ rfl d h
    · exact hnamed _ hquote d h
  split at h
  · exact hnamed 'n' rfl d h
  split at h
  · exact hnamed 'r' rfl d h
  split at h
  · exact hnamed 't' rfl d h
  split at h
  · rename_i hprintable
    rw [List.mem_singleton.1 h]
    exact isFileBreak_of_isPrintable hprintable
  split at h
  · exact hcoded 'x' 2 rfl d h
  split at h
  · exact hcoded 'u' 4 rfl d h
  · exact hcoded 'U' 8 rfl d h

/-- Whatever characters a text holds, in quotes it stands on one line. -/
theorem onOneLine_quoted (s : String) : OnOneLine (quoted s) := by
  have hquote : isFileBreak (quoteFor s.toList) = false := by
    rw [quoteFor]
    split <;> rfl
  refine onOneLine_ofList (List.forall_mem_append.2
    ⟨List.forall_mem_cons.2 ⟨hquote, fun d hd => ?_⟩, List.forall_mem_singleton.2 hquote⟩)
  obtain ⟨c, _, hd⟩ := List.mem_flatMap.1 hd
  exact isFileBreak_of_mem_quotedChar hquote hd

end Text

/-- What is recorded about an evaluation stands on one line each. -/
theorem Evaluator.onOneLine_of_mem_records {v : Evaluator} {s message : String}
    (h : message ∈ records s (v.evaluate s)) : Text.OnOneLine message := by
  have hquoted := Text.onOneLine_quoted s
  rw [records.eq_def] at h
  rcases List.mem_cons.1 h with rfl | h
  · exact Text.onOneLine_append (by decide +kernel) hquoted
  · rw [List.mem_singleton.1 h]
    cases hs : v.evaluate s with
    | ok x =>
      exact Text.onOneLine_append (Text.onOneLine_append (Text.onOneLine_append
        (by decide +kernel) hquoted) (by decide +kernel)) x.onOneLine_text
    | error f =>
      exact Text.onOneLine_append (Text.onOneLine_append (Text.onOneLine_append
        (Text.onOneLine_append (Text.onOneLine_append (by decide +kernel) hquoted)
        (by decide +kernel)) (Fault.Kind.onOneLine_code _)) (by decide +kernel))
        (oneLine_of_evaluate_error hs).1.message

namespace CommandLine

/-! ## Verbose requests -/

/-- The same request, with the wish to see the records for debugging. -/
def Request.loud (r : Request) : Request := { r with verbose := true }

namespace Draft

/-- The same draft of a request, with the wish to see the records for debugging. -/
def loud (d : Draft) : Draft := { d with verbose := true }

theorem loud_use (d : Draft) (u : Use) : d.loud.use u = (d.use u).map loud := by
  obtain ⟨s, value⟩ := u
  cases s with
  | help | version | verbose | file => rfl
  | precision =>
    rw [use, use]
    dsimp only
    split
    · rfl
    · split <;> rfl

theorem loud_foldlM_use (d : Draft) (us : List Use) :
    us.foldlM use d.loud = (us.foldlM use d).map loud := by
  induction us generalizing d with
  | nil => rfl
  | cons u us ih =>
    rw [List.foldlM_cons, List.foldlM_cons, loud_use]
    cases d.use u with
    | error stop => rfl
    | ok d' => exact ih d'

theorem loud_addText (d : Draft) (t : String) : d.loud.addText t = (d.addText t).loud := by
  rw [addText, addText]
  show (if d.texts = .over then _ else _) = _
  split <;> rfl

theorem loud_addSeparator (d : Draft) : d.loud.addSeparator = d.addSeparator.loud := by
  rw [addSeparator, addSeparator]
  show (if d.texts = .over then _ else _) = _
  split <;> rfl

/-- The wish has no part in a step. -/
theorem loud_step (d : Draft) (item : Item) : d.loud.step item = (d.step item).map loud := by
  cases item with
  | text t => exact congrArg Except.ok (d.loud_addText t)
  | separator => exact congrArg Except.ok d.loud_addSeparator
  | uses us => exact d.endTexts.loud_foldlM_use us
  | unknown w => rfl
  | refused e => rfl

/-- The wish has no part in the steps. -/
theorem loud_foldlM_step (d : Draft) (items : List Item) :
    items.foldlM step d.loud = (items.foldlM step d).map loud := by
  induction items generalizing d with
  | nil => rfl
  | cons item items ih =>
    rw [List.foldlM_cons, List.foldlM_cons, loud_step]
    cases d.step item with
    | error stop => rfl
    | ok d' => exact ih d'

theorem loud_finish (d : Draft) : d.loud.finish = d.finish.map Request.loud := by
  rw [finish, finish]
  show (if !d.extras.isEmpty then _ else if !d.precisionKnown then _
    else if d.precision < 1 then _ else _) = _
  split
  · rfl
  split
  · rfl
  split <;> rfl

end Draft

/-- The switch adds the wish to see the records for debugging, and nothing else. -/
theorem Request.read_verbose (argv : List String) :
    Request.read ("--verbose" :: argv) = (Request.read argv).map loud := by
  have hswitch : Word.read "--verbose" = .ok (.switch .verbose false none) :=
    eq_ok_of_toOption_eq_some (by decide +kernel)
  have hwords : Word.readAll ("--verbose" :: argv) =
      (Word.readAll argv).map (.switch .verbose false none :: ·) := by
    rw [Word.readAll, if_neg (by decide), hswitch]
    cases Word.readAll argv <;> rfl
  rw [Request.read, hwords, Request.read]
  cases Word.readAll argv with
  | error e => rfl
  | ok words =>
    show Draft.read {} (.switch .verbose false none :: words) >>= Draft.finish =
      (Draft.read {} words >>= Draft.finish).map loud
    have hfirst : Item.ofWords (.switch .verbose false none :: words) =
        .uses [⟨.verbose, none⟩] :: Item.ofWords words := by
      rw [Item.ofWords]
      cases words <;> rfl
    rw [Draft.read_eq_foldlM, Draft.read_eq_foldlM, hfirst, List.foldlM_cons]
    show (Item.ofWords words).foldlM Draft.step (Draft.loud {}) >>= Draft.finish = _
    rw [Draft.loud_foldlM_step]
    cases (Item.ofWords words).foldlM Draft.step {} with
    | error stop => rfl
    | ok d => exact d.loud_finish

/-! ## One run for both -/

/-- What is done for a command line. -/
def runFor (m : Elementary) (s : Surroundings) (argv : List String) : Run Nat :=
  match Request.read argv with
  | .error stop => stop.run
  | .ok request => request.run m s

/-- Whether the records for debugging are shown. -/
def showsRecords (argv : List String) : Bool :=
  match Request.read argv with
  | .error _ => false
  | .ok request => request.verbose

variable {m : Elementary} {s : Surroundings} {argv : List String}

/-- What is left is what was done, with or without the records for debugging. -/
theorem program_eq_transcript (m : Elementary) (s : Surroundings) (argv : List String) :
    program m s argv = (runFor m s argv).transcript (showsRecords argv) := by
  rw [program, runFor, showsRecords]
  cases Request.read argv <;> rfl

/-- The switch has no part in what is done. -/
theorem runFor_verbose (m : Elementary) (s : Surroundings) (argv : List String) :
    runFor m s ("--verbose" :: argv) = runFor m s argv := by
  rw [runFor, Request.read_verbose, runFor]
  cases Request.read argv <;> rfl

/-! ## What is written on the standard error -/

/-- What may happen in a run. Whatever is written on the standard error ends its line, and a
    record for debugging is about an evaluation or sums up that of a file. -/
inductive Foreseen (m : Elementary) : Event → Prop
  | out (text : String) : Foreseen m (.out text)
  | err {text : String} (h : Text.Closed text) : Foreseen m (.err text)
  | evaluation {v : Evaluator} {text message : String} (hmachine : v.machine = m)
    (h : message ∈ Evaluator.records text (v.evaluate text)) :
    Foreseen m (.record .debug .evaluation message)
  | summary (count : Nat) (path : String) : Foreseen m (.record .debug .evaluation
    ("Evaluated " ++ toString count ++ " expressions from " ++ path))
  | unreadable (message : String) : Foreseen m (.record .error .commandLine message)

/-- Whatever is written ends its line. -/
theorem Foreseen.closed {e : Event} (h : Foreseen m e) (verbose : Bool) :
    Text.Closed (e.toErr verbose) := by
  cases h with
  | out => exact .inl rfl
  | err h => exact h
  | evaluation | summary | unreadable =>
    rw [Event.toErr]
    split
    · exact .inr ⟨_, rfl⟩
    · exact .inl rfl

/-- Nothing unforeseen happens in a run. -/
def Run.Foreseen {α : Type} (m : Elementary) (r : Run α) : Prop :=
  ∀ e ∈ r.events, CommandLine.Foreseen m e

section

variable {α β : Type}

theorem foreseen_pure (a : α) : (pure a : Run α).Foreseen m := List.forall_mem_nil _

theorem foreseen_print (text : String) : (Run.print text).Foreseen m :=
  List.forall_mem_singleton.2 (.out text)

theorem foreseen_escape (e : Escape) : (Run.escape e : Run α).Foreseen m := List.forall_mem_nil _

theorem Run.Foreseen.bind {r : Run α} {f : α → Run β} (hr : r.Foreseen m)
    (hf : ∀ a, (f a).Foreseen m) : (r >>= f).Foreseen m := by
  cases h : r.result with
  | error e => rw [Run.bind_of_error h]; exact hr
  | ok a => rw [Run.bind_of_ok h]; exact List.forall_mem_append.2 ⟨hr, hf a⟩

end

theorem foreseen_report (f : Failure) : (Run.report f.render).Foreseen m :=
  List.forall_mem_singleton.2 (.err (Text.closed_unlines f.diagnostic.lines))

variable {v : Evaluator} {precision : Int}

theorem foreseen_printValue (x : Binary64) : (printValue precision x).Foreseen m := by
  rw [printValue]
  split
  · exact foreseen_print _
  · exact foreseen_escape _

theorem foreseen_evaluateOne (hv : v.machine = m) (text : String) :
    (evaluateOne v precision text).Foreseen m := by
  have hrecords : (Run.debug (Evaluator.records text (v.evaluate text))).Foreseen m := by
    intro e he
    obtain ⟨message, hmessage, rfl⟩ := List.mem_map.1 he
    exact .evaluation hv hmessage
  refine hrecords.bind fun _ => ?_
  split
  · exact (foreseen_printValue _).bind fun _ => foreseen_pure _
  · exact (foreseen_report _).bind fun _ => foreseen_pure _

theorem foreseen_evaluateAll (hv : v.machine = m) (texts : List String) :
    (evaluateAll v precision texts).Foreseen m := by
  induction texts with
  | nil => exact foreseen_pure _
  | cons text texts ih =>
    exact (foreseen_evaluateOne hv text).bind fun _ => ih.bind fun _ => foreseen_pure _

theorem foreseen_printAll (xs : List Binary64) : (printAll precision xs).Foreseen m := by
  induction xs with
  | nil => exact foreseen_pure _
  | cons x xs ih => exact (foreseen_printValue x).bind fun _ => ih

/-- The attempts on the lines of a file are evaluations. -/
theorem exists_of_mem_attempts {path : String} {es : List Batch.Entry} {a : Batch.Attempt}
    (h : a ∈ Batch.attempts v path es) :
    ∃ v' : Evaluator, v'.machine = v.machine ∧ a.outcome = v'.evaluate a.entry.text := by
  induction es with
  | nil => exact absurd h List.not_mem_nil
  | cons e es ih =>
    rw [Batch.attempts] at h
    rcases List.mem_cons.1 h with rfl | h
    · exact ⟨{ v with source := Batch.sourceOf path e }, rfl, rfl⟩
    · split at h
      · exact ih h
      · exact absurd h List.not_mem_nil

theorem foreseen_evaluateFile (hv : v.machine = m) (files : Files) (path : String) :
    (evaluateFile v files precision path).Foreseen m := by
  rw [evaluateFile, attemptFile]
  cases readText files path with
  | error e =>
    cases e with
    | inaccessible reason =>
      exact Run.Foreseen.bind (List.forall_mem_singleton.2 (.unreadable _)) fun _ => foreseen_pure _
    | embeddedNull | undecodable => exact foreseen_escape _
  | ok contents =>
    have hrecords : (Run.debug (Batch.records path
        (Batch.attempts v path (Batch.entries contents)))).Foreseen m := by
      intro e he
      obtain ⟨message, hmessage, rfl⟩ := List.mem_map.1 he
      rw [Batch.records] at hmessage
      rcases List.mem_append.1 hmessage with hmessage | hmessage
      · obtain ⟨a, ha, hmessage⟩ := List.mem_flatMap.1 hmessage
        obtain ⟨v', hv', houtcome⟩ := exists_of_mem_attempts ha
        rw [houtcome] at hmessage
        exact .evaluation (hv'.trans hv) hmessage
      · split at hmessage
        · rw [List.mem_singleton.1 hmessage]
          exact .summary _ path
        · exact absurd hmessage List.not_mem_nil
    refine hrecords.bind fun _ => ?_
    split
    · exact (foreseen_report _).bind fun _ => foreseen_pure _
    · exact (foreseen_printAll _).bind fun _ => foreseen_pure _

theorem foreseen_answerLine (hv : v.machine = m) (line : String) :
    (answerLine v precision line).Foreseen m := by
  rw [answerLine]
  split
  · exact foreseen_pure _
  split
  · exact foreseen_pure _
  · exact (foreseen_evaluateOne hv _).bind fun _ => foreseen_pure _

theorem foreseen_converseFrom (hv : v.machine = m) (attempts : List Attempt) :
    (converseFrom v precision attempts).Foreseen m := by
  induction attempts with
  | nil =>
    exact (foreseen_print _).bind fun _ => (foreseen_print _).bind fun _ => foreseen_pure _
  | cons attempt attempts ih =>
    cases attempt with
    | interrupt =>
      exact (foreseen_print _).bind fun _ => (foreseen_print _).bind fun _ => foreseen_pure _
    | line line =>
      refine (foreseen_print _).bind fun _ => (foreseen_answerLine hv line).bind fun goesOn => ?_
      cases goesOn with
      | true => exact ih
      | false => exact foreseen_pure _

theorem foreseen_evaluatePiped (hv : v.machine = m) (attempts : List Attempt) :
    (evaluatePiped v precision attempts).Foreseen m := by
  rw [evaluatePiped]
  split
  · exact foreseen_evaluateAll hv _
  · exact (foreseen_print _).bind fun _ => foreseen_pure _

theorem foreseen_run (m : Elementary) (s : Surroundings) (r : Request) :
    (r.run m s).Foreseen m := by
  rw [Request.run]
  dsimp only
  split
  · refine (foreseen_evaluateFile rfl s.files _).bind fun status => ?_
    split
    · exact foreseen_pure _
    · exact foreseen_evaluateAll rfl _
  · split
    · exact foreseen_evaluateAll rfl _
    split
    · exact (foreseen_print _).bind fun _ => foreseen_converseFrom rfl _
    · exact foreseen_evaluatePiped rfl _

theorem foreseen_stop (m : Elementary) (stop : Stop) : stop.run.Foreseen m := by
  cases stop with
  | help | version => exact (foreseen_print _).bind fun _ => foreseen_pure _
  | usage e =>
    exact Run.Foreseen.bind (List.forall_mem_singleton.2 (.err (.inr ⟨_, rfl⟩))) fun _ =>
      foreseen_pure _
  | noPrecision => exact foreseen_escape _

/-- Nothing unforeseen happens for a command line. -/
theorem foreseen_runFor (m : Elementary) (s : Surroundings) (argv : List String) :
    (runFor m s argv).Foreseen m := by
  rw [runFor]
  split
  · exact foreseen_stop m _
  · exact foreseen_run m s _

/-! ## Records for debugging -/

/-- Whether an event is a record for debugging. -/
def Event.isDebug : Event → Bool
  | .record .debug _ _ => true
  | _ => false

/-- The events but for the records for debugging. -/
def undebugged (events : List Event) : List Event := events.filter fun e => !e.isDebug

/-- What events write on the standard error. -/
def written (verbose : Bool) (events : List Event) : String :=
  String.join (events.map (Event.toErr verbose))

/-- A message about the evaluation of an expression. -/
def AboutExpression (m : Elementary) (message : String) : Prop :=
  ∃ (v : Evaluator) (text : String), v.machine = m ∧
    message ∈ Evaluator.records text (v.evaluate text)

theorem written_append (verbose : Bool) (events events' : List Event) :
    written verbose (events ++ events') = written verbose events ++ written verbose events' := by
  rw [written, List.map_append, String.join_append]
  rfl

/-- Only the records for debugging depend on whether they are shown. -/
theorem written_undebugged (verbose verbose' : Bool) (events : List Event) :
    written verbose (undebugged events) = written verbose' (undebugged events) := by
  refine congrArg String.join (List.map_congr_left fun e he => ?_)
  have hshown : (!e.isDebug) = true := (List.mem_filter.1 he).2
  cases e with
  | out | err => rfl
  | record level logger message =>
    cases level with
    | debug => exact absurd hshown Bool.false_ne_true
    | error => rw [Event.toErr, Event.toErr, if_pos (by simp), if_pos (by simp)]

/-- Foreseen events write texts that can be continued. -/
theorem closed_written {events : List Event} (h : ∀ e ∈ events, Foreseen m e) (verbose : Bool) :
    Text.Closed (written verbose events) := by
  induction events with
  | nil => exact .inl rfl
  | cons e events ih =>
    obtain ⟨he, hevents⟩ := List.forall_mem_cons.1 h
    have hcons : written verbose (e :: events) = e.toErr verbose ++ written verbose events :=
      String.join_cons
    rcases ih hevents with hnil | ⟨t, ht⟩
    · rw [hcons, hnil, String.append_empty]
      exact he.closed verbose
    · exact .inr ⟨e.toErr verbose ++ t, by rw [hcons, ht, String.append_assoc]⟩

/-- If there are records for debugging, the switch shows them. -/
theorem showsRecords_verbose {logger : Logger} {message : String}
    (h : .record .debug logger message ∈ (runFor m s argv).events) :
    showsRecords ("--verbose" :: argv) = true := by
  rw [showsRecords, Request.read_verbose]
  rw [runFor] at h
  cases hread : Request.read argv with
  | ok r => rfl
  | error stop =>
    rw [hread] at h
    exact absurd rfl ((Stop.run_eq stop).1 _ h _ _ _)

/-- A record about an expression is one line of what is written. -/
theorem fileLines_written {before after : List Event} {logger : Logger} {message : String}
    (h : ∀ e ∈ before, Foreseen m e) (habout : AboutExpression m message) :
    Text.fileLines (written true (before ++ .record .debug logger message :: after)) =
      Text.fileLines (written true before) ++
        ("DEBUG " ++ logger.name ++ ": " ++ message) :: Text.fileLines (written true after) := by
  obtain ⟨v, text, _, hmessage⟩ := habout
  have hline : Text.OnOneLine ("DEBUG " ++ logger.name ++ ": " ++ message) := by
    have hname : Text.OnOneLine ("DEBUG " ++ logger.name ++ ": ") := by
      cases logger <;> decide +kernel
    exact Text.onOneLine_append hname (Evaluator.onOneLine_of_mem_records hmessage)
  have hwritten : written true (.record .debug logger message :: after) =
      "DEBUG " ++ logger.name ++ ": " ++ message ++ "\n" ++ written true after :=
    String.join_cons
  have hrecord : Text.fileLines ("DEBUG " ++ logger.name ++ ": " ++ message ++ "\n") =
      ["DEBUG " ++ logger.name ++ ": " ++ message] := by
    refine .trans ?_ (Text.fileLines_unlines (List.forall_mem_singleton.2 hline))
    exact congrArg Text.fileLines String.empty_append.symm
  rw [written_append, Text.fileLines_append (closed_written h true), hwritten,
    Text.fileLines_append (.inr ⟨_, rfl⟩), hrecord]
  rfl

/-- With the switch for verbosity in front of a command line, a run ends in the same way and
    prints the same, and the same is on the standard error, in the same order, once the records
    for debugging are left out. Each of these is about an expression or sums up the evaluation
    of a file; and one about an expression is exactly one line among the others, whatever the
    expression. -/
theorem program_verbose (m : Elementary) (s : Surroundings) (argv : List String) :
    let quiet := program m s argv
    let loud := program m s ("--verbose" :: argv)
    let quietEvents := (runFor m s argv).events
    let loudEvents := (runFor m s ("--verbose" :: argv)).events
    let quietShows := showsRecords argv
    let loudShows := showsRecords ("--verbose" :: argv)
    loud.ending = quiet.ending ∧ loud.stdout = quiet.stdout ∧
    (quiet.stderr = written quietShows quietEvents ∧ loud.stderr = written loudShows loudEvents ∧
      written loudShows (undebugged loudEvents) = written quietShows (undebugged quietEvents)) ∧
    ∀ before logger message after,
      loudEvents = before ++ .record .debug logger message :: after →
      (AboutExpression m message ∨ ∃ (count : Nat) (path : String),
        message = "Evaluated " ++ toString count ++ " expressions from " ++ path) ∧
      (AboutExpression m message → Text.fileLines loud.stderr =
        Text.fileLines (written true before) ++
          ("DEBUG " ++ logger.name ++ ": " ++ message) :: Text.fileLines (written true after)) := by
  intro quiet loud quietEvents loudEvents quietShows loudShows
  have hquiet : quiet = (runFor m s argv).transcript quietShows := program_eq_transcript m s argv
  have hloud : loud = (runFor m s argv).transcript loudShows := by
    rw [← runFor_verbose m s argv]
    exact program_eq_transcript m s ("--verbose" :: argv)
  have hevents : loudEvents = quietEvents := congrArg Run.events (runFor_verbose m s argv)
  refine ⟨by rw [hloud, hquiet]; rfl, by rw [hloud, hquiet]; rfl, ⟨by rw [hquiet]; rfl,
    by rw [hloud, hevents]; rfl, by rw [hevents]; exact written_undebugged _ _ _⟩,
    fun before logger message after hsplit => ?_⟩
  have hforeseen : ∀ e ∈ before ++ .record .debug logger message :: after, Foreseen m e := by
    rw [← hsplit, hevents]
    exact foreseen_runFor m s argv
  obtain ⟨hbefore, hrest⟩ := List.forall_mem_append.1 hforeseen
  refine ⟨?_, fun habout => ?_⟩
  · cases (List.forall_mem_cons.1 hrest).1 with
    | evaluation hmachine h => exact .inl ⟨_, _, hmachine, h⟩
    | summary count path => exact .inr ⟨count, path, rfl⟩
  · have hmem : .record .debug logger message ∈ (runFor m s argv).events := by
      show _ ∈ quietEvents
      rw [← hevents, hsplit]
      exact List.mem_append_right _ (.head _)
    have hstderr :
        loud.stderr = written true (before ++ .record .debug logger message :: after) := by
      rw [hloud, ← hsplit, hevents]
      show written loudShows _ = _
      rw [show loudShows = true from showsRecords_verbose hmem]
    rw [hstderr]
    exact fileLines_written hbefore habout

/-- An expression that holds a line feed is recorded on one line. -/
theorem program_verbose_lineFeed :
    let s : Surroundings := ⟨fun _ => .error .notFound, .ofText false ""⟩
    let events := (runFor .plain s ["--verbose", "1+\n1"]).events
    let message := "Evaluating '1+\\n1'"
    events = [] ++ .record .debug .evaluation message :: events.tail ∧
      AboutExpression .plain message ∧
      Text.fileLines (program .plain s ["--verbose", "1+\n1"]).stderr =
        Text.fileLines (written true []) ++
          ("DEBUG " ++ Logger.evaluation.name ++ ": " ++ message) ::
            Text.fileLines (written true events.tail) := by
  intro s events message
  have hsplit : events = [] ++ .record .debug .evaluation message :: events.tail := by
    decide +kernel
  have habout : AboutExpression .plain message := by
    refine ⟨evaluatorFor .plain "<argv>", "1+\n1", rfl, ?_⟩
    decide +kernel
  exact ⟨hsplit, habout,
    ((program_verbose .plain s ["1+\n1"]).2.2.2 [] _ message _ hsplit).2 habout⟩

end CommandLine

end Calculator
