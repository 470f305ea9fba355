import Calculator.Proofs.Conversation

/-!
# Interrupts

The user may interrupt an attempt to read a line. At a terminal, a session makes its attempts
one by one, with a prompt in front of each (`count_prompt_converse`). It is cut off right
after the prompt of the attempt that is interrupted, and has then done with the lines before
just what it does without the interrupt (`converse_interrupt`). If it ends before that
attempt, nobody is there to interrupt it (`converse_of_readAttempts_le`).

What is piped in is read to its end before anything is evaluated, so an interrupt leaves
nothing of it (`evaluatePiped_interrupt`).
-/

namespace Calculator.CommandLine

variable {precision : Int} {digits : Nat} (v : Evaluator)

/-! ## The events of sessions -/

/-- What happens on a line: a prompt, and then the events of its texts. -/
def exchange (digits : Nat) (line : String) : List Event :=
  .out prompt :: (lineTexts line).flatMap (textEvents v digits)

/-- The attempts to read a line that a session makes: one for each line up to the first that
    ends it, or else one for each line and one that finds the end of the input. -/
def readAttempts : List String → Nat
  | [] => 1
  | line :: lines => if endsSession line then 1 else readAttempts lines + 1

/-- A line adds its exchange to a session, which then goes on unless the line ends it. -/
theorem converseFrom_line (h : significantDigits precision = .ok digits) (line : String)
    (attempts : List Attempt) :
    converseFrom v precision (.line line :: attempts) =
      let rest := if endsSession line then pure 0 else converseFrom v precision attempts
      ⟨exchange v digits line ++ rest.events, rest.result⟩ := by
  have hanswer : answerLine v precision line =
      ⟨(lineTexts line).flatMap (textEvents v digits), .ok (!endsSession line)⟩ := by
    rw [answerLine_eq, evaluateAll_of_digits v h, Run.bind_of_ok rfl]
    generalize (lineTexts line).flatMap (textEvents v digits) = events
    exact congrArg (Run.mk · (.ok (!endsSession line))) (List.append_nil events)
  rw [converseFrom, hanswer, Run.bind_of_ok rfl, Run.bind_of_ok rfl, exchange]
  generalize (lineTexts line).flatMap (textEvents v digits) = events
  cases endsSession line <;> rfl

/-- Lines that do not end a session add their exchanges to it, one after the other. -/
theorem converseFrom_append (h : significantDigits precision = .ok digits) {lines : List String}
    (hlines : ∀ line ∈ lines, endsSession line = false) (attempts : List Attempt) :
    converseFrom v precision (lines.map .line ++ attempts) =
      let rest := converseFrom v precision attempts
      ⟨lines.flatMap (exchange v digits) ++ rest.events, rest.result⟩ := by
  induction lines with
  | nil => rfl
  | cons line lines ih =>
    obtain ⟨hline, hlines⟩ := List.forall_mem_cons.1 hlines
    rw [List.map_cons, List.cons_append, converseFrom_line v h, ih hlines, hline,
      if_neg (by decide), List.flatMap_cons]
    dsimp only
    rw [List.append_assoc]

/-- Whatever the attempts give, a session starts with a prompt. -/
theorem exists_events_converseFrom (h : significantDigits precision = .ok digits)
    (attempts : List Attempt) :
    ∃ after, (converseFrom v precision attempts).events = .out prompt :: after := by
  match attempts with
  | [] => exact ⟨_, rfl⟩
  | .interrupt :: _ => exact ⟨_, rfl⟩
  | .line line :: attempts =>
    rw [converseFrom_line v h]
    exact ⟨_, rfl⟩

/-! ## Counting prompts -/

/-- A value is no prompt, since it is on a line of its own. -/
theorem resultLine_ne_prompt (digits : Nat) (x : Binary64) : resultLine digits x ≠ prompt := by
  intro h
  have hlast : (resultLine digits x).toList.getLast? = prompt.toList.getLast? := by rw [h]
  rw [resultLine, String.toList_append, List.getLast?_append] at hlast
  exact absurd (Option.some.inj hlast) (by decide)

/-- The events of a text are no prompts. -/
theorem prompt_notMem_textEvents (digits : Nat) (text : String) :
    Event.out prompt ∉ textEvents v digits text := by
  intro hmem
  rw [textEvents, List.mem_append, List.mem_map, List.mem_singleton] at hmem
  obtain ⟨_, _, hrecord⟩ | hlast := hmem
  · exact Event.noConfusion hrecord
  · cases h : v.evaluate text with
    | ok x =>
      rw [h] at hlast
      exact resultLine_ne_prompt digits x (Event.out.inj hlast).symm
    | error f =>
      rw [h] at hlast
      exact Event.noConfusion hlast

/-- There is one prompt on a line. -/
theorem count_prompt_exchange (digits : Nat) (line : String) :
    (exchange v digits line).count (.out prompt) = 1 := by
  have hnone : Event.out prompt ∉ (lineTexts line).flatMap (textEvents v digits) := by
    intro hmem
    obtain ⟨text, _, htext⟩ := List.mem_flatMap.1 hmem
    exact prompt_notMem_textEvents v digits text htext
  rw [exchange, List.count_cons_self, List.count_eq_zero_of_not_mem hnone]

theorem count_prompt_flatMap_exchange (digits : Nat) (lines : List String) :
    (lines.flatMap (exchange v digits)).count (.out prompt) = lines.length := by
  induction lines with
  | nil => rfl
  | cons line lines ih =>
    rw [List.flatMap_cons, List.count_append, count_prompt_exchange, ih, List.length_cons,
      Nat.add_comm]

/-- A prompt stands in front of every attempt of a session to read a line. -/
theorem count_prompt_converse (h : significantDigits precision = .ok digits)
    (lines : List String) :
    (converse v precision (lines.map .line)).events.count (.out prompt) = readAttempts lines := by
  have hfrom : (converseFrom v precision (lines.map .line)).events.count (.out prompt) =
      readAttempts lines := by
    induction lines with
    | nil => rfl
    | cons line lines ih =>
      rw [List.map_cons, converseFrom_line v h, readAttempts]
      dsimp only
      rw [List.count_append, count_prompt_exchange]
      cases endsSession line with
      | true => rfl
      | false =>
        rw [if_neg (by decide), if_neg (by decide), ih, Nat.add_comm]
  rw [← hfrom]
  -- The banner is no prompt.
  exact List.count_cons_of_ne (by decide)

/-! ## Interrupted attempts -/

/-- If a session makes more attempts than `n`, none of the first `n` lines ends it, and there
    are as many. -/
theorem goesOn_of_lt_readAttempts {n : Nat} {lines : List String} (h : n < readAttempts lines) :
    n ≤ lines.length ∧ ∀ line ∈ lines.take n, endsSession line = false := by
  induction lines generalizing n with
  | nil =>
    have hn : n = 0 := Nat.lt_one_iff.1 h
    rw [hn]
    exact ⟨Nat.le_refl 0, fun _ hmem => absurd hmem List.not_mem_nil⟩
  | cons line lines ih =>
    cases n with
    | zero => exact ⟨Nat.zero_le _, fun _ hmem => absurd hmem List.not_mem_nil⟩
    | succ n =>
      rw [readAttempts] at h
      cases hline : endsSession line with
      | true =>
        rw [if_pos hline] at h
        omega
      | false =>
        rw [if_neg (by rw [hline]; decide)] at h
        obtain ⟨hle, htake⟩ := ih (Nat.lt_of_succ_lt_succ h)
        rw [List.take_succ_cons]
        exact ⟨Nat.succ_le_succ hle, List.forall_mem_cons.2 ⟨hline, htake⟩⟩

/-- If a session makes no more than `n` attempts, but there are `n` lines, then one of these
    ends it. -/
theorem exists_quit_of_readAttempts_le {n : Nat} {lines : List String}
    (h : readAttempts lines ≤ n) (hn : n ≤ lines.length) :
    ∃ before line after rest, lines.take n = before ++ line :: after ∧
      lines = before ++ line :: rest ∧ endsSession line = true := by
  induction lines generalizing n with
  | nil => exact absurd (Nat.le_trans h hn) (by decide)
  | cons line lines ih =>
    cases n with
    | zero =>
      rw [readAttempts] at h
      split at h <;> omega
    | succ n =>
      cases hline : endsSession line with
      | true => exact ⟨[], line, lines.take n, lines, rfl, rfl, hline⟩
      | false =>
        rw [readAttempts, if_neg (by rw [hline]; decide)] at h
        obtain ⟨before, quit, after, rest, htake, hlines, hquit⟩ :=
          ih (Nat.le_of_succ_le_succ h) (Nat.le_of_succ_le_succ hn)
        refine ⟨line :: before, quit, after, rest, ?_, ?_, hquit⟩
        · rw [List.take_succ_cons, htake, List.cons_append]
        · rw [hlines, List.cons_append]

variable (isTerminal : Bool) (text : String) (n : Nat)

/-- The attempts to read an input, if the one after the first `n` lines is interrupted. -/
theorem attempts_interruptAfter (h : n ≤ (Text.streamLines text).length) :
    ((Input.ofText isTerminal text).interruptAfter n).attempts =
      ((Text.streamLines text).take n).map .line ++ [.interrupt] := by
  rw [Input.interruptAfter, if_pos (by rw [Input.ofText, List.length_map]; exact h)]
  exact congrArg (· ++ _) List.map_take.symm

/-- There is no attempt after the one that finds the end of the input. -/
theorem interruptAfter_of_length_lt (h : (Text.streamLines text).length < n) :
    (Input.ofText isTerminal text).interruptAfter n = .ofText isTerminal text := by
  rw [Input.interruptAfter, if_neg (by rw [Input.ofText, List.length_map]; omega)]

variable {text n}

/-- An interrupted session has shown what the session shows without the interrupt up to the
    prompt of the attempt, with a line feed after it. -/
theorem converse_interrupt (hdigits : significantDigits precision = .ok digits)
    (h : n < readAttempts (Text.streamLines text)) :
    let before := .out banner :: ((Text.streamLines text).take n).flatMap (exchange v digits)
    (∃ after, (converse v precision (Input.ofText true text).attempts).events =
      before ++ .out prompt :: after) ∧
    converse v precision ((Input.ofText true text).interruptAfter n).attempts =
      ⟨before ++ [.out prompt, .out "\n"], .ok interrupted⟩ := by
  obtain ⟨hlength, hgoes⟩ := goesOn_of_lt_readAttempts h
  refine ⟨?_, ?_⟩
  · have hattempts : (Input.ofText true text).attempts =
        ((Text.streamLines text).take n).map .line ++
          ((Text.streamLines text).drop n).map .line := by
      rw [← List.map_append, List.take_append_drop, Input.ofText]
    obtain ⟨after, hafter⟩ := exists_events_converseFrom v hdigits
      (((Text.streamLines text).drop n).map .line)
    refine ⟨after, ?_⟩
    rw [converse, Run.bind_of_ok rfl, hattempts, converseFrom_append v hdigits hgoes]
    dsimp only
    rw [hafter]
    rfl
  · rw [attempts_interruptAfter true text n hlength, converse, Run.bind_of_ok rfl,
      converseFrom_append v hdigits hgoes]
    rfl

/-- A session that is over is not interrupted. -/
theorem converse_of_readAttempts_le (h : readAttempts (Text.streamLines text) ≤ n) :
    converse v precision ((Input.ofText true text).interruptAfter n).attempts =
      converse v precision (Input.ofText true text).attempts := by
  rcases Nat.lt_or_ge (Text.streamLines text).length n with hlt | hn
  · rw [interruptAfter_of_length_lt true text n hlt]
  · obtain ⟨before, line, after, rest, htake, hlines, hquit⟩ := exists_quit_of_readAttempts_le h hn
    have hattempts : (Input.ofText true text).attempts =
        before.map .line ++ .line line :: rest.map .line := by
      rw [Input.ofText, hlines, List.map_append, List.map_cons]
    rw [attempts_interruptAfter true text n hn, htake, hattempts, List.map_append, List.map_cons,
      List.append_assoc, List.cons_append]
    exact converse_append_quit v hquit _ _ _

/-- Lines are not read to their end if there is an interrupt after them. -/
theorem readLines_interrupt (lines : List String) :
    readLines (lines.map .line ++ [.interrupt]) = none := by
  induction lines with
  | nil => rfl
  | cons line lines ih =>
    rw [List.map_cons, List.cons_append, readLines, ih]
    rfl

/-- Nothing is evaluated of what is piped in, if reading it is interrupted. -/
theorem evaluatePiped_interrupt (h : n ≤ (Text.streamLines text).length) :
    evaluatePiped v precision ((Input.ofText false text).interruptAfter n).attempts =
      ⟨[.out "\n"], .ok interrupted⟩ := by
  rw [attempts_interruptAfter false text n h, evaluatePiped, readLines_interrupt]
  rfl

/-! ## Runs without a command line -/

variable (m : Elementary) (files : Files)

/-- Without a command line, what is read at a terminal is a session. -/
theorem program_terminal {i : Input} (h : i.isTerminal = true) :
    program m ⟨files, i⟩ [] =
      (converse (evaluatorFor m "<stdin>") 15 i.attempts).transcript false := by
  show (if i.isTerminal then converse (evaluatorFor m "<stdin>") 15 i.attempts
    else evaluatePiped (evaluatorFor m "<stdin>") 15 i.attempts).transcript false = _
  rw [if_pos h]

/-- Without a command line, what is piped in is evaluated as a batch. -/
theorem program_piped {i : Input} (h : i.isTerminal = false) :
    program m ⟨files, i⟩ [] =
      (evaluatePiped (evaluatorFor m "<stdin>") 15 i.attempts).transcript false := by
  show (if i.isTerminal then converse (evaluatorFor m "<stdin>") 15 i.attempts
    else evaluatePiped (evaluatorFor m "<stdin>") 15 i.attempts).transcript false = _
  rw [if_neg (by rw [h]; decide)]

/-- An interrupt does not change on what an input is read. -/
theorem isTerminal_interruptAfter (i : Input) (n : Nat) :
    (i.interruptAfter n).isTerminal = i.isTerminal := by
  rw [Input.interruptAfter]
  split <;> rfl

/-- A run that is cut off at a prompt leaves the prompt and a line feed at the end of what it
    has shown. -/
theorem transcript_interrupted (before : List Event) :
    Run.transcript false ⟨before ++ [Event.out prompt, .out "\n"], .ok interrupted⟩ =
      { stdout := String.join ((before ++ [Event.out prompt]).map Event.toOut) ++ "\n"
        stderr := String.join (before.map (Event.toErr false))
        ending := .ok 130 } := by
  have happend : before ++ [Event.out prompt, .out "\n"] =
      before ++ [Event.out prompt] ++ [Event.out "\n"] :=
    (List.append_assoc before [Event.out prompt] [Event.out "\n"]).symm
  have hstdout : String.join ((before ++ [Event.out prompt, .out "\n"]).map Event.toOut) =
      String.join ((before ++ [Event.out prompt]).map Event.toOut) ++ "\n" := by
    rw [happend, List.map_append, String.join_append]
    exact congrArg (_ ++ ·) String.empty_append
  have hstderr : String.join ((before ++ [Event.out prompt, .out "\n"]).map (Event.toErr false)) =
      String.join (before.map (Event.toErr false)) := by
    rw [List.map_append, String.join_append]
    exact String.append_empty
  rw [Run.transcript, hstdout, hstderr]
  rfl

/-- The reports on lines are what their exchanges leave on the standard error. -/
theorem join_flatMap_exchange (h : significantDigits precision = .ok digits)
    (lines : List String) :
    String.join ((lines.flatMap (exchange v digits)).map (Event.toErr false)) =
      String.join (lines.map (lineReport v)) := by
  induction lines with
  | nil => rfl
  | cons line lines ih =>
    have hline : String.join ((exchange v digits line).map (Event.toErr false)) =
        lineReport v line := by
      have htexts := reported_evaluateAll v h (lineTexts line)
      rw [(join_lineTexts v digits line).2, evaluateAll_of_digits v h, Run.reported] at htexts
      rw [exchange, List.map_cons, String.join_cons, ← htexts, Event.toErr, String.empty_append]
    rw [List.flatMap_cons, List.map_append, String.join_append, hline, ih, List.map_cons,
      String.join_cons]

/-- An interrupt of the attempt to read a line that follows the first `n` cuts a run off. At a
    terminal, if the session makes that attempt, what is seen of it is what is seen without
    the interrupt up to and including the prompt of the attempt, and then a line feed; what is
    reported is the failures among the first `n` lines. If it does not, the interrupt changes
    nothing. What is piped in is not evaluated at all, unless it is read to its end before. -/
theorem program_interruptAfter (text : String) (n : Nat) :
    let lines := Text.streamLines text
    let run (i : Input) := program m ⟨files, i⟩ []
    let terminal := Input.ofText true text
    let piped := Input.ofText false text
    let v := evaluatorFor m "<stdin>"
    let session := converse v 15 terminal.attempts
    (run terminal = session.transcript false ∧
      session.events.count (.out prompt) = readAttempts lines) ∧
    (n < readAttempts lines →
      ∃ before after, session.events = before ++ .out prompt :: after ∧
        before.count (.out prompt) = n ∧
        run (terminal.interruptAfter n) =
          { stdout := String.join ((before ++ [.out prompt]).map Event.toOut) ++ "\n"
            stderr := String.join ((lines.take n).map (lineReport v))
            ending := .ok 130 }) ∧
    (readAttempts lines ≤ n → run (terminal.interruptAfter n) = run terminal) ∧
    (n ≤ lines.length → run (piped.interruptAfter n) = ⟨"\n", "", .ok 130⟩) ∧
    (lines.length < n → run (piped.interruptAfter n) = run piped) := by
  intro lines run terminal piped v session
  have hdigits := significantDigits_default
  have hterminal : (terminal.interruptAfter n).isTerminal = true :=
    isTerminal_interruptAfter terminal n
  have hpiped : (piped.interruptAfter n).isTerminal = false := isTerminal_interruptAfter piped n
  refine ⟨⟨program_terminal m files rfl, count_prompt_converse v hdigits lines⟩, fun h => ?_,
    fun h => ?_, fun h => ?_, fun h => ?_⟩
  · obtain ⟨⟨after, hsession⟩, hcut⟩ := converse_interrupt v hdigits h
    refine ⟨_, after, hsession, ?_, ?_⟩
    · have hlength : (lines.take n).length = n :=
        List.length_take_of_le (goesOn_of_lt_readAttempts h).1
      rw [List.count_cons_of_ne (by decide), count_prompt_flatMap_exchange, hlength]
    · have hreports := join_flatMap_exchange v hdigits (lines.take n)
      refine (program_terminal m files hterminal).trans ?_
      rw [hcut, transcript_interrupted, ← hreports, List.map_cons,
        String.join_cons, Event.toErr, String.empty_append]
  · refine (program_terminal m files hterminal).trans ?_
    rw [converse_of_readAttempts_le v h]
    exact (program_terminal m files rfl).symm
  · refine (program_piped m files hpiped).trans ?_
    rw [evaluatePiped_interrupt v h]
    exact congrArg (Transcript.mk · "" (.ok 130)) String.empty_append
  · rw [interruptAfter_of_length_lt false text n h]

/-- A session that fails on its second line and is ended by its third: cut off at the third
    attempt to read, and not at a fourth. Piped in, all four lines and their end are read. -/
theorem program_interruptAfter_fourLines :
    let text := "1+1\n2+\nquit\n3"
    let run (i : Input) := program .plain ⟨fun _ => .error .notFound, i⟩ []
    let terminal := Input.ofText true text
    let piped := Input.ofText false text
    (2 < readAttempts (Text.streamLines text) ∧
      (run (terminal.interruptAfter 2)).ending = .ok 130) ∧
    (readAttempts (Text.streamLines text) ≤ 3 ∧ run (terminal.interruptAfter 3) = run terminal) ∧
    (4 ≤ (Text.streamLines text).length ∧ run (piped.interruptAfter 4) = ⟨"\n", "", .ok 130⟩) ∧
    ((Text.streamLines text).length < 5 ∧ run (piped.interruptAfter 5) = run piped) := by
  intro text run terminal piped
  have hmade : readAttempts (Text.streamLines text) = 3 := by decide +kernel
  have hlines : (Text.streamLines text).length = 4 := by decide +kernel
  have hthird : 2 < readAttempts (Text.streamLines text) := by omega
  obtain ⟨_, _, _, _, hcut⟩ := (program_interruptAfter .plain _ text 2).2.1 hthird
  exact ⟨⟨hthird, congrArg Transcript.ending hcut⟩,
    ⟨Nat.le_of_eq hmade, (program_interruptAfter .plain _ text 3).2.2.1 (Nat.le_of_eq hmade)⟩,
    ⟨Nat.le_of_eq hlines.symm,
      (program_interruptAfter .plain _ text 4).2.2.2.1 (Nat.le_of_eq hlines.symm)⟩,
    ⟨by omega, (program_interruptAfter .plain _ text 5).2.2.2.2 (by omega)⟩⟩

end Calculator.CommandLine
