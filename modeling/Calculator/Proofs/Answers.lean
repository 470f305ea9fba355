import Calculator.Proofs.Lines

/-!
# The answers of a batch

A batch is evaluated entry by entry, so its answers are those of its entries, in order, up to
the first that has none (`Batch.evaluate_eq_mapM`).

The entries of two texts, one after the other, are those of the first and those of the
second, each on a line further down by the number of lines of the first (`entries_append`).
The line has a part in the number of an answer and in the source of a failure, and nowhere
else. So the answers of the two are known from the answers of each (`evaluate_append`).
-/

namespace Calculator.Batch

/-! ## Answers entry by entry -/

/-- The answer to an entry. -/
def answerTo (v : Evaluator) (path : String) (e : Entry) : Except Failure Answer :=
  ({ v with source := sourceOf path e }.evaluate e.text).map (⟨e, ·⟩)

/-- The answers of a batch with a text, at a path; or the failure that keeps it from having
    answers. -/
def evaluate (v : Evaluator) (path contents : String) : Except Failure (List Answer) :=
  answers (attempts v path (entries contents))

variable {v : Evaluator} {path : String} {e : Entry} {x : Binary64} {f : Failure}

/-- An entry is answered by the value of its text. -/
theorem answerTo_of_ok (h : v.evaluate e.text = .ok x) : answerTo v path e = .ok ⟨e, x⟩ := by
  rw [answerTo, v.evaluate_source, h]
  rfl

/-- The failure of an entry is that of its text, for the line of the entry. -/
theorem answerTo_of_error (h : v.evaluate e.text = .error f) :
    answerTo v path e = .error (f.withSource (sourceOf path e)) := by
  rw [answerTo, v.evaluate_source, h]
  rfl

variable (v path)

/-- Attempts up to the first failure give the answers of all entries, if all have one. -/
theorem answers_attempts_eq_mapM (es : List Entry) :
    answers (attempts v path es) = es.mapM (answerTo v path) := by
  induction es with
  | nil => rfl
  | cons e es ih =>
    rw [attempts, answers, List.mapM_cons, answerTo]
    dsimp only
    cases { v with source := sourceOf path e }.evaluate e.text with
    | ok x =>
      dsimp only
      rw [ih]
      rfl
    | error f => rfl

theorem evaluate_eq_mapM (contents : String) :
    evaluate v path contents = (entries contents).mapM (answerTo v path) :=
  answers_attempts_eq_mapM v path (entries contents)

/-- Entries whose texts all have values have answers. -/
theorem exists_mapM_answerTo {es : List Entry} (h : ∀ e ∈ es, ∃ x, v.evaluate e.text = .ok x) :
    ∃ as, es.mapM (answerTo v path) = .ok as ∧ as.map (·.entry) = es ∧
      ∀ a ∈ as, v.evaluate a.entry.text = .ok a.value := by
  induction es with
  | nil => exact ⟨[], rfl, rfl, nofun⟩
  | cons e es ih =>
    obtain ⟨x, hx⟩ := h e (.head _)
    obtain ⟨as, has, hentries, hvalues⟩ := ih fun e' he' => h e' (.tail _ he')
    refine ⟨⟨e, x⟩ :: as, ?_, congrArg (e :: ·) hentries, List.forall_mem_cons.2 ⟨hx, hvalues⟩⟩
    rw [List.mapM_cons, answerTo_of_ok hx, has]
    rfl

/-- The first of the entries that fails, with the failure of its text. -/
def FirstFailure (v : Evaluator) (es : List Entry) (e : Entry) (f : Failure) : Prop :=
  ∃ before after, es = before ++ e :: after ∧ (∀ b ∈ before, ∃ x, v.evaluate b.text = .ok x) ∧
    v.evaluate e.text = .error f

variable {v} {es : List Entry}

/-- If an entry fails, one of them is the first. -/
theorem exists_firstFailure (h : ∃ e ∈ es, ∃ f, v.evaluate e.text = .error f) :
    ∃ e f, FirstFailure v es e f := by
  induction es with
  | nil => exact absurd h (by simp)
  | cons e es ih =>
    cases hv : v.evaluate e.text with
    | error f => exact ⟨e, f, [], es, rfl, nofun, hv⟩
    | ok x =>
      have hlater : ∃ e ∈ es, ∃ f, v.evaluate e.text = .error f := by
        simpa [hv] using h
      obtain ⟨e', f, before, after, rfl, hbefore, hf⟩ := ih hlater
      exact ⟨e', f, e :: before, after, rfl, List.forall_mem_cons.2 ⟨⟨x, hv⟩, hbefore⟩, hf⟩

/-- The first failure is what entries give, for the line of its entry. -/
theorem FirstFailure.mapM_answerTo (h : FirstFailure v es e f) :
    es.mapM (answerTo v path) = .error (f.withSource (sourceOf path e)) := by
  obtain ⟨before, after, rfl, hbefore, hf⟩ := h
  obtain ⟨as, has, -⟩ := exists_mapM_answerTo v path hbefore
  rw [List.mapM_append, has, List.mapM_cons, answerTo_of_error hf]
  rfl

/-- What entries fail with is the first failure among them. -/
theorem exists_firstFailure_of_mapM (h : es.mapM (answerTo v path) = .error f) :
    ∃ e f', FirstFailure v es e f' ∧ f = f'.withSource (sourceOf path e) := by
  by_cases hfails : ∃ e ∈ es, ∃ f, v.evaluate e.text = .error f
  · obtain ⟨e, f', hfirst⟩ := exists_firstFailure hfails
    rw [hfirst.mapM_answerTo] at h
    exact ⟨e, f', hfirst, (Except.error.inj h).symm⟩
  · -- Entries that all have values would have answers.
    have hvalues : ∀ e ∈ es, ∃ x, v.evaluate e.text = .ok x := by
      intro e he
      cases hv : v.evaluate e.text with
      | ok x => exact ⟨x, rfl⟩
      | error f' => exact absurd ⟨e, he, f', hv⟩ hfails
    obtain ⟨as, has, -⟩ := exists_mapM_answerTo v path hvalues
    rw [has] at h
    exact absurd h nofun

/-! ## Entries further down -/

/-- The entry, further down by a number of lines. -/
def Entry.down (n : Nat) (e : Entry) : Entry := { e with number := e.number + n }

/-- The answer to the entry further down. -/
def Answer.down (n : Nat) (a : Answer) : Answer := { a with entry := a.entry.down n }

/-- A text after another has its entries further down by the lines of the other. -/
theorem entries_append {s : String} (hs : Text.Closed s) (t : String) :
    entries (s ++ t) = entries s ++ (entries t).map (·.down (Text.fileLines s).length) := by
  -- Whether a line is an expression does not depend on its number.
  have hfilter (n : Nat) (es : List Entry) :
      (es.filter fun e => isExpression e.text).map (·.down n) =
        (es.map (·.down n)).filter fun e => isExpression e.text := by
    rw [List.filter_map]
    rfl
  rw [entries, Text.fileLines_append hs, List.zipIdx_append, Nat.add_comm,
    ← List.map_snd_add_zipIdx_eq_zipIdx, List.map_append, List.filter_append, List.map_map,
    entries, entries, hfilter, List.map_map]
  rfl

variable (n : Nat) {path}

/-- The answers of entries further down are further down. -/
theorem mapM_answerTo_down_of_ok {as : List Answer} (h : es.mapM (answerTo v path) = .ok as) :
    (es.map (·.down n)).mapM (answerTo v path) = .ok (as.map (·.down n)) := by
  induction es generalizing as with
  | nil =>
    obtain rfl := Except.ok.inj h
    rfl
  | cons e es ih =>
    rw [List.mapM_cons] at h
    rw [List.map_cons, List.mapM_cons]
    cases hv : v.evaluate e.text with
    | error f =>
      rw [answerTo_of_error hv] at h
      exact absurd h nofun
    | ok x =>
      cases hes : es.mapM (answerTo v path) with
      | error f =>
        rw [answerTo_of_ok hv, hes] at h
        exact absurd h nofun
      | ok as' =>
        rw [answerTo_of_ok hv, hes] at h
        obtain rfl := Except.ok.inj h
        rw [answerTo_of_ok (e := e.down n) hv, ih hes]
        rfl

/-- The first failure is that of the same entry if all are further down. -/
theorem FirstFailure.down (h : FirstFailure v es e f) :
    FirstFailure v (es.map (·.down n)) (e.down n) f := by
  obtain ⟨before, after, rfl, hbefore, hf⟩ := h
  refine ⟨before.map (·.down n), after.map (·.down n), ?_, ?_, hf⟩
  · rw [List.map_append, List.map_cons]
  · intro b hb
    obtain ⟨b', hb', rfl⟩ := List.mem_map.1 hb
    exact hbefore b' hb'

/-- The failure of entries further down is the same, for a line further down. -/
theorem mapM_answerTo_down_of_error (h : es.mapM (answerTo v path) = .error f) :
    ∃ e : Entry, f.source = sourceOf path e ∧
      (es.map (·.down n)).mapM (answerTo v path) =
        .error (f.withSource (sourceOf path (e.down n))) := by
  obtain ⟨e, f', hfirst, rfl⟩ := exists_firstFailure_of_mapM path h
  refine ⟨e, rfl, ?_⟩
  rw [(hfirst.down n).mapM_answerTo, Failure.withSource_withSource]

/-! ## One text after another -/

variable (v path) {s : String} (t : String)

/-- The answers of a text after another are those of both, if both have answers. -/
theorem evaluate_append_of_ok (hs : Text.Closed s) {as bs : List Answer}
    (has : evaluate v path s = .ok as) (hbs : evaluate v path t = .ok bs) :
    evaluate v path (s ++ t) = .ok (as ++ bs.map (·.down (Text.fileLines s).length)) := by
  rw [evaluate_eq_mapM] at has hbs
  rw [evaluate_eq_mapM, entries_append hs, List.mapM_append, has,
    mapM_answerTo_down_of_ok _ hbs]
  rfl

/-- A text that fails does so whatever is after it. -/
theorem evaluate_append_of_error (hs : Text.Closed s) (h : evaluate v path s = .error f) :
    evaluate v path (s ++ t) = .error f := by
  rw [evaluate_eq_mapM] at h
  rw [evaluate_eq_mapM, entries_append hs, List.mapM_append, h]
  rfl

/-- A text that fails after another does so on a line further down. -/
theorem evaluate_append_of_ok_of_error (hs : Text.Closed s) {as : List Answer}
    (has : evaluate v path s = .ok as) (h : evaluate v path t = .error f) :
    ∃ e : Entry, f.source = sourceOf path e ∧
      evaluate v path (s ++ t) =
        .error (f.withSource (sourceOf path (e.down (Text.fileLines s).length))) := by
  rw [evaluate_eq_mapM] at has h
  obtain ⟨e, hsource, hdown⟩ := mapM_answerTo_down_of_error (Text.fileLines s).length h
  refine ⟨e, hsource, ?_⟩
  rw [evaluate_eq_mapM, entries_append hs, List.mapM_append, has, hdown]
  rfl

/-- Lines of one path are told apart by their numbers. -/
theorem number_eq_of_sourceOf_eq {e e' : Entry} (h : sourceOf path e = sourceOf path e') :
    e.number = e'.number := by
  have hrepr : e.number.repr = e'.number.repr := (String.append_right_inj _).1 h
  have hdigits := congrArg (Nat.ofDigitChars 10 ·.toList 0) hrepr
  simpa only [Nat.toList_repr, Nat.ofDigitChars_ten_toDigits] using hdigits

/-! ## One line -/

/-- What a single line gives: nothing if it is blank or a comment, otherwise the answer of its
    text. -/
def evaluateLine (line : String) : Except Failure (List Answer) :=
  let text := Text.strip line
  if text = "" ∨ text.toList.head? = some '#' then .ok []
  else ({ v with source := path ++ ":1" }.evaluate text).map fun x => [⟨⟨1, text⟩, x⟩]

theorem isExpression_eq_false_iff (text : String) :
    isExpression text = false ↔ text = "" ∨ text.toList.head? = some '#' := by
  rw [isExpression, ← String.toList_inj]
  cases text.toList <;> simp

theorem evaluate_of_fileLines {text line : String} (h : Text.fileLines text = [line]) :
    evaluate v path text = evaluateLine v path line := by
  have hsource : sourceOf path ⟨1, Text.strip line⟩ = path ++ ":1" := by
    rw [sourceOf, String.append_assoc]
    exact congrArg (path ++ ·) (by decide : ":" ++ toString 1 = ":1")
  have hentries : entries text =
      if isExpression (Text.strip line) then [⟨1, Text.strip line⟩] else [] := by
    rw [entries, h]
    exact List.filter_cons
  rw [evaluate_eq_mapM, hentries, evaluateLine]
  cases hexpression : isExpression (Text.strip line) with
  | false =>
    rw [if_pos ((isExpression_eq_false_iff _).1 hexpression)]
    rfl
  | true =>
    have hline := mt (isExpression_eq_false_iff _).2 (by rw [hexpression]; decide)
    rw [if_neg hline, if_pos rfl, List.mapM_cons, answerTo, hsource]
    cases { v with source := path ++ ":1" }.evaluate (Text.strip line) <;> rfl

/-- A text without breaks is its only line. -/
theorem evaluate_of_unbroken {line : String} (h : ∀ c ∈ line.toList, Text.isFileBreak c = false) :
    evaluate v path line = evaluateLine v path line := by
  by_cases hempty : line = ""
  · rw [hempty]
    rfl
  · exact evaluate_of_fileLines v path (Text.fileLines_of_unbroken h hempty)

/-! ## Batches after batches -/

/-- A file is evaluated to the answers of its text. -/
theorem map_answers_attemptFile {files : Files} {contents : String}
    (h : readText files path = .ok contents) :
    (attemptFile v files path).map answers = .ok (evaluate v path contents) := by
  rw [attemptFile, h]
  rfl

/-- The answers of a text that is empty or ends in a line feed, and then another text, are known
    from those of the two: lines of the second are further down by the number of lines of the
    first, and the first failure counts. A single line gives the answer of what it holds
    between blanks, unless this is empty or a comment. -/
theorem evaluate_append {s : String} (hs : Text.Closed s) (t : String) :
    let n := (Text.fileLines s).length
    (∀ as bs, evaluate v path s = .ok as → evaluate v path t = .ok bs →
        evaluate v path (s ++ t) = .ok (as ++ bs.map (·.down n))) ∧
      (∀ f, evaluate v path s = .error f → evaluate v path (s ++ t) = .error f) ∧
      (∀ as f, evaluate v path s = .ok as → evaluate v path t = .error f →
        (∃ k : Nat, f.source = path ++ ":" ++ toString k) ∧
          ∀ k : Nat, f.source = path ++ ":" ++ toString k →
            evaluate v path (s ++ t) =
              .error (f.withSource (path ++ ":" ++ toString (k + n)))) ∧
      (∀ text line, Text.fileLines text = [line] ∨
          text = line ∧ (∀ c ∈ line.toList, Text.isFileBreak c = false) →
        evaluate v path text = evaluateLine v path line) ∧
      ∀ files contents, readText files path = .ok contents →
        (attemptFile v files path).map answers = .ok (evaluate v path contents) := by
  refine ⟨fun as bs => evaluate_append_of_ok v path t hs,
    fun f => evaluate_append_of_error v path t hs, fun as f has h => ?_, ?_,
    fun files contents => map_answers_attemptFile v path⟩
  · obtain ⟨e, hsource, happend⟩ := evaluate_append_of_ok_of_error v path t hs has h
    refine ⟨⟨e.number, hsource⟩, fun k hk => ?_⟩
    -- The source of the failure is that of an entry, and tells its line.
    have hsame : sourceOf path e = sourceOf path ⟨k, e.text⟩ := hsource.symm.trans hk
    obtain rfl : e.number = k := number_eq_of_sourceOf_eq path hsame
    exact happend
  · rintro text line (hline | ⟨rfl, hunbroken⟩)
    · exact evaluate_of_fileLines v path hline
    · exact evaluate_of_unbroken v path hunbroken

/-- Two lines, the second of them blank, come before a comment and a last line. -/
theorem evaluate_append_fourLines :
    Text.Closed "1\r\n\n" ∧
      evaluate { machine := .plain } "f.txt" ("1\r\n\n" ++ "#\r 1") =
        .ok [⟨⟨1, "1"⟩, .one⟩, ⟨⟨4, "1"⟩, .one⟩] := by
  have hclosed : Text.Closed "1\r\n\n" := .inr ⟨"1\r\n", by decide⟩
  have hfirst : evaluate { machine := .plain } "f.txt" "1\r\n\n" = .ok [⟨⟨1, "1"⟩, .one⟩] :=
    eq_ok_of_toOption_eq_some (by decide +kernel)
  have hsecond : evaluate { machine := .plain } "f.txt" "#\r 1" = .ok [⟨⟨2, "1"⟩, .one⟩] :=
    eq_ok_of_toOption_eq_some (by decide +kernel)
  have hlines : (Text.fileLines "1\r\n\n").length = 2 := by decide +kernel
  refine ⟨hclosed, ((evaluate_append _ _ hclosed _).1 _ _ hfirst hsecond).trans ?_⟩
  rw [hlines]
  rfl

end Calculator.Batch
