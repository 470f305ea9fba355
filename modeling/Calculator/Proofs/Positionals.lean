import Calculator.Proofs.Arguments
import Calculator.Proofs.Results

/-!
# Which words are expressions

The expressions of a request are words of its command line, and which ones can be said
without going through it: the words that look like texts, each alone, except those right
after a switch that awaits a value; and all words after the first `--`
(`expressionWords`). None is lost, none comes twice, and they stay in order
(`expressions_or_exit`).

A command line that is no request has no effect: nothing is evaluated, and what is printed
depends on nothing else. It ends with the status `0` if it asks for help or the version, and
with `2` if it is refused. But a bare `--` that is joined to the switch for a precision is
neither a precision nor refused.
-/

namespace Calculator.CommandLine

/-! ## Words by their looks -/

/-- A character by which a short switch goes that takes a value, or that takes none. -/
def namesSwitch (takesValue : Bool) (c : Char) : Bool :=
  (Switch.named? ['-', c]).any (·.takesValue == takesValue)

/-- Whether a word awaits a value: it is a switch that takes one and is joined to nothing, or
    short switches without values and at the end one with a value. -/
def Word.awaitsValue : Word → Bool
  | .switch s _ none => s.takesValue
  | .switch s short (some joined) =>
    !s.takesValue && short && joined.dropLast.all (namesSwitch false) &&
      joined.getLast?.any (namesSwitch true)
  | _ => false

/-- Whether a word of the command line awaits a value. -/
def awaitsValue (w : String) : Bool :=
  match Word.read w with
  | .ok word => word.awaitsValue
  | .error _ => false

/-- Whether a word of the command line is a text by its looks. -/
def looksLikeText (w : String) : Bool :=
  match Word.read w with
  | .ok (.text _) => true
  | _ => false

/-- The words that look like texts and do not follow one that awaits a value, where `previous`
    is the word before all of them. -/
def textsAmong (previous : Option String) (ws : List String) : List String :=
  ((ws.zip (previous :: ws.map some)).filter fun p =>
    looksLikeText p.1 && !p.2.any awaitsValue).map Prod.fst

/-- The words of a command line that are expressions: texts before the first `--` that are no
    values, and all words after it. -/
def expressionWords (argv : List String) : List String :=
  textsAmong none (argv.takeWhile (· != "--")) ++ (argv.dropWhile (· != "--")).drop 1

theorem textsAmong_cons (previous : Option String) (w : String) (ws : List String) :
    textsAmong previous (w :: ws) =
      (if looksLikeText w && !previous.any awaitsValue then [w] else []) ++
        textsAmong (some w) ws := by
  rw [textsAmong, textsAmong, List.map_cons, List.zip_cons_cons, List.filter_cons]
  split <;> rfl

theorem textsAmong_sublist (previous : Option String) (ws : List String) :
    (textsAmong previous ws).Sublist ws := by
  have hwords : (ws.zip (previous :: ws.map some)).map Prod.fst = ws :=
    List.map_fst_zip (by simp)
  have htexts : (textsAmong previous ws).Sublist
      ((ws.zip (previous :: ws.map some)).map Prod.fst) := List.filter_sublist.map _
  rwa [hwords] at htexts

/-- Expressions are words of the command line, each once and in their order. -/
theorem expressionWords_sublist (argv : List String) : (expressionWords argv).Sublist argv := by
  have hwords := (textsAmong_sublist none (argv.takeWhile (· != "--"))).append
    (List.drop_sublist 1 (argv.dropWhile (· != "--")))
  rwa [List.takeWhile_append_dropWhile] at hwords

/-! ## Words as they are read -/

/-- What a short switch starts is a switch. -/
theorem Word.eq_switch_of_ofShort? {cs : List Char} {word : Word} (h : ofShort? cs = some word) :
    ∃ s value, word = .switch s true (some value) := by
  unfold ofShort? at h
  split at h
  · obtain ⟨s, _, rfl⟩ := Option.map_eq_some_iff.1 h
    exact ⟨s, _, rfl⟩
  · exact absurd h nofun

/-- A word that is read as a text is that text. -/
theorem Word.eq_of_read_text {w t : String} (h : Word.read w = .ok (.text t)) : t = w := by
  have hdashed (h : Word.ofDashed w = .text t) : t = w := by
    rw [ofDashed] at h
    split at h
    · exact (Word.text.inj h).symm
    · exact absurd h nofun
  revert h
  fun_cases Word.read w with
  | case1 | case3 => exact fun h => (Word.text.inj (Except.ok.inj h)).symm
  | case2 | case4 | case6 | case7 => exact nofun
  | case5 => exact fun h => hdashed (Except.ok.inj h)
  | case8 cs =>
    intro h
    cases hshort : ofShort? cs with
    | none =>
      rw [hshort] at h
      exact hdashed (Except.ok.inj h)
    | some word =>
      obtain ⟨s, value, rfl⟩ := eq_switch_of_ofShort? hshort
      rw [hshort] at h
      exact absurd h nofun

/-- The texts among words, without the values. If `taken`, a switch before them awaits one. -/
def Word.texts (taken : Bool) : List Word → List String
  | [] => []
  | .text t :: ws => (if taken then [] else [t]) ++ texts false ws
  | word :: ws => texts word.awaitsValue ws

theorem Word.texts_map_text (xs : List String) : Word.texts false (xs.map .text) = xs := by
  induction xs with
  | nil => rfl
  | cons x xs ih => rw [List.map_cons, texts, ih, if_neg Bool.false_ne_true, List.singleton_append]

/-- The texts of words that are read are words by their looks. -/
theorem Word.texts_readAll {argv : List String} {words : List Word}
    (h : Word.readAll argv = .ok words) (previous : Option String) :
    Word.texts (previous.any CommandLine.awaitsValue) words =
      textsAmong previous (argv.takeWhile (· != "--")) ++
        (argv.dropWhile (· != "--")).drop 1 := by
  -- Whether a text is a value depends on the word before it, so that goes along.
  induction argv generalizing previous words with
  | nil =>
    obtain rfl := Except.ok.inj h
    rfl
  | cons w ws ih =>
    rw [readAll] at h
    split at h
    · rename_i hw
      obtain rfl := Except.ok.inj h
      rw [hw, List.takeWhile_cons_of_neg (by decide), List.dropWhile_cons_of_neg (by decide)]
      exact texts_map_text ws
    · rename_i hw
      obtain ⟨word, hword, h⟩ := exists_of_bind_eq_ok h
      obtain ⟨words', hwords, h⟩ := exists_of_bind_eq_ok h
      obtain rfl := Except.ok.inj h
      have hrest := ih hwords (some w)
      rw [List.takeWhile_cons_of_pos (p := (· != "--")) (bne_iff_ne.2 hw),
        List.dropWhile_cons_of_pos (p := (· != "--")) (bne_iff_ne.2 hw), textsAmong_cons,
        List.append_assoc, ← hrest, Option.any_some, CommandLine.awaitsValue, looksLikeText, hword]
      cases word with
      | text t =>
        obtain rfl := eq_of_read_text hword
        rw [texts]
        cases previous.any CommandLine.awaitsValue <;> rfl
      | separator | switch | unknown => rfl

/-! ## Words that are taken as values -/

theorem Use.taken_of_alone {next : Option String} {s : Switch} {us : List Use} {taken : Bool}
    (h : Use.alone next s = .ok (us, taken)) :
    taken = s.takesValue ∧ (taken = true → next.isSome = true) := by
  unfold alone at h
  split at h
  · rename_i hs
    cases next with
    | none => exact absurd h nofun
    | some v =>
      obtain ⟨_, rfl⟩ := Prod.mk.inj (Except.ok.inj h)
      exact ⟨hs.symm, fun _ => rfl⟩
  · rename_i hs
    obtain ⟨_, rfl⟩ := Prod.mk.inj (Except.ok.inj h)
    exact ⟨(Bool.eq_false_iff.2 hs).symm, nofun⟩

/-- Switches that are joined take the next word if the last of them awaits a value. -/
theorem Use.taken_of_joined {next : Option String} {value : List Char} {s : Switch}
    {short : Bool} {us : List Use} {taken : Bool}
    (h : Use.joined next value s short = .ok (us, taken)) :
    taken = (Word.switch s short (some value)).awaitsValue ∧
      (taken = true → next.isSome = true) := by
  induction value generalizing s short us with
  | nil =>
    rw [joined] at h
    split at h
    · rename_i hs
      obtain ⟨_, rfl⟩ := Prod.mk.inj (Except.ok.inj h)
      exact ⟨by rw [Word.awaitsValue, hs]; rfl, nofun⟩
    · exact absurd h nofun
  | cons c rest ih =>
    unfold joined at h
    split at h
    · rename_i hs
      obtain ⟨_, rfl⟩ := Prod.mk.inj (Except.ok.inj h)
      exact ⟨by rw [Word.awaitsValue, hs]; rfl, nofun⟩
    · rename_i hs
      dsimp only at h
      split at h
      · rename_i s' hnamed
        have hnames (b : Bool) : namesSwitch b c = (s'.takesValue == b) := by
          rw [namesSwitch, hnamed, Option.any_some]
        -- The last of the switches decides, and the others take no value.
        cases rest with
        | nil =>
          rw [List.isEmpty_nil, if_pos rfl] at h
          obtain ⟨made, halone, h⟩ := exists_of_bind_eq_ok h
          obtain ⟨_, rfl⟩ := Prod.mk.inj (Except.ok.inj h)
          obtain ⟨htaken, hnext⟩ := taken_of_alone halone
          refine ⟨?_, hnext⟩
          rw [htaken, Word.awaitsValue, Bool.eq_false_iff.2 hs, List.getLast?_singleton,
            Option.any_some, hnames, beq_true]
          rfl
        | cons c' rest =>
          rw [List.isEmpty_cons, if_neg Bool.false_ne_true] at h
          obtain ⟨made, hjoined, h⟩ := exists_of_bind_eq_ok h
          obtain ⟨_, rfl⟩ := Prod.mk.inj (Except.ok.inj h)
          obtain ⟨htaken, hnext⟩ := ih hjoined
          refine ⟨?_, hnext⟩
          rw [htaken, Word.awaitsValue, Word.awaitsValue, Bool.eq_false_iff.2 hs,
            List.getLast?_cons_cons, List.dropLast_cons_cons, List.all_cons, hnames, beq_false,
            Bool.and_true, Bool.not_false, Bool.and_true, Bool.true_and]
      · exact absurd h nofun

/-- A switch takes the next word exactly if it awaits a value, and then this is a text. -/
theorem Use.taken_of_made {s : Switch} {short : Bool} {value : Option (List Char)}
    {next : Option String} {us : List Use} {taken : Bool}
    (h : (match value with
      | none => Use.alone next s
      | some v => Use.joined next v s short) = .ok (us, taken)) :
    taken = (Word.switch s short value).awaitsValue ∧ (taken = true → next.isSome = true) := by
  cases value with
  | none => exact taken_of_alone h
  | some v => exact taken_of_joined h

/-- The texts of the items that words make, if none is refused. -/
theorem Item.texts_ofWords {ws : List Word} (h : ∀ e, .refused e ∉ Item.ofWords ws) :
    (Item.ofWords ws).flatMap Item.texts = Word.texts false ws := by
  fun_induction Item.ofWords ws with
  | case1 => rfl
  | case2 t ws ih =>
    rw [List.flatMap_cons, ih fun e he => h e (.tail _ he)]
    rfl
  | case3 ws ih | case4 w ws ih =>
    rw [List.flatMap_cons, ih fun e he => h e (.tail _ he)]
    rfl
  | case5 s short value ws made e hmade => exact absurd (List.mem_singleton_self _) (h e)
  | case6 s short value ws made us taken hmade ih =>
    obtain ⟨htaken, hnext⟩ := Use.taken_of_made hmade
    rw [Word.texts, ← htaken]
    -- A word that is taken is a text, since otherwise the switch was refused.
    · cases taken with
      | false => exact ih fun e he => h e (.tail _ he)
      | true =>
        cases ws with
        | nil => exact absurd (hnext rfl) Bool.false_ne_true
        | cons word ws =>
          cases word with
          | text t => exact ih fun e he => h e (.tail _ he)
          | separator | switch | unknown => exact absurd (hnext rfl) Bool.false_ne_true
    · rintro _ ⟨⟩

/-- What is read to the end is not refused. -/
theorem not_refused_of_foldlM {items : List Item} {d d' : Draft}
    (h : items.foldlM Draft.step d = .ok d') (e : UsageError) : .refused e ∉ items := by
  induction items generalizing d with
  | nil => exact List.not_mem_nil
  | cons item items ih =>
    obtain ⟨d₁, hitem, hitems⟩ := exists_of_foldlM_cons h
    rintro (_ | ⟨_, he⟩)
    · exact absurd hitem nofun
    · exact ih hitems he

/-- The expressions of a request are found by their looks. -/
theorem Request.expressions_of_read {argv : List String} {r : Request}
    (h : Request.read argv = .ok r) : r.expressions = expressionWords argv := by
  rw [(file_and_expressions_of_read h).2, givenTexts]
  rw [read_eq] at h
  obtain ⟨d, hitems, _⟩ := exists_of_bind_eq_ok h
  have hrefused := not_refused_of_foldlM hitems
  rw [items] at hrefused ⊢
  cases hwords : Word.readAll argv with
  | error e =>
    rw [hwords] at hrefused
    exact absurd (List.mem_singleton_self _) (hrefused e)
  | ok words =>
    rw [hwords] at hrefused
    exact (Item.texts_ofWords hrefused).trans (Word.texts_readAll hwords none)

/-! ## Command lines that are no requests -/

/-- While a command line is read, nothing is compared yet. -/
theorem Draft.step_ne_noPrecision (d : Draft) (item : Item) :
    d.step item ≠ .error .noPrecision := by
  cases item with
  | text t | separator | unknown w | refused e => rintro ⟨⟩
  | uses us =>
    refine foldlM_ne_error (fun d u => ?_) us d.endTexts
    obtain ⟨switch, value⟩ := u
    cases switch with
    | help | version | verbose | file => rintro ⟨⟩
    | precision =>
      rw [Draft.use]
      dsimp only
      split
      · rintro ⟨⟩
      · split <;> rintro ⟨⟩

/-- A precision is missing only if a bare `--` was given for it last. -/
theorem Request.getLast?_of_noPrecision {argv : List String}
    (h : Request.read argv = .error .noPrecision) :
    (givenPrecisions argv).getLast? = some "--" := by
  rw [read_eq] at h
  cases hitems : (items argv).foldlM Draft.step {} with
  | error stop =>
    -- Precisions are compared at the end only.
    rw [hitems] at h
    obtain rfl : stop = .noPrecision := Except.error.inj h
    exact absurd hitems (foldlM_ne_error Draft.step_ne_noPrecision _ _)
  | ok d =>
    rw [hitems] at h
    have hknown : d.precisionKnown = false := by
      have hfinish : d.finish = .error .noPrecision := h
      rw [Draft.finish] at hfinish
      split at hfinish
      · cases hfinish
      split at hfinish
      · rename_i hknown
        simpa using hknown
      split at hfinish <;> cases hfinish
    rw [(Draft.holds_of_foldlM hitems).precisionKnown] at hknown
    simpa [givenPrecisions] using hknown

/-- What is done if nothing is to be evaluated is not put on record, and depends on nothing. -/
theorem Stop.run_eq (stop : Stop) :
    (∀ e ∈ stop.run.events, ∀ level logger message, e ≠ .record level logger message) ∧
      match stop with
      | .help | .version => stop.run.result = .ok 0
      | .usage _ => stop.run.result = .ok 2 ∧ (stop.run.transcript false).stdout = ""
      | .noPrecision => stop.run.result = .error .noPrecision ∧
          (stop.run.transcript false).stdout = "" := by
  cases stop with
  | help | version => exact ⟨List.forall_mem_singleton.2 nofun, rfl⟩
  | usage e => exact ⟨List.forall_mem_singleton.2 nofun, rfl, rfl⟩
  | noPrecision => exact ⟨List.forall_mem_nil _, rfl, rfl⟩

/-- A command line is a request for the words that are expressions by their looks, or what is
    done depends on nothing else: there is nothing on record about an evaluation, and it ends
    with `0` for help or the version, or with `2` and nothing printed; or, if a bare `--` was
    the precision given last, with no status at all. -/
theorem expressions_or_exit (argv : List String) :
    (∀ r, Request.read argv = .ok r →
      r.expressions = expressionWords argv ∧ r.expressions.Sublist argv) ∧
    ∀ stop, Request.read argv = .error stop →
      (∀ e ∈ stop.run.events, ∀ level logger message, e ≠ .record level logger message) ∧
      ∀ (m : Elementary) (s : Surroundings),
        let t := program m s argv
        t = stop.run.transcript false ∧
          (((stop = .help ∨ stop = .version) ∧ t.ending = .ok 0) ∨
            (t.ending = .ok 2 ∧ t.stdout = "") ∨
            (t.ending = .error .noPrecision ∧ t.stdout = "" ∧
              (givenPrecisions argv).getLast? = some "--")) := by
  refine ⟨fun r h => ?_, fun stop h => ?_⟩
  · have hexpressions := Request.expressions_of_read h
    rw [hexpressions]
    exact ⟨rfl, expressionWords_sublist argv⟩
  · obtain ⟨hrecords, hrun⟩ := stop.run_eq
    refine ⟨hrecords, fun m s => ?_⟩
    have ht : program m s argv = stop.run.transcript false := by rw [program, h]
    dsimp only
    rw [ht]
    refine ⟨rfl, ?_⟩
    cases stop with
    | help => exact .inl ⟨.inl rfl, hrun⟩
    | version => exact .inl ⟨.inr rfl, hrun⟩
    | usage e => exact .inr (.inl hrun)
    | noPrecision => exact .inr (.inr ⟨hrun.1, hrun.2, Request.getLast?_of_noPrecision h⟩)

/-- The value of a cluster is no expression, and after the separator there are no switches. A
    second run of texts is refused. -/
theorem expressions_or_exit_interleaved :
    (∃ r, Request.read ["-vp", "3", "1/3", "-1", "--", "-p", "--"] = .ok r ∧
      r.expressions = ["1/3", "-1", "-p", "--"]) ∧
    ∀ s, Request.read ["1", "-v", "2"] = .error (.usage (.unrecognized ["2"])) ∧
      program .plain s ["1", "-v", "2"] =
        (Stop.usage (.unrecognized ["2"])).run.transcript false := by
  have hread : Request.read ["-vp", "3", "1/3", "-1", "--", "-p", "--"] =
      .ok { precision := 3, verbose := true, expressions := ["1/3", "-1", "-p", "--"] } :=
    eq_ok_of_toOption_eq_some (by decide +kernel)
  have hrefused : Request.read ["1", "-v", "2"] = .error (.usage (.unrecognized ["2"])) :=
    faultOf?_eq_some_iff.1 (by decide +kernel)
  have hwords := ((expressions_or_exit _).1 _ hread).1
  refine ⟨⟨_, hread, hwords.trans ?_⟩, fun s =>
    ⟨hrefused, (((expressions_or_exit _).2 _ hrefused).2 .plain s).1⟩⟩
  decide +kernel

/-- A precision that is a bare `--` is not refused, but ends the run without a status. -/
theorem ending_dashedPrecision :
    ¬ ∃ status ∈ [0, 2],
      (program .plain ⟨Directory.read ⟨[]⟩, .ofText false ""⟩
        ["--precision=--"]).ending = .ok status := by
  have hread : Request.read ["--precision=--"] = .error .noPrecision :=
    faultOf?_eq_some_iff.1 (by decide +kernel)
  rintro ⟨status, _, h⟩
  rw [program, hread] at h
  cases h

end Calculator.CommandLine
