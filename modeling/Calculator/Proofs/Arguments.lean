import Calculator.Proofs.Machines
import Calculator.Proofs.Printing

/-!
# What a command line gives

A command line gives items: texts, and switches with their values (`items`). Reading it is
one step for each item (`Request.read_eq`), and the request that is read has the file and
the expressions that the items give: the path that was given last, unless it is empty or a
bare `--` (`namedFile`), and all texts in order (`givenTexts`). There is a precision to
compare unless the one that was given last is a bare `--`.

So it can be told from the items alone whether the standard input has a part in a run. It
has none if there is a text or a path that names a file, and in every other run it has
(`ignoresInput_iff`).
-/

namespace Calculator.CommandLine

/-! ## Items -/

/-- What is read in one step. -/
inductive Item
  | text (text : String)
  | separator
  /-- The switches in a word, with the value that the last of them may take. -/
  | uses (us : List Use)
  | unknown (word : String)
  /-- The end of what can be read. -/
  | refused (e : UsageError)
  deriving DecidableEq, Repr

/-- The paths that a use gives: the value of the switch for a file. -/
def Use.paths (u : Use) : List String :=
  if u.switch = .file then [u.value.getD ""] else []

/-- The precisions that a use gives: the value of the switch for one. -/
def Use.precisions (u : Use) : List String :=
  if u.switch = .precision then [u.value.getD ""] else []

namespace Item

/-- The uses in an item. -/
def used : Item → List Use
  | uses us => us
  | _ => []

/-- The paths in an item. -/
def paths : Item → List String
  | uses us => us.flatMap Use.paths
  | _ => []

/-- The text of an item. -/
def texts : Item → List String
  | text t => [t]
  | _ => []

/-- The items that words make, up to the first that is refused. -/
def ofWords : List Word → List Item
  | [] => []
  | .text t :: ws => text t :: ofWords ws
  | .separator :: ws => separator :: ofWords ws
  | .unknown w :: ws => unknown w :: ofWords ws
  | .switch s short value :: ws =>
    let made := match value with
      | none => Use.alone (Draft.nextText ws) s
      | some v => Use.joined (Draft.nextText ws) v s short
    match made with
    | .error e => [refused e]
    | .ok (us, taken) =>
      uses us :: match taken, ws with
        | true, _ :: ws => ofWords ws
        | _, ws => ofWords ws

end Item

/-- The items of a command line. -/
def items (argv : List String) : List Item :=
  match Word.readAll argv with
  | .error e => [.refused e]
  | .ok words => Item.ofWords words

/-- The paths that a command line gives. -/
def givenPaths (argv : List String) : List String := (items argv).flatMap Item.paths

/-- The precisions that a command line gives. -/
def givenPrecisions (argv : List String) : List String :=
  ((items argv).flatMap Item.used).flatMap Use.precisions

/-- The texts that a command line gives. -/
def givenTexts (argv : List String) : List String := (items argv).flatMap Item.texts

theorem givenPaths_eq (argv : List String) :
    givenPaths argv = ((items argv).flatMap Item.used).flatMap Use.paths := by
  rw [givenPaths, List.flatMap_assoc]
  congr 1
  funext item
  cases item <;> rfl

/-- Whether a path names a file. -/
def namesFile (path : String) : Bool := path ≠ "" && path ≠ "--"

/-- The file that a command line names. -/
def namedFile (argv : List String) : Option String := (givenPaths argv).getLast?.filter namesFile

/-! ## Reading items -/

namespace Draft

/-- Reads an item. -/
def step (d : Draft) : Item → Except Stop Draft
  | .text t => .ok (d.addText t)
  | .separator => .ok d.addSeparator
  | .uses us => us.foldlM use d.endTexts
  | .unknown w => .ok { d.endTexts with extras := d.extras ++ [w] }
  | .refused e => .error (.usage e)

/-- Words are read item by item. -/
theorem read_eq_foldlM (d : Draft) (ws : List Word) :
    d.read ws = (Item.ofWords ws).foldlM step d := by
  fun_induction Item.ofWords ws generalizing d with
  | case1 => rfl
  | case2 t ws ih => exact ih (d.addText t)
  | case3 ws ih => exact ih d.addSeparator
  | case4 w ws ih => exact ih { d.endTexts with extras := d.extras ++ [w] }
  | case5 s short value ws made e hmade =>
    unfold read
    show (match made with | .error e => _ | .ok (us, taken) => _) = _
    rw [hmade]
    rfl
  | case6 s short value ws made us taken hmade ih =>
    unfold read
    show (match made with | .error e => _ | .ok (us, taken) => _) = _
    rw [hmade, List.foldlM_cons, step]
    dsimp only
    cases us.foldlM use d.endTexts with
    | error stop => rfl
    | ok d' =>
      -- What is left depends on whether the last switch takes a word, and on whether there is one.
      match taken, ws with
      | true, _ :: _ | true, [] | false, _ => exact ih d'

/-- What is read of a command line so far: the file is that of the last path, there is a
    precision unless the last one is a bare `--`, and the texts are the expressions, unless
    something was put aside. -/
structure Holds (d : Draft) (used : List Use) (texts : List String) : Prop where
  file : d.file = (used.flatMap Use.paths).getLast?.filter namesFile
  precisionKnown : d.precisionKnown = ((used.flatMap Use.precisions).getLast? != some "--")
  expressions : d.extras = [] → d.expressions = texts

variable {d d' : Draft} {used : List Use} {texts : List String}

theorem filter_namesFile (path : String) :
    (some path).filter namesFile = if path = "" || path = "--" then none else some path := by
  rw [Option.filter_some, namesFile]
  by_cases hempty : path = "" <;> by_cases hdashes : path = "--" <;> simp [hempty, hdashes]

section

variable {α β : Type} {f : α → List β} {as : List α} {a : α}

theorem flatMap_concat_of_nil (h : f a = []) : (as ++ [a]).flatMap f = as.flatMap f := by
  rw [List.flatMap_append, List.flatMap_singleton, h, List.append_nil]

theorem getLast?_flatMap_concat {b : β} (h : f a = [b]) :
    ((as ++ [a]).flatMap f).getLast? = some b := by
  rw [List.flatMap_append, List.flatMap_singleton, h, List.getLast?_concat]

end

/-- A use is added to those before it. -/
theorem Holds.use {u : Use} (h : d.Holds used texts) (hu : d.use u = .ok d') :
    d'.Holds (used ++ [u]) texts := by
  -- What a use does not give is as before.
  have hfile (hnone : u.paths = []) :
      d.file = ((used ++ [u]).flatMap Use.paths).getLast?.filter namesFile := by
    rw [flatMap_concat_of_nil hnone]
    exact h.file
  have hprecision (hnone : u.precisions = []) :
      d.precisionKnown = (((used ++ [u]).flatMap Use.precisions).getLast? != some "--") := by
    rw [flatMap_concat_of_nil hnone]
    exact h.precisionKnown
  obtain ⟨switch, value⟩ := u
  cases switch with
  | help | version => exact absurd hu nofun
  | verbose =>
    obtain rfl := Except.ok.inj hu
    exact ⟨hfile rfl, hprecision rfl, h.expressions⟩
  | file =>
    obtain rfl := Except.ok.inj hu
    refine ⟨?_, hprecision rfl, h.expressions⟩
    rw [getLast?_flatMap_concat (f := Use.paths) rfl, filter_namesFile]
  | precision =>
    simp only [Draft.use] at hu
    split at hu
    · rename_i hvalue
      obtain rfl := Except.ok.inj hu
      refine ⟨hfile rfl, ?_, h.expressions⟩
      rw [getLast?_flatMap_concat (f := Use.precisions) rfl, hvalue]
      rfl
    split at hu
    · rename_i hvalue _ _ _
      obtain rfl := Except.ok.inj hu
      refine ⟨hfile rfl, ?_, h.expressions⟩
      rw [getLast?_flatMap_concat (f := Use.precisions) rfl]
      exact (bne_iff_ne.2 fun hdashes => hvalue (Option.some.inj hdashes)).symm
    · exact absurd hu nofun

/-- Uses are added one after the other. -/
theorem Holds.uses {us : List Use} (h : d.Holds used texts)
    (hus : us.foldlM Draft.use d = .ok d') : d'.Holds (used ++ us) texts := by
  induction us generalizing d used with
  | nil =>
    obtain rfl := Except.ok.inj hus
    rwa [List.append_nil]
  | cons u us ih =>
    obtain ⟨d₁, hu, hus⟩ := exists_of_foldlM_cons hus
    rw [List.append_cons]
    exact ih (h.use hu) hus

theorem Holds.endTexts (h : d.Holds used texts) : d.endTexts.Holds used texts :=
  ⟨h.file, h.precisionKnown, h.expressions⟩

/-- Once a word is put aside, nothing is said about expressions. -/
theorem Holds.putAside (h : d.Holds used texts) (hfile : d'.file = d.file)
    (hprecision : d'.precisionKnown = d.precisionKnown) {w : String}
    (hextras : d'.extras = d.extras ++ [w]) (texts' : List String) : d'.Holds used texts' where
  file := hfile.trans h.file
  precisionKnown := hprecision.trans h.precisionKnown
  expressions hnone := absurd (hextras.symm.trans hnone) (List.concat_ne_nil w d.extras)

/-- An item adds its uses and its texts. -/
theorem Holds.step {item : Item} (h : d.Holds used texts) (hitem : d.step item = .ok d') :
    d'.Holds (used ++ item.used) (texts ++ item.texts) := by
  cases item with
  | refused e => exact absurd hitem nofun
  | uses us =>
    show d'.Holds _ (texts ++ [])
    rw [List.append_nil]
    exact h.endTexts.uses hitem
  | unknown w =>
    obtain rfl := Except.ok.inj hitem
    show Holds _ (used ++ []) (texts ++ [])
    rw [List.append_nil]
    exact h.putAside (by rfl) (by rfl) (by rfl) _
  | separator =>
    obtain rfl := Except.ok.inj hitem
    show Holds _ (used ++ []) (texts ++ [])
    rw [List.append_nil, List.append_nil, addSeparator]
    split
    · exact h.putAside (by rfl) (by rfl) (by rfl) texts
    · exact ⟨h.file, h.precisionKnown, h.expressions⟩
  | text t =>
    obtain rfl := Except.ok.inj hitem
    show Holds _ (used ++ []) (texts ++ [t])
    rw [List.append_nil, addText]
    -- A text after the run of expressions is put aside, so the request is refused.
    split
    · exact h.putAside (by rfl) (by rfl) (by rfl) _
    · exact ⟨h.file, h.precisionKnown, fun hextras =>
        congrArg (· ++ [t]) (h.expressions hextras)⟩

/-- Items add their uses and their texts, one after the other. -/
theorem Holds.items {items : List Item} (h : d.Holds used texts)
    (hitems : items.foldlM Draft.step d = .ok d') :
    d'.Holds (used ++ items.flatMap Item.used) (texts ++ items.flatMap Item.texts) := by
  induction items generalizing d used texts with
  | nil =>
    obtain rfl := Except.ok.inj hitems
    rwa [List.flatMap_nil, List.flatMap_nil, List.append_nil, List.append_nil]
  | cons item items ih =>
    obtain ⟨d₁, hitem, hitems⟩ := exists_of_foldlM_cons hitems
    rw [List.flatMap_cons, List.flatMap_cons, ← List.append_assoc, ← List.append_assoc]
    exact ih (h.step hitem) hitems

/-- What is read of all items. -/
theorem holds_of_foldlM {argv : List String} {d : Draft}
    (h : (CommandLine.items argv).foldlM Draft.step {} = .ok d) :
    d.Holds ((CommandLine.items argv).flatMap Item.used) (givenTexts argv) := by
  have hstart : Draft.Holds {} [] [] := ⟨rfl, rfl, fun _ => rfl⟩
  exact hstart.items h

/-- A draft that is finished was read without anything put aside. -/
theorem finish_eq_ok {r : Request} (h : d.finish = .ok r) : d.extras = [] ∧ r = d.toRequest := by
  rw [finish] at h
  split at h
  · exact absurd h nofun
  · rename_i hextras
    split at h
    · exact absurd h nofun
    split at h
    · exact absurd h nofun
    · exact ⟨by simpa using hextras, (Except.ok.inj h).symm⟩

end Draft

namespace Request

/-- A command line is read item by item. -/
theorem read_eq (argv : List String) :
    Request.read argv = (items argv).foldlM Draft.step {} >>= Draft.finish := by
  rw [Request.read, items]
  cases Word.readAll argv with
  | error e => rfl
  | ok words =>
    dsimp only
    rw [Draft.read_eq_foldlM]

/-- What is asked for is in the items. -/
theorem file_and_expressions_of_read {argv : List String} {r : Request}
    (h : Request.read argv = .ok r) :
    r.file = namedFile argv ∧ r.expressions = givenTexts argv := by
  rw [read_eq] at h
  cases hitems : (items argv).foldlM Draft.step {} with
  | error stop =>
    rw [hitems] at h
    exact absurd h nofun
  | ok d =>
    rw [hitems] at h
    obtain ⟨hextras, rfl⟩ := Draft.finish_eq_ok h
    have hread := Draft.holds_of_foldlM hitems
    rw [namedFile, givenPaths_eq]
    exact ⟨hread.file, hread.expressions hextras⟩

end Request

/-! ## Texts after the separator -/

/-- After the separator, every word is a text. -/
theorem Word.readAll_separator (xs : List String) :
    Word.readAll ("--" :: xs) = .ok (.separator :: xs.map .text) := rfl

theorem Word.readAll_cons {w : String} {ws : List String} {word : Word} {words : List Word}
    (hne : w ≠ "--") (hword : Word.read w = .ok word) (hwords : Word.readAll ws = .ok words) :
    Word.readAll (w :: ws) = .ok (word :: words) := by
  rw [Word.readAll, if_neg hne, hword, hwords]
  rfl

/-- Texts that follow each other are added to the expressions. -/
theorem Draft.read_texts {d : Draft} (h : d.texts = .running) (xs : List String) :
    d.read (xs.map .text) = .ok { d with expressions := d.expressions ++ xs } := by
  induction xs generalizing d with
  | nil => rw [List.map_nil, Draft.read, List.append_nil]
  | cons x xs ih =>
    have hadd : d.addText x = { d with expressions := d.expressions ++ [x] } := by
      rw [addText, if_neg (by rw [h]; nofun), ← h]
    rw [List.map_cons, Draft.read, hadd]
    refine (ih (d := { d with expressions := d.expressions ++ [x] }) h).trans ?_
    dsimp only
    rw [List.append_assoc, List.singleton_append]

/-- The switch for a file takes the path, and the texts after the separator are added. -/
theorem Draft.read_file_separator {path : String} (hne : path ≠ "") (hseparator : path ≠ "--")
    (d : Draft) (h : d.texts = .awaited) (xs : List String) :
    d.read (.switch .file false none :: .text path :: .separator :: xs.map .text) =
      .ok { d with file := some path, texts := .running, expressions := d.expressions ++ xs } := by
  have huse : d.endTexts.use ⟨.file, some path⟩ = .ok { d with file := some path } := by
    rw [endTexts, if_pos h, ← h]
    simp [use, hne, hseparator]
  have hitems :
      Item.ofWords (.switch .file false none :: .text path :: .separator :: xs.map .text) =
        .uses [⟨.file, some path⟩] :: .separator :: Item.ofWords (xs.map .text) := by
    rw [Item.ofWords]
    show Item.uses [⟨.file, some path⟩] :: Item.ofWords (.separator :: xs.map .text) = _
    rw [Item.ofWords]
  have htexts : (Item.ofWords (xs.map .text)).foldlM step
      { d with file := some path, texts := .running } =
        .ok { d with
          file := some path, texts := .running, expressions := d.expressions ++ xs } := by
    rw [← read_eq_foldlM, read_texts rfl]
  have hseparated : addSeparator { d with file := some path } =
      { d with file := some path, texts := .running } := by
    rw [addSeparator, if_neg (by rw [h]; nofun)]
  rw [read_eq_foldlM, hitems, List.foldlM_cons, step, List.foldlM_cons, huse]
  show (Item.ofWords (xs.map .text)).foldlM step (addSeparator { d with file := some path }) = _
  rw [hseparated, htexts]

namespace Request

/-- The texts after the separator are the expressions, whatever they look like. -/
theorem read_separator (xs : List String) :
    Request.read ("--" :: xs) = .ok { expressions := xs } := by
  rw [Request.read, Word.readAll_separator]
  show (Draft.read { texts := .running } (xs.map .text) >>= Draft.finish) = _
  rw [Draft.read_texts rfl]
  rfl

/-- A path that does not look like a switch, and texts after the separator. -/
theorem read_file_separator {path : String} (hne : path ≠ "")
    (hdash : path.toList.head? ≠ some '-') (verbose : Bool) (xs : List String) :
    Request.read ((if verbose then ["--verbose"] else []) ++ "--file" :: path :: "--" :: xs) =
      .ok { file := some path, verbose, expressions := xs } := by
  have hseparator : path ≠ "--" := fun h => hdash (h ▸ rfl)
  have hpath : Word.read path = .ok (.text path) := by
    rw [Word.read]
    exact if_pos (bne_iff_ne.2 hdash)
  have hwords : Word.readAll ("--file" :: path :: "--" :: xs) =
      .ok (.switch .file false none :: .text path :: .separator :: xs.map .text) :=
    Word.readAll_cons (by decide) (eq_ok_of_toOption_eq_some (by decide +kernel))
      (Word.readAll_cons hseparator hpath (Word.readAll_separator xs))
  cases verbose with
  | false =>
    rw [if_neg (by decide), List.nil_append, Request.read, hwords]
    dsimp only
    rw [Draft.read_file_separator hne hseparator {} rfl]
    rfl
  | true =>
    have hverbose : Word.read "--verbose" = .ok (.switch .verbose false none) :=
      eq_ok_of_toOption_eq_some (by decide +kernel)
    rw [if_pos rfl, List.singleton_append, Request.read,
      Word.readAll_cons (by decide) hverbose hwords]
    dsimp only
    rw [Draft.read]
    show (Draft.read { verbose := true } _ >>= Draft.finish) = _
    rw [Draft.read_file_separator hne hseparator { verbose := true } rfl]
    rfl

end Request

/-! ## Runs without the standard input -/

/-- The standard input has no part in the runs with a command line. -/
def IgnoresInput (m : Elementary) (argv : List String) : Prop :=
  ∀ (files : Files) (i i' : Input), program m ⟨files, i⟩ argv = program m ⟨files, i'⟩ argv

variable {m : Elementary} {argv : List String} {r : Request}

/-- A request with a file or with expressions is served without the input. -/
theorem run_of_given (h : r.file ≠ none ∨ r.expressions ≠ []) (files : Files) (i i' : Input) :
    r.run m ⟨files, i⟩ = r.run m ⟨files, i'⟩ := by
  rw [Request.run, Request.run]
  cases hfile : r.file with
  | some path => rfl
  | none =>
    have hexpressions := h.resolve_left (absurd hfile)
    have hempty : (!r.expressions.isEmpty) = true := by simpa using hexpressions
    dsimp only
    rw [if_pos hempty, if_pos hempty]

/-- If nothing is given, a terminal is greeted, and an input that is none is not. -/
theorem not_ignoresInput (h : Request.read argv = .ok r) (hfile : r.file = none)
    (hexpressions : r.expressions = []) : ¬ IgnoresInput m argv := by
  intro hignores
  have hruns := hignores (Directory.read ⟨[]⟩) (.ofText true "") (.ofText false "")
  rw [program, program, h] at hruns
  dsimp only at hruns
  rw [Request.run, Request.run, hfile, hexpressions] at hruns
  have hgreeting : String.join ["", banner, prompt, "\n"] = String.join [] :=
    congrArg Transcript.stdout hruns
  exact absurd hgreeting (by decide +kernel)

/-- The standard input has no part in the runs with a command line exactly if this asks for no
    evaluation, as it is refused or asks for help, or if it names a file or gives a text. -/
theorem ignoresInput_iff (m : Elementary) (argv : List String) :
    IgnoresInput m argv ↔
      ∀ r, Request.read argv = .ok r → namedFile argv ≠ none ∨ givenTexts argv ≠ [] := by
  constructor
  · intro hignores r h
    obtain ⟨hfile, hexpressions⟩ := Request.file_and_expressions_of_read h
    by_cases hnamed : namedFile argv = none
    · exact .inr fun htexts =>
        not_ignoresInput h (hfile.trans hnamed) (hexpressions.trans htexts) hignores
    · exact .inl hnamed
  · intro hgiven files i i'
    rw [program, program]
    cases h : Request.read argv with
    | error stop => rfl
    | ok r =>
      obtain ⟨hfile, hexpressions⟩ := Request.file_and_expressions_of_read h
      have hgiven := hgiven r h
      rw [← hfile, ← hexpressions] at hgiven
      dsimp only
      rw [run_of_given hgiven]

/-- With a path and a text, the input has no part in any run. -/
theorem ignoresInput_iff_pathAndText : IgnoresInput .plain ["-f", "f.txt", "1"] :=
  (ignoresInput_iff .plain _).2 fun _ _ => .inl (by decide +kernel)

/-- An empty path is given, but it names no file. -/
theorem not_ignoresInput_emptyPath :
    givenPaths ["--file", ""] = [""] ∧ ¬ IgnoresInput .plain ["--file", ""] := by
  have hread : Request.read ["--file", ""] = .ok {} :=
    eq_ok_of_toOption_eq_some (by decide +kernel)
  exact ⟨by decide +kernel, not_ignoresInput hread rfl rfl⟩

end Calculator.CommandLine
