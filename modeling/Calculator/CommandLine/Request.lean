import Calculator.CommandLine.Switch
import Calculator.Text.Integer

/-!
# Requests

What a command line asks for. Its words are gone through once, from left to
right: switches act in their order, and the texts of the first unbroken run are
the expressions. Later texts, and unknown switches, are put aside and refused at
the end, so a switch that asks for help or the version is heard before them.

Short switches that are joined into one word act only if the whole word makes
sense.
-/

namespace Calculator.CommandLine

/-- What is asked for. -/
structure Request where
  /-- The path of a batch. -/
  file : Option String := none
  /-- The number of significant digits of printed results. -/
  precision : Int := 15
  /-- Whether to show what is recorded for debugging. -/
  verbose : Bool := false
  expressions : List String := []
  deriving DecidableEq, Repr

/-- Why a command line is not a request for evaluation. -/
inductive Stop
  | help
  | version
  | usage (e : UsageError)
  /-- The precision was given as a bare `--`, which leaves none to compare. -/
  | noPrecision
  deriving DecidableEq, Repr

/-- Whether the run of texts that are the expressions is still to come, is being
    read, or is over. -/
inductive Texts
  | awaited
  | running
  | over
  deriving DecidableEq, Repr

/-- A request while the words are gone through. -/
structure Draft extends Request where
  /-- Whether there is a precision to compare. -/
  precisionKnown : Bool := true
  texts : Texts := .awaited
  /-- Words that are refused at the end. -/
  extras : List String := []
  deriving DecidableEq, Repr

/-- A switch and the value it is used with. -/
structure Use where
  switch : Switch
  value : Option String
  deriving DecidableEq, Repr

namespace Use

/-- The use of a switch to which nothing is joined, and whether it takes the next
    word, if that is a text. -/
def alone (next : Option String) (s : Switch) : Except UsageError (List Use × Bool) :=
  if s.takesValue then
    match next with
    | some v => .ok ([⟨s, some v⟩], true)
    | none => .error (.expectedArgument s)
  else .ok ([⟨s, none⟩], false)

/-- The uses that a switch and the characters joined to it make, and whether the
    last of them takes the next word. -/
def joined (next : Option String) :
    (value : List Char) → (s : Switch) → (short : Bool) → Except UsageError (List Use × Bool)
  | value, s, short =>
    if s.takesValue then .ok ([⟨s, some (String.ofList value)⟩], false)
    else match value with
      | [] => .error (.ignoredArgument s "")
      | c :: rest =>
        match short, Switch.named? ['-', c] with
        | true, some s' => do
          let (uses, taken) ←
            if rest.isEmpty then alone next s' else joined next rest s' true
          return (⟨s, none⟩ :: uses, taken)
        | _, _ => .error (.ignoredArgument s (String.ofList value))

end Use

namespace Draft

/-- The effect of a switch. An empty path, or a bare `--` joined to the switch, is
    no file. -/
def use (d : Draft) (u : Use) : Except Stop Draft :=
  let value := u.value.getD ""
  match u.switch with
  | .help => .error .help
  | .version => .error .version
  | .verbose => .ok { d with verbose := true }
  | .file => .ok { d with file := if value = "" || value = "--" then none else some value }
  | .precision =>
    if value = "--" then .ok { d with precisionKnown := false }
    else match Text.integer? value with
      | some n => .ok { d with precision := n, precisionKnown := true }
      | none => .error (.usage (.invalidInteger value))

/-- A switch ends the run of texts that are the expressions. -/
def endTexts (d : Draft) : Draft :=
  { d with texts := if d.texts = .awaited then .awaited else .over }

/-- A text is an expression if it stands in the first run of texts. -/
def addText (d : Draft) (t : String) : Draft :=
  if d.texts = .over then { d with extras := d.extras ++ [t] }
  else { d with texts := .running, expressions := d.expressions ++ [t] }

/-- The separator is no expression, but it stands in a run like a text. -/
def addSeparator (d : Draft) : Draft :=
  if d.texts = .over then { d with extras := d.extras ++ ["--"] }
  else { d with texts := .running }

/-- The text that comes next, which a switch may take. -/
def nextText : List Word → Option String
  | .text t :: _ => some t
  | _ => none

/-- Goes through the words. -/
def read (d : Draft) : List Word → Except Stop Draft
  | [] => .ok d
  | .text t :: ws => read (d.addText t) ws
  | .separator :: ws => read d.addSeparator ws
  | .unknown w :: ws => read { d.endTexts with extras := d.extras ++ [w] } ws
  | .switch s short value :: ws =>
    let uses := match value with
      | none => Use.alone (nextText ws) s
      | some v => Use.joined (nextText ws) v s short
    match uses with
    | .error e => .error (.usage e)
    | .ok (us, taken) =>
      match us.foldlM use d.endTexts with
      | .error stop => .error stop
      | .ok d =>
        match taken, ws with
        | true, _ :: ws => read d ws
        | _, ws => read d ws

/-- The request, if nothing was put aside and results have at least one digit. -/
def finish (d : Draft) : Except Stop Request :=
  if !d.extras.isEmpty then .error (.usage (.unrecognized d.extras))
  else if !d.precisionKnown then .error .noPrecision
  else if d.precision < 1 then .error (.usage .precisionTooSmall)
  else .ok d.toRequest

end Draft

/-- What a command line asks for. -/
def Request.read (argv : List String) : Except Stop Request :=
  match Word.readAll argv with
  | .error e => .error (.usage e)
  | .ok words => Draft.read {} words >>= Draft.finish

end Calculator.CommandLine
