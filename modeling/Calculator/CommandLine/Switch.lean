import Calculator.Text.DecimalDigit
import Calculator.Text.Quoted

/-!
# Switches and words

The command line is a list of words. A word is taken by what it looks like alone,
from left to right:

* after the first `--`, every word is a text;
* a word that does not start with `-`, and `-` itself, is a text;
* a switch may be spelled out; joined to a value by `=`; abbreviated, if it is a
  long one, to what only it starts with; and, if it is a short one, directly
  followed by its value or by further short switches;
* other words that look like a negative number, or hold a space, are texts, and
  what is left are unknown switches.

An abbreviation that could be several switches is refused at once, before any
switch has an effect.
-/

namespace Calculator.CommandLine

/-- What can be set from the command line. -/
inductive Switch
  | help
  | file
  | precision
  | verbose
  | version
  deriving DecidableEq, Repr

namespace Switch

/-- All switches, in the order in which they are listed. -/
def all : List Switch := [help, file, precision, verbose, version]

/-- The ways to write a switch, in the order in which they are listed. -/
def spellings : Switch → List String
  | help => ["-h", "--help"]
  | file => ["--file", "-f"]
  | precision => ["--precision", "-p"]
  | verbose => ["--verbose", "-v"]
  | version => ["--version"]

/-- How a switch is called in messages. -/
def label (s : Switch) : String := String.intercalate "/" s.spellings

/-- Whether a switch is followed by a value. -/
def takesValue : Switch → Bool
  | file | precision => true
  | _ => false

/-- The switch that a word spells out. -/
def named? (cs : List Char) : Option Switch :=
  all.find? fun s => s.spellings.any fun w => w.toList == cs

/-- The long spellings that start with the given characters. -/
def completions (cs : List Char) : List (String × Switch) :=
  (all.flatMap fun s => s.spellings.map fun w => (w, s)).filter fun (w, _) =>
    cs.isPrefixOf w.toList

theorem mem_all (s : Switch) : s ∈ all := by cases s <;> decide

end Switch

/-- Why a command line is refused. -/
inductive UsageError
  | ambiguous (word : String) (spellings : List String)
  | expectedArgument (s : Switch)
  | invalidInteger (text : String)
  | ignoredArgument (s : Switch) (value : String)
  | unrecognized (words : List String)
  | precisionTooSmall
  deriving DecidableEq, Repr

/-- What is said about a refused command line. -/
def UsageError.message : UsageError → String
  | ambiguous word spellings =>
    "ambiguous option: " ++ word ++ " could match " ++ String.intercalate ", " spellings
  | expectedArgument s => "argument " ++ s.label ++ ": expected one argument"
  | invalidInteger text =>
    "argument " ++ Switch.precision.label ++ ": invalid int value: " ++ Text.quoted text
  | ignoredArgument s value =>
    "argument " ++ s.label ++ ": ignored explicit argument " ++ Text.quoted value
  | unrecognized words => "unrecognized arguments: " ++ String.intercalate " " words
  | precisionTooSmall => "--precision must be at least 1"

/-- What a word of the command line is. -/
inductive Word
  | text (word : String)
  /-- The first `--`. -/
  | separator
  /-- A switch in a long or short spelling, and what is joined to it. -/
  | switch (s : Switch) (short : Bool) (joined : Option (List Char))
  | unknown (word : String)
  deriving DecidableEq, Repr

/-- Whether all characters, of which there is at least one, are digits; a line
    feed may end them. -/
def areDigits (cs : List Char) : Bool :=
  let rest := cs.dropWhile Text.isDecimalDigit
  !(cs.takeWhile Text.isDecimalDigit).isEmpty && (rest.isEmpty || rest == ['\n'])

/-- Whether a word looks like a negative number: a `-` and digits, or a `-`, a
    point and digits with or without digits in front of the point. -/
def looksNegative : List Char → Bool
  | '-' :: cs =>
    areDigits cs ||
      match cs.dropWhile Text.isDecimalDigit with
      | '.' :: fraction => areDigits fraction
      | _ => false
  | _ => false

/-- The two sides of the first `=`; there is no right side without one. -/
def splitEquals (cs : List Char) : List Char × Option (List Char) :=
  match cs.dropWhile (· != '=') with
  | _ :: value => (cs.takeWhile (· != '='), some value)
  | [] => (cs, none)

namespace Word

/-- The word that a short switch starts, if it is one. -/
def ofShort? : List Char → Option Word
  | '-' :: c :: value => (Switch.named? ['-', c]).map fun s => .switch s true (some value)
  | _ => none

/-- Whether characters start like a long switch. -/
def isLong : List Char → Bool
  | '-' :: '-' :: _ => true
  | _ => false

/-- A word that starts with `-` and is no switch as far as is known. -/
def ofDashed (w : String) : Word :=
  if looksNegative w.toList || w.toList.contains ' ' then .text w else .unknown w

/-- What a word before the separator is. -/
def read (w : String) : Except UsageError Word :=
  let cs := w.toList
  if cs.head? != some '-' then .ok (.text w)
  else match Switch.named? cs with
    | some s => .ok (.switch s (!isLong cs) none)
    | none =>
      if cs == ['-'] then .ok (.text w)
      else
        let (name, value) := splitEquals cs
        match value.bind fun _ => Switch.named? name with
        | some s => .ok (.switch s (!isLong name) value)
        | none =>
          if isLong cs then
            match Switch.completions name with
            | [] => .ok (ofDashed w)
            | [(_, s)] => .ok (.switch s false value)
            | many => .error (.ambiguous w (many.map Prod.fst))
          else .ok ((ofShort? cs).getD (ofDashed w))

/-- What the words of a command line are. -/
def readAll : List String → Except UsageError (List Word)
  | [] => .ok []
  | w :: ws =>
    if w = "--" then .ok (.separator :: ws.map .text)
    else do return (← read w) :: (← readAll ws)

end Word

end Calculator.CommandLine
