import Calculator.Fault
import Calculator.Text.Blank

/-!
# Diagnostics

A diagnostic is the report on a failure: a heading, the place, the text with a
caret under the place, and what is known beyond that. It is a list of lines
(`Diagnostic.lines`), so that it can be said which line is which; every blank of
the text is shown as one space, so that a character stands above the caret if
its offset is the position.
-/

namespace Calculator

/-- A report on a text. An empty `code` or `help` is none. -/
structure Diagnostic where
  message : String
  text : String
  /-- The offset of the caret; a negative one puts it at the margin. -/
  position : Int
  /-- Where the text comes from. -/
  source : String := "<expression>"
  code : String := ""
  help : String := ""
  suggestions : List String := []
  deriving DecidableEq, Repr

namespace Diagnostic

/-- Columns are counted from one. -/
def column (d : Diagnostic) : Int := d.position + 1

/-- What kind of trouble it is. -/
def heading (d : Diagnostic) : String :=
  "ERROR" ++ (if d.code.isEmpty then "" else "[" ++ d.code ++ "]") ++ ": " ++ d.message

/-- Where the trouble is. -/
def place (d : Diagnostic) : String := "  --> " ++ d.source ++ ", column " ++ toString d.column

/-- What stands before the text and before the caret. -/
def margin : String := "   | "

/-- A text on one line, with a space for every blank. -/
def shown (s : String) : String :=
  String.ofList (s.toList.map fun c => if Text.isBlank c then ' ' else c)

/-- The caret under the position. -/
def caret (d : Diagnostic) : String :=
  String.ofList (List.replicate d.position.toNat ' ' ++ ['^'])

/-- The lines about the help. -/
def helpLines (d : Diagnostic) : List String :=
  if d.help.isEmpty then [] else ["  help: " ++ d.help]

/-- The lines about the suggestions. -/
def suggestionLines (d : Diagnostic) : List String :=
  if d.suggestions.isEmpty then []
  else "  suggestions:" :: d.suggestions.map ("    - " ++ ·)

/-- The lines of the report. -/
def lines (d : Diagnostic) : List String :=
  [d.heading, d.place, margin ++ shown d.text, margin ++ d.caret] ++ d.helpLines ++
    d.suggestionLines

/-- The report, each line ended by a line feed. -/
def render (d : Diagnostic) : String := String.join (d.lines.map (· ++ "\n"))

/-- A text keeps its length when it is shown. -/
theorem length_shown (s : String) : (shown s).toList.length = s.toList.length := by
  simp [shown]

end Diagnostic

/-- A fault found in a text. -/
structure Failure where
  fault : Fault
  text : String
  /-- The offset at which the fault was found, or a position that was given. -/
  position : Int
  /-- Where the text comes from. -/
  source : String := "<expression>"
  deriving DecidableEq, Repr

namespace Failure

/-- The failure of a text because of the character at a position. A negative
    position counts from the end of the text; before the start there is none to
    report. -/
def unexpectedAt? (text : String) (position : Int) : Option Failure :=
  let cs := text.toList
  let offset := if position < 0 then position + cs.length else position
  if offset < 0 then none
  else some { fault := .unexpectedCharacter cs[offset.toNat]?, text, position }

/-- The same failure, reported for another source. -/
def withSource (f : Failure) (source : String) : Failure := { f with source }

def kind (f : Failure) : Fault.Kind := f.fault.kind

def code (f : Failure) : String := f.kind.code

def message (f : Failure) : String := f.fault.message

/-- The report on a failure. -/
def diagnostic (f : Failure) : Diagnostic where
  message := f.message
  text := f.text
  position := f.position
  source := f.source
  code := f.code
  help := f.fault.help?.getD ""
  suggestions := f.fault.suggestions

/-- The report on a failure, as text. -/
def render (f : Failure) : String := f.diagnostic.render

/-- An offset is taken as it is, also past the end of the text. -/
theorem unexpectedAt?_natCast (text : String) (k : Nat) :
    unexpectedAt? text k =
      some { fault := .unexpectedCharacter text.toList[k]?, text, position := k } := by
  have h : ¬ (k : Int) < 0 := by omega
  simp [unexpectedAt?, h]

/-- There is no failure exactly for the positions before the start. -/
theorem unexpectedAt?_eq_none_iff (text : String) (position : Int) :
    unexpectedAt? text position = none ↔ position + text.toList.length < 0 := by
  by_cases h : position < 0 <;> simp [unexpectedAt?, h]
  omega

/-- Only the last source counts. -/
theorem withSource_withSource (f : Failure) (a b : String) :
    (f.withSource a).withSource b = f.withSource b := rfl

end Failure

end Calculator
