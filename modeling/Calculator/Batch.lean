import Calculator.Directory
import Calculator.Evaluator
import Calculator.Text.Lines

/-!
# Batches

A batch is a text with one expression on each line. Lines are taken without the
blanks at their ends; those that are then empty, or start with `#`, are no
expressions. Lines are counted from one, and a failure is reported for the path
of the batch and the number of its line.

A batch is evaluated line by line up to the first failure (`attempts`), and has
answers only if there is none (`answers`).
-/

namespace Calculator

namespace Batch

/-- Whether a line, without the blanks at its ends, holds an expression. -/
def isExpression (line : String) : Bool :=
  match line.toList with
  | [] => false
  | c :: _ => c != '#'

/-- The expressions among the lines of a stream. -/
def expressions (lines : List String) : List String :=
  (lines.map Text.strip).filter isExpression

/-- An expression and the number of its line. -/
structure Entry where
  number : Nat
  text : String
  deriving DecidableEq, Repr

/-- The expressions of a file with the numbers of their lines. -/
def entries (contents : String) : List Entry :=
  (((Text.fileLines contents).zipIdx 1).map fun (line, n) => ⟨n, Text.strip line⟩).filter
    fun e => isExpression e.text

/-- An entry that was evaluated, and the outcome. -/
structure Attempt where
  entry : Entry
  outcome : Except Failure Binary64

/-- An entry and its value. -/
structure Answer where
  entry : Entry
  value : Binary64
  deriving DecidableEq, Repr

/-- The name of a line of the batch at a path. -/
def sourceOf (path : String) (e : Entry) : String := path ++ ":" ++ toString e.number

/-- Evaluates entries up to the first failure. -/
def attempts (v : Evaluator) (path : String) : List Entry → List Attempt
  | [] => []
  | e :: es =>
    let outcome := { v with source := sourceOf path e }.evaluate e.text
    ⟨e, outcome⟩ :: match outcome with
      | .ok _ => attempts v path es
      | .error _ => []

/-- The values of all attempts, or the failure of one. -/
def answers : List Attempt → Except Failure (List Answer)
  | [] => .ok []
  | a :: as =>
    match a.outcome with
    | .error f => .error f
    | .ok value => (answers as).map (⟨a.entry, value⟩ :: ·)

/-- What is recorded about attempts, in order; if none failed, also how many
    there were. -/
def records (path : String) (as : List Attempt) : List String :=
  as.flatMap (fun a => Evaluator.records a.entry.text a.outcome) ++
    match answers as with
    | .ok vs => ["Evaluated " ++ toString vs.length ++ " expressions from " ++ path]
    | .error _ => []

end Batch

/-- Why a file has no text. -/
inductive FileError
  /-- The path leads to nothing that can be read. -/
  | inaccessible (reason : ReadError)
  /-- The path holds the character that ends paths. -/
  | embeddedNull
  /-- The bytes are not a text in UTF-8. -/
  | undecodable
  deriving DecidableEq, Repr

/-- Access to files: the bytes at a path. -/
abbrev Files := String → Except ReadError ByteArray

/-- The text of a file. -/
def readText (files : Files) (path : String) : Except FileError String :=
  if path.toList.contains '\x00' then .error .embeddedNull
  else match files path with
    | .error e => .error (.inaccessible e)
    | .ok bytes =>
      match String.fromUTF8? bytes with
      | some s => .ok s
      | none => .error .undecodable

/-- The attempts that the evaluation of a file makes. -/
def attemptFile (v : Evaluator) (files : Files) (path : String) :
    Except FileError (List Batch.Attempt) :=
  (readText files path).map fun contents => Batch.attempts v path (Batch.entries contents)

end Calculator
