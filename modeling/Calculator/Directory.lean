import Calculator.Text.Quoted

/-!
# Directories

Files are read from a directory without subdirectories. A path is followed name
by name: `.` and empty names stay where they are, `..` leaves the directory for
one about which nothing is known but that it is a directory, and a file has
nothing below it. A path that ends at a directory cannot be read.
-/

namespace Calculator

/-- Why a path cannot be read. -/
inductive ReadError
  | notFound
  | notDirectory
  | isDirectory
  | nameTooLong
  | permissionDenied
  deriving DecidableEq, Repr

namespace ReadError

/-- The number of an error. -/
def number : ReadError → Nat
  | notFound => 2
  | notDirectory => 20
  | isDirectory => 21
  | nameTooLong => 36
  | permissionDenied => 13

/-- An error in words. -/
def description : ReadError → String
  | notFound => "No such file or directory"
  | notDirectory => "Not a directory"
  | isDirectory => "Is a directory"
  | nameTooLong => "File name too long"
  | permissionDenied => "Permission denied"

/-- The message about a path that cannot be read. -/
def message (e : ReadError) (path : String) : String :=
  "[Errno " ++ toString e.number ++ "] " ++ e.description ++ ": " ++ Text.quoted path

end ReadError

/-- A directory: the names of its files and their bytes. -/
structure Directory where
  files : List (String × ByteArray)

namespace Directory

/-- The names that a path is made of, between its slashes. -/
def names (path : List Char) : List (List Char) :=
  match path with
  | [] => [[]]
  | c :: cs =>
    if c = '/' then [] :: names cs
    else match names cs with
      | [] => [[c]]
      | n :: ns => (c :: n) :: ns

/-- Where a path has led so far. -/
inductive Place
  /-- This directory. -/
  | here
  /-- Another directory. -/
  | elsewhere
  | file (bytes : ByteArray)

/-- The place a name leads to. -/
def follow (d : Directory) (place : Place) (name : List Char) : Except ReadError Place :=
  match place with
  | .file _ => .error .notDirectory
  | place =>
    if name.isEmpty || name = ['.'] then .ok place
    else if name = ['.', '.'] then .ok .elsewhere
    else
      let name := String.ofList name
      if 255 < name.utf8ByteSize then .error .nameTooLong
      else match place, d.files.lookup name with
        | .here, some bytes => .ok (.file bytes)
        | _, _ => .error .notFound

/-- The bytes at a path. -/
def read (d : Directory) (path : String) : Except ReadError ByteArray :=
  let cs := path.toList
  if cs.isEmpty then .error .notFound
  else if 4095 < path.utf8ByteSize then .error .nameTooLong
  else
    let start : Place := if cs.head? = some '/' then .elsewhere else .here
    match (names cs).foldlM d.follow start with
    | .error e => .error e
    | .ok (.file bytes) => .ok bytes
    | .ok _ => .error .isDirectory

end Directory

end Calculator
