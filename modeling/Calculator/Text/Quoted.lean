import Calculator.Text.Printable

/-!
# Quoted text

Texts that come from outside are shown in quotes, on one line, in printable
characters only, so that a report holds no break or control that its author did
not put there. The quote is the apostrophe, unless the text holds an apostrophe
and no double quote.
-/

namespace Calculator.Text

/-- The quote around a text. -/
def quoteFor (cs : List Char) : Char :=
  if cs.contains '\'' && !cs.contains '"' then '"' else '\''

/-- The code of a character in lower-case base sixteen, with at least `width`
    digits. -/
def hexCode (width : Nat) (c : Char) : List Char :=
  (Nat.toDigits 16 c.toNat).leftpad width '0'

/-- One character between quotes: the backslash and the quote are escaped, tab,
    line feed and carriage return have names, and what cannot be printed is
    given by its code. -/
def quotedChar (quote c : Char) : List Char :=
  if c = '\\' || c = quote then ['\\', c]
  else if c = '\n' then ['\\', 'n']
  else if c = '\r' then ['\\', 'r']
  else if c = '\t' then ['\\', 't']
  else if isPrintable c then [c]
  else if c.toNat < 0x100 then '\\' :: 'x' :: hexCode 2 c
  else if c.toNat < 0x10000 then '\\' :: 'u' :: hexCode 4 c
  else '\\' :: 'U' :: hexCode 8 c

/-- The text in quotes. -/
def quoted (s : String) : String :=
  let quote := quoteFor s.toList
  String.ofList (quote :: s.toList.flatMap (quotedChar quote) ++ [quote])

example : quoted "it's" = "\"it's\"" := by decide +kernel
example : quoted "a\u0007\n\u200B\\'\"" = "'a\\x07\\n\\u200b\\\\\\'\"'" := by decide +kernel

end Calculator.Text
