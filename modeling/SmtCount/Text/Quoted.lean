import SmtCount.Text.Printable

/-!
# Quoted texts

How a message shows a text that came from outside: between double quotes, so that its ends can be
seen, with an escape for every character that would not be seen or would end the quotation.

## Main definitions

* `escapeChar c` — `c` as it stands between the quotes.
* `quote s` — `s` between quotes.
-/

namespace SmtCount.Text

/-- A code point in braces, in hexadecimal without leading zeros. -/
def codePointEscape (c : Char) : List Char :=
  '\\' :: 'u' :: '\x7b' :: Nat.toDigits 16 c.toNat ++ ['\x7d']

/-- A character as it stands between the quotes: the quote and the backslash take a backslash, four
controls have an escape letter, what cannot be shown is given by its code point. -/
def escapeChar (c : Char) : List Char :=
  if c = '"' || c = '\\' then ['\\', c]
  else if c = '\t' then ['\\', 't']
  else if c = '\r' then ['\\', 'r']
  else if c = '\n' then ['\\', 'n']
  else if c.toNat = 0 then ['\\', '0']
  else if isPrintable c then [c]
  else codePointEscape c

/-- A text between double quotes. -/
def quote (s : String) : String :=
  String.ofList ('"' :: s.toList.flatMap escapeChar ++ ['"'])

end SmtCount.Text
