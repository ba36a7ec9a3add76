import SmtCount.Simulation.Text.Places
import SmtCount.Simulation.Text.Numeral

/-!
# Formats

What a program prints that follows a format: text with escapes, and conversions that each take an
argument.

## Main definitions

* `unescape` — replaces escapes by the bytes that they stand for.
* `Conversion` — a conversion of a format.
* `formatAll` — follows a format as often as there are arguments for it.
-/

namespace SmtCount.Simulation.Text

/-! ### Escapes -/

/-- Is this an octal digit? -/
def isOctal (c : Char) : Bool := '0' ≤ c && c ≤ '7'

/-- Reads at most `digits` octal digits that continue the number `n`. -/
def octal : Nat → Nat → Bytes → Nat × Bytes
  | 0, n, cs => (n, cs)
  | digits + 1, n, c :: cs =>
    if isOctal c then octal digits (8 * n + (c.toNat - '0'.toNat)) cs else (n, c :: cs)
  | _ + 1, n, [] => (n, [])

/-- The byte for the letter after a backslash. -/
def escapeLetter? : Char → Option Char
  | 'a' => some (byteOf 7)
  | 'b' => some (byteOf 8)
  | 'e' => some (byteOf 27)
  | 't' => some '\t'
  | 'n' => some '\n'
  | 'v' => some (byteOf 11)
  | 'f' => some (byteOf 12)
  | 'r' => some '\r'
  | '\\' => some '\\'
  | _ => none

/-- The byte for what follows a backslash, and what comes after.  A backslash that begins no escape
stands for itself. -/
def escapeByte : Bytes → Char × Bytes
  | [] => ('\\', [])
  | c :: cs =>
    if isOctal c then
      let (n, rest) := octal 3 0 (c :: cs)
      (byteOf n, rest)
    else
      match escapeLetter? c with
      | some b => (b, cs)
      | none => ('\\', c :: cs)

/-- Replaces escapes, in at most `steps` steps, and puts the result after `seen`, last byte first.  In
an argument, octal digits follow a zero, and one escape ends all output. -/
def unescapeFrom : Nat → Bytes → Bytes → Bytes × Bool
  | 0, seen, _ => (seen.reverse, false)
  | _ + 1, seen, [] => (seen.reverse, false)
  | steps + 1, seen, '\\' :: cs =>
    match cs with
    | 'c' :: _ => (seen.reverse, true)
    | cs =>
      let digits := match cs with
        | '0' :: d :: rest => if isOctal d then d :: rest else cs
        | cs => cs
      let (b, rest) := escapeByte digits
      unescapeFrom steps (b :: seen) rest
  | steps + 1, seen, c :: cs => unescapeFrom steps (c :: seen) cs

/-- Replaces the escapes of an argument; says whether one of them ends all output. -/
def unescape (cs : Bytes) : Bytes × Bool :=
  unescapeFrom (cs.length + 1) [] cs

/-! ### Conversions -/

/-- A conversion of a format. -/
structure Conversion where
  /-- Is the text put to the left? -/
  left : Bool := false
  /-- Is a number filled up with zeros? -/
  zeros : Bool := false
  /-- Has a number that is not negative a plus sign? -/
  plus : Bool := false
  /-- Has a number that is not negative a space instead of a sign? -/
  space : Bool := false
  /-- Is a number marked by its base, or by a point? -/
  marked : Bool := false
  width : Nat := 0
  places : Option Nat := none
  letter : Char

namespace Conversion

variable (v : Conversion)

/-- Fills a text up to the width. -/
def fill (cs : Bytes) : Bytes :=
  let missing := List.replicate (v.width - cs.length) ' '
  if v.left then cs ++ missing else missing ++ cs

/-- Fills a number up to the width, where zeros come after the sign. -/
def fillNumber (zeros : Bool) (sign digits : Bytes) : Bytes :=
  if zeros && !v.left then
    sign ++ List.replicate (v.width - sign.length - digits.length) '0' ++ digits
  else v.fill (sign ++ digits)

/-- The sign of a number. -/
def signOf (negative : Bool) : Bytes :=
  if negative then ['-'] else if v.plus then ['+'] else if v.space then [' '] else []

/-- Digits with as many zeros before them as the number of places asks for. -/
def padDigits (digits : Bytes) : Bytes :=
  match v.places with
  | none => digits
  | some 0 => if digits == ['0'] then [] else digits
  | some n => List.replicate (n - digits.length) '0' ++ digits

/-- A whole number with a sign. -/
def signed (n : Int) : Bytes :=
  v.fillNumber (v.zeros && v.places.isNone) (v.signOf (n < 0))
    (v.padDigits (Nat.toDigits 10 n.natAbs))

/-- A whole number without a sign, in the base of the letter. -/
def unsigned (n : Nat) : Bytes :=
  let zeros := v.zeros && v.places.isNone
  match v.letter with
  | 'o' =>
    let digits := v.padDigits (Nat.toDigits 8 n)
    v.fillNumber zeros [] (if v.marked && digits.head? ≠ some '0' then '0' :: digits else digits)
  | 'x' =>
    v.fillNumber zeros (if v.marked && n ≠ 0 then ['0', 'x'] else [])
      (v.padDigits (Nat.toDigits 16 n))
  | 'X' =>
    v.fillNumber zeros (if v.marked && n ≠ 0 then ['0', 'X'] else [])
      ((v.padDigits (Nat.toDigits 16 n)).map Char.toUpper)
  | _ => v.fillNumber zeros [] (v.padDigits (Nat.toDigits 10 n))

/-- A number with places. -/
def real (x : Binary64) : Bytes :=
  let sign := v.signOf x.isNegative
  let upper (cs : Bytes) : Bytes := if v.letter.isUpper then cs.map Char.toUpper else cs
  if x.isNaN then v.fill (upper (sign ++ "nan".toList))
  else if x.isInfinite then v.fill (upper (sign ++ "inf".toList))
  else
    let places := v.places.getD 6
    let digits := match v.letter.toLower with
      | 'f' => fixedText x v.marked places
      | 'e' => scientificText x v.marked places
      | _ => generalText x v.marked places
    v.fillNumber v.zeros sign (upper digits)

/-- A text, of which at most as many bytes count as there are places. -/
def text (cs : Bytes) : Bytes :=
  v.fill (match v.places with
    | some n => cs.take n
    | none => cs)

end Conversion

/-! ### Arguments -/

/-- What following a format has come to. -/
structure Formatting where
  /-- What is printed, last part first. -/
  printed : List Bytes := []
  args : List Bytes
  /-- What is wrong with arguments. -/
  complaints : List Bytes := []
  /-- Has an escape ended all output? -/
  ended : Bool := false
  /-- What is wrong with the format. -/
  broken : Option Bytes := none

namespace Formatting

/-- The next argument, if there is one. -/
def next (f : Formatting) : Option Bytes × Formatting :=
  (f.args.head?, { f with args := f.args.tail })

def emit (f : Formatting) (bs : Bytes) : Formatting :=
  { f with printed := bs :: f.printed }

/-- Notes what is wrong with the argument of a number. -/
def check (f : Formatting) (arg rest : Bytes) (beyond : Bool) : Formatting :=
  let complain (what : String) :=
    { f with complaints := f.complaints ++ [arg ++ ": ".toList ++ what.toList] }
  if !rest.isEmpty then
    if rest.length = arg.length then complain "expected numeric value"
    else complain "not completely converted"
  else if beyond then complain "Numerical result out of range"
  else f

/-- The number of the byte after a quotation mark, if an argument begins with one. -/
def quotedByte? : Bytes → Option Nat
  | '\'' :: rest | '"' :: rest => some ((rest.head?.map Char.toNat).getD 0)
  | _ => none

/-- The next argument as a whole number. -/
def nextInteger (f : Formatting) (isSigned : Bool) : Int × Formatting :=
  let (arg, f) := f.next
  match arg with
  | none => (0, f)
  | some arg =>
    match quotedByte? arg with
    | some n => (n, f)
    | none =>
      let n := Numeral.read none arg
      if isSigned then (n.signed, f.check arg n.rest n.isBeyond)
      else
        let beyond := 2 ^ 64 ≤ n.magnitude
        let value : Int := if beyond then 2 ^ 64 - 1 else n.value % 2 ^ 64
        (value, f.check arg n.rest beyond)

/-- The next argument as a number with places. -/
def nextReal (f : Formatting) : Binary64 × Formatting :=
  let (arg, f) := f.next
  match arg with
  | none => (Binary64.ofMagnitude false 0, f)
  | some arg =>
    match quotedByte? arg with
    | some n => ((readFront (decimal n)).1, f)
    | none =>
      let (x, rest) := readFront arg
      -- a word for infinity is in range, unlike digits that lead there
      (x, f.check arg rest (x.isInfinite && arg.any Char.isDigit))

/-- Converts the next argument. -/
def convert (f : Formatting) (v : Conversion) : Option Formatting :=
  match v.letter with
  | 's' =>
    let (arg, f) := f.next
    some (f.emit (v.text (arg.getD [])))
  | 'b' =>
    let (arg, f) := f.next
    let (bs, ended) := unescape (arg.getD [])
    some { f.emit (v.text bs) with ended }
  | 'c' =>
    let (arg, f) := f.next
    some (f.emit (v.fill [((arg.getD []).head?).getD (byteOf 0)]))
  | 'd' | 'i' =>
    let (n, f) := f.nextInteger true
    some (f.emit (v.signed n))
  | 'o' | 'u' | 'x' | 'X' =>
    let (n, f) := f.nextInteger false
    some (f.emit (v.unsigned n.toNat))
  | 'e' | 'E' | 'f' | 'F' | 'g' | 'G' =>
    let (x, f) := f.nextReal
    some (f.emit (v.real x))
  | _ => none

end Formatting

/-! ### Following a format -/

/-- Reads a width or a number of places, which may be an argument. -/
def readAmount (f : Formatting) (cs : Bytes) : Option Int × Bytes × Formatting :=
  match cs with
  | '*' :: rest =>
    let (n, f) := f.nextInteger true
    (some n, rest, f)
  | cs =>
    let digits := cs.takeWhile Char.isDigit
    (if digits.isEmpty then none else some (Nat.ofDigitChars 10 digits 0), cs.drop digits.length, f)

/-- Reads a conversion after its percent sign. -/
def readConversion (f : Formatting) (cs : Bytes) : Option (Conversion × Bytes × Formatting) :=
  let flags := cs.takeWhile fun c => "#-+ 0".toList.contains c
  let (width, cs, f) := readAmount f (cs.drop flags.length)
  let (places, cs, f) := match cs with
    | '.' :: rest =>
      let (n, rest, f) := readAmount f rest
      (some (n.getD 0), rest, f)
    | cs => (none, cs, f)
  match cs with
  | [] => none
  | letter :: rest =>
    let width := width.getD 0
    some
      ({ left := flags.contains '-' || width < 0
         zeros := flags.contains '0'
         plus := flags.contains '+'
         space := flags.contains ' '
         marked := flags.contains '#'
         width := width.natAbs
         places := (places.filter (0 ≤ ·)).map Int.toNat
         letter }, rest, f)

/-- Follows a format once, in at most `steps` steps. -/
def formatOnce : Nat → Bytes → Formatting → Formatting
  | 0, _, f => f
  | _ + 1, [], f => f
  | steps + 1, '\\' :: cs, f =>
    let (b, rest) := escapeByte cs
    formatOnce steps rest (f.emit [b])
  | steps + 1, '%' :: '%' :: cs, f => formatOnce steps cs (f.emit ['%'])
  | steps + 1, '%' :: cs, f =>
    match readConversion f cs with
    | none => { f with broken := some "missing format character".toList }
    | some (v, rest, f) =>
      match f.convert v with
      | none =>
        let directive := '%' :: cs.take (cs.length - rest.length)
        { f with broken := some (directive ++ ": invalid directive".toList) }
      | some f => if f.ended then f else formatOnce steps rest f
  | steps + 1, cs, f =>
    let plain := cs.takeWhile fun c => c ≠ '\\' && c ≠ '%'
    formatOnce steps (cs.drop plain.length) (f.emit plain)

/-- Follows a format as often as there are arguments for it, at most `times` times. -/
def formatAll (format : Bytes) : Nat → Formatting → Formatting
  | 0, f => f
  | times + 1, f =>
    let count := f.args.length
    let f := formatOnce (format.length + 1) format f
    if f.ended || f.broken.isSome || f.args.isEmpty || f.args.length = count then f
    else formatAll format times f

/-- What is printed for a format and its arguments, with what is wrong with them. -/
def Formatting.bytes (f : Formatting) : Bytes := f.printed.reverse.flatten

/-- Follows a format. -/
def format (pattern : Bytes) (args : List Bytes) : Formatting :=
  formatAll pattern (args.length + 1) { args }

end SmtCount.Simulation.Text
