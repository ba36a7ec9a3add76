/-!
# Bytes

What programs exchange is bytes, not characters.  A byte is kept as the character with its code, so
that the functions on characters serve for bytes as well.

## Main definitions

* `Bytes` — texts made of bytes.
* `bytesOf`, `byteArrayOf` — the bytes of a text, and bytes as they leave the library.
-/

namespace SmtCount.Simulation

/-- A text made of bytes, each kept as the character with its code. -/
abbrev Bytes := List Char

/-- Compares texts byte by byte. -/
def compareBytes : Bytes → Bytes → Ordering
  | [], [] => .eq
  | [], _ :: _ => .lt
  | _ :: _, [] => .gt
  | c :: cs, d :: ds => if c = d then compareBytes cs ds else if c < d then .lt else .gt

/-- The byte with a number, which counts modulo 256. -/
def byteOf (n : Nat) : Char := Char.ofNat (n % 256)

/-- The bytes of a text. -/
def bytesOf (s : String) : Bytes :=
  s.toUTF8.toList.map fun b => Char.ofNat b.toNat

/-- Bytes as they leave the library. -/
def byteArrayOf (bs : Bytes) : ByteArray :=
  ⟨(bs.map fun c => UInt8.ofNat c.toNat).toArray⟩

/-- A number in decimal digits. -/
def decimal (n : Nat) : Bytes := Nat.toDigits 10 n

end SmtCount.Simulation
