import Intake.Text.Digits
import Intake.Text.Utf8

set_option autoImplicit false

/-!
Percent escapes. Decoding resolves every well-formed escape and leaves the rest of the text as it
stands; encoding escapes every byte but the unreserved ones, and in a whole path the slash.
-/

namespace Intake.Text.Percent

/-- The byte that an escape at this place stands for, given the first byte and what follows. -/
def escaped? (b : UInt8) : List UInt8 → Option UInt8
  | high :: low :: _ =>
    if b == 0x25 then do
      let h ← Digits.hexValue? (Char.ofNat high.toNat)
      let l ← Digits.hexValue? (Char.ofNat low.toNat)
      return UInt8.ofNat (16 * h + l)
    else none
  | _ => none

/-- Resolves the escapes of a byte text; a percent sign without two hexadecimal digits stands for
itself. -/
def unescape : List UInt8 → List UInt8
  | [] => []
  | b :: rest =>
    match escaped? b rest with
    | some v => v :: unescape (rest.drop 2)
    | none => b :: unescape rest
  termination_by bytes => bytes.length
  decreasing_by
  · simp only [List.length_cons, List.length_drop]; omega
  · simp

def decode (text : List Char) : Except Utf8.Fault (List Char) :=
  Utf8.decode (unescape (Utf8.encode text))

/-- A byte that is written as it is in the path of an address. -/
def isUnreserved (b : UInt8) : Bool :=
  (0x30 ≤ b && b ≤ 0x39) || (0x41 ≤ b && b ≤ 0x5A) || (0x61 ≤ b && b ≤ 0x7A)
    || b == 0x2D || b == 0x2E || b == 0x5F || b == 0x7E

def upperHex (d : Nat) : Char := (Digits.char d).toUpper

def escape (b : UInt8) : List Char :=
  ['%', upperHex (b.toNat / 16), upperHex (b.toNat % 16)]

def encodeSegment (text : List Char) : List Char :=
  (Utf8.encode text).flatMap fun b => if isUnreserved b then [Char.ofNat b.toNat] else escape b

def encodePath (text : List Char) : List Char :=
  (Utf8.encode text).flatMap fun b =>
    if isUnreserved b || b == 0x2F then [Char.ofNat b.toNat] else escape b

end Intake.Text.Percent
