set_option autoImplicit false

/-!
Text as bytes. Decoding stops at the first byte that no character can account for, and says where
it stands and how many bytes were wrong, or that the bytes end in the middle of a character.
-/

namespace Intake.Text.Utf8

/-- Why bytes are no text: the characters up to `validUpTo` are sound; `wrong` counts the bytes of
the broken character, and is absent when the bytes end before it is complete. -/
structure Fault where
  validUpTo : Nat
  wrong : Option Nat
  deriving DecidableEq, Repr, Inhabited

def Fault.message (fault : Fault) : String :=
  match fault.wrong with
  | some n => s!"invalid utf-8 sequence of {n} bytes from index {fault.validUpTo}"
  | none => s!"incomplete utf-8 byte sequence from index {fault.validUpTo}"

inductive Step where
  | char (c : Char) (rest : List UInt8)
  | wrong (count : Nat)
  | incomplete
  deriving Inhabited

def isTail (b : UInt8) : Bool := 0x80 ≤ b && b ≤ 0xBF

def tailBits (b : UInt8) : Nat := b.toNat % 64

/-- The bytes that may stand second after a leading byte of a three-byte character. -/
def secondOfThree (lead b : UInt8) : Bool :=
  if lead == 0xE0 then 0xA0 ≤ b && b ≤ 0xBF
  else if lead == 0xED then 0x80 ≤ b && b ≤ 0x9F
  else isTail b

/-- The bytes that may stand second after a leading byte of a four-byte character. -/
def secondOfFour (lead b : UInt8) : Bool :=
  if lead == 0xF0 then 0x90 ≤ b && b ≤ 0xBF
  else if lead == 0xF4 then 0x80 ≤ b && b ≤ 0x8F
  else isTail b

def twoBytes (lead : UInt8) : List UInt8 → Step
  | [] => .incomplete
  | b :: rest =>
    if isTail b then .char (Char.ofNat (lead.toNat % 32 * 64 + tailBits b)) rest else .wrong 1

def threeBytes (lead : UInt8) : List UInt8 → Step
  | [] => .incomplete
  | b :: rest =>
    if !secondOfThree lead b then .wrong 1
    else match rest with
      | [] => .incomplete
      | c :: rest =>
        if isTail c then
          .char (Char.ofNat (lead.toNat % 16 * 4096 + tailBits b * 64 + tailBits c)) rest
        else .wrong 2

def fourBytes (lead : UInt8) : List UInt8 → Step
  | [] => .incomplete
  | b :: rest =>
    if !secondOfFour lead b then .wrong 1
    else match rest with
      | [] => .incomplete
      | c :: rest =>
        if !isTail c then .wrong 2
        else match rest with
          | [] => .incomplete
          | d :: rest =>
            if isTail d then
              .char (Char.ofNat (lead.toNat % 8 * 262144 + tailBits b * 4096 + tailBits c * 64
                + tailBits d)) rest
            else .wrong 3

/-- The first character of bytes that begin with `lead`. -/
def step (lead : UInt8) (rest : List UInt8) : Step :=
  if lead < 0x80 then .char (Char.ofNat lead.toNat) rest
  else if 0xC2 ≤ lead && lead ≤ 0xDF then twoBytes lead rest
  else if 0xE0 ≤ lead && lead ≤ 0xEF then threeBytes lead rest
  else if 0xF0 ≤ lead && lead ≤ 0xF4 then fourBytes lead rest
  else .wrong 1

/-- Reads characters until the bytes end; `fuel` is at least the number of bytes, and `index` is
where they begin in the whole. -/
def decodeFrom : (fuel index : Nat) → List UInt8 → Except Fault (List Char)
  | _, _, [] => .ok []
  | 0, index, _ :: _ => .error ⟨index, none⟩
  | fuel + 1, index, lead :: rest =>
    match step lead rest with
    | .char c rest => (decodeFrom fuel (index + c.utf8Size) rest).map (c :: ·)
    | .wrong n => .error ⟨index, some n⟩
    | .incomplete => .error ⟨index, none⟩

def decode (bytes : List UInt8) : Except Fault (List Char) := decodeFrom bytes.length 0 bytes

def encode (chars : List Char) : List UInt8 := chars.flatMap String.utf8EncodeChar

end Intake.Text.Utf8
