/-!
# Reading UTF-8

A byte sequence is read from the front. Where it is malformed, the fault names the bytes that start
a character wrongly, break off inside one, or end before one is complete.
-/

namespace ContextLint.Text

/-- What is wrong with the bytes. -/
inductive DecodeCause where
  /-- No character starts with this byte. -/
  | invalidStart
  /-- A character is not continued. -/
  | invalidContinuation
  /-- The bytes end inside a character. -/
  | unexpectedEnd
  deriving DecidableEq, Repr, Inhabited

/-- A malformed byte sequence. -/
structure DecodeFault where
  /-- What is wrong. -/
  cause : DecodeCause
  /-- The first byte at fault. -/
  byte : UInt8
  position : Nat
  /-- How many bytes are at fault. -/
  count : Nat
  deriving DecidableEq, Repr, Inhabited

/-- The cause in words. -/
def DecodeCause.text : DecodeCause → String
  | invalidStart => "invalid start byte"
  | invalidContinuation => "invalid continuation byte"
  | unexpectedEnd => "unexpected end of data"

/-- The fault as text. -/
def DecodeFault.message (f : DecodeFault) : String :=
  let digits := String.ofList (Nat.toDigits 16 f.byte.toNat)
  let place :=
    if f.count = 1 then "byte 0x" ++ (if f.byte < 16 then "0" else "") ++ digits ++
      " in position " ++ toString f.position
    else "bytes in position " ++ toString f.position ++ "-" ++
      toString (f.position + f.count - 1)
  "'utf-8' codec can't decode " ++ place ++ ": " ++ f.cause.text

/-- The byte continues a character. -/
def isContinuation (b : UInt8) : Bool := 0x80 ≤ b && b < 0xC0

/-- The second byte may follow the first: it continues a character, and the two start neither an
overlong form, nor a surrogate, nor a number beyond the last code point. -/
def maySecond (first second : UInt8) : Bool :=
  isContinuation second &&
    !(first == 0xE0 && second < 0xA0) && !(first == 0xED && 0xA0 ≤ second) &&
    !(first == 0xF0 && second < 0x90) && !(first == 0xF4 && 0x90 ≤ second)

/-- The six bits that a continuation byte adds. -/
def addBits (n : Nat) (b : UInt8) : Nat := n * 64 + (b.toNat - 0x80)

/-- Read the bytes from a position on, behind the characters `done`, which are in reverse. -/
def decodeOnto (done : List Char) (pos : Nat) : List UInt8 → Except DecodeFault (List Char)
  | [] => .ok done.reverse
  | b :: rest =>
    let fault (cause : DecodeCause) (count : Nat) : Except DecodeFault (List Char) :=
      .error ⟨cause, b, pos, count⟩
    if b < 0x80 then decodeOnto (Char.ofNat b.toNat :: done) (pos + 1) rest
    else if b < 0xC2 || 0xF5 ≤ b then fault .invalidStart 1
    else
      match rest with
      | [] => fault .unexpectedEnd 1
      | c :: rest =>
        if !maySecond b c then fault .invalidContinuation 1
        else if b < 0xE0 then
          decodeOnto (Char.ofNat (addBits (b.toNat - 0xC0) c) :: done) (pos + 2) rest
        else
          match rest with
          | [] => fault .unexpectedEnd 2
          | d :: rest =>
            if !isContinuation d then fault .invalidContinuation 2
            else if b < 0xF0 then
              decodeOnto (Char.ofNat (addBits (addBits (b.toNat - 0xE0) c) d) :: done) (pos + 3)
                rest
            else
              match rest with
              | [] => fault .unexpectedEnd 3
              | e :: rest =>
                if !isContinuation e then fault .invalidContinuation 3
                else
                  let n := addBits (addBits (addBits (b.toNat - 0xF0) c) d) e
                  decodeOnto (Char.ofNat n :: done) (pos + 4) rest

/-- The characters that bytes stand for. -/
def decode (bytes : List UInt8) : Except DecodeFault (List Char) := decodeOnto [] 0 bytes

end ContextLint.Text
