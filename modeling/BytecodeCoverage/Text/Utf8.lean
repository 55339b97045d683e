-- SUMMARY: Reading text from UTF-8, strictly or with a mark in place of each ill-formed part.
import BytecodeCoverage.Decimal.Hex

/-!
# UTF-8

The bytes are read one at a time. Between two characters nothing is owed; after the first byte of
a longer character some continuation bytes are owed, and the first of them has a range that
excludes overlong forms, surrogates and code points past the last.

A byte that does not fit ends what was begun. What was begun is then one ill-formed part, and the
byte is looked at again as the start of a character. So an ill-formed part is as long as a
beginning of a character can be, and each of them counts once.
-/

namespace BytecodeCoverage.Text.Utf8

/-- A character of which some bytes have been read. -/
structure Begun where
  /-- The bits read so far. -/
  value : Nat
  /-- How many bytes have been read. -/
  taken : Nat
  /-- How many bytes are owed. -/
  owed : Nat
  /-- The range of the next byte. -/
  low : Nat
  high : Nat
  deriving Repr, DecidableEq

/-- Why bytes are not well formed. -/
inductive Cause where
  | noStart
  | noContinuation
  | truncated
  deriving Repr, DecidableEq

/-- A character, or bytes from an offset on that are none. -/
inductive Part where
  | char (c : Char)
  | illFormed (offset length : Nat) (cause : Cause)
  deriving Repr, DecidableEq

/-- What a first byte is: a whole character, the beginning of one, or neither. -/
def first (b : Nat) : Option (Char ⊕ Begun) :=
  if b < 0x80 then some (.inl (Char.ofNat b))
  else if b < 0xC2 then none
  else if b < 0xE0 then some (.inr ⟨b - 0xC0, 1, 1, 0x80, 0xBF⟩)
  else if b = 0xE0 then some (.inr ⟨0, 1, 2, 0xA0, 0xBF⟩)
  else if b = 0xED then some (.inr ⟨0xD, 1, 2, 0x80, 0x9F⟩)
  else if b < 0xF0 then some (.inr ⟨b - 0xE0, 1, 2, 0x80, 0xBF⟩)
  else if b = 0xF0 then some (.inr ⟨0, 1, 3, 0x90, 0xBF⟩)
  else if b < 0xF4 then some (.inr ⟨b - 0xF0, 1, 3, 0x80, 0xBF⟩)
  else if b = 0xF4 then some (.inr ⟨4, 1, 3, 0x80, 0x8F⟩)
  else none

structure State where
  offset : Nat := 0
  begun : Option Begun := none
  /-- The parts that are complete, latest first. -/
  done : List Part := []
  deriving Repr, DecidableEq

/-- Take a byte between two characters. -/
def State.start (s : State) (b : Nat) : State :=
  match first b with
  | some (.inl c) => ⟨s.offset + 1, none, .char c :: s.done⟩
  | some (.inr begun) => ⟨s.offset + 1, some begun, s.done⟩
  | none => ⟨s.offset + 1, none, .illFormed s.offset 1 .noStart :: s.done⟩

/-- Give up what was begun. -/
def State.giveUp (s : State) (cause : Cause) : State :=
  match s.begun with
  | none => s
  | some begun =>
    { s with
      begun := none
      done := .illFormed (s.offset - begun.taken) begun.taken cause :: s.done }

def State.step (s : State) (byte : UInt8) : State :=
  let b := byte.toNat
  match s.begun with
  | none => s.start b
  | some begun =>
    if begun.low ≤ b ∧ b ≤ begun.high then
      let value := begun.value * 64 + b % 64
      if begun.owed = 1 then ⟨s.offset + 1, none, .char (Char.ofNat value) :: s.done⟩
      else ⟨s.offset + 1, some ⟨value, begun.taken + 1, begun.owed - 1, 0x80, 0xBF⟩, s.done⟩
    else (s.giveUp .noContinuation).start b

/-- The characters and the ill-formed parts of some bytes. -/
def parts (bytes : List UInt8) : List Part :=
  ((bytes.foldl State.step {}).giveUp .truncated).done.reverse

/-- The text, with U+FFFD for each ill-formed part. -/
def decodeLossy (bytes : List UInt8) : List Char :=
  (parts bytes).map fun
    | .char c => c
    | .illFormed .. => '\uFFFD'

/-- The first ill-formed part. -/
structure Fault where
  offset : Nat
  bytes : List UInt8
  cause : Cause
  deriving Repr, DecidableEq

def Cause.message : Cause → String
  | .noStart => "invalid start byte"
  | .noContinuation => "invalid continuation byte"
  | .truncated => "unexpected end of data"

def Fault.message (f : Fault) : String :=
  let place := match f.bytes with
    | [b] => "byte 0x" ++ String.ofList (hexDigits 2 b.toNat) ++ " in position " ++
        toString f.offset
    | bytes => "bytes in position " ++ toString f.offset ++ "-" ++
        toString (f.offset + bytes.length - 1)
  "'utf-8' codec can't decode " ++ place ++ ": " ++ f.cause.message

/-- The text, if all of it is well formed. -/
def decode (bytes : List UInt8) : Except Fault (List Char) :=
  (parts bytes).mapM fun
    | .char c => .ok c
    | .illFormed offset length cause => .error ⟨offset, (bytes.drop offset).take length, cause⟩

end BytecodeCoverage.Text.Utf8
