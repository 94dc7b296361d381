import Offside.Text.Quoted

/-!
# Texts from bytes

Reading a text from its UTF-8 bytes, one byte at a time. Between two bytes the reader knows the
bytes of the character that it is in, how many more it needs, and within which bounds the next one
lies. Bytes that form no character are reported with their position.
-/

namespace Offside.Text

/-- Why bytes form no character. -/
inductive Utf8Cause where
  /-- No character starts with this byte. -/
  | start
  /-- The character does not go on like this. -/
  | continuation
  /-- The bytes end within a character. -/
  | ending
  deriving DecidableEq

/-- What is said about a cause. -/
def Utf8Cause.text : Utf8Cause → String
  | start => "invalid start byte"
  | continuation => "invalid continuation byte"
  | ending => "unexpected end of data"

/-- The first bytes that form no character. -/
structure Utf8Flaw where
  /-- Position of the first of them. -/
  position : Nat
  /-- The first of them. -/
  first : UInt8
  /-- How many they are. -/
  count : Nat
  /-- Why they form no character. -/
  cause : Utf8Cause
  deriving DecidableEq

/-- What is said about a flaw. -/
def Utf8Flaw.message (flaw : Utf8Flaw) : String :=
  let bytes :=
    if flaw.count = 1 then
      "byte 0x" ++ hexadecimal 2 flaw.first.toNat ++ " in position " ++ toString flaw.position
    else
      "bytes in position " ++ toString flaw.position ++ "-" ++
        toString (flaw.position + flaw.count - 1)
  "'utf-8' codec can't decode " ++ bytes ++ ": " ++ flaw.cause.text

/-- A character of which some bytes are read. -/
structure Utf8Partial where
  /-- The first byte. -/
  first : UInt8
  /-- How many bytes are read. -/
  count : Nat
  /-- The bits read. -/
  bits : Nat
  /-- How many bytes are missing. -/
  missing : Nat
  /-- The least value of the next byte. -/
  low : UInt8
  /-- The greatest value of the next byte. -/
  high : UInt8

/-- Begin a character of several bytes; `none` if none starts with this byte. -/
def Utf8Partial.begin? (byte : UInt8) : Option Utf8Partial :=
  if 0xC2 ≤ byte ∧ byte ≤ 0xDF then some ⟨byte, 1, byte.toNat - 0xC0, 1, 0x80, 0xBF⟩
  else if 0xE0 ≤ byte ∧ byte ≤ 0xEF then
    some ⟨byte, 1, byte.toNat - 0xE0, 2, if byte = 0xE0 then 0xA0 else 0x80,
      if byte = 0xED then 0x9F else 0xBF⟩
  else if 0xF0 ≤ byte ∧ byte ≤ 0xF4 then
    some ⟨byte, 1, byte.toNat - 0xF0, 3, if byte = 0xF0 then 0x90 else 0x80,
      if byte = 0xF4 then 0x8F else 0xBF⟩
  else none

/-- Go on with a byte within the bounds. -/
def Utf8Partial.next (state : Utf8Partial) (byte : UInt8) : Utf8Partial :=
  ⟨state.first, state.count + 1, state.bits * 64 + (byte.toNat - 0x80), state.missing - 1, 0x80,
    0xBF⟩

/-- The flaw of a character that breaks off before the byte at `position`. -/
def Utf8Partial.flaw (state : Utf8Partial) (position : Nat) (cause : Utf8Cause) : Utf8Flaw :=
  ⟨position - state.count, state.first, state.count, cause⟩

/-- Read on at `position`, in the middle of a character or between two; the characters read so far
are `done`, the latest first. -/
def readUtf8 (position : Nat) (done : List Char) (state : Option Utf8Partial) :
    List UInt8 → Except Utf8Flaw (List Char)
  | [] =>
    match state with
    | none => .ok done.reverse
    | some state => .error (state.flaw position .ending)
  | byte :: rest =>
    match state with
    | none =>
      if byte < 0x80 then readUtf8 (position + 1) (Char.ofNat byte.toNat :: done) none rest
      else
        match Utf8Partial.begin? byte with
        | none => .error ⟨position, byte, 1, .start⟩
        | some state => readUtf8 (position + 1) done (some state) rest
    | some state =>
      if state.low ≤ byte ∧ byte ≤ state.high then
        let state := state.next byte
        if state.missing = 0 then
          readUtf8 (position + 1) (Char.ofNat state.bits :: done) none rest
        else readUtf8 (position + 1) done (some state) rest
      else .error (state.flaw position .continuation)

/-- The text that bytes encode. -/
def ofUtf8 (bytes : ByteArray) : Except Utf8Flaw (List Char) := readUtf8 0 [] none bytes.toList

end Offside.Text
