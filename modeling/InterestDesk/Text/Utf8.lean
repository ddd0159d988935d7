/-!
# Utf8 — bytes as text

Every byte sequence can be read: the longest start of a character that breaks off, or a byte that starts none, is read
as one replacement character.  The reader is a step function, so it also shows where a sequence stands.
-/
namespace InterestDesk

abbrev Bytes := List UInt8

namespace Text.Utf8

def encode (s : List Char) : Bytes :=
  s.flatMap String.utf8EncodeChar

def ofString (s : String) : Bytes :=
  encode s.toList

/-- What stands for bytes that are no character. -/
def replacement : Char :=
  '\uFFFD'

/-- A character begun: its bits so far, how many bytes it still lacks, and the range of the next one. -/
structure Begun where
  bits : Nat
  missing : Nat
  low : UInt8
  high : UInt8

/-- A reader's state: the characters read, the last one first, and the character begun. -/
structure Reader where
  read : List Char
  begun : Option Begun

namespace Reader

def empty : Reader :=
  ⟨[], none⟩

/-- Reads a byte where a character may start.  The ranges leave out surrogates, overlong forms and codes past the
last one. -/
def start (read : List Char) (b : UInt8) : Reader :=
  if b < 0x80 then ⟨Char.ofNat b.toNat :: read, none⟩
  else if b < 0xc2 then ⟨replacement :: read, none⟩
  else if b < 0xe0 then ⟨read, some ⟨b.toNat % 0x20, 1, 0x80, 0xbf⟩⟩
  else if b == 0xe0 then ⟨read, some ⟨0, 2, 0xa0, 0xbf⟩⟩
  else if b == 0xed then ⟨read, some ⟨0xd, 2, 0x80, 0x9f⟩⟩
  else if b < 0xf0 then ⟨read, some ⟨b.toNat % 0x10, 2, 0x80, 0xbf⟩⟩
  else if b == 0xf0 then ⟨read, some ⟨0, 3, 0x90, 0xbf⟩⟩
  else if b < 0xf4 then ⟨read, some ⟨b.toNat % 0x08, 3, 0x80, 0xbf⟩⟩
  else if b == 0xf4 then ⟨read, some ⟨4, 3, 0x80, 0x8f⟩⟩
  else ⟨replacement :: read, none⟩

def step (r : Reader) (b : UInt8) : Reader :=
  match r.begun with
  | none => start r.read b
  | some p =>
    if p.low ≤ b && b ≤ p.high then
      let bits := p.bits * 0x40 + b.toNat % 0x40
      if p.missing ≤ 1 then ⟨Char.ofNat bits :: r.read, none⟩
      else ⟨r.read, some ⟨bits, p.missing - 1, 0x80, 0xbf⟩⟩
    else start (replacement :: r.read) b

/-- The text read; a character still begun is broken off. -/
def finish (r : Reader) : List Char :=
  match r.begun with
  | none => r.read.reverse
  | some _ => (replacement :: r.read).reverse

end Reader

/-- Reads bytes as text, with a replacement character for what is none. -/
def decode (bytes : Bytes) : List Char :=
  (bytes.foldl Reader.step Reader.empty).finish

/-- Reads bytes as text only if they are one. -/
def decode? (bytes : Bytes) : Option (List Char) :=
  let text := decode bytes
  if encode text == bytes then some text else none

/-- Bytes are read as a text only if they are its bytes. -/
theorem encode_of_decode? {bytes : Bytes} {text : List Char} (h : decode? bytes = some text) : encode text = bytes := by
  simp only [decode?] at h
  split at h
  · rename_i hb
    cases h
    exact eq_of_beq hb
  · cases h

end Text.Utf8
end InterestDesk
