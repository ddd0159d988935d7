import InterestDesk.Text.Utf8
/-!
# Utf16 — bytes as text in units of two

A unit is two bytes in one of two orders; a high surrogate and the low one behind it are one character.  Every byte
sequence can be read: a surrogate without its partner, or what is left at the end, is read as one replacement
character.
-/
namespace InterestDesk
namespace Text.Utf16

/-- Which byte of a unit comes first. -/
inductive ByteOrder where
  | lowFirst | highFirst
  deriving DecidableEq

/-- The unit of two bytes in the order they stand. -/
def ByteOrder.unit : ByteOrder → UInt8 → UInt8 → Nat
  | lowFirst, a, b => b.toNat * 0x100 + a.toNat
  | highFirst, a, b => a.toNat * 0x100 + b.toNat

def isHigh (unit : Nat) : Bool :=
  0xd800 ≤ unit && unit < 0xdc00

def isLow (unit : Nat) : Bool :=
  0xdc00 ≤ unit && unit < 0xe000

/-- A reader's state: the characters read, the last one first, the first byte of a unit, and a high surrogate. -/
structure Reader where
  read : List Char
  byte : Option UInt8
  high : Option Nat

namespace Reader

def empty : Reader :=
  ⟨[], none, none⟩

/-- Reads a unit that no high surrogate stands before. -/
def start (read : List Char) (unit : Nat) : Reader :=
  if isHigh unit then ⟨read, none, some unit⟩
  else if isLow unit then ⟨Utf8.replacement :: read, none, none⟩
  else ⟨Char.ofNat unit :: read, none, none⟩

def stepUnit (r : Reader) (unit : Nat) : Reader :=
  match r.high with
  | none => start r.read unit
  | some high =>
    if isLow unit then ⟨Char.ofNat (0x10000 + (high - 0xd800) * 0x400 + (unit - 0xdc00)) :: r.read, none, none⟩
    else start (Utf8.replacement :: r.read) unit

def step (order : ByteOrder) (r : Reader) (b : UInt8) : Reader :=
  match r.byte with
  | none => { r with byte := some b }
  | some a => r.stepUnit (order.unit a b)

/-- The text read; what is left of a unit or of a pair is broken off. -/
def finish (r : Reader) : List Char :=
  if r.byte.isSome || r.high.isSome then (Utf8.replacement :: r.read).reverse else r.read.reverse

end Reader

/-- Reads bytes as text, with a replacement character for what is none. -/
def decode (order : ByteOrder) (bytes : Bytes) : List Char :=
  (bytes.foldl (Reader.step order) Reader.empty).finish

end Text.Utf16
end InterestDesk
