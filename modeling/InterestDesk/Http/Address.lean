import InterestDesk.Decimal.Fixed
/-!
# Address — the text of an internet address

An IPv4 address is four numbers with points between them.  An IPv6 address is eight groups in hexadecimal with colons
between them, its first longest run of at least two zero groups written as `::`; an address that carries an IPv4 one
ends in the text of that.
-/
namespace InterestDesk
namespace Http

inductive Address where
  | v4 (bytes : Vector UInt8 4)
  | v6 (groups : Vector UInt16 8)
  deriving DecidableEq

namespace Address

def joined (separator : Char) : List (List Char) → List Char
  | [] => []
  | [s] => s
  | s :: rest => s ++ separator :: joined separator rest

def dotted (bytes : List UInt8) : List Char :=
  joined '.' (bytes.map fun b => Decimal.digits b.toNat)

def hexGroups (groups : List UInt16) : List Char :=
  joined ':' (groups.map fun g => Nat.toDigits 16 g.toNat)

/-- Where the first longest run of zero groups starts, and its length. -/
def longestZeros : List UInt16 → Nat × Nat
  | [] => (0, 0)
  | g :: rest =>
    let here := ((g :: rest).takeWhile (· == 0)).length
    let (start, length) := longestZeros rest
    if length ≤ here then (0, here) else (start + 1, length)

/-- The groups with their longest run of zeros left out, if it is longer than one. -/
def compressed (groups : List UInt16) : List Char :=
  let (start, length) := longestZeros groups
  if 1 < length then hexGroups (groups.take start) ++ ':' :: ':' :: hexGroups (groups.drop (start + length))
  else hexGroups groups

def mapped? : List UInt16 → Option (List UInt8)
  | [0, 0, 0, 0, 0, 0xffff, a, b] => some [(a >>> 8).toUInt8, a.toUInt8, (b >>> 8).toUInt8, b.toUInt8]
  | _ => none

def chars : Address → List Char
  | v4 bytes => dotted bytes.toList
  | v6 groups =>
    match mapped? groups.toList with
    | some bytes => "::ffff:".toList ++ dotted bytes
    | none => compressed groups.toList

def text (a : Address) : String :=
  String.ofList a.chars

end Address
end Http
end InterestDesk
