import InterestDesk.Text.Utf8
/-!
# AsciiBased — ASCII and white space in older charsets

The charsets here have the ASCII characters under their own codes and all others under spellings of their own.  Of
those only the white space is told apart, for numbers and labels are made of ASCII and may stand between white space;
any other character is read as the replacement character, which is in no number and in no label.
-/
namespace InterestDesk
namespace Text.AsciiBased

/-- A character and the bytes it is written with. -/
structure Spelling where
  char : Char
  bytes : Bytes
  deriving DecidableEq

/-- `decode` on the rest of a text, with the characters before it in reverse and `skip` bytes of the last one left. -/
def decodeOnto (blanks : List Spelling) (done : List Char) : (skip : Nat) → Bytes → List Char
  | _, [] => done.reverse
  | skip + 1, _ :: rest => decodeOnto blanks done skip rest
  | 0, b :: rest =>
    if b < 0x80 then decodeOnto blanks (Char.ofNat b.toNat :: done) 0 rest
    else
      match blanks.find? (·.bytes.isPrefixOf (b :: rest)) with
      | some s => decodeOnto blanks (s.char :: done) (s.bytes.length - 1) rest
      | none => decodeOnto blanks (Utf8.replacement :: done) 0 rest

/-- Reads bytes in a charset that spells its white space past ASCII as `blanks` says. -/
def decode (blanks : List Spelling) (bytes : Bytes) : List Char :=
  decodeOnto blanks [] 0 bytes

theorem decodeOnto_ascii (blanks : List Spelling) (bytes : Bytes) (h : ∀ b ∈ bytes, b < 0x80) :
    ∀ done, decodeOnto blanks done 0 bytes = done.reverse ++ bytes.map fun b => Char.ofNat b.toNat := by
  induction bytes with
  | nil => simp [decodeOnto]
  | cons b bytes ih =>
    intro done
    rw [decodeOnto, if_pos (h b List.mem_cons_self), ih fun b hb => h b (List.mem_cons_of_mem _ hb)]
    simp

theorem decode_ascii (blanks : List Spelling) (bytes : Bytes) (h : ∀ b ∈ bytes, b < 0x80) :
    decode blanks bytes = bytes.map fun b => Char.ofNat b.toNat := by
  simp [decode, decodeOnto_ascii blanks bytes h]

/-- The sets of characters that the escapes of ISO-2022-JP switch to. -/
inductive EscapedSet where
  | ascii | roman | kana | pairs
  deriving DecidableEq

/-- The set that two bytes behind an escape switch to. -/
def switched? : UInt8 → UInt8 → Option EscapedSet
  | 0x28, 0x42 => some .ascii
  | 0x28, 0x4a => some .roman
  | 0x28, 0x49 => some .kana
  | 0x24, 0x40 => some .pairs
  | 0x24, 0x42 => some .pairs
  | _, _ => none

/-- The character of one byte; the Roman set has two signs of its own, and a shift code stands for none. -/
def EscapedSet.char (set : EscapedSet) (b : UInt8) : Char :=
  if 0x80 ≤ b || b == 0x0e || b == 0x0f then Utf8.replacement
  else match set with
    | ascii => Char.ofNat b.toNat
    | roman => if b == 0x5c || b == 0x7e then Utf8.replacement else Char.ofNat b.toNat
    | _ => Utf8.replacement

/-- `decodeIso2022Jp` on the rest of a text in a set, with the characters before it in reverse; `fresh` says that
nothing was read since the last escape. -/
def decodeEscapedOnto (done : List Char) (set : EscapedSet) (fresh : Bool) : Bytes → List Char
  | [] => done.reverse
  | 0x1b :: a :: b :: rest =>
    match switched? a b with
    | some set => decodeEscapedOnto (if fresh then Utf8.replacement :: done else done) set true rest
    | none => decodeEscapedOnto (Utf8.replacement :: done) set false (a :: b :: rest)
  | 0x1b :: rest => decodeEscapedOnto (Utf8.replacement :: done) set false rest
  | 0x21 :: 0x21 :: rest =>
    if set = .pairs then decodeEscapedOnto ('\u3000' :: done) set false rest
    else decodeEscapedOnto (set.char 0x21 :: done) set false (0x21 :: rest)
  | b :: rest => decodeEscapedOnto (set.char b :: done) set false rest

/-- Reads bytes in ISO-2022-JP, which begins in ASCII. -/
def decodeIso2022Jp (bytes : Bytes) : List Char :=
  decodeEscapedOnto [] .ascii false bytes

end Text.AsciiBased
end InterestDesk
