import InterestDesk.Http.UrlEncoded
import InterestDesk.Proofs.Text.Utf8
/-!
# UrlEncodedForm — pairs written in one line

Letters, digits and a few marks are kept, a space is a plus, and every other byte is `%` with two digits.  No name or
value so written holds a separator, and the pairs are read back as they were (`pairs_write`).
-/
namespace InterestDesk
namespace Http.UrlEncoded

/-- Whether a byte is written as it is. -/
def isKept (b : UInt8) : Bool :=
  (Char.ofNat b.toNat).isAlphanum || "*-._".toList.contains (Char.ofNat b.toNat)

def hexDigit (n : UInt8) : UInt8 :=
  if n < 10 then 0x30 + n else 0x37 + n

def escapeByte (b : UInt8) : Bytes :=
  if isKept b then [b]
  else if b == 0x20 then [0x2b]
  else [0x25, hexDigit (b / 16), hexDigit (b % 16)]

def escape (bytes : Bytes) : Bytes :=
  bytes.flatMap escapeByte

def writePair (pair : String × String) : Bytes :=
  escape (Text.Utf8.ofString pair.1) ++ 0x3d :: escape (Text.Utf8.ofString pair.2)

/-- A list of pairs as a body. -/
def write (pairs : List (String × String)) : Bytes :=
  [0x26].intercalate (pairs.map writePair)

theorem not_mem_escapeByte : ∀ b : UInt8, 0x26 ∉ escapeByte b ∧ 0x3d ∉ escapeByte b :=
  forall_byte (by decide +kernel)

theorem hexValue?_high : ∀ b : UInt8, hexValue? (hexDigit (b / 16)) = some (b / 16) :=
  forall_byte (by decide +kernel)

theorem hexValue?_low : ∀ b : UInt8, hexValue? (hexDigit (b % 16)) = some (b % 16) :=
  forall_byte (by decide +kernel)

theorem ne_of_isKept : ∀ b : UInt8, isKept b = true → b ≠ 0x25 ∧ b ≠ 0x2b :=
  forall_byte (by decide +kernel)

theorem div_mod_byte : ∀ b : UInt8, b / 16 * 16 + b % 16 = b :=
  forall_byte (by decide +kernel)

theorem unescapeOnto_escapeByte (done : Bytes) (b : UInt8) (rest : Bytes) :
    unescapeOnto done (escapeByte b ++ rest) = unescapeOnto (b :: done) rest := by
  unfold escapeByte
  split
  · rename_i hkept
    obtain ⟨hpercent, hplus⟩ := ne_of_isKept b hkept
    show unescapeOnto done (b :: rest) = _
    rw [unescapeOnto]
    · exact fun _ _ _ h _ => hpercent h
    · exact hplus
  · split
    · rename_i hspace
      rw [beq_iff_eq.1 hspace]
      rfl
    · show unescapeOnto done (0x25 :: hexDigit (b / 16) :: hexDigit (b % 16) :: rest) = _
      rw [unescapeOnto, hexValue?_high, hexValue?_low]
      dsimp only
      rw [div_mod_byte]

theorem unescape_escape (bytes : Bytes) : unescape (escape bytes) = bytes := by
  have honto : ∀ done, unescapeOnto done (escape bytes) = done.reverse ++ bytes := by
    induction bytes with
    | nil => exact fun done => (List.append_nil _).symm
    | cons b bytes ih =>
      intro done
      show unescapeOnto done (escapeByte b ++ escape bytes) = _
      rw [unescapeOnto_escapeByte, ih, List.reverse_cons, List.append_assoc]
      rfl
  exact honto []

theorem component_escape (s : String) : component (escape (Text.Utf8.ofString s)) = s := by
  unfold component Text.Utf8.ofString
  rw [unescape_escape, Text.Utf8.decode_encode, String.ofList_toList]

theorem not_mem_escape (bytes : Bytes) : 0x26 ∉ escape bytes ∧ 0x3d ∉ escape bytes := by
  constructor <;> intro h <;> obtain ⟨b, -, hb⟩ := List.mem_flatMap.1 h
  · exact (not_mem_escapeByte b).1 hb
  · exact (not_mem_escapeByte b).2 hb

theorem pair_writePair (p : String × String) : pair (writePair p) = p := by
  have hname : ∀ b ∈ escape (Text.Utf8.ofString p.1), (b != 0x3d) = true := by
    intro b hb
    rw [bne_iff_ne]
    rintro rfl
    exact (not_mem_escape _).2 hb
  unfold pair writePair
  rw [List.takeWhile_append_of_pos hname, List.dropWhile_append_of_pos hname]
  show (component (escape _ ++ []), component (escape _)) = p
  rw [List.append_nil, component_escape, component_escape]

/-- **The pairs written are the pairs read**, in their order and with repeated names. -/
theorem pairs_write (ps : List (String × String)) : pairs (write ps) = ps := by
  have hapart : ∀ piece ∈ ps.map writePair, 0x26 ∉ piece := by
    intro piece hpiece
    obtain ⟨p, -, rfl⟩ := List.mem_map.1 hpiece
    unfold writePair
    rw [List.mem_append, List.mem_cons]
    rintro (h | h | h)
    · exact (not_mem_escape _).1 h
    · cases h
    · exact (not_mem_escape _).1 h
  have hsome : ∀ piece ∈ ps.map writePair, (!piece.isEmpty) = true := by
    intro piece hpiece
    obtain ⟨p, -, rfl⟩ := List.mem_map.1 hpiece
    simp [writePair]
  cases ps with
  | nil => rfl
  | cons p ps =>
    unfold pairs write
    rw [List.splitOn_intercalate _ hapart (List.cons_ne_nil _ _), List.filter_eq_self.2 hsome, List.map_map]
    exact List.map_id'' pair_writePair _

end Http.UrlEncoded
end InterestDesk
