import InterestDesk.Text.Utf8
/-!
# Utf8 — a text is read back from its bytes

A character's bytes take the reader from one place where a character may start to the next (`foldl_encodeChar`), and
what is read does not hang on what was read before (`finish_foldl_behind`): every text is read back (`decode_encode`).
-/
namespace InterestDesk

/-- What holds of the 256 bytes holds of every byte. -/
theorem forall_byte {p : UInt8 → Prop} (h : ∀ n < 256, p (UInt8.ofNat n)) (b : UInt8) : p b := by
  rw [← UInt8.ofNat_toNat (x := b)]
  exact h b.toNat b.toNat_lt

namespace Text.Utf8

namespace Reader

theorem toNat_ofNat {n : Nat} (h : n < 0x100) : (UInt8.ofNat n).toNat = n := by
  rw [UInt8.toNat_ofNat', Nat.mod_eq_of_lt h]

theorem start_one (read : List Char) {n : Nat} (h : n < 0x80) :
    start read (UInt8.ofNat n) = ⟨Char.ofNat n :: read, none⟩ := by
  have hn := toNat_ofNat (Nat.lt_trans h (by decide))
  unfold start
  rw [if_pos (UInt8.lt_iff_toNat_lt.2 (by rw [hn]; exact h)), hn]

theorem start_two (read : List Char) {n : Nat} (h : 0xc2 ≤ n) (h' : n < 0xe0) :
    start read (UInt8.ofNat n) = ⟨read, some ⟨n % 0x20, 1, 0x80, 0xbf⟩⟩ := by
  have hn := toNat_ofNat (Nat.lt_trans h' (by decide))
  unfold start
  simp only [UInt8.lt_iff_toNat_lt, hn, UInt8.reduceToNat]
  rw [if_neg (by omega), if_neg (by omega), if_pos h']

theorem start_three (read : List Char) {n : Nat} (h : 0xe0 ≤ n) (h' : n < 0xf0) :
    start read (UInt8.ofNat n) =
      ⟨read, some ⟨n % 0x10, 2, if n = 0xe0 then 0xa0 else 0x80, if n = 0xed then 0x9f else 0xbf⟩⟩ := by
  have hn := toNat_ofNat (Nat.lt_trans h' (by decide))
  unfold start
  simp only [UInt8.lt_iff_toNat_lt, hn, UInt8.reduceToNat, beq_iff_eq, ← UInt8.toNat_inj]
  rw [if_neg (by omega), if_neg (by omega), if_neg (by omega), if_pos h']
  split
  · rename_i heq
    subst heq
    rfl
  · split
    · rename_i heq
      subst heq
      rfl
    · rfl

theorem start_four (read : List Char) {n : Nat} (h : 0xf0 ≤ n) (h' : n < 0xf5) :
    start read (UInt8.ofNat n) =
      ⟨read, some ⟨n % 0x08, 3, if n = 0xf0 then 0x90 else 0x80, if n = 0xf4 then 0x8f else 0xbf⟩⟩ := by
  have hn := toNat_ofNat (Nat.lt_trans h' (by decide))
  unfold start
  simp only [UInt8.lt_iff_toNat_lt, hn, UInt8.reduceToNat, beq_iff_eq, ← UInt8.toNat_inj]
  rw [if_neg (by omega), if_neg (by omega), if_neg (by omega), if_neg (by omega), if_neg (by omega), if_neg (by omega)]
  split
  · rename_i heq
    subst heq
    rfl
  · split
    · rw [if_neg (by omega)]
    · have heq : n = 0xf4 := by omega
      subst heq
      rfl

theorem step_begun (read : List Char) {bits missing n : Nat} {low high : UInt8} (hlow : low.toNat ≤ n)
    (hhigh : n ≤ high.toNat) :
    step ⟨read, some ⟨bits, missing, low, high⟩⟩ (UInt8.ofNat n) =
      if missing ≤ 1 then ⟨Char.ofNat (bits * 0x40 + n % 0x40) :: read, none⟩
      else ⟨read, some ⟨bits * 0x40 + n % 0x40, missing - 1, 0x80, 0xbf⟩⟩ := by
  have hn := toNat_ofNat (Nat.lt_of_le_of_lt hhigh high.toNat_lt)
  have hrange : (decide (low ≤ UInt8.ofNat n) && decide (UInt8.ofNat n ≤ high)) = true := by
    rw [Bool.and_eq_true, decide_eq_true_iff, decide_eq_true_iff, UInt8.le_iff_toNat_le, UInt8.le_iff_toNat_le, hn]
    exact ⟨hlow, hhigh⟩
  unfold step
  dsimp only
  rw [if_pos hrange, hn]

/-- **The bytes of a character are read as the character.** -/
theorem foldl_encodeChar (read : List Char) (c : Char) :
    (String.utf8EncodeChar c).foldl step ⟨read, none⟩ = ⟨c :: read, none⟩ := by
  have hvalid : c.toNat < 0xd800 ∨ 0xdfff < c.toNat ∧ c.toNat < 0x110000 := c.valid
  have hc := Char.ofNat_toNat c
  unfold String.utf8EncodeChar
  dsimp only
  rw [show c.val.toNat = c.toNat from rfl]
  generalize c.toNat = v at hvalid hc
  split
  · rename_i h
    show start read _ = _
    rw [start_one read (by omega), hc]
  have htail : ∀ w, (0x80 : UInt8).toNat ≤ w % 64 + 128 ∧ w % 64 + 128 ≤ (0xbf : UInt8).toNat := by
    intro w
    show 128 ≤ w % 64 + 128 ∧ w % 64 + 128 ≤ 191
    omega
  split
  · show step (start read _) _ = _
    rw [start_two read (by omega) (by omega), step_begun read (htail v).1 (htail v).2, if_pos (Nat.le_refl 1),
      show (v / 64 % 32 + 192) % 0x20 * 0x40 + (v % 64 + 128) % 0x40 = v by omega, hc]
  split
  -- The second byte has a narrower range behind 0xe0 (nothing overlong) and 0xed (no surrogate).
  · have hlow : (if v / 4096 % 16 + 224 = 0xe0 then 0xa0 else 0x80 : UInt8).toNat ≤ v / 64 % 64 + 128 := by
      simp only [apply_ite, UInt8.reduceToNat]
      split <;> omega
    have hhigh : v / 64 % 64 + 128 ≤ (if v / 4096 % 16 + 224 = 0xed then 0x9f else 0xbf : UInt8).toNat := by
      simp only [apply_ite, UInt8.reduceToNat]
      split <;> omega
    show step (step (start read _) _) _ = _
    rw [start_three read (by omega) (by omega), step_begun read hlow hhigh, if_neg (by decide),
      step_begun read (htail v).1 (htail v).2, if_pos (by decide),
      show ((v / 4096 % 16 + 224) % 0x10 * 0x40 + (v / 64 % 64 + 128) % 0x40) * 0x40 + (v % 64 + 128) % 0x40 = v by
        omega,
      hc]
  · have hlow : (if v / 262144 % 8 + 240 = 0xf0 then 0x90 else 0x80 : UInt8).toNat ≤ v / 4096 % 64 + 128 := by
      simp only [apply_ite, UInt8.reduceToNat]
      split <;> omega
    have hhigh : v / 4096 % 64 + 128 ≤ (if v / 262144 % 8 + 240 = 0xf4 then 0x8f else 0xbf : UInt8).toNat := by
      simp only [apply_ite, UInt8.reduceToNat]
      split <;> omega
    show step (step (step (start read _) _) _) _ = _
    rw [start_four read (by omega) (by omega), step_begun read hlow hhigh, if_neg (by decide),
      step_begun read (htail _).1 (htail _).2, if_neg (by decide), step_begun read (htail v).1 (htail v).2,
      if_pos (by decide),
      show (((v / 262144 % 8 + 240) % 0x08 * 0x40 + (v / 4096 % 64 + 128) % 0x40) * 0x40 + (v / 64 % 64 + 128) % 0x40) *
        0x40 + (v % 64 + 128) % 0x40 = v by omega, hc]

/-- A reader with characters read before its own. -/
def behind (r : Reader) (before : List Char) : Reader :=
  ⟨r.read ++ before, r.begun⟩

theorem start_behind (read before : List Char) (b : UInt8) :
    start (read ++ before) b = (start read b).behind before := by
  unfold start
  repeat' split
  all_goals rfl

theorem step_behind (r : Reader) (before : List Char) (b : UInt8) :
    (r.behind before).step b = (r.step b).behind before := by
  unfold step behind
  dsimp only
  split
  · exact start_behind r.read before b
  · split
    · split
      · rfl
      · rfl
    · exact start_behind (replacement :: r.read) before b

/-- **What is read does not hang on what was read before.** -/
theorem finish_foldl_behind (bytes : Bytes) (r : Reader) (before : List Char) :
    (bytes.foldl step (r.behind before)).finish = before.reverse ++ (bytes.foldl step r).finish := by
  induction bytes generalizing r with
  | nil =>
    show (r.behind before).finish = before.reverse ++ r.finish
    unfold finish behind
    dsimp only
    split
    · exact List.reverse_append
    · rw [← List.cons_append]
      exact List.reverse_append
  | cons b bytes ih => rw [List.foldl_cons, List.foldl_cons, step_behind, ih]

end Reader

theorem decode_cons {bytes : Bytes} {c : Char} (h : bytes.foldl Reader.step .empty = ⟨[c], none⟩) (rest : Bytes) :
    decode (bytes ++ rest) = c :: decode rest := by
  unfold decode
  rw [List.foldl_append, h]
  exact Reader.finish_foldl_behind rest .empty [c]

theorem decode_encodeChar (c : Char) (rest : Bytes) : decode (String.utf8EncodeChar c ++ rest) = c :: decode rest :=
  decode_cons (Reader.foldl_encodeChar [] c) rest

/-- **A text is read back from its bytes.** -/
theorem decode_encode (s : List Char) : decode (encode s) = s := by
  induction s with
  | nil => rfl
  | cons c s ih =>
    unfold encode at ih ⊢
    rw [List.flatMap_cons, decode_encodeChar, ih]

theorem decode?_encode (s : List Char) : decode? (encode s) = some s := by
  unfold decode?
  rw [decode_encode]
  exact if_pos (beq_self_eq_true _)

theorem encode_append (s t : List Char) : encode (s ++ t) = encode s ++ encode t :=
  List.flatMap_append

theorem encodeChar_of_lt {c : Char} (h : c.toNat < 0x80) : String.utf8EncodeChar c = [UInt8.ofNat c.toNat] := by
  unfold String.utf8EncodeChar
  exact if_pos (Nat.le_of_lt_succ h)

/-- No byte of a character outside ASCII is one of ASCII. -/
theorem le_of_mem_encodeChar {c : Char} (h : 0x80 ≤ c.toNat) {b : UInt8} (hb : b ∈ String.utf8EncodeChar c) :
    0x80 ≤ b.toNat := by
  have hmark : ∀ n, 0x80 ≤ n → n < 0x100 → 0x80 ≤ (UInt8.ofNat n).toNat := by
    intro n hle hlt
    rwa [Reader.toNat_ofNat hlt]
  have hvalid : c.toNat < 0x110000 := by
    rcases c.valid with hv | hv
    · exact Nat.lt_trans hv (by decide)
    · exact hv.2
  unfold String.utf8EncodeChar at hb
  rw [show c.val.toNat = c.toNat from rfl] at hb
  dsimp only at hb
  rw [if_neg (by omega)] at hb
  split at hb
  · simp only [List.mem_cons, List.not_mem_nil, or_false] at hb
    rcases hb with rfl | rfl <;> exact hmark _ (by omega) (by omega)
  split at hb
  · simp only [List.mem_cons, List.not_mem_nil, or_false] at hb
    rcases hb with rfl | rfl | rfl <;> exact hmark _ (by omega) (by omega)
  · simp only [List.mem_cons, List.not_mem_nil, or_false] at hb
    rcases hb with rfl | rfl | rfl | rfl <;> exact hmark _ (by omega) (by omega)

/-- A byte of ASCII among those of a text is one of its characters. -/
theorem mem_of_mem_encode {s : List Char} {b : UInt8} (hb : b.toNat < 0x80) (h : b ∈ encode s) :
    Char.ofNat b.toNat ∈ s := by
  obtain ⟨c, hc, hmem⟩ := List.mem_flatMap.1 h
  rcases Nat.lt_or_ge c.toNat 0x80 with hlow | hhigh
  · rw [encodeChar_of_lt hlow, List.mem_singleton] at hmem
    rwa [hmem, Reader.toNat_ofNat (Nat.lt_trans hlow (by decide)), Char.ofNat_toNat]
  · have := le_of_mem_encodeChar hhigh hmem
    omega

end Text.Utf8
end InterestDesk
