import InterestDesk.Http.Address
import InterestDesk.Proofs.Text.Cut
import Mathlib.Data.List.Basic
import Mathlib.Data.List.TakeWhile
/-!
# Address — no two addresses have one text

A text is taken apart where it was put together: at its separators (`splitOn_joined`), whose pieces are numbers, and at
the empty piece in the middle of a compressed address.  What stands on both sides of the gap is then known, and eight
groups less these is how long the run of zeros was (`compressed_injective`).  The three kinds of text differ in the
separators that they hold (`text_injective`).
-/
namespace InterestDesk
namespace Http.Address

section Numbers

/-- Digits in a base of at most sixteen are those of the hexadecimal alphabet. -/
theorem exists_digitChar {b n : Nat} (hb : 1 < b) (hb' : b ≤ 16) {c : Char} (h : c ∈ Nat.toDigits b n) :
    ∃ d < 16, c = Nat.digitChar d := by
  induction n using Nat.strongRecOn with
  | ind n ih =>
    rw [Nat.toDigits_eq_if hb] at h
    split at h
    · rename_i hlt
      exact ⟨n, Nat.lt_of_lt_of_le hlt hb', List.mem_singleton.1 h⟩
    · rename_i hge
      rcases List.mem_append.1 h with h | h
      · exact ih (n / b) (Nat.div_lt_self (by omega) hb) h
      · exact ⟨n % b, Nat.lt_of_lt_of_le (Nat.mod_lt n (by omega)) hb', List.mem_singleton.1 h⟩

theorem digitChar_ne_of_lt {c : Char} (hc : c = ':' ∨ c = '.' ∨ c = ',') {d : Nat} (hd : d < 16) :
    c ≠ Nat.digitChar d := by
  have hall : ∀ d : Fin 16, ':' ≠ Nat.digitChar d ∧ '.' ≠ Nat.digitChar d ∧ ',' ≠ Nat.digitChar d := by decide
  obtain ⟨hcolon, hpoint, hcomma⟩ := hall ⟨d, hd⟩
  rcases hc with rfl | rfl | rfl
  · exact hcolon
  · exact hpoint
  · exact hcomma

/-- The value of a digit of the hexadecimal alphabet. -/
def digitValue (c : Char) : Nat :=
  if c.isDigit then c.toNat - 48 else c.toNat - 87

/-- The number that digits write. -/
def number (base : Nat) (digits : List Char) : Nat :=
  digits.foldl (fun n c => n * base + digitValue c) 0

theorem digitValue_digitChar {d : Nat} (h : d < 16) : digitValue (Nat.digitChar d) = d := by
  have hall : ∀ d : Fin 16, digitValue (Nat.digitChar d) = d := by decide
  exact hall ⟨d, h⟩

/-- **The digits of a number write it.** -/
theorem number_toDigits {b : Nat} (hb : 1 < b) (hb' : b ≤ 16) (n : Nat) : number b (Nat.toDigits b n) = n := by
  induction n using Nat.strongRecOn with
  | ind n ih =>
    rw [Nat.toDigits_eq_if hb]
    split
    · rename_i hlt
      simpa [number] using digitValue_digitChar (Nat.lt_of_lt_of_le hlt hb')
    · have hhigh := ih (n / b) (Nat.div_lt_self (by omega) hb)
      have hlow : digitValue (Nat.digitChar (n % b)) = n % b :=
        digitValue_digitChar (Nat.lt_of_lt_of_le (Nat.mod_lt n (by omega)) hb')
      unfold number at hhigh ⊢
      rw [List.foldl_append, hhigh, List.foldl_cons, List.foldl_nil, hlow, Nat.div_add_mod']

theorem toDigits_injective {b : Nat} (hb : 1 < b) (hb' : b ≤ 16) : Function.Injective (Nat.toDigits b) :=
  Function.LeftInverse.injective (number_toDigits hb hb')

end Numbers

section Pieces

theorem joined_cons {separator : Char} {pieces : List (List Char)} (h : pieces ≠ []) (piece : List Char) :
    joined separator (piece :: pieces) = piece ++ separator :: joined separator pieces := by
  cases pieces with
  | nil => exact absurd rfl h
  | cons next rest => rfl

theorem joined_append {separator : Char} {pieces others : List (List Char)} (h : pieces ≠ []) (h' : others ≠ []) :
    joined separator (pieces ++ others) = joined separator pieces ++ separator :: joined separator others := by
  induction pieces with
  | nil => exact absurd rfl h
  | cons piece rest ih =>
    by_cases hrest : rest = []
    · subst hrest
      exact joined_cons h' piece
    · rw [List.cons_append, joined_cons (by simp [hrest]), ih hrest, joined_cons hrest, List.append_assoc]
      rfl

theorem mem_joined {separator c : Char} {pieces : List (List Char)} (h : c ∈ joined separator pieces) :
    c = separator ∨ ∃ piece ∈ pieces, c ∈ piece := by
  induction pieces with
  | nil => cases h
  | cons piece rest ih =>
    by_cases hrest : rest = []
    · subst hrest
      exact .inr ⟨piece, List.mem_cons_self, h⟩
    · rw [joined_cons hrest, List.mem_append, List.mem_cons] at h
      rcases h with h | rfl | h
      · exact .inr ⟨piece, List.mem_cons_self, h⟩
      · exact .inl rfl
      · exact (ih h).imp_right fun ⟨other, hother, hc⟩ => ⟨other, List.mem_cons_of_mem _ hother, hc⟩

theorem separator_mem_joined {separator : Char} {pieces : List (List Char)} (h : 2 ≤ pieces.length) :
    separator ∈ joined separator pieces := by
  match pieces, h with
  | piece :: next :: rest, _ =>
    rw [joined_cons (List.cons_ne_nil next rest)]
    exact List.mem_append_right _ List.mem_cons_self

theorem joined_eq_intercalate (separator : Char) (pieces : List (List Char)) :
    joined separator pieces = [separator].intercalate pieces := by
  induction pieces with
  | nil => rfl
  | cons piece rest ih =>
    cases rest with
    | nil => exact List.intercalate_singleton.symm
    | cons next rest =>
      rw [joined_cons (List.cons_ne_nil next rest), ih, List.intercalate_cons_cons, List.append_assoc]
      rfl

/-- **Joined pieces come apart again where they were joined.** -/
theorem splitOn_joined {separator : Char} {pieces : List (List Char)} (hne : pieces ≠ [])
    (h : ∀ piece ∈ pieces, separator ∉ piece) : (joined separator pieces).splitOn separator = pieces := by
  rw [joined_eq_intercalate]
  exact List.splitOn_intercalate separator h hne

theorem joined_map_injective {α : Type} {separator : Char} {write : α → List Char} (hwrite : Function.Injective write)
    (hsep : ∀ a, separator ∉ write a) {items others : List α} (hne : items ≠ []) (hne' : others ≠ [])
    (h : joined separator (items.map write) = joined separator (others.map write)) : items = others := by
  have hpieces {items : List α} (hne : items ≠ []) :
      (joined separator (items.map write)).splitOn separator = items.map write :=
    splitOn_joined (by simpa using hne) (List.forall_mem_map.2 fun a _ => hsep a)
  have hmap := congrArg (List.splitOn separator) h
  rw [hpieces hne, hpieces hne'] at hmap
  exact hwrite.list_map hmap

end Pieces

section Groups

def byteChars (b : UInt8) : List Char :=
  Decimal.digits b.toNat

def groupChars (g : UInt16) : List Char :=
  Nat.toDigits 16 g.toNat

theorem byteChars_injective : Function.Injective byteChars := fun _ _ h =>
  UInt8.toNat_inj.1 (toDigits_injective (by decide) (by decide) h)

theorem groupChars_injective : Function.Injective groupChars := fun _ _ h =>
  UInt16.toNat_inj.1 (toDigits_injective (by decide) (by decide) h)

theorem not_mem_byteChars {c : Char} (hc : c = ':' ∨ c = '.' ∨ c = ',') (b : UInt8) : c ∉ byteChars b := fun h => by
  obtain ⟨d, hd, heq⟩ := exists_digitChar (by decide) (by decide) h
  exact digitChar_ne_of_lt hc hd heq

theorem not_mem_groupChars {c : Char} (hc : c = ':' ∨ c = '.' ∨ c = ',') (g : UInt16) : c ∉ groupChars g := fun h => by
  obtain ⟨d, hd, heq⟩ := exists_digitChar (by decide) (by decide) h
  exact digitChar_ne_of_lt hc hd heq

theorem dotted_injective {bytes others : List UInt8} (hne : bytes ≠ []) (hne' : others ≠ [])
    (h : dotted bytes = dotted others) : bytes = others :=
  joined_map_injective byteChars_injective (not_mem_byteChars (.inr (.inl rfl))) hne hne' h

theorem hexGroups_injective {groups others : List UInt16} (hne : groups ≠ []) (hne' : others ≠ [])
    (h : hexGroups groups = hexGroups others) : groups = others :=
  joined_map_injective groupChars_injective (not_mem_groupChars (.inl rfl)) hne hne' h

/-- The pieces between the colons of groups; of no groups, one empty piece. -/
def pieces (groups : List UInt16) : List (List Char) :=
  if groups = [] then [[]] else groups.map groupChars

/-- Groups with a gap between them. -/
def gapped (left right : List UInt16) : List Char :=
  hexGroups left ++ ':' :: ':' :: hexGroups right

theorem pieces_ne_nil (groups : List UInt16) : pieces groups ≠ [] := by
  unfold pieces
  split
  · exact List.cons_ne_nil _ _
  · rename_i h
    simpa using h

theorem joined_pieces (groups : List UInt16) : joined ':' (pieces groups) = hexGroups groups := by
  unfold pieces
  split
  · rename_i h
    subst h
    rfl
  · rfl

theorem colon_not_mem_pieces (groups : List UInt16) : ∀ piece ∈ pieces groups, ':' ∉ piece := by
  unfold pieces
  split
  · exact List.forall_mem_singleton.2 List.not_mem_nil
  · exact List.forall_mem_map.2 fun g _ => not_mem_groupChars (.inl rfl) g

/-- **Between its colons a gapped text has an empty piece.** -/
theorem splitOn_gapped (left right : List UInt16) :
    (gapped left right).splitOn ':' = pieces left ++ [] :: pieces right := by
  have hgapped : gapped left right = joined ':' (pieces left ++ [] :: pieces right) := by
    unfold gapped
    rw [joined_append (pieces_ne_nil left) (List.cons_ne_nil _ _), joined_cons (pieces_ne_nil right), joined_pieces,
      joined_pieces]
    rfl
  rw [hgapped]
  refine splitOn_joined (by simp) (List.forall_mem_append.2 ⟨colon_not_mem_pieces left, ?_⟩)
  exact List.forall_mem_cons.2 ⟨List.not_mem_nil, colon_not_mem_pieces right⟩

theorem groupChars_isEmpty (g : UInt16) : (groupChars g).isEmpty = false := by
  rw [List.isEmpty_eq_false_iff]
  exact Nat.toDigits_ne_nil

/-- The groups in front of the gap end at the first empty piece. -/
theorem takeWhile_pieces (groups : List UInt16) (rest : List (List Char)) :
    (pieces groups ++ [] :: rest).takeWhile (!·.isEmpty) = groups.map groupChars := by
  by_cases h : groups = []
  · subst h
    rfl
  · have hfull : ∀ piece ∈ groups.map groupChars, (!piece.isEmpty) = true :=
      List.forall_mem_map.2 fun g _ => by rw [groupChars_isEmpty]; rfl
    rw [pieces, if_neg h]
    exact (Text.span_append hfull (by rintro _ ⟨⟩; rfl)).1

theorem takeWhile_reverse_pieces (groups : List UInt16) (rest : List (List Char)) :
    ((pieces groups).reverse ++ [] :: rest).takeWhile (!·.isEmpty) = groups.reverse.map groupChars := by
  have hreverse : (pieces groups).reverse = pieces groups.reverse := by
    unfold pieces
    by_cases h : groups = []
    · subst h
      rfl
    · rw [if_neg h, if_neg (by simpa using h), List.map_reverse]
  rw [hreverse, takeWhile_pieces]

/-- **A gapped text has one reading**: its groups end at the first empty piece, and begin behind the last. -/
theorem gapped_injective {left right left' right' : List UInt16} (h : gapped left right = gapped left' right') :
    left = left' ∧ right = right' := by
  have hpieces := congrArg (List.splitOn ':') h
  rw [splitOn_gapped, splitOn_gapped] at hpieces
  constructor
  · have hfront := congrArg (List.takeWhile (!·.isEmpty)) hpieces
    rw [takeWhile_pieces, takeWhile_pieces] at hfront
    exact groupChars_injective.list_map hfront
  · have hback := congrArg (fun pieces => pieces.reverse.takeWhile (!·.isEmpty)) hpieces
    simp only [List.reverse_append, List.reverse_cons, List.append_assoc, List.singleton_append,
      takeWhile_reverse_pieces] at hback
    exact List.reverse_injective (groupChars_injective.list_map hback)

theorem gapped_ne_hexGroups {groups : List UInt16} (hne : groups ≠ []) (left right : List UInt16) :
    gapped left right ≠ hexGroups groups := by
  intro h
  have hpieces := congrArg (List.splitOn ':') h
  rw [splitOn_gapped, ← joined_pieces, splitOn_joined (pieces_ne_nil groups) (colon_not_mem_pieces groups)] at hpieces
  have hgap : [] ∈ pieces groups := hpieces ▸ List.mem_append_right _ List.mem_cons_self
  rw [pieces, if_neg hne] at hgap
  obtain ⟨g, -, hg⟩ := List.mem_map.1 hgap
  exact Nat.toDigits_ne_nil hg

/-- A list of groups around its first longest run of zeros. -/
theorem exists_longestZeros (groups : List UInt16) :
    ∃ left right, groups = left ++ List.replicate (longestZeros groups).2 0 ++ right ∧
      left.length = (longestZeros groups).1 := by
  induction groups with
  | nil => exact ⟨[], [], rfl, rfl⟩
  | cons g rest ih =>
    unfold longestZeros
    dsimp only
    split
    · refine ⟨[], (g :: rest).dropWhile (· == 0), ?_, rfl⟩
      have hzeros : (g :: rest).takeWhile (· == 0) =
          List.replicate ((g :: rest).takeWhile (· == 0)).length 0 := by
        rw [List.eq_replicate_iff]
        exact ⟨rfl, fun z hz => by simpa using List.mem_takeWhile_imp hz⟩
      rw [List.nil_append, ← hzeros, List.takeWhile_append_dropWhile]
    · obtain ⟨left, right, heq, hlength⟩ := ih
      refine ⟨g :: left, right, ?_, congrArg (· + 1) hlength⟩
      rw [List.cons_append, List.cons_append, ← heq]

/-- **A compressed text leaves out a run of zeros, or nothing.** -/
theorem compressed_cases (groups : List UInt16) :
    compressed groups = hexGroups groups ∨
      ∃ left n right, groups = left ++ List.replicate n 0 ++ right ∧ compressed groups = gapped left right := by
  obtain ⟨left, right, heq, hlength⟩ := exists_longestZeros groups
  unfold compressed
  generalize longestZeros groups = run at heq hlength ⊢
  subst heq
  dsimp only
  split
  · refine .inr ⟨left, run.2, right, rfl, ?_⟩
    have htake : (left ++ List.replicate run.2 0 ++ right).take run.1 = left := by
      rw [← hlength, List.append_assoc, List.take_left]
    have hdrop : (left ++ List.replicate run.2 0 ++ right).drop (run.1 + run.2) = right :=
      List.drop_left' (by rw [List.length_append, List.length_replicate, hlength])
    rw [htake, hdrop]
    rfl
  · exact .inl rfl

/-- **As many groups have one compressed text**: the run that is left out has the length that the others lack. -/
theorem compressed_injective {groups others : List UInt16} (hne : groups ≠ [])
    (hlength : groups.length = others.length) (h : compressed groups = compressed others) : groups = others := by
  have hne' : others ≠ [] := fun hnil => hne (List.length_eq_zero_iff.1 (by rw [hlength, hnil, List.length_nil]))
  rcases compressed_cases groups with hplain | ⟨left, n, right, heq, hgap⟩ <;>
    rcases compressed_cases others with hplain' | ⟨left', n', right', heq', hgap'⟩
  · exact hexGroups_injective hne hne' (by rw [← hplain, h, hplain'])
  · exact absurd (by rw [← hgap', ← h, hplain]) (gapped_ne_hexGroups hne left' right')
  · exact absurd (by rw [← hgap, h, hplain']) (gapped_ne_hexGroups hne' left right)
  · obtain ⟨rfl, rfl⟩ := gapped_injective (by rw [← hgap, h, hgap'] : gapped left right = gapped left' right')
    rw [heq, heq'] at hlength ⊢
    simp only [List.length_append, List.length_replicate] at hlength
    rw [show n = n' by omega]

end Groups

section Kinds

theorem mem_dotted {bytes : List UInt8} {c : Char} (h : c ∈ dotted bytes) :
    c = '.' ∨ ∃ d < 16, c = Nat.digitChar d := by
  refine (mem_joined h).imp_right fun ⟨piece, hpiece, hc⟩ => ?_
  obtain ⟨b, -, rfl⟩ := List.mem_map.1 hpiece
  exact exists_digitChar (by decide) (by decide) hc

theorem mem_hexGroups {groups : List UInt16} {c : Char} (h : c ∈ hexGroups groups) :
    c = ':' ∨ ∃ d < 16, c = Nat.digitChar d := by
  refine (mem_joined h).imp_right fun ⟨piece, hpiece, hc⟩ => ?_
  obtain ⟨g, -, rfl⟩ := List.mem_map.1 hpiece
  exact exists_digitChar (by decide) (by decide) hc

theorem mem_compressed {groups : List UInt16} {c : Char} (h : c ∈ compressed groups) :
    c = ':' ∨ ∃ d < 16, c = Nat.digitChar d := by
  rcases compressed_cases groups with hplain | ⟨left, n, right, -, hgap⟩
  · rw [hplain] at h
    exact mem_hexGroups h
  · rw [hgap, gapped, List.mem_append, List.mem_cons, List.mem_cons] at h
    rcases h with h | h | h | h
    · exact mem_hexGroups h
    · exact .inl h
    · exact .inl h
    · exact mem_hexGroups h

theorem colon_not_mem_dotted (bytes : List UInt8) : ':' ∉ dotted bytes := fun h => by
  rcases mem_dotted h with h | ⟨d, hd, h⟩
  · cases h
  · exact digitChar_ne_of_lt (.inl rfl) hd h

theorem point_not_mem_compressed (groups : List UInt16) : '.' ∉ compressed groups := fun h => by
  rcases mem_compressed h with h | ⟨d, hd, h⟩
  · cases h
  · exact digitChar_ne_of_lt (.inr (.inl rfl)) hd h

theorem point_mem_dotted {bytes : List UInt8} (h : 2 ≤ bytes.length) : '.' ∈ dotted bytes :=
  separator_mem_joined (by rwa [List.length_map])

theorem colon_mem_compressed {groups : List UInt16} (h : 2 ≤ groups.length) : ':' ∈ compressed groups := by
  rcases compressed_cases groups with hplain | ⟨left, n, right, -, hgap⟩
  · rw [hplain]
    exact separator_mem_joined (by rwa [List.length_map])
  · rw [hgap, gapped]
    exact List.mem_append_right _ List.mem_cons_self

theorem word_eq_of_bytes {a b : UInt16} (hhigh : (a >>> 8).toUInt8 = (b >>> 8).toUInt8) (hlow : a.toUInt8 = b.toUInt8) :
    a = b := by
  have hhigh := congrArg UInt8.toNat hhigh
  have hlow := congrArg UInt8.toNat hlow
  have ha := a.toNat_lt
  have hb := b.toNat_lt
  simp only [UInt16.toNat_toUInt8, UInt16.toNat_shiftRight, UInt16.reduceToNat, Nat.reduceMod,
    Nat.shiftRight_eq_div_pow] at hhigh hlow
  exact UInt16.toNat_inj.1 (by omega)

theorem mapped?_injective {groups others : List UInt16} {bytes : List UInt8} (h : mapped? groups = some bytes)
    (h' : mapped? others = some bytes) : groups = others := by
  unfold mapped? at h h'
  split at h
  · split at h'
    · rename_i a b a' b'
      rw [← h, Option.some_inj] at h'
      simp only [List.cons.injEq, and_true] at h'
      rw [word_eq_of_bytes h'.1 h'.2.1, word_eq_of_bytes h'.2.2.1 h'.2.2.2]
    · cases h'
  · cases h

theorem length_of_mapped? {groups : List UInt16} {bytes : List UInt8} (h : mapped? groups = some bytes) :
    bytes.length = 4 := by
  unfold mapped? at h
  split at h
  · cases h
    rfl
  · cases h

/-- The three kinds of text: points only, points and colons, colons only. -/
theorem chars_cases (a : Address) :
    (∃ bytes, a = v4 bytes ∧ a.chars = dotted bytes.toList ∧ ':' ∉ a.chars) ∨
      (∃ groups bytes, a = v6 groups ∧ mapped? groups.toList = some bytes ∧ a.chars = "::ffff:".toList ++ dotted bytes ∧
        ':' ∈ a.chars ∧ '.' ∈ a.chars) ∨
      ∃ groups, a = v6 groups ∧ a.chars = compressed groups.toList ∧ ':' ∈ a.chars ∧ '.' ∉ a.chars := by
  cases a with
  | v4 bytes => exact .inl ⟨bytes, rfl, rfl, colon_not_mem_dotted _⟩
  | v6 groups =>
    cases hmapped : mapped? groups.toList with
    | some bytes =>
      have hchars : chars (v6 groups) = "::ffff:".toList ++ dotted bytes := by
        unfold chars
        dsimp only
        rw [hmapped]
      refine .inr (.inl ⟨groups, bytes, rfl, hmapped, hchars, ?_, ?_⟩)
      · rw [hchars]
        exact List.mem_append_left _ (by decide)
      · rw [hchars]
        exact List.mem_append_right _ (point_mem_dotted (by rw [length_of_mapped? hmapped]; decide))
    | none =>
      have hchars : chars (v6 groups) = compressed groups.toList := by
        unfold chars
        dsimp only
        rw [hmapped]
      refine .inr (.inr ⟨groups, rfl, hchars, ?_, ?_⟩)
      · rw [hchars]
        exact colon_mem_compressed (by simp)
      · rw [hchars]
        exact point_not_mem_compressed _

theorem mem_chars {a : Address} {c : Char} (h : c ∈ a.chars) : c = ':' ∨ c = '.' ∨ ∃ d < 16, c = Nat.digitChar d := by
  rcases chars_cases a with ⟨_, rfl, -⟩ | ⟨_, _, rfl, -, ha, -, -⟩ | ⟨_, rfl, ha, -, -⟩
  · exact .inr (mem_dotted h)
  · rw [ha, List.mem_append] at h
    rcases h with h | h
    · have hlead : ("::ffff:".toList.all fun c => c == ':' || c == Nat.digitChar 15) = true := by decide
      have hc := List.all_eq_true.1 hlead c h
      rw [Bool.or_eq_true, beq_iff_eq, beq_iff_eq] at hc
      exact hc.imp_right fun hf => .inr ⟨15, by decide, hf⟩
    · exact .inr (mem_dotted h)
  · rw [ha] at h
    exact (mem_compressed h).imp_right .inr

theorem chars_ne_nil (a : Address) : a.chars ≠ [] := by
  rcases chars_cases a with ⟨bytes, rfl, -⟩ | ⟨_, _, -, -, -, hcolon, -⟩ | ⟨_, -, -, hcolon, -⟩
  · exact List.ne_nil_of_mem (point_mem_dotted (by simp))
  · exact List.ne_nil_of_mem hcolon
  · exact List.ne_nil_of_mem hcolon

/-- **No two addresses have one text.** -/
theorem chars_injective : Function.Injective chars := by
  intro a b h
  have hmem (c : Char) : c ∈ a.chars ↔ c ∈ b.chars := by rw [h]
  have hne {α : Type} {n : Nat} (xs : Vector α (n + 1)) : xs.toList ≠ [] := fun hnil => by
    have := congrArg List.length hnil
    simp at this
  rcases chars_cases a with ⟨bytes, rfl, ha, hcolon⟩ | ⟨groups, bytes, rfl, hmapped, ha, hcolon, hpoint⟩ |
      ⟨groups, rfl, ha, hcolon, hpoint⟩ <;>
    rcases chars_cases b with ⟨bytes', rfl, hb, hcolon'⟩ | ⟨groups', bytes', rfl, hmapped', hb, hcolon', hpoint'⟩ |
      ⟨groups', rfl, hb, hcolon', hpoint'⟩
  · rw [ha, hb] at h
    rw [Vector.toList_inj.1 (dotted_injective (hne bytes) (hne bytes') h)]
  · exact absurd ((hmem ':').2 hcolon') hcolon
  · exact absurd ((hmem ':').2 hcolon') hcolon
  · exact absurd ((hmem ':').1 hcolon) hcolon'
  · rw [ha, hb, List.append_cancel_left_eq] at h
    have hbytes {groups : List UInt16} {bytes : List UInt8} (hm : mapped? groups = some bytes) : bytes ≠ [] := by
      rintro rfl
      cases length_of_mapped? hm
    rw [← dotted_injective (hbytes hmapped) (hbytes hmapped') h] at hmapped'
    rw [Vector.toList_inj.1 (mapped?_injective hmapped hmapped')]
  · exact absurd ((hmem '.').1 hpoint) hpoint'
  · exact absurd ((hmem ':').1 hcolon) hcolon'
  · exact absurd ((hmem '.').2 hpoint') hpoint
  · rw [ha, hb] at h
    rw [Vector.toList_inj.1 (compressed_injective (hne groups) (by simp) h)]

theorem text_injective : Function.Injective text := fun _ _ h =>
  chars_injective (String.ofList_injective h)

end Kinds

end Http.Address
end InterestDesk
