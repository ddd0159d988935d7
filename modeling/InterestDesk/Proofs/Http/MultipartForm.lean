import InterestDesk.Http.Multipart
import InterestDesk.Proofs.Http.Boundary
import Mathlib.Data.List.Infix
/-!
# MultipartForm — pairs written as parts

A part is a delimiter, a header with the name in quotes, an empty line and the value.  The pairs are read back as they
were if the delimiter stands in no value (`pairs?_parts_write`).
-/
namespace InterestDesk
namespace Http

namespace Multipart

def quoteChar (c : Char) : List Char :=
  if c = '"' then ['\\', '"'] else [c]

/-- A text as it stands in quotes. -/
def quote (s : List Char) : List Char :=
  s.flatMap quoteChar

def disposition (name : String) : Bytes :=
  Text.Utf8.ofString "form-data; name=" ++ (0x22 :: (Text.Utf8.encode (quote name.toList) ++ [0x22]))

def headerLine (name : String) : Bytes :=
  Text.Utf8.ofString "Content-Disposition" ++ (0x3a :: 0x20 :: disposition name)

def writePart (b : Boundary) (pair : String × String) : Bytes :=
  dashes ++ b.bytes ++ lineEnd ++ headerLine pair.1 ++ lineEnd ++ lineEnd ++ Text.Utf8.ofString pair.2 ++ lineEnd

/-- A list of pairs as a body. -/
def write (b : Boundary) (pairs : List (String × String)) : Bytes :=
  pairs.flatMap (writePart b) ++ (dashes ++ b.bytes ++ dashes ++ lineEnd)

/-- Whether a pair can be written as a part: the name holds nothing that breaks a line and no backslash in front of its
closing quote, and the value neither starts with a byte order mark nor holds the delimiter. -/
structure Fits (b : Boundary) (pair : String × String) : Prop where
  visible : ∀ c ∈ pair.1.toList, c = '\t' ∨ MediaType.isQuotable c = true
  closed : pair.1.toList.getLast? ≠ some '\\'
  unmarked : pair.2.toList.head? ≠ some '\uFEFF'
  apart : ¬ b.delimiter <:+: Text.Utf8.ofString pair.2

theorem fits_iff {b : Boundary} {pair : String × String} :
    ((pair.1.toList.all fun c => c == '\t' || MediaType.isQuotable c) = true ∧ pair.1.toList.getLast? ≠ some '\\' ∧
      pair.2.toList.head? ≠ some '\uFEFF' ∧ ¬ b.delimiter <:+: Text.Utf8.ofString pair.2) ↔ Fits b pair := by
  have hvisible : (pair.1.toList.all fun c => c == '\t' || MediaType.isQuotable c) = true ↔
      ∀ c ∈ pair.1.toList, c = '\t' ∨ MediaType.isQuotable c = true := by simp
  rw [hvisible]
  exact ⟨fun ⟨visible, closed, unmarked, apart⟩ => ⟨visible, closed, unmarked, apart⟩,
    fun h => ⟨h.visible, h.closed, h.unmarked, h.apart⟩⟩

instance (b : Boundary) (pair : String × String) : Decidable (Fits b pair) :=
  decidable_of_iff _ fits_iff

section Quoting

theorem quoteChar_of_ne {c : Char} (h : c ≠ '"') : quoteChar c = [c] :=
  if_neg h

theorem head?_quote (s : List Char) : (quote s).head? ≠ some '"' := by
  cases s with
  | nil => nofun
  | cons c s =>
    by_cases hc : c = '"'
    · subst hc
      nofun
    · show (quoteChar c ++ quote s).head? ≠ _
      rw [quoteChar_of_ne hc]
      rintro ⟨⟩
      exact hc rfl

/-- **What stands in quotes is read as it was.** -/
theorem unquote_quote (s : List Char) : unquote (quote s) = s := by
  have honto : ∀ done, unquoteOnto done (quote s) = done.reverse ++ s := by
    induction s with
    | nil => exact fun done => (List.append_nil _).symm
    | cons c s ih =>
      intro done
      show unquoteOnto done (quoteChar c ++ quote s) = _
      by_cases hc : c = '"'
      · subst hc
        show unquoteOnto done ('\\' :: '"' :: quote s) = _
        rw [unquoteOnto, ih, List.reverse_cons, List.append_assoc]
        rfl
      · rw [quoteChar_of_ne hc, List.singleton_append, unquoteOnto, ih, List.reverse_cons, List.append_assoc]
        · rfl
        · rintro rest rfl hrest
          exact head?_quote s (by rw [hrest]; rfl)
  exact honto []

theorem readQuotedOnto?_of_not_mem {bytes : Bytes} (h : 0x22 ∉ bytes) (done rest : Bytes) :
    readQuotedOnto? done (bytes ++ rest) = readQuotedOnto? (bytes.reverse ++ done) rest := by
  induction bytes generalizing done with
  | nil => rfl
  | cons b bytes ih =>
    have hb : (b == 0x22) = false := beq_eq_false_iff_ne.2 fun heq => h (by rw [heq]; exact List.mem_cons_self)
    rw [List.cons_append, readQuotedOnto?, hb, Bool.false_and, if_neg Bool.false_ne_true,
      ih fun hmem => h (List.mem_cons_of_mem b hmem), List.reverse_cons, List.append_assoc]
    rfl

/-- Every quote of a text in quotes has a backslash in front of it, so the reader goes on behind the text. -/
theorem readQuotedOnto?_quote (s : List Char) (done rest : Bytes) :
    readQuotedOnto? done (Text.Utf8.encode (quote s) ++ rest) =
      readQuotedOnto? ((Text.Utf8.encode (quote s)).reverse ++ done) rest := by
  induction s generalizing done with
  | nil => rfl
  | cons c s ih =>
    have hquote : Text.Utf8.encode (quote (c :: s)) = Text.Utf8.encode (quoteChar c) ++ Text.Utf8.encode (quote s) :=
      Text.Utf8.encode_append (quoteChar c) (quote s)
    have hchar : ∀ rest, readQuotedOnto? done (Text.Utf8.encode (quoteChar c) ++ rest) =
        readQuotedOnto? ((Text.Utf8.encode (quoteChar c)).reverse ++ done) rest := by
      intro rest
      by_cases hc : c = '"'
      · subst hc
        rfl
      · refine readQuotedOnto?_of_not_mem (fun hmem => hc ?_) done rest
        rw [quoteChar_of_ne hc] at hmem
        exact (List.mem_singleton.1 (Text.Utf8.mem_of_mem_encode (by decide) hmem)).symm
    rw [hquote, List.append_assoc, hchar, ih, List.reverse_append, List.append_assoc]

theorem getLast?_encode_quote {s : List Char} (h : s.getLast? ≠ some '\\') :
    (Text.Utf8.encode (quote s)).getLast? ≠ some 0x5c := by
  rcases List.eq_nil_or_concat s with rfl | ⟨front, c, rfl⟩
  · nofun
  · have hquote : quote (front ++ [c]) = quote front ++ quoteChar c := by
      unfold quote
      rw [List.flatMap_append, List.flatMap_singleton]
    rw [List.concat_eq_append] at h ⊢
    rw [List.getLast?_concat, Ne, Option.some_inj] at h
    rw [hquote, Text.Utf8.encode_append, List.getLast?_append]
    by_cases hc : c = '"'
    · subst hc
      nofun
    · intro hlast
      have hne : Text.Utf8.encode [c] ≠ [] := by simp [Text.Utf8.encode]
      rw [quoteChar_of_ne hc, List.getLast?_eq_some_getLast hne, Option.some_or, Option.some_inj] at hlast
      have hmem := List.getLast_mem hne
      rw [hlast] at hmem
      exact h (List.mem_singleton.1 (Text.Utf8.mem_of_mem_encode (by decide) hmem)).symm

theorem readQuoted?_quote {s : List Char} (h : s.getLast? ≠ some '\\') :
    readQuoted? (Text.Utf8.encode (quote s) ++ [0x22]) = some (Text.Utf8.encode (quote s)) := by
  unfold readQuoted?
  have hend : ((Text.Utf8.encode (quote s)).reverse.head? != some 0x5c) = true := by
    rw [List.head?_reverse, bne_iff_ne]
    exact getLast?_encode_quote h
  rw [readQuotedOnto?_quote, List.append_nil, readQuotedOnto?, hend, beq_self_eq_true, Bool.and_self, if_pos rfl,
    List.reverse_reverse]

end Quoting

/-- **The name of a part is the name written.** -/
theorem fieldName?_disposition {name : String} (h : name.toList.getLast? ≠ some '\\') :
    fieldName? (disposition name) = some name := by
  have hvalue : nameValue? 0x3b (disposition name) = some (Text.Utf8.encode (quote name.toList)) := by
    have hword : Text.Utf8.ofString "form-data; name=" =
        [0x66, 0x6f, 0x72, 0x6d, 0x2d, 0x64, 0x61, 0x74, 0x61, 0x3b, 0x20, 0x6e, 0x61, 0x6d, 0x65, 0x3d] := by
      decide +kernel
    unfold disposition
    rw [hword]
    exact readQuoted?_quote h
  unfold fieldName?
  rw [hvalue, Option.bind_some, Text.Utf8.decode?_encode, Option.map_some, unquote_quote, String.ofList_toList]

theorem isValueByte_of : ∀ b : UInt8, 0x80 ≤ b.toNat ∨ Char.ofNat b.toNat = '\\' ∨ Char.ofNat b.toNat = '\t' ∨
    MediaType.isQuotable (Char.ofNat b.toNat) = true → isValueByte b = true :=
  forall_byte (by decide +kernel)

theorem mem_quote {s : List Char} {c : Char} (h : c ∈ quote s) : c = '\\' ∨ c ∈ s := by
  obtain ⟨d, hd, hc⟩ := List.mem_flatMap.1 h
  unfold quoteChar at hc
  split at hc
  · rename_i heq
    rcases List.mem_cons.1 hc with hc | hc
    · exact .inl hc
    · exact .inr (by rw [List.mem_singleton.1 hc, ← heq]; exact hd)
  · exact .inr (by rw [List.mem_singleton.1 hc]; exact hd)

theorem isValueByte_of_mem_disposition {name : String}
    (h : ∀ c ∈ name.toList, c = '\t' ∨ MediaType.isQuotable c = true) :
    ∀ b ∈ disposition name, isValueByte b = true := by
  have hword : (Text.Utf8.ofString "form-data; name=").all isValueByte = true := by decide +kernel
  intro b hb
  unfold disposition at hb
  rw [List.mem_append, List.mem_cons, List.mem_append, List.mem_singleton] at hb
  rcases hb with hb | rfl | hb | rfl
  · exact List.all_eq_true.1 hword b hb
  · decide
  · refine isValueByte_of b ?_
    rcases Nat.lt_or_ge b.toNat 0x80 with hlow | hhigh
    · exact .inr ((mem_quote (Text.Utf8.mem_of_mem_encode hlow hb)).imp_right (h _))
    · exact .inl hhigh
  · decide

theorem afterLineEnd?_of_isNameByte {b : UInt8} (h : isNameByte b = true) (rest : Bytes) :
    afterLineEnd? (b :: rest) = none := by
  unfold afterLineEnd?
  split
  · rename_i heq
    cases heq
    cases h
  · rename_i heq
    cases heq
    cases h
  · rfl

/-- **A header line is read as its name and its value**, and the name in lowercase. -/
theorem readHeaders?_line {name value : Bytes} (hname : ∀ b ∈ name, isNameByte b = true) (hne : name ≠ [])
    (hlength : name.length ≤ maxNameBytes) (hvalue : ∀ b ∈ value, isValueByte b = true)
    (hfirst : ∀ b ∈ value.head?, isBlankByte b = false) (hlast : ∀ b ∈ value.getLast?, isBlankByte b = false)
    (count : Nat) (rest : Bytes) :
    readHeaders? (count + 1) (name ++ (0x3a :: 0x20 :: (value ++ (lineEnd ++ rest)))) =
      (readHeaders? count rest).map ((name.map (fun b => (Char.ofNat b.toNat).toLower.toUInt8), value) :: ·) := by
  have hstart : afterLineEnd? (name ++ (0x3a :: 0x20 :: (value ++ (lineEnd ++ rest)))) = none := by
    cases name with
    | nil => exact absurd rfl hne
    | cons b name => exact afterLineEnd?_of_isNameByte (hname b List.mem_cons_self) _
  have hcolon : ∀ b ∈ (0x3a :: 0x20 :: (value ++ (lineEnd ++ rest))).head?, isNameByte b = false := by
    rintro b ⟨⟩
    rfl
  have hcr : ∀ b ∈ (lineEnd ++ rest).head?, isValueByte b = false := by
    rintro b ⟨⟩
    rfl
  have hspace : ∀ b ∈ [0x20], isBlankByte b = true := List.forall_mem_singleton.2 rfl
  have hnext : ∀ b ∈ (value ++ (lineEnd ++ rest)).head?, isBlankByte b = false := by
    cases value with
    | nil =>
      rintro b ⟨⟩
      rfl
    | cons c value => exact hfirst
  have hline : (0x20 :: (value ++ (lineEnd ++ rest))).dropWhile isBlankByte = value ++ (lineEnd ++ rest) :=
    (Text.span_append hspace hnext).2
  have htrim : ([] ++ value.reverse).dropWhile isBlankByte = value.reverse :=
    (Text.span_append (List.forall_mem_nil _) (by rwa [List.head?_reverse])).2
  have hbare : ¬ (name.isEmpty || decide (maxNameBytes < name.length)) = true := by
    simpa [hne] using hlength
  obtain ⟨hnameTake, hnameDrop⟩ := Text.span_append hname hcolon
  obtain ⟨hvalueTake, hvalueDrop⟩ := Text.span_append hvalue hcr
  conv => lhs; unfold readHeaders?
  rw [hstart]
  dsimp only
  rw [hnameTake, hnameDrop]
  split
  · rename_i heq
    cases heq
    rw [hline, hvalueTake, hvalueDrop, show afterLineEnd? (lineEnd ++ rest) = some rest from rfl]
    dsimp only
    rw [← List.nil_append value.reverse, htrim, List.reverse_reverse, if_neg hbare]
  · rename_i hother
    exact absurd rfl (hother _)

theorem readHeaders?_headerLine {name : String} (h : ∀ c ∈ name.toList, c = '\t' ∨ MediaType.isQuotable c = true) :
    readHeaders? maxHeaders (headerLine name ++ lineEnd ++ lineEnd) = some [(dispositionHeader, disposition name)] := by
  have hword : (Text.Utf8.ofString "Content-Disposition").all isNameByte = true := by decide +kernel
  have hlower : (Text.Utf8.ofString "Content-Disposition").map (fun b => (Char.ofNat b.toNat).toLower.toUInt8) =
      dispositionHeader := by decide +kernel
  have hfirst : ∀ b ∈ (disposition name).head?, isBlankByte b = false := by
    have hf : (Text.Utf8.ofString "form-data; name=").head? = some 0x66 := by decide +kernel
    unfold disposition
    rw [List.head?_append, hf]
    rintro b ⟨⟩
    rfl
  have hlast : ∀ b ∈ (disposition name).getLast?, isBlankByte b = false := by
    unfold disposition
    rw [List.getLast?_append, List.getLast?_cons, List.getLast?_concat]
    rintro b ⟨⟩
    rfl
  unfold headerLine
  rw [List.append_assoc, List.append_assoc]
  refine (readHeaders?_line (List.all_eq_true.1 hword) (by decide +kernel) (by decide +kernel)
    (isValueByte_of_mem_disposition h) hfirst hlast 31 lineEnd).trans ?_
  rw [hlower]
  rfl

theorem cr_not_mem_headerLine {name : String} (h : ∀ c ∈ name.toList, c = '\t' ∨ MediaType.isQuotable c = true) :
    0x0d ∉ headerLine name := by
  have hword : 0x0d ∉ Text.Utf8.ofString "Content-Disposition" := by decide +kernel
  unfold headerLine
  rw [List.mem_append, List.mem_cons, List.mem_cons]
  rintro (hmem | hmem | hmem | hmem)
  · exact hword hmem
  · cases hmem
  · cases hmem
  · cases isValueByte_of_mem_disposition h _ hmem

theorem readPartHead?_headerLine {name : String} (h : ∀ c ∈ name.toList, c = '\t' ∨ MediaType.isQuotable c = true)
    (rest : Bytes) :
    readPartHead? (lineEnd ++ (headerLine name ++ (lineEnd ++ lineEnd ++ rest))) =
      some ([(dispositionHeader, disposition name)], rest) := by
  have hcut : Text.cutAt? (lineEnd ++ lineEnd) (headerLine name ++ (lineEnd ++ lineEnd ++ rest)) =
      some (headerLine name, rest) := Text.cutAt?_of_not_mem (cr_not_mem_headerLine h)
  have htext : ∀ text, (lineEnd ++ text).dropWhile isBlankByte = 0x0d :: 0x0a :: text := fun _ => rfl
  unfold readPartHead?
  rw [htext]
  split
  · rename_i heq
    cases heq
    rw [hcut]
    dsimp only
    rw [readHeaders?_headerLine h, Option.map_some]
  · rename_i hother
    exact absurd rfl (hother _)

/-- No text has the bytes of a mark of another charset at its start, and only a byte order mark has those of one of
UTF-8. -/
theorem marked?_encode {s : List Char} (h : s.head? ≠ some '\uFEFF') :
    Text.Charset.marked? (Text.Utf8.encode s) = none := by
  have hread : ∀ (bytes rest : Bytes) (c : Char), bytes.foldl Text.Utf8.Reader.step .empty = ⟨[c], none⟩ →
      Text.Utf8.encode s = bytes ++ rest → s = c :: Text.Utf8.decode rest := by
    intro bytes rest c hchar heq
    rw [← Text.Utf8.decode_cons hchar rest, ← heq, Text.Utf8.decode_encode]
  have hbroken : ∀ {b : UInt8} {rest : Bytes},
      [b].foldl Text.Utf8.Reader.step .empty = ⟨[Text.Utf8.replacement], none⟩ → b ≠ 0xef →
        Text.Utf8.encode s ≠ b :: rest := by
    intro b rest hchar hne heq
    rw [hread [b] rest _ hchar heq] at heq
    exact hne (Option.some.inj (congrArg List.head? heq)).symm
  unfold Text.Charset.marked?
  split
  · rename_i rest heq
    exact absurd (by rw [hread [0xef, 0xbb, 0xbf] rest '\uFEFF' rfl heq]; rfl) h
  · rename_i heq
    exact absurd heq (hbroken rfl (by decide))
  · rename_i heq
    exact absurd heq (hbroken rfl (by decide))
  · rfl

theorem partText_ofString {value : String} (h : value.toList.head? ≠ some '\uFEFF') (name : String) :
    partText [(dispositionHeader, disposition name)] (Text.Utf8.ofString value) = value := by
  have hcharset : partCharset [(dispositionHeader, disposition name)] = .utf8 := by
    have hlookup : [(dispositionHeader, disposition name)].reverse.lookup typeHeader = none := by
      have hne : (typeHeader == dispositionHeader) = false := by decide +kernel
      rw [List.reverse_singleton, List.lookup_cons, hne]
      rfl
    unfold partCharset
    rw [hlookup]
    rfl
  unfold partText Text.Charset.decode Text.Utf8.ofString
  rw [hcharset, marked?_encode h]
  show String.ofList (Text.Utf8.decode (Text.Utf8.encode value.toList)) = value
  rw [Text.Utf8.decode_encode, String.ofList_toList]

theorem cr_not_mem_bytes (b : Boundary) : 0x0d ∉ 0x0a :: (dashes ++ b.bytes) := by
  rw [List.mem_cons, List.mem_append]
  rintro (h | h | h)
  · cases h
  · revert h
    decide
  · cases b.isToken _ (Text.Utf8.mem_of_mem_encode (by decide) h)

/-- What stands behind the first boundary of a body. -/
def following (b : Boundary) : List (String × String) → Bytes
  | [] => dashes ++ lineEnd
  | (name, value) :: rest =>
    lineEnd ++ (headerLine name ++
      (lineEnd ++ lineEnd ++ (Text.Utf8.ofString value ++ (b.delimiter ++ following b rest))))

theorem write_eq (b : Boundary) (pairs : List (String × String)) :
    write b pairs = dashes ++ b.bytes ++ following b pairs := by
  unfold write
  induction pairs with
  | nil => simp [following]
  | cons p ps ih =>
    rw [List.flatMap_cons, List.append_assoc, ih]
    simp [writePart, following, Boundary.delimiter, List.append_assoc]

/-- **The pair of a part is the pair written.** -/
theorem partsFrom_following {b : Boundary} {pair : String × String} (h : Fits b pair) (count : Nat)
    (rest : List (String × String)) :
    partsFrom b.bytes (count + 1) (following b (pair :: rest)) =
      .part (some pair.1) (some pair.2) (partsFrom b.bytes count (following b rest)) := by
  obtain ⟨name, value⟩ := pair
  have hname : partName? [(dispositionHeader, disposition name)] = some name := by
    unfold partName?
    rw [List.reverse_singleton, List.lookup_cons, beq_self_eq_true]
    exact fieldName?_disposition h.closed
  have hcut : Text.cutAt? (lineEnd ++ dashes ++ b.bytes)
      (Text.Utf8.ofString value ++ (b.delimiter ++ following b rest)) =
        some (Text.Utf8.ofString value, following b rest) :=
    Text.cutAt?_of_not_infix (cr_not_mem_bytes b) h.apart
  rw [following, partsFrom, if_neg (by exact Bool.false_ne_true), readPartHead?_headerLine h.visible]
  dsimp only
  rw [hcut]
  dsimp only
  rw [hname, partText_ofString h.unmarked]

theorem length_le_following (b : Boundary) (pairs : List (String × String)) :
    pairs.length ≤ (following b pairs).length := by
  induction pairs with
  | nil => exact Nat.zero_le _
  | cons pair rest ih =>
    have hline : lineEnd.length = 2 := rfl
    simp only [following, List.length_append, List.length_cons, hline]
    omega

theorem pairs?_partsFrom {b : Boundary} : ∀ {pairs : List (String × String)} {count : Nat},
    (∀ pair ∈ pairs, Fits b pair) → pairs.length < count →
      (partsFrom b.bytes count (following b pairs)).pairs? = some pairs
  | _, 0, _, hcount => absurd hcount (Nat.not_lt_zero _)
  | [], count + 1, _, _ => rfl
  | pair :: rest, count + 1, h, hcount => by
    have ih := pairs?_partsFrom (fun p hp => h p (List.mem_cons_of_mem pair hp)) (Nat.lt_of_succ_lt_succ hcount)
    rw [partsFrom_following (h pair List.mem_cons_self), Parts.pairs?, ih]
    rfl

/-- **The pairs written are the pairs read**, in their order and with repeated names. -/
theorem pairs?_parts_write {b : Boundary} {pairs : List (String × String)} (h : ∀ pair ∈ pairs, Fits b pair) :
    (parts b.bytes (write b pairs)).pairs? = some pairs := by
  have hcut : Text.cutAt? (dashes ++ b.bytes) (write b pairs) = some ([], following b pairs) := by
    rw [write_eq]
    show Text.cutAt? _ ([] ++ (dashes ++ b.bytes ++ following b pairs)) = _
    exact Text.cutAt?_append fun t hne hsuffix => absurd (List.suffix_nil.1 hsuffix) hne
  have hcount : pairs.length < (write b pairs).length + 1 := by
    have hle := length_le_following b pairs
    rw [write_eq, List.length_append]
    omega
  unfold parts
  rw [hcut]
  exact pairs?_partsFrom h hcount

end Multipart
end Http
end InterestDesk
