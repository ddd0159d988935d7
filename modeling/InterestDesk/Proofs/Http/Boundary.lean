import InterestDesk.Http.Header
import InterestDesk.Http.Multipart
import InterestDesk.Proofs.Text.Cut
import InterestDesk.Proofs.Text.Utf8
import Mathlib.Data.List.TakeWhile
/-!
# Boundary — what stands between the parts of a form

A boundary of letters, digits and marks is named in the type of the body without quotes, and is read back from there
(`boundary?_mediaType`).
-/
namespace InterestDesk
namespace Http

/-- What stands between two parts: letters, digits and marks. -/
structure Boundary where
  chars : List Char
  chars_ne : chars ≠ []
  isToken : ∀ c ∈ chars, MediaType.isToken c = true

namespace Boundary

def bytes (b : Boundary) : Bytes :=
  Text.Utf8.encode b.chars

/-- The boundary as it stands behind a value. -/
def delimiter (b : Boundary) : Bytes :=
  Multipart.lineEnd ++ Multipart.dashes ++ b.bytes

/-- The type of a body with this boundary. -/
def mediaType (b : Boundary) : String :=
  String.ofList ("multipart/form-data; boundary=".toList ++ b.chars)

end Boundary

namespace MediaType

theorem readValue?_token {value : List Char} (h : ∀ c ∈ value, isToken c = true) (hne : value ≠ []) :
    readValue? value = some (value, []) := by
  have hall : value.takeWhile isToken = value ∧ value.dropWhile isToken = [] :=
    ⟨List.takeWhile_eq_self_iff.2 h, List.dropWhile_eq_nil_iff.2 h⟩
  unfold readValue?
  split
  · exact absurd rfl hne
  · cases h '"' List.mem_cons_self
  · dsimp only
    rw [hall.1, hall.2, List.isEmpty_eq_false_iff.2 hne]
    rfl

theorem readParameters?_token {name value : List Char} (hname : ∀ c ∈ name, isToken c = true) (hne : name ≠ [])
    (hvalue : ∀ c ∈ value, isToken c = true) (hvalueNe : value ≠ []) (count : Nat) :
    readParameters? (count + 1) (' ' :: (name ++ '=' :: value)) = some [(name, value)] := by
  have hequals : ∀ c ∈ ('=' :: value).head?, isToken c = false := by
    rintro c ⟨⟩
    rfl
  have hspace : ∀ c ∈ [' '], (c == ' ') = true := List.forall_mem_singleton.2 rfl
  have hnext : ∀ c ∈ (name ++ '=' :: value).head?, (c == ' ') = false := by
    cases name with
    | nil => exact absurd rfl hne
    | cons c name =>
      rintro d ⟨⟩
      rw [beq_eq_false_iff_ne]
      rintro rfl
      cases hname ' ' List.mem_cons_self
  have htext : (' ' :: (name ++ '=' :: value)).dropWhile (· == ' ') = name ++ '=' :: value :=
    (Text.span_append hspace hnext).2
  obtain ⟨hnameTake, hnameDrop⟩ := Text.span_append hname hequals
  have hparameter : readParameter? (name ++ '=' :: value) = some ((name, value), []) := by
    unfold readParameter?
    rw [hnameTake, hnameDrop]
    split
    · rename_i heq
      cases heq
      dsimp only
      rw [List.isEmpty_eq_false_iff.2 hne, readValue?_token hvalue hvalueNe]
      rfl
    · rename_i hother
      exact absurd rfl (hother value)
  have hrest : readParameters? count [] = some [] := by
    cases count <;> rfl
  unfold readParameters?
  rw [htext]
  split
  · rename_i heq
    exact absurd (List.append_eq_nil_iff.1 heq).1 hne
  · rename_i heq _
    cases heq
  · rename_i heq _
    cases heq
    rw [hparameter]
    dsimp only
    rw [hrest]
    rfl

theorem read?_append {kind subtype rest : List Char} (hkind : ∀ c ∈ kind, isToken c = true) (hkindNe : kind ≠ [])
    (hsubtype : ∀ c ∈ subtype, isToken c = true) (hsubtypeNe : subtype ≠ []) :
    read? (kind ++ '/' :: (subtype ++ ';' :: rest)) =
      (readParameters? rest.length rest).map (⟨kind, withoutSuffix subtype, ·⟩) := by
  have hslash : ∀ c ∈ ('/' :: (subtype ++ ';' :: rest)).head?, isToken c = false := by
    rintro c ⟨⟩
    rfl
  have hsemicolon : ∀ c ∈ (';' :: rest).head?, isToken c = false := by
    rintro c ⟨⟩
    rfl
  obtain ⟨hkindTake, hkindDrop⟩ := Text.span_append hkind hslash
  obtain ⟨hsubtypeTake, hsubtypeDrop⟩ := Text.span_append hsubtype hsemicolon
  have hsome : (kind.isEmpty || subtype.isEmpty) = false := by
    simpa using ⟨hkindNe, hsubtypeNe⟩
  unfold read?
  rw [hkindTake, hkindDrop]
  split
  · rename_i heq
    cases heq
    dsimp only
    rw [hsubtypeTake, hsubtypeDrop, hsome]
    rfl
  · rename_i hother
    exact absurd rfl (hother _)

theorem boundary?_mediaType (b : Boundary) : boundary? b.mediaType.toList = some b.chars := by
  have htext : b.mediaType.toList =
      "multipart".toList ++ '/' :: ("form-data".toList ++ ';' :: (' ' :: ("boundary".toList ++ '=' :: b.chars))) := by
    unfold Boundary.mediaType
    rw [String.toList_ofList]
    rfl
  have hparameters : readParameters? (' ' :: ("boundary".toList ++ '=' :: b.chars)).length
      (' ' :: ("boundary".toList ++ '=' :: b.chars)) = some [("boundary".toList, b.chars)] :=
    readParameters?_token (List.all_eq_true.1 (by decide)) (by decide) b.isToken b.chars_ne _
  have hread : read? b.mediaType.toList =
      some ⟨"multipart".toList, "form-data".toList, [("boundary".toList, b.chars)]⟩ := by
    rw [htext, read?_append (List.all_eq_true.1 (by decide)) (by decide) (List.all_eq_true.1 (by decide)) (by decide),
      hparameters, Option.map_some,
      show withoutSuffix "form-data".toList = "form-data".toList by decide]
  unfold boundary?
  rw [hread]
  rfl

end MediaType

theorem visible_of_isAlphanum {c : Char} (h : c.isAlphanum = true) :
    (decide (' ' ≤ c) && decide (c ≤ '~')) = true := by
  have hcases : (c.isUpper || c.isLower || c.isDigit) = true := h
  have hvisible (low high : Char) (hlow : ' ' ≤ low) (hhigh : high ≤ '~') (hc : low ≤ c ∧ c ≤ high) :
      ' ' ≤ c ∧ c ≤ '~' :=
    ⟨Char.le_trans hlow hc.1, Char.le_trans hc.2 hhigh⟩
  have hboth {low high : Char} (hc : (decide (low ≤ c) && decide (c ≤ high)) = true) : low ≤ c ∧ c ≤ high := by
    rwa [Bool.and_eq_true, decide_eq_true_iff, decide_eq_true_iff] at hc
  rw [Bool.and_eq_true, decide_eq_true_iff, decide_eq_true_iff]
  rw [Bool.or_eq_true, Bool.or_eq_true] at hcases
  rcases hcases with (hupper | hlower) | hdigit
  · exact hvisible 'A' 'Z' (by decide) (by decide) (of_decide_eq_true hupper)
  · exact hvisible 'a' 'z' (by decide) (by decide) (hboth hlower)
  · exact hvisible '0' '9' (by decide) (by decide) (hboth hdigit)

theorem visible_of_isToken {c : Char} (h : MediaType.isToken c = true) :
    (decide (' ' ≤ c) && decide (c ≤ '~')) = true := by
  have hmarks : ("!#$%&'*+-.^_`|~".toList.all fun d => decide (' ' ≤ d) && decide (d ≤ '~')) = true := by decide +kernel
  unfold MediaType.isToken at h
  rw [Bool.or_eq_true] at h
  rcases h with h | h
  · exact visible_of_isAlphanum h
  · exact List.all_eq_true.1 hmarks c (List.contains_iff_mem.1 h)

theorem visible?_mediaType (b : Boundary) : Headers.visible? b.mediaType = some b.mediaType.toList := by
  have hword : ("multipart/form-data; boundary=".toList.all fun c => c == '\t' || (' ' ≤ c && c ≤ '~')) = true := by
    decide +kernel
  have hchars : (b.chars.all fun c => c == '\t' || (' ' ≤ c && c ≤ '~')) = true := by
    refine List.all_eq_true.2 fun c hc => ?_
    rw [visible_of_isToken (b.isToken c hc)]
    exact Bool.or_true _
  unfold Headers.visible? Boundary.mediaType
  rw [String.toList_ofList, List.all_append, hword, hchars]
  rfl

end Http
end InterestDesk
