import InterestDesk.Http.ClientId
import InterestDesk.Proofs.Http.Address
/-!
# ClientId — one name for each client

A forwarding header names a client if its value is visible and something else than white space stands before its first
comma (`Forwards`).  The first such header decides alone (`clientId_of_forwards`); without one a client is named by its
address, and addresses are told apart by their texts (`clientId_tells_apart`).
-/
namespace InterestDesk
namespace Text

/-- No white space stands at either end. -/
structure Trimmed (s : List Char) : Prop where
  head : ∀ c ∈ s.head?, isBlank c = false
  last : ∀ c ∈ s.getLast?, isBlank c = false

theorem trimmed_of_forall {s : List Char} (h : ∀ c ∈ s, isBlank c = false) : Trimmed s :=
  ⟨fun c hc => h c (List.mem_of_head? hc), fun c hc => h c (List.mem_of_getLast? hc)⟩

/-- **White space around a text is trimmed.** -/
theorem trim_append {lead s trail : List Char} (hlead : ∀ c ∈ lead, isBlank c = true)
    (htrail : ∀ c ∈ trail, isBlank c = true) (hs : Trimmed s) (hne : s ≠ []) : trim (lead ++ s ++ trail) = s := by
  have hfront : (lead ++ (s ++ trail)).dropWhile isBlank = s ++ trail := by
    refine (span_append hlead fun c hc => hs.head c ?_).2
    rwa [List.head?_append_of_ne_nil _ hne] at hc
  have hback : (trail.reverse ++ s.reverse).dropWhile isBlank = s.reverse := by
    refine (span_append (fun c hc => htrail c (List.mem_reverse.1 hc)) fun c hc => hs.last c ?_).2
    rwa [List.head?_reverse] at hc
  unfold trim dropTrailing
  rw [List.append_assoc, hfront, List.reverse_append, hback, List.reverse_reverse]

theorem head?_dropWhile {p : Char → Bool} {s : List Char} : ∀ c ∈ (s.dropWhile p).head?, p c = false := by
  intro c hc
  have h := List.head?_dropWhile_not p s
  rw [hc] at h
  exact h

/-- **A text is white space around its trimmed form.** -/
theorem exists_trim (s : List Char) :
    ∃ lead trail, s = lead ++ trim s ++ trail ∧ (∀ c ∈ lead, isBlank c = true) ∧ (∀ c ∈ trail, isBlank c = true) ∧
      Trimmed (trim s) := by
  have hinner : trim s ++ ((s.dropWhile isBlank).reverse.takeWhile isBlank).reverse = s.dropWhile isBlank := by
    unfold trim dropTrailing
    rw [← List.reverse_append, List.takeWhile_append_dropWhile, List.reverse_reverse]
  refine ⟨s.takeWhile isBlank, ((s.dropWhile isBlank).reverse.takeWhile isBlank).reverse, ?_,
    fun c hc => List.mem_takeWhile_imp hc, fun c hc => List.mem_takeWhile_imp (List.mem_reverse.1 hc), ?_, ?_⟩
  · rw [List.append_assoc, hinner, List.takeWhile_append_dropWhile]
  · intro c hc
    refine head?_dropWhile (s := s) c ?_
    rw [← hinner, List.head?_append, hc]
    rfl
  · intro c hc
    unfold trim dropTrailing at hc
    rw [List.getLast?_reverse] at hc
    exact head?_dropWhile c hc

end Text

namespace Http

open Text (Trimmed isBlank)

/-- Whether a header value names an entry: it stands before the first comma, perhaps with white space around it. -/
def Names (value entry : List Char) : Prop :=
  ∃ lead trail rest, value = lead ++ entry ++ trail ++ rest ∧ (∀ c ∈ lead, isBlank c = true) ∧
    (∀ c ∈ trail, isBlank c = true) ∧ (∀ c ∈ rest.head?, c = ',') ∧ entry ≠ [] ∧ ',' ∉ entry ∧ Trimmed entry

theorem comma_not_mem_of_blank {s : List Char} (h : ∀ c ∈ s, isBlank c = true) : ',' ∉ s := fun hc =>
  absurd (h ',' hc) (by decide)

theorem firstEntry?_eq_some_iff {value entry : List Char} : firstEntry? value = some entry ↔ Names value entry := by
  unfold firstEntry?
  dsimp only
  constructor
  · intro h
    split at h
    · cases h
    · rename_i hfull
      obtain ⟨lead, trail, heq, hlead, htrail, htrimmed⟩ := Text.exists_trim (value.takeWhile (· != ','))
      rw [Option.some_inj] at h
      rw [h] at heq hfull htrimmed
      refine ⟨lead, trail, value.dropWhile (· != ','), ?_, hlead, htrail, fun c hc => ?_, by simpa using hfull,
        fun hcomma => ?_, htrimmed⟩
      · rw [← heq, List.takeWhile_append_dropWhile]
      · simpa using Text.head?_dropWhile c hc
      · have hmem : ',' ∈ value.takeWhile (· != ',') := by
          rw [heq]
          exact List.mem_append_left _ (List.mem_append_right _ hcomma)
        exact absurd (List.mem_takeWhile_imp hmem) (by decide)
  · rintro ⟨lead, trail, rest, rfl, hlead, htrail, hrest, hne, hcomma, htrimmed⟩
    have hbefore : ',' ∉ lead ++ entry ++ trail := by
      simp [comma_not_mem_of_blank hlead, comma_not_mem_of_blank htrail, hcomma]
    have htake : (lead ++ entry ++ trail ++ rest).takeWhile (· != ',') = lead ++ entry ++ trail := by
      refine (Text.span_append (fun c hc => ?_) fun c hc => ?_).1
      · rw [bne_iff_ne]
        rintro rfl
        exact hbefore hc
      · rw [hrest c hc]
        rfl
    rw [htake, Text.trim_append hlead htrail htrimmed hne, if_neg (by simpa using hne)]

/-- Whether the first forwarding header of a request is visible and names an entry. -/
def Forwards (headers : Headers) (entry : List Char) : Prop :=
  ∃ before name value after, headers = before ++ (name, value) :: after ∧
    (∀ header ∈ before, Headers.folded header.1 ≠ Headers.folded forwardedFor) ∧
    Headers.folded name = Headers.folded forwardedFor ∧
    (∀ c ∈ value.toList, c = '\t' ∨ ' ' ≤ c ∧ c ≤ '~') ∧ Names value.toList entry

theorem visible?_eq_some_iff {value : String} {chars : List Char} :
    Headers.visible? value = some chars ↔
      (∀ c ∈ value.toList, c = '\t' ∨ ' ' ≤ c ∧ c ≤ '~') ∧ value.toList = chars := by
  unfold Headers.visible?
  rw [Option.ite_none_right_eq_some, Option.some_inj]
  simp

theorem forwards_iff {headers : Headers} {entry : List Char} :
    (headers.firstVisible? forwardedFor).bind firstEntry? = some entry ↔ Forwards headers entry := by
  unfold Headers.firstVisible? Headers.first?
  constructor
  · intro h
    obtain ⟨chars, hchars, hentry⟩ := Option.bind_eq_some_iff.1 h
    obtain ⟨value, hvalue, hvis⟩ := Option.bind_eq_some_iff.1 hchars
    obtain ⟨header, hheader, rfl⟩ := Option.map_eq_some_iff.1 hvalue
    obtain ⟨hname, before, after, rfl, hbefore⟩ := List.find?_eq_some_iff_append.1 hheader
    obtain ⟨hall, rfl⟩ := visible?_eq_some_iff.1 hvis
    exact ⟨before, header.1, header.2, after, rfl, fun other hother => by simpa using hbefore other hother,
      by simpa using hname, hall, firstEntry?_eq_some_iff.1 hentry⟩
  · rintro ⟨before, name, value, after, rfl, hbefore, hname, hall, hentry⟩
    have hfind : List.find? (fun header : String × String => Headers.folded header.1 == Headers.folded forwardedFor)
        (before ++ (name, value) :: after) = some (name, value) :=
      List.find?_eq_some_iff_append.2 ⟨by simpa using hname, before, after, rfl, fun other hother => by
        simpa using hbefore other hother⟩
    rw [hfind, Option.map_some, Option.bind_some, visible?_eq_some_iff.2 ⟨hall, rfl⟩, Option.bind_some]
    exact firstEntry?_eq_some_iff.2 hentry

theorem clientId_of_forwards {headers : Headers} {entry : List Char} (h : Forwards headers entry) (peer : Address) :
    clientId headers peer = String.ofList entry := by
  unfold clientId
  rw [forwards_iff.2 h]

theorem clientId_of_not_forwards {headers : Headers} (h : ∀ entry, ¬ Forwards headers entry) (peer : Address) :
    clientId headers peer = peer.text := by
  have hnone : (headers.firstVisible? forwardedFor).bind firstEntry? = none :=
    Option.eq_none_iff_forall_ne_some.2 fun entry hentry => h entry (forwards_iff.1 hentry)
  unfold clientId
  rw [hnone]

/-- The other end of a connection: an address and a port, and over IPv6 the label of a flow and a zone. -/
inductive Endpoint where
  | v4 (bytes : Vector UInt8 4) (port : UInt16)
  | v6 (groups : Vector UInt16 8) (port : UInt16) (flow zone : UInt32)

def Endpoint.address : Endpoint → Address
  | v4 bytes _ => .v4 bytes
  | v6 groups _ _ _ => .v6 groups

theorem isBlank_of_mem_chars {a : Address} {c : Char} (h : c ∈ a.chars) : isBlank c = false := by
  have hdigits : ∀ d : Fin 16, isBlank (Nat.digitChar d) = false := by decide
  rcases Address.mem_chars h with rfl | rfl | ⟨d, hd, rfl⟩
  · rfl
  · rfl
  · exact hdigits ⟨d, hd⟩

theorem comma_not_mem_chars (a : Address) : ',' ∉ a.chars := fun h => by
  rcases Address.mem_chars h with h | h | ⟨d, hd, h⟩
  · cases h
  · cases h
  · exact Address.digitChar_ne_of_lt (.inr (.inr rfl)) hd h

/-- **Clients are told apart, and each has one name.**  The name is never empty, holds no comma and has no white space
at either end.  A forwarding header that names an entry decides, whoever sends it: the first one alone, and of it what
stands before the first comma, trimmed.  Without one the name is the address of the other end, whatever its port, and
two of these have one name only if their addresses are the same. -/
theorem clientId_tells_apart (headers : Headers) (peer : Endpoint) :
    let id := (clientId headers peer.address).toList
    (id ≠ [] ∧ ',' ∉ id ∧ Trimmed id) ∧
      (∀ entry, Forwards headers entry → ∀ other : Endpoint, (clientId headers other.address).toList = entry) ∧
      ((∀ entry, ¬ Forwards headers entry) →
        id = peer.address.chars ∧
        ∀ (others : Headers) (other : Endpoint), (∀ entry, ¬ Forwards others entry) →
          (clientId headers peer.address = clientId others other.address ↔ peer.address = other.address)) := by
  intro id
  have hentry {entry : List Char} (h : Forwards headers entry) (other : Endpoint) :
      (clientId headers other.address).toList = entry := by
    rw [clientId_of_forwards h, String.toList_ofList]
  have haddress (h : ∀ entry, ¬ Forwards headers entry) : id = peer.address.chars := by
    show (clientId headers peer.address).toList = _
    rw [clientId_of_not_forwards h, Address.text, String.toList_ofList]
  refine ⟨?_, fun entry h other => hentry h other, fun h => ⟨haddress h, fun others other h' => ?_⟩⟩
  · by_cases h : ∃ entry, Forwards headers entry
    · obtain ⟨entry, h⟩ := h
      have hid : id = entry := hentry h peer
      obtain ⟨-, -, -, -, -, -, -, -, lead, trail, rest, -, -, -, -, hne, hcomma, htrimmed⟩ := h
      rw [hid]
      exact ⟨hne, hcomma, htrimmed⟩
    · rw [haddress (not_exists.1 h)]
      exact ⟨peer.address.chars_ne_nil, comma_not_mem_chars _,
        Text.trimmed_of_forall fun c hc => isBlank_of_mem_chars hc⟩
  · rw [clientId_of_not_forwards h, clientId_of_not_forwards h']
    exact Address.text_injective.eq_iff

/-- A proxy in front decides over two headers that follow it; behind a header that names nothing, the same four bytes
are two clients over IPv4 and over IPv6, and one over two ports. -/
theorem clientId_tells_apart_bytes :
    let proxied : Headers :=
      [("accept", "*/*"), ("X-Forwarded-For", "\t 2001:db8::1 ,unknown"), ("x-forwarded-for", "192.0.2.1")]
    let blank : Headers := [("x-forwarded-for", " , 192.0.2.1")]
    let four : Endpoint := .v4 #v[192, 0, 2, 1] 80
    let again : Endpoint := .v4 #v[192, 0, 2, 1] 8080
    let mapped : Endpoint := .v6 #v[0, 0, 0, 0, 0, 0xffff, 0xc000, 0x0201] 80 0 0
    (Forwards proxied "2001:db8::1".toList ∧ (clientId proxied mapped.address).toList = "2001:db8::1".toList) ∧
      (∀ entry, ¬ Forwards blank entry) ∧
      (clientId blank mapped.address).toList = "::ffff:192.0.2.1".toList ∧
      clientId blank four.address ≠ clientId blank mapped.address ∧
      clientId blank four.address = clientId blank again.address := by
  intro proxied blank four again mapped
  have hproxied : Forwards proxied "2001:db8::1".toList := forwards_iff.1 (by decide +kernel)
  have hblank : ∀ entry, ¬ Forwards blank entry := fun entry h => by
    rw [← forwards_iff, show (blank.firstVisible? forwardedFor).bind firstEntry? = none by decide +kernel] at h
    cases h
  obtain ⟨-, hentry, -⟩ := clientId_tells_apart proxied mapped
  obtain ⟨-, -, hmapped⟩ := clientId_tells_apart blank mapped
  obtain ⟨-, -, hfour⟩ := clientId_tells_apart blank four
  exact ⟨⟨hproxied, hentry _ hproxied mapped⟩, hblank, (hmapped hblank).1.trans (by decide +kernel),
    fun h => absurd (((hfour hblank).2 blank mapped hblank).1 h) (by decide),
    ((hfour hblank).2 blank again hblank).2 rfl⟩

end Http
end InterestDesk
