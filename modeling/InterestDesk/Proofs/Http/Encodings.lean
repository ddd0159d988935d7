import InterestDesk.Http.Server
import InterestDesk.Proofs.Http.MultipartForm
import InterestDesk.Proofs.Http.UrlEncodedForm
/-!
# Encodings — one form in two encodings

The same pairs reach the calculator as the same fields in either encoding, unless a name is repeated: in one line its
last value counts, in parts its first (`fields_submitted`).  Where the fields are the same, so is the answer.
-/
namespace InterestDesk
namespace Http

def urlEncodedType : String :=
  "application/x-www-form-urlencoded"

/-- A request with a body and its type in place of its own. -/
def HttpRequest.withBody (r : HttpRequest) (type : String) (body : Bytes) : HttpRequest :=
  { r with headers := (contentType, type) :: r.headers, body := body }

def HttpRequest.inOneLine (r : HttpRequest) (pairs : List (String × String)) : HttpRequest :=
  r.withBody urlEncodedType (UrlEncoded.write pairs)

def HttpRequest.inParts (r : HttpRequest) (b : Boundary) (pairs : List (String × String)) : HttpRequest :=
  r.withBody b.mediaType (Multipart.write b pairs)

def HttpRequest.fields (r : HttpRequest) : Fields :=
  readFields r.headers r.body

theorem Headers.first?_cons_self (name value : String) (headers : Headers) :
    Headers.first? ((name, value) :: headers) name = some value := by
  unfold Headers.first?
  rw [List.find?_cons, beq_self_eq_true]
  rfl

theorem Headers.first?_cons_of_ne {name other : String} (h : Headers.folded other ≠ Headers.folded name)
    (value : String) (headers : Headers) : Headers.first? ((other, value) :: headers) name = headers.first? name := by
  unfold Headers.first?
  rw [List.find?_cons, beq_eq_false_iff_ne.2 h]

theorem firstVisible?_withBody (r : HttpRequest) (type : String) (body : Bytes) :
    (r.withBody type body).headers.firstVisible? contentType = Headers.visible? type := by
  unfold HttpRequest.withBody Headers.firstVisible?
  rw [Headers.first?_cons_self, Option.bind_some]

theorem fields_inOneLine (r : HttpRequest) {pairs : List (String × String)}
    (h : (UrlEncoded.write pairs).length ≤ maxBodyBytes) : (r.inOneLine pairs).fields = Fields.lastOf pairs := by
  have hvisible : Headers.visible? urlEncodedType = some urlEncodedType.toList := by decide +kernel
  have hmultipart : isMultipart (r.inOneLine pairs).headers = false := by
    unfold isMultipart HttpRequest.inOneLine
    rw [firstVisible?_withBody, hvisible]
    decide +kernel
  have hone : isUrlEncoded (r.inOneLine pairs).headers = true := by
    unfold isUrlEncoded HttpRequest.inOneLine
    rw [firstVisible?_withBody, hvisible]
    decide +kernel
  unfold HttpRequest.fields readFields
  rw [if_neg (show ¬ maxBodyBytes < (r.inOneLine pairs).body.length from Nat.not_lt.2 h), hmultipart, hone,
    if_neg Bool.false_ne_true, if_pos rfl]
  exact congrArg Fields.lastOf (UrlEncoded.pairs_write pairs)

theorem fields_inParts (r : HttpRequest) {b : Boundary} {pairs : List (String × String)}
    (hfits : ∀ pair ∈ pairs, Multipart.Fits b pair) (h : (Multipart.write b pairs).length ≤ maxBodyBytes) :
    (r.inParts b pairs).fields = Fields.firstOf pairs := by
  have hmultipart : isMultipart (r.inParts b pairs).headers = true := by
    unfold isMultipart HttpRequest.inParts
    rw [firstVisible?_withBody, visible?_mediaType]
    unfold Boundary.mediaType
    rw [String.toList_ofList]
    rfl
  have hpairs : multipartPairs? (r.inParts b pairs).headers (r.inParts b pairs).body = some pairs := by
    unfold multipartPairs?
    rw [show (r.inParts b pairs).headers.firstVisible? contentType = some b.mediaType.toList by
      unfold HttpRequest.inParts
      rw [firstVisible?_withBody, visible?_mediaType], Option.bind_some, MediaType.boundary?_mediaType]
    exact Multipart.pairs?_parts_write hfits
  unfold HttpRequest.fields readFields
  rw [if_neg (show ¬ maxBodyBytes < (r.inParts b pairs).body.length from Nat.not_lt.2 h), hmultipart, if_pos rfl,
    hpairs]

theorem clientId_withBody (r : HttpRequest) (type : String) (body : Bytes) :
    clientId (r.withBody type body).headers r.peer = clientId r.headers r.peer := by
  have hother : Headers.folded contentType ≠ Headers.folded forwardedFor := by decide +kernel
  unfold clientId Headers.firstVisible? HttpRequest.withBody
  rw [Headers.first?_cons_of_ne hother]

/-- **A request is answered by what it asks for, for whom and with which fields**, and by nothing else in it. -/
theorem serve_congr {r other : HttpRequest} (htarget : r.target = other.target) (hmethod : r.method = other.method)
    (hclient : clientId r.headers r.peer = clientId other.headers other.peer) (hfields : r.fields = other.fields)
    (s : Service) (moment : Moment) : serve s moment r = serve s moment other := by
  have hvisit : visitOf moment r = visitOf moment other := by
    unfold visitOf
    rw [hclient, show readFields r.headers r.body = readFields other.headers other.body from hfields]
  unfold serve calculate
  rw [htarget, hmethod, hvisit]

/-- Whether the first and the last value of every name are the same. -/
def EndsAgree (pairs : List (String × String)) : Prop :=
  ∀ name, pairs.lookup name = pairs.reverse.lookup name

theorem lookup_eq_none_of_not_mem {pairs : List (String × String)} {name : String} (h : name ∉ pairs.map Prod.fst) :
    pairs.lookup name = none := by
  rw [List.lookup_eq_none_iff]
  intro pair hpair
  rw [bne_iff_ne]
  rintro rfl
  exact h (List.mem_map.2 ⟨pair, hpair, rfl⟩)

theorem endsAgree_of_nodup {pairs : List (String × String)} (h : (pairs.map Prod.fst).Nodup) : EndsAgree pairs := by
  intro name
  induction pairs with
  | nil => rfl
  | cons pair rest ih =>
    obtain ⟨hnew, hrest⟩ := List.nodup_cons.1 h
    rw [List.reverse_cons, List.lookup_append, ← ih hrest, List.lookup_cons, List.lookup_cons]
    cases hname : name == pair.1 with
    | true =>
      rw [eq_of_beq hname, lookup_eq_none_of_not_mem hnew]
      rfl
    | false => rw [List.lookup_nil, Option.or_none]

theorem fields_eq_iff (pairs : List (String × String)) :
    Fields.lastOf pairs = Fields.firstOf pairs ↔ EndsAgree pairs := by
  unfold Fields.lastOf Fields.firstOf EndsAgree
  constructor
  · exact fun h name => (congrFun h name).symm
  · exact fun h => funext fun name => (h name).symm

/-- **In one line the last value of a name counts, in parts the first.**  The same pairs are the same fields exactly if
these two never differ, and then every server gives the same answer and is left the same. -/
theorem fields_submitted (r : HttpRequest) {b : Boundary} {pairs : List (String × String)}
    (hfits : ∀ pair ∈ pairs, Multipart.Fits b pair) (hline : (UrlEncoded.write pairs).length ≤ maxBodyBytes)
    (hparts : (Multipart.write b pairs).length ≤ maxBodyBytes) :
    (r.inOneLine pairs).fields = Fields.lastOf pairs ∧ (r.inParts b pairs).fields = Fields.firstOf pairs ∧
      ((r.inOneLine pairs).fields = (r.inParts b pairs).fields ↔ EndsAgree pairs) ∧
      (EndsAgree pairs → ∀ s moment, serve s moment (r.inOneLine pairs) = serve s moment (r.inParts b pairs)) := by
  have hlast := fields_inOneLine r hline
  have hfirst := fields_inParts r hfits hparts
  have hsame : (r.inOneLine pairs).fields = (r.inParts b pairs).fields ↔ EndsAgree pairs := by
    rw [hlast, hfirst]
    exact fields_eq_iff pairs
  have hclient : clientId (r.inOneLine pairs).headers (r.inOneLine pairs).peer =
      clientId (r.inParts b pairs).headers (r.inParts b pairs).peer :=
    (clientId_withBody r _ _).trans (clientId_withBody r _ _).symm
  exact ⟨hlast, hfirst, hsame, fun hagree => serve_congr rfl rfl hclient (hsame.2 hagree)⟩

def calculationRequest : HttpRequest :=
  ⟨"POST", Route.calculation.path, [], .v4 #v[192, 0, 2, 1], []⟩

def boundaryXB : Boundary :=
  ⟨['X', 'B'], List.cons_ne_nil _ _, List.all_eq_true.1 (by decide)⟩

/-- Pairs of which hardly a character stands as it is in either encoding. -/
def awkwardPairs : List (String × String) :=
  [("a \"b\\\"=&", "1+1 = 2 %\r\n--X"), ("größe", "💶\u0000;"), ("", "")]

theorem fields_submitted_awkward :
    (∀ pair ∈ awkwardPairs, Multipart.Fits boundaryXB pair) ∧ EndsAgree awkwardPairs ∧
      (calculationRequest.inOneLine awkwardPairs).fields =
        (calculationRequest.inParts boundaryXB awkwardPairs).fields := by
  have hfits : ∀ pair ∈ awkwardPairs, Multipart.Fits boundaryXB pair := by decide +kernel
  have hagree : EndsAgree awkwardPairs := endsAgree_of_nodup (by decide)
  exact ⟨hfits, hagree, (fields_submitted _ hfits (by decide +kernel) (by decide +kernel)).2.2.1.2 hagree⟩

def twoPrincipals : List (String × String) :=
  [("principal", "100"), ("principal", "200"), ("rate", "5"), ("time", "2"), ("time_unit", "Years"),
    ("interest_type", "simple")]

/-- **A repeated name tells the encodings apart**: the same pairs, sent to the same server at the same moment, are two
calculations. -/
theorem answers_of_twoPrincipals :
    (∀ pair ∈ twoPrincipals, Multipart.Fits boundaryXB pair) ∧
      (UrlEncoded.write twoPrincipals).length ≤ maxBodyBytes ∧
      (Multipart.write boundaryXB twoPrincipals).length ≤ maxBodyBytes ∧
      (calculationRequest.inOneLine twoPrincipals).fields "principal" = some "200" ∧
      (calculationRequest.inParts boundaryXB twoPrincipals).fields "principal" = some "100" ∧
      let answer (r : HttpRequest) := (serve (.start ⟨.ofPlan .standard, .html⟩) ⟨0, 0, 0⟩ r).1
      (answer (calculationRequest.inOneLine twoPrincipals)).map HttpResponse.body ≠
        (answer (calculationRequest.inParts boundaryXB twoPrincipals)).map HttpResponse.body := by
  decide +kernel

end Http
end InterestDesk
