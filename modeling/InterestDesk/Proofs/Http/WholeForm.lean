import InterestDesk.Proofs.Admission.Effect
import InterestDesk.Proofs.Admission.Run
import InterestDesk.Proofs.Desk.Footprints
import InterestDesk.Proofs.Http.Counting
import InterestDesk.Proofs.Http.Encodings
/-!
# WholeForm — a multipart form is read whole or not at all

`Whole` says of a stream that nothing in it fails: it ends well, and every part with a name has a text.  A whole
stream gives each name the text of the first part so named, wherever that part stands and whatever stands around it.
Any other stream gives the empty form, and so does a request in which no stream can be looked for
(`decodes_whole_or_nothing`).  An empty form is no reason to let a request by: it is checked, charged and counted like
any other (`Charged`).
-/
namespace InterestDesk
namespace Http

namespace Multipart.Parts

/-- The parts of a stream in order, each with its name and its text. -/
def items : Parts → List (Option String × Option String)
  | done => []
  | failed => []
  | part name text next => (name, text) :: next.items

/-- Whether the search for the next part never fails. -/
def Ends : Parts → Prop
  | done => True
  | failed => False
  | part _ _ next => next.Ends

/-- Nothing that a reader of named texts asks of the stream fails. -/
structure Whole (p : Parts) : Prop where
  ends : p.Ends
  texts : ∀ item ∈ p.items, item.1 ≠ none → item.2 ≠ none

theorem whole_done : done.Whole :=
  ⟨trivial, fun _ h => absurd h List.not_mem_nil⟩

theorem whole_part_iff {name text : Option String} {next : Parts} :
    (part name text next).Whole ↔ (name ≠ none → text ≠ none) ∧ next.Whole := by
  constructor
  · rintro ⟨hends, htexts⟩
    obtain ⟨htext, hrest⟩ := List.forall_mem_cons.1 htexts
    exact ⟨htext, hends, hrest⟩
  · rintro ⟨htext, hends, hrest⟩
    exact ⟨hends, List.forall_mem_cons.2 ⟨htext, hrest⟩⟩

/-- **The named texts come out exactly if nothing fails.** -/
theorem isSome_pairs?_iff (p : Parts) : p.pairs?.isSome = true ↔ p.Whole := by
  induction p with
  | done => exact iff_of_true rfl whole_done
  | failed => exact iff_of_false Bool.false_ne_true fun h => h.ends
  | part name text next ih =>
    rw [whole_part_iff, ← ih]
    cases name with
    | none => exact ⟨fun h => ⟨fun hname => absurd rfl hname, h⟩, fun h => h.2⟩
    | some name =>
      cases text with
      | none => exact iff_of_false Bool.false_ne_true fun h => h.1 (Option.some_ne_none name) rfl
      | some text =>
        rw [pairs?, Option.isSome_map]
        exact ⟨fun h => ⟨fun _ => Option.some_ne_none text, h⟩, fun h => h.2⟩

instance (p : Parts) : Decidable p.Whole :=
  decidable_of_iff _ (isSome_pairs?_iff p)

/-- What fails at the head of a stream: the search for a part, or the text of a part with a name. -/
inductive Fails : Parts → Prop where
  | search : failed.Fails
  | text (name : String) (next : Parts) : (part (some name) none next).Fails

/-- A stream behind some parts. -/
def behind (rest : Parts) (items : List (Option String × Option String)) : Parts :=
  items.foldr (fun item next => part item.1 item.2 next) rest

theorem Fails.not_whole {p : Parts} (h : p.Fails) : ¬ p.Whole := by
  cases h with
  | search => exact fun h => h.ends
  | text name next => exact fun h => (whole_part_iff.1 h).1 nofun rfl

theorem whole_of_behind {rest : Parts} : ∀ {items : List (Option String × Option String)},
    (rest.behind items).Whole → rest.Whole
  | [], h => h
  | _ :: items, h => by
    have hnext : (rest.behind items).Whole := (whole_part_iff.1 h).2
    exact whole_of_behind hnext

theorem exists_fails : ∀ {p : Parts}, ¬ p.Whole → ∃ items rest, p = behind rest items ∧ rest.Fails
  | done, h => absurd whole_done h
  | failed, _ => ⟨[], failed, rfl, .search⟩
  | part name text next, h => by
    by_cases htext : name ≠ none → text ≠ none
    · have hnext : ¬ next.Whole := fun hwhole => h (whole_part_iff.2 ⟨htext, hwhole⟩)
      obtain ⟨items, rest, hrest, hfails⟩ := exists_fails hnext
      exact ⟨(name, text) :: items, rest, congrArg (part name text) hrest, hfails⟩
    · -- nothing behind this part is read
      rw [Classical.not_imp, not_not, Option.ne_none_iff_exists'] at htext
      obtain ⟨⟨n, rfl⟩, rfl⟩ := htext
      exact ⟨[], _, rfl, .text n next⟩

/-- **What is not whole fails somewhere**: behind any number of parts, whatever would come after it. -/
theorem not_whole_iff (p : Parts) : ¬ p.Whole ↔ ∃ items rest, p = behind rest items ∧ rest.Fails := by
  refine ⟨exists_fails, ?_⟩
  rintro ⟨items, rest, rfl, hfails⟩
  exact fun h => hfails.not_whole (whole_of_behind h)

/-- The first pair of a name is the first part of that name: a part without a name is no one's. -/
theorem lookup_pairs? : ∀ {p : Parts} {pairs : List (String × String)}, p.pairs? = some pairs →
    ∀ name, pairs.lookup name = (p.items.lookup (some name)).join
  | done, _, h, _ => by
    cases h
    rfl
  | part none text next, pairs, h, name => by
    rw [items, List.lookup_cons, show (some name == none) = false from rfl]
    exact lookup_pairs? (p := next) h name
  | part (some other) (some text) next, pairs, h, name => by
    obtain ⟨rest, hrest, rfl⟩ := Option.map_eq_some_iff.1 h
    have ih := lookup_pairs? hrest name
    rw [items, List.lookup_cons, List.lookup_cons, show (some name == some other) = (name == other) from rfl]
    cases name == other with
    | true => rfl
    | false => exact ih

/-- The fields of a stream, the first part of a name counting; none if anything in it fails. -/
def fields (p : Parts) : Fields :=
  match p.pairs? with
  | some pairs => Fields.firstOf pairs
  | none => Fields.empty

theorem fields_of_not_whole {p : Parts} (h : ¬ p.Whole) : p.fields = Fields.empty := by
  have hnone : p.pairs? = none := by rwa [← isSome_pairs?_iff, Option.not_isSome_iff_eq_none] at h
  unfold fields
  rw [hnone]

theorem fields_of_whole {p : Parts} (h : p.Whole) (name : String) :
    p.fields name = (p.items.lookup (some name)).join := by
  obtain ⟨pairs, hpairs⟩ := Option.isSome_iff_exists.1 ((isSome_pairs?_iff p).2 h)
  unfold fields
  rw [hpairs]
  exact lookup_pairs? hpairs name

theorem fields_eq_some_iff {p : Parts} (h : p.Whole) {name value : String} :
    p.fields name = some value ↔
      ∃ before after, p.items = before ++ (some name, some value) :: after ∧ ∀ item ∈ before, item.1 ≠ some name := by
  rw [fields_of_whole h, Option.join_eq_some_iff, List.lookup_eq_some_iff]
  constructor
  · rintro ⟨before, after, hitems, hbefore⟩
    exact ⟨before, after, hitems, fun item hitem => (bne_iff_ne.1 (hbefore item hitem)).symm⟩
  · rintro ⟨before, after, hitems, hbefore⟩
    exact ⟨before, after, hitems, fun item hitem => bne_iff_ne.2 (hbefore item hitem).symm⟩

/-- A name has no value only where no part has the name: a part that has it has a text as well. -/
theorem fields_eq_none_iff {p : Parts} (h : p.Whole) {name : String} :
    p.fields name = none ↔ ∀ item ∈ p.items, item.1 ≠ some name := by
  have hlookup : p.items.lookup (some name) = none ↔ ∀ item ∈ p.items, item.1 ≠ some name := by
    simp only [List.lookup_eq_none_iff, bne_iff_ne, ne_comm]
  have htext : p.items.lookup (some name) ≠ some none := by
    intro hsome
    obtain ⟨before, after, hitems, -⟩ := List.lookup_eq_some_iff.1 hsome
    have hmem : (some name, none) ∈ p.items := hitems ▸ List.mem_append_right before List.mem_cons_self
    exact h.texts _ hmem nofun rfl
  rw [fields_of_whole h, Option.join_eq_none_iff, ← hlookup]
  exact or_iff_left htext

end Multipart.Parts

/-- The parts of a request's body, if its content type says where to look for them; a body that is too long fails. -/
def HttpRequest.parts? (r : HttpRequest) : Option Multipart.Parts :=
  ((r.headers.firstVisible? contentType).bind MediaType.boundary?).map fun boundary =>
    if maxBodyBytes < r.body.length then .failed else Multipart.parts (Text.Utf8.encode boundary) r.body

/-- The fields of the parts that may be there. -/
def formOf : Option Multipart.Parts → Fields
  | some p => p.fields
  | none => Fields.empty

/-- Whether there are no parts to look for, or not all that is looked for is found. -/
def Unreadable (source : Option Multipart.Parts) : Prop :=
  ∀ p ∈ source, ¬ p.Whole

instance (source : Option Multipart.Parts) : Decidable (Unreadable source) :=
  inferInstanceAs (Decidable (∀ p ∈ source, ¬ p.Whole))

theorem formOf_of_unreadable {source : Option Multipart.Parts} (h : Unreadable source) :
    formOf source = Fields.empty := by
  cases source with
  | none => rfl
  | some p => exact Multipart.Parts.fields_of_not_whole (h p rfl)

theorem fields_of_isMultipart {r : HttpRequest} (h : isMultipart r.headers = true) : r.fields = formOf r.parts? := by
  unfold HttpRequest.fields readFields HttpRequest.parts? multipartPairs?
  rw [if_pos h]
  cases (r.headers.firstVisible? contentType).bind MediaType.boundary? with
  | none => exact ite_self _
  | some boundary =>
    rw [Option.map_some]
    by_cases hlong : maxBodyBytes < r.body.length
    · rw [if_pos hlong, if_pos hlong]
      rfl
    · rw [if_neg hlong, if_neg hlong]
      rfl

/-- **A request whose fields are empty is an empty form** to every server. -/
theorem serve_of_empty {r : HttpRequest} (h : r.fields = Fields.empty) (s : Service) (moment : Moment) :
    serve s moment r = serve s moment (r.inOneLine []) := by
  have htarget : r.target = (r.inOneLine []).target := rfl
  have hmethod : r.method = (r.inOneLine []).method := rfl
  have hclient : clientId r.headers r.peer = clientId (r.inOneLine []).headers (r.inOneLine []).peer :=
    (clientId_withBody r _ _).symm
  have hline : (r.inOneLine []).fields = Fields.empty := fields_inOneLine r (Nat.zero_le maxBodyBytes)
  exact serve_congr htarget hmethod hclient (h.trans hline.symm) s moment

/-- The first field asked for is the one that an empty form is said to miss. -/
theorem calculate_empty (style : ReportStyle) :
    InterestDesk.calculate Fields.empty style = .error (.missingField "principal") :=
  rfl

/-- What the limiter of a service says to a request, and the limiter after it. -/
def checked (s : Service) (moment : Moment) (r : HttpRequest) : Decision × Limiter :=
  s.calculator.limiter.check (clientId r.headers r.peer) moment.now

/-- The times that the limiter of a service keeps for the client of a request. -/
def stored (s : Service) (r : HttpRequest) : List Int :=
  s.calculator.limiter.clients.times (clientId r.headers r.peer)

/-- Those of them that still count. -/
def live (s : Service) (moment : Moment) (r : HttpRequest) : List Int :=
  (stored s r).filter (s.calculator.limiter.allowance.isLive moment.now)

/-- What becomes of a request with nothing to calculate: its client is checked, one that is admitted is charged and told
that the principal is missing, one that is turned away is told that, and either is counted as what it is told. -/
structure Charged (s : Service) (moment : Moment) (r : HttpRequest) : Prop where
  limiter_eq : (serve s moment r).2.calculator.limiter = (checked s moment r).2
  admitted : (checked s moment r).1.allowed = true →
    stored (serve s moment r).2 r = live s moment r ++ [moment.now] ∧
      (serve s moment r).1 = some (.json 200 [] (Payload.error "Missing required field: 'principal'").json) ∧
      ∀ o, (serve s moment r).2.tally.count o = s.tally.count o + if o = .failed then 1 else 0
  turnedAway : (checked s moment r).1.allowed = false →
    stored (serve s moment r).2 r = live s moment r ∧
      (serve s moment r).1 = answerOf? (.ok (.rejected (checked s moment r).1.retryAfter)) ∧
      (∀ answer ∈ (serve s moment r).1, Shows answer .rateLimited) ∧
      ∀ o, (serve s moment r).2.tally.count o = s.tally.count o + if o = .rateLimited then 1 else 0
  total_eq : (serve s moment r).2.tally.total = s.tally.total + 1

theorem charged_of_empty {s : Service} (hopen : s.isOpen = true) (hdistinct : s.calculator.limiter.clients.Distinct)
    {r : HttpRequest} (hr : r.isCalculation = true) (hempty : r.fields = Fields.empty) (moment : Moment) :
    Charged s moment r := by
  have hserve : serve s moment r = conclude moment (s.ask (visitOf moment r)) := serve_of_isCalculation hr s moment
  have hsaid : (s.ask (visitOf moment r)).1 = .ok (if (checked s moment r).1.allowed
      then .completed (.error (.missingField "principal")) else .rejected (checked s moment r).1.retryAfter) := by
    rw [Service.ask_of_isOpen hopen, ← calculate_empty s.calculator.style, ← hempty]
    rfl
  have hlimiter : (serve s moment r).2.calculator.limiter = (checked s moment r).2 := by
    rw [hserve]
    unfold conclude
    rw [Service.ask_of_isOpen hopen]
    rfl
  have hstored : stored (serve s moment r).2 r =
      live s moment r ++ if (checked s moment r).1.allowed then [moment.now] else [] := by
    unfold stored Roster.times
    rw [hlimiter]
    exact congrArg (Option.getD · []) (Limiter.lookup_check_self hdistinct _ _)
  obtain ⟨hshows, htotal, hcount⟩ := (spoken_ask s (visitOf moment r)).conclude moment
  rw [← hserve] at hshows htotal hcount
  refine ⟨hlimiter, fun hallowed => ?_, fun hrefused => ?_, htotal⟩
  · rw [if_pos hallowed] at hsaid hstored
    rw [hsaid] at hcount
    refine ⟨hstored, ?_, hcount⟩
    rw [hserve]
    exact congrArg answerOf? hsaid
  · rw [hrefused] at hsaid hstored
    have hanswer : (serve s moment r).1 = answerOf? (.ok (.rejected (checked s moment r).1.retryAfter)) := by
      rw [hserve]
      exact congrArg answerOf? hsaid
    rw [hsaid] at hshows hcount
    exact ⟨hstored.trans (List.append_nil _), hanswer, hshows, hcount⟩

/-- Whatever a service has met so far, while it has not ended it charges a request with nothing to calculate. -/
theorem charged_after (plan : LimiterPlan) (style : ReportStyle) {past : List Incident}
    (hpast : ∀ x ∈ past, x.endsService = false) {r : HttpRequest} (hr : r.isCalculation = true)
    (hempty : r.fields = Fields.empty) (moment : Moment) : Charged (after ⟨.ofPlan plan, style⟩ past) moment r := by
  have hopen : (after ⟨.ofPlan plan, style⟩ past).isOpen = true := by
    rw [isOpen_after, List.all_eq_true]
    intro x hx
    rw [hpast x hx]
    rfl
  have htidy : (after ⟨.ofPlan plan, style⟩ past).calculator.limiter.Tidy := by
    rw [(tracked_after _ past).calculator_eq, Calculator.limiter_after]
    exact (Limiter.tidy_ofPlan plan).after _
  exact charged_of_empty hopen htidy.distinct hr hempty moment

/-- **A multipart form is read whole or not at all, and costs the same.**  A stream of parts in which nothing fails
gives each name the text of the first part so named, and has no value only for the names that no part has; parts
without a name do not matter.  A stream in which something fails, behind however many parts, gives the empty form, and
so does a request without a stream.  Such a request is an empty form to every server.  While the service has not ended
its client is checked, and if it is admitted it is charged, told that the principal is missing, and counted as failed;
if not, it is told and counted as any other that is turned away. -/
theorem decodes_whole_or_nothing :
    (∀ p : Multipart.Parts, p.Whole → ∀ name,
      (∀ value, formOf (some p) name = some value ↔
        ∃ before after, p.items = before ++ (some name, some value) :: after ∧ ∀ item ∈ before, item.1 ≠ some name) ∧
      (formOf (some p) name = none ↔ ∀ item ∈ p.items, item.1 ≠ some name)) ∧
    (∀ p : Multipart.Parts, ¬ p.Whole ↔ ∃ items, ∃ rest : Multipart.Parts, p = rest.behind items ∧ rest.Fails) ∧
    (∀ source, Unreadable source → formOf source = Fields.empty) ∧
    ∀ r : HttpRequest, isMultipart r.headers = true →
      r.fields = formOf r.parts? ∧
      (Unreadable r.parts? →
        (∀ s moment, serve s moment r = serve s moment (r.inOneLine [])) ∧
        (r.isCalculation = true → ∀ plan style past, (∀ x ∈ past, x.endsService = false) →
          ∀ moment, Charged (after ⟨.ofPlan plan, style⟩ past) moment r)) := by
  refine ⟨fun p hp name => ⟨fun value => ?_, ?_⟩, Multipart.Parts.not_whole_iff, fun source h => formOf_of_unreadable h,
    fun r hr => ?_⟩
  · exact Multipart.Parts.fields_eq_some_iff hp
  · exact Multipart.Parts.fields_eq_none_iff hp
  · have hfields := fields_of_isMultipart hr
    refine ⟨hfields, fun hunreadable => ?_⟩
    have hempty : r.fields = Fields.empty := hfields.trans (formOf_of_unreadable hunreadable)
    exact ⟨serve_of_empty hempty, fun hcalculation plan style past hpast =>
      charged_after plan style hpast hcalculation hempty⟩

/-- Two parts of one name with one of no name between them, whose text no one asks for. -/
def nameless : Multipart.Parts :=
  .part (some "principal") (some "100") (.part none none (.part (some "principal") (some "200") .done))

/-- A calculation request whose last part goes on to the end of the body. -/
def cutRequest : HttpRequest :=
  calculationRequest.withBody boundaryXB.mediaType (twoPrincipals.flatMap (Multipart.writePart boundaryXB))

/-- One request a window. -/
def oneAWindow : LimiterPlan :=
  ⟨⟨1, 10⟩, 0, 0⟩

/-- Five of the six parts can be read, and none of them counts: the request is charged, and by then it is too many. -/
theorem decodes_whole_or_nothing_cut :
    let served (past : List Incident) (now : Int) :=
      (serve (after ⟨.ofPlan oneAWindow, .html⟩ past) ⟨now, 0, 0⟩ cutRequest).1
    (nameless.Whole ∧ formOf (some nameless) "principal" = some "100") ∧
      (isMultipart cutRequest.headers = true ∧ cutRequest.isCalculation = true ∧ Unreadable cutRequest.parts?) ∧
      cutRequest.parts?.map (fun p => p.items.map Prod.snd) =
        some [some "100", some "200", some "5", some "2", some "Years", none] ∧
      cutRequest.fields = Fields.empty ∧
      served [] 3 = some (.json 200 [] (Payload.error "Missing required field: 'principal'").json) ∧
      ∃ answer, served [.request ⟨3, 0, 0⟩ cutRequest] 4 = some answer ∧ Shows answer .rateLimited := by
  intro served
  obtain ⟨hwhole, -, hnothing, hrequest⟩ := decodes_whole_or_nothing
  have hnameless : nameless.Whole := by decide
  have hmultipart : isMultipart cutRequest.headers = true := by decide +kernel
  have hcalculation : cutRequest.isCalculation = true := by decide +kernel
  have hunreadable : Unreadable cutRequest.parts? := by decide +kernel
  obtain ⟨hfields, hrest⟩ := hrequest cutRequest hmultipart
  obtain ⟨-, hcharged⟩ := hrest hunreadable
  have hfirst := hcharged hcalculation oneAWindow .html [] (fun _ h => absurd h List.not_mem_nil) ⟨3, 0, 0⟩
  have hsecond := hcharged hcalculation oneAWindow .html [.request ⟨3, 0, 0⟩ cutRequest]
    (List.forall_mem_singleton.2 rfl) ⟨4, 0, 0⟩
  refine ⟨⟨hnameless, ?_⟩, ⟨hmultipart, hcalculation, hunreadable⟩, by decide +kernel,
    hfields.trans (hnothing _ hunreadable), (hfirst.admitted (by decide +kernel)).2.1, ?_⟩
  · exact ((hwhole nameless hnameless "principal").1 "100").2 ⟨[], _, rfl, fun _ h => absurd h List.not_mem_nil⟩
  · obtain ⟨-, -, hshows, -⟩ := hsecond.turnedAway (by decide +kernel)
    have hanswered : (served [.request ⟨3, 0, 0⟩ cutRequest] 4).isSome = true := by decide +kernel
    obtain ⟨answer, hanswer⟩ := Option.isSome_iff_exists.1 hanswered
    exact ⟨answer, hanswer, hshows answer hanswer⟩

end Http
end InterestDesk
