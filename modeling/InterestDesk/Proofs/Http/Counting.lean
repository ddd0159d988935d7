import InterestDesk.Http.Server
import InterestDesk.Proofs.Desk.Footprints
import Mathlib.Data.List.Induction
import Mathlib.Data.List.TakeWhile
/-!
# Counting — what is answered is what is counted

`Shows` says what an answer with an outcome looks like.  Whatever the service says to a calculation request, its answer
shows one outcome and that outcome's counter goes up (`Spoken.conclude`); no other request counts.  A request is left
without an answer only if its client is turned away for longer than 64 bits of seconds can say (`meet_eq_none_iff`).  A
run is a list of incidents: requests, and the end of the service between two requests or over one (`Tallied`).
-/
namespace InterestDesk

def Tally.count (t : Tally) : Outcome → UInt64
  | .computed => t.computed
  | .failed => t.failed
  | .rateLimited => t.rateLimited
  | .error => t.errors

theorem Tally.count_record (t : Tally) (outcome : Outcome) (micros : UInt64) (o : Outcome) :
    (t.record outcome micros).count o = t.count o + if o = outcome then 1 else 0 := by
  cases outcome <;> cases o <;> simp [record, countOutcome, countLatency, count]

theorem Tally.activeClients_record (t : Tally) (outcome : Outcome) (micros : UInt64) :
    (t.record outcome micros).activeClients = t.activeClients := by
  cases outcome <;> rfl

theorem Text.Json.object_result_ne_error (text message : String) :
    object [("result", text)] ≠ object [("error", message)] := by
  intro h
  have hchars := congrArg (fun s : String => s.toList.take 3) h
  simp only [toList_object_singleton] at hchars
  have hnames : ['\x7b', '"', 'r'] = ['\x7b', '"', 'e'] := hchars
  exact absurd hnames (by decide)

def Response.Coherent (r : Response) : Prop :=
  r.rateLimited = true → ∃ refusal, r.outcome = .error refusal

theorem Calculator.coherent_handle (c : Calculator) (v : Visit) : (c.handle v.client v.fields v.now).1.Coherent := by
  unfold handle
  dsimp only
  split
  · exact nofun
  · exact fun _ => ⟨.rateLimited, rfl⟩

namespace Http

def HttpResponse.IsError (answer : HttpResponse) : Prop :=
  ∃ message, answer.body = Text.Json.object [("error", message)]

def HttpResponse.retryAfter? (answer : HttpResponse) : Option String :=
  answer.headers.first? "retry-after"

theorem HttpResponse.retryAfter?_json (status : Nat) (headers : Headers) (body : String) :
    (json status headers body).retryAfter? = headers.first? "retry-after" := by
  have hname : (Headers.folded contentType == Headers.folded "retry-after") = false := by decide
  unfold retryAfter? json Headers.first?
  rw [List.find?_cons, hname]

theorem Headers.first?_singleton (name value : String) : Headers.first? [(name, value)] name = some value := by
  unfold first?
  rw [List.find?_cons, beq_self_eq_true]
  rfl

/-- Whether an answer is that of a calculation with an outcome. -/
def Shows (answer : HttpResponse) : Outcome → Prop
  | .computed => answer.status = 200 ∧ ∃ text, answer.body = Text.Json.object [("result", text)]
  | .failed => answer.status = 200 ∧ answer.IsError
  | .rateLimited =>
    answer.status = 429 ∧ answer.IsError ∧ ∃ seconds, 1 ≤ seconds ∧ answer.retryAfter? = some (toString seconds)
  | .error => answer.status = 500 ∧ answer.IsError

theorem Shows.unique {answer : HttpResponse} {o outcome : Outcome} (h : Shows answer o) (h' : Shows answer outcome) :
    o = outcome := by
  have hbody : ∀ text message, answer.body = Text.Json.object [("result", text)] →
      answer.body ≠ Text.Json.object [("error", message)] := fun text message hresult herror =>
    Text.Json.object_result_ne_error text message (hresult.symm.trans herror)
  cases o <;> cases outcome <;> unfold Shows HttpResponse.IsError at h h' <;> grind

theorem retryAfterSeconds?_eq_some_iff {wait n : Nat} :
    retryAfterSeconds? wait = some n ↔ n = max 1 (Clock.secondsUp wait) ∧ Clock.secondsUp wait < UInt64.size := by
  unfold retryAfterSeconds?
  dsimp only
  rw [Option.ite_none_right_eq_some, Option.some_inj, and_comm, eq_comm]

theorem retryAfterSeconds?_eq_none_iff {wait : Nat} :
    retryAfterSeconds? wait = none ↔ UInt64.size ≤ Clock.secondsUp wait := by
  unfold retryAfterSeconds?
  dsimp only
  rw [ite_eq_right_iff, ← Nat.not_lt]
  exact ⟨fun h hlt => Option.some_ne_none _ (h hlt), fun h hlt => absurd hlt h⟩

/-- **An answer shows the outcome that is counted for it.** -/
theorem shows_answerOf? {said : Except ServiceError Response} (h : ∀ r, said = .ok r → r.Coherent) :
    ∀ answer ∈ answerOf? said, Shows answer (outcomeOf said) := by
  cases said with
  | error e =>
    rintro _ ⟨⟩
    exact ⟨rfl, _, rfl⟩
  | ok r =>
    unfold answerOf? outcomeOf
    dsimp only
    by_cases hlimited : r.rateLimited = true
    · obtain ⟨refusal, hrefusal⟩ := h r rfl hlimited
      rw [if_pos hlimited, if_pos hlimited, hrefusal]
      intro answer hanswer
      obtain ⟨seconds, hseconds, rfl⟩ := Option.map_eq_some_iff.1 hanswer
      have hpos : 1 ≤ seconds := (retryAfterSeconds?_eq_some_iff.1 hseconds).1 ▸ Nat.le_max_left 1 _
      refine ⟨rfl, ⟨_, rfl⟩, seconds, hpos, ?_⟩
      rw [HttpResponse.retryAfter?_json, Headers.first?_singleton]
    · rw [if_neg hlimited, if_neg hlimited]
      rintro _ ⟨⟩
      cases r.outcome with
      | ok text => exact ⟨rfl, text, rfl⟩
      | error refusal => exact ⟨rfl, _, rfl⟩

theorem retryAfter?_answerOf? {said : Except ServiceError Response} :
    ∀ answer ∈ answerOf? said, answer.retryAfter?.isSome = true ↔ outcomeOf said = .rateLimited := by
  cases said with
  | error e =>
    rintro _ ⟨⟩
    exact ⟨nofun, nofun⟩
  | ok r =>
    unfold answerOf? outcomeOf
    dsimp only
    by_cases hlimited : r.rateLimited = true
    · rw [if_pos hlimited, if_pos hlimited]
      intro answer hanswer
      obtain ⟨seconds, -, rfl⟩ := Option.map_eq_some_iff.1 hanswer
      rw [HttpResponse.retryAfter?_json, Headers.first?_singleton]
      exact ⟨fun _ => rfl, fun _ => rfl⟩
    · rw [if_neg hlimited, if_neg hlimited]
      rintro _ ⟨⟩
      cases r.outcome with
      | ok text => exact ⟨nofun, nofun⟩
      | error refusal => exact ⟨nofun, nofun⟩

/-- **Only a wait that cannot be said is left without an answer.** -/
theorem answerOf?_ok_eq_none_iff (r : Response) :
    answerOf? (.ok r) = none ↔ r.rateLimited = true ∧ UInt64.size ≤ Clock.secondsUp r.retryAfter := by
  unfold answerOf?
  dsimp only
  split
  · rename_i hlimited
    rw [Option.map_eq_none_iff, retryAfterSeconds?_eq_none_iff]
    exact (and_iff_right hlimited).symm
  · rename_i hroom
    exact iff_of_false (Option.some_ne_none _) fun h => hroom h.1

theorem outcomeOf_of_unanswered {said : Except ServiceError Response} (h : answerOf? said = none) :
    outcomeOf said = .rateLimited := by
  cases said with
  | error e => cases h
  | ok r => exact if_pos ((answerOf?_ok_eq_none_iff r).1 h).1

/-- What the service says to a request, before it is counted. -/
structure Spoken (s : Service) (said : Except ServiceError Response × Service) : Prop where
  total_eq : said.2.tally.total = s.tally.total
  count_eq : ∀ o, said.2.tally.count o = s.tally.count o
  coherent : ∀ r, said.1 = .ok r → r.Coherent
  error_iff : outcomeOf said.1 = .error ↔ said.2.isOpen = false

theorem outcomeOf_ok_ne_error (r : Response) : outcomeOf (.ok r) ≠ .error := by
  unfold outcomeOf
  dsimp only
  split
  · exact nofun
  · split
    · exact nofun
    · exact nofun

theorem spoken_ask (s : Service) (v : Visit) : Spoken s (s.ask v) := by
  cases hopen : s.isOpen with
  | true =>
    rw [Service.ask_of_isOpen hopen]
    refine ⟨rfl, fun o => ?_, ?_, ?_⟩
    · cases o <;> rfl
    · rintro _ ⟨⟩
      exact s.calculator.coherent_handle v
    · dsimp only
      rw [hopen]
      exact ⟨fun h => absurd h (outcomeOf_ok_ne_error _), nofun⟩
  | false =>
    rw [Service.ask_of_closed hopen]
    exact ⟨rfl, fun _ => rfl, nofun, fun _ => hopen, fun _ => rfl⟩

theorem answerOf?_ask_eq_none_iff (s : Service) (v : Visit) :
    answerOf? (s.ask v).1 = none ↔ s.isOpen = true ∧ (s.calculator.limiter.check v.client v.now).1.allowed = false ∧
      UInt64.size ≤ Clock.secondsUp (s.calculator.limiter.check v.client v.now).1.retryAfter := by
  cases hopen : s.isOpen with
  | true =>
    rw [Service.ask_of_isOpen hopen, answerOf?_ok_eq_none_iff, Calculator.rateLimited_handle,
      Calculator.retryAfter_handle, Bool.not_eq_true']
    exact (and_iff_right rfl).symm
  | false =>
    rw [Service.ask_of_closed hopen]
    exact iff_of_false (Option.some_ne_none _) fun h => Bool.false_ne_true h.1

theorem spoken_cutShort (s : Service) : Spoken s s.cutShort :=
  ⟨rfl, fun o => by cases o <;> rfl, nofun, fun _ => rfl, fun _ => rfl⟩

/-- **A request is counted as it is answered.** -/
theorem Spoken.conclude {s : Service} {said : Except ServiceError Response × Service} (h : Spoken s said)
    (moment : Moment) :
    (∀ answer ∈ (conclude moment said).1, Shows answer (outcomeOf said.1)) ∧
      (conclude moment said).2.tally.total = s.tally.total + 1 ∧
      ∀ o, (conclude moment said).2.tally.count o = s.tally.count o + if o = outcomeOf said.1 then 1 else 0 := by
  refine ⟨shows_answerOf? h.coherent, ?_, fun o => ?_⟩
  · rw [← h.total_eq]
    exact (said.2.tally.record_total (outcomeOf said.1) moment.latencyMicros).1
  · rw [← h.count_eq]
    exact said.2.tally.count_record (outcomeOf said.1) moment.latencyMicros o

theorem serve_of_isCalculation {r : HttpRequest} (h : r.isCalculation = true) (s : Service) (moment : Moment) :
    serve s moment r = calculate s moment r := by
  unfold HttpRequest.isCalculation at h
  rw [Bool.and_eq_true, beq_iff_eq, beq_iff_eq] at h
  unfold serve
  rw [h.1, if_pos h.2]

theorem serve_of_not_isCalculation {r : HttpRequest} (h : r.isCalculation = false) (s : Service) (moment : Moment) :
    ∃ answer, serve s moment r = (some answer, s) ∧ answer.retryAfter? = none := by
  unfold HttpRequest.isCalculation at h
  unfold serve
  split
  · exact ⟨_, rfl, rfl⟩
  · rename_i hroute
    rw [hroute, beq_self_eq_true, Bool.true_and] at h
    rw [if_neg (by simpa using h)]
    exact ⟨_, rfl, rfl⟩
  · rename_i route hcalculation hroute
    have hpage : (page s moment route).retryAfter? = none := by cases route <;> rfl
    have hrefused : (HttpResponse.methodNotAllowed route).retryAfter? = none := by cases route <;> rfl
    split
    · exact ⟨_, rfl, hpage⟩
    · split
      · exact ⟨_, rfl, hpage⟩
      · exact ⟨_, rfl, hrefused⟩

inductive Incident where
  | request (moment : Moment) (r : HttpRequest)
  /-- a request over which the service ends -/
  | cutShort (moment : Moment) (r : HttpRequest)
  /-- the service ends between two requests -/
  | close

namespace Incident

def isCalculation : Incident → Bool
  | request _ r => r.isCalculation
  | cutShort _ r => r.isCalculation
  | close => false

def endsService : Incident → Bool
  | request _ _ => false
  | _ => true

/-- The visit that an open service hands to its calculator. -/
def visit? : Incident → Option Visit
  | request moment r => if r.isCalculation then some (visitOf moment r) else none
  | _ => none

def meet (s : Service) : Incident → Option HttpResponse × Service
  | request moment r => serve s moment r
  | cutShort moment r => serveCutShort s moment r
  | close => (none, s.close)

/-- Whether an incident is the visit of a client that is turned away for longer than 64 bits of seconds can say. -/
def Overruns (s : Service) (x : Incident) : Prop :=
  s.isOpen = true ∧ ∃ v, x.visit? = some v ∧ (s.calculator.limiter.check v.client v.now).1.allowed = false ∧
    UInt64.size ≤ Clock.secondsUp (s.calculator.limiter.check v.client v.now).1.retryAfter

theorem exists_spoken {x : Incident} (h : x.isCalculation = true) (s : Service) :
    ∃ moment said, Spoken s said ∧ x.meet s = conclude moment said := by
  cases x with
  | request moment r =>
    exact ⟨moment, _, spoken_ask s (visitOf moment r), serve_of_isCalculation h s moment⟩
  | cutShort moment r =>
    exact ⟨moment, _, spoken_cutShort s, if_pos h⟩
  | close => cases h

theorem serveCutShort_of_not_isCalculation {r : HttpRequest} (h : r.isCalculation = false) (s : Service)
    (moment : Moment) : serveCutShort s moment r = ((serve s moment r).1, s.close) := by
  unfold serveCutShort
  rw [h, if_neg Bool.false_ne_true]

theorem meet_of_not_isCalculation {x : Incident} (h : x.isCalculation = false) (s : Service) :
    (x.meet s).2 = (if x.endsService then s.close else s) ∧ ∀ answer ∈ (x.meet s).1, answer.retryAfter? = none := by
  cases x with
  | request moment r =>
    obtain ⟨answer, hserve, hretry⟩ := serve_of_not_isCalculation h s moment
    show (serve s moment r).2 = _ ∧ ∀ answer ∈ (serve s moment r).1, _
    rw [hserve]
    refine ⟨rfl, ?_⟩
    rintro _ ⟨⟩
    exact hretry
  | cutShort moment r =>
    obtain ⟨answer, hserve, hretry⟩ := serve_of_not_isCalculation h s moment
    show (serveCutShort s moment r).2 = _ ∧ ∀ answer ∈ (serveCutShort s moment r).1, _
    rw [serveCutShort_of_not_isCalculation h, hserve]
    refine ⟨rfl, ?_⟩
    rintro _ ⟨⟩
    exact hretry
  | close => exact ⟨rfl, nofun⟩

theorem overruns_request {moment : Moment} {r : HttpRequest} {s : Service} :
    (request moment r).Overruns s ↔ r.isCalculation = true ∧ answerOf? (s.ask (visitOf moment r)).1 = none := by
  have hvisit : visit? (.request moment r) = if r.isCalculation then some (visitOf moment r) else none := rfl
  unfold Overruns
  rw [answerOf?_ask_eq_none_iff, hvisit]
  cases hr : r.isCalculation with
  | true => simp
  | false => simp

/-- **A request is left without an answer only if its wait cannot be said.** -/
theorem meet_eq_none_iff (x : Incident) (s : Service) : (x.meet s).1 = none ↔ x = .close ∨ x.Overruns s := by
  cases x with
  | request moment r =>
    show (serve s moment r).1 = none ↔ _
    rw [overruns_request]
    cases hr : r.isCalculation with
    | true =>
      rw [serve_of_isCalculation hr]
      simp [calculate, conclude]
    | false =>
      obtain ⟨answer, hserve, -⟩ := serve_of_not_isCalculation hr s moment
      rw [hserve]
      simp
  | cutShort moment r =>
    -- it is no visit, so it has to be answered
    have hno : ¬ (cutShort moment r).Overruns s := by
      rintro ⟨-, v, hv, -⟩
      cases hv
    refine iff_of_false ?_ fun h => h.elim nofun hno
    show (serveCutShort s moment r).1 ≠ none
    cases hr : r.isCalculation with
    | true =>
      rw [show serveCutShort s moment r = conclude moment s.cutShort from if_pos hr]
      exact Option.some_ne_none _
    | false =>
      obtain ⟨answer, hserve, -⟩ := serve_of_not_isCalculation hr s moment
      rw [serveCutShort_of_not_isCalculation hr, hserve]
      exact Option.some_ne_none answer
  | close => exact iff_of_true rfl (.inl rfl)

theorem isOpen_ask (s : Service) (v : Visit) : (s.ask v).2.isOpen = s.isOpen := by
  cases hopen : s.isOpen with
  | true =>
    rw [Service.ask_of_isOpen hopen]
    exact hopen
  | false =>
    rw [Service.ask_of_closed hopen]
    exact hopen

theorem isOpen_meet (x : Incident) (s : Service) : (x.meet s).2.isOpen = (s.isOpen && !x.endsService) := by
  cases x with
  | request moment r =>
    show (serve s moment r).2.isOpen = (s.isOpen && true)
    rw [Bool.and_true]
    cases h : r.isCalculation with
    | true =>
      rw [serve_of_isCalculation h]
      exact isOpen_ask s (visitOf moment r)
    | false =>
      obtain ⟨answer, hserve, -⟩ := serve_of_not_isCalculation h s moment
      rw [hserve]
  | cutShort moment r =>
    show (serveCutShort s moment r).2.isOpen = (s.isOpen && false)
    unfold serveCutShort
    rw [Bool.and_false]
    split
    · rfl
    · rfl
  | close => exact (Bool.and_false _).symm

/-- An open service hands the visit to its calculator and notes how many clients it tracks. -/
theorem meet_of_visit {x : Incident} {v : Visit} (hv : x.visit? = some v) {s : Service} (hopen : s.isOpen = true) :
    (x.meet s).2.calculator = (s.calculator.handle v.client v.fields v.now).2 ∧
      (x.meet s).2.tally.activeClients = (s.calculator.handle v.client v.fields v.now).2.limiter.size := by
  cases x with
  | request moment r =>
    unfold visit? at hv
    dsimp only at hv
    split at hv
    · rename_i h
      cases hv
      show (serve s moment r).2.calculator = _ ∧ (serve s moment r).2.tally.activeClients = _
      rw [serve_of_isCalculation h]
      unfold calculate
      rw [Service.ask_of_isOpen hopen]
      exact ⟨rfl, Tally.activeClients_record ..⟩
    · cases hv
  | cutShort moment r => cases hv
  | close => cases hv

/-- Without a visit to an open service its calculator stays as it is. -/
theorem meet_of_no_visit {x : Incident} {s : Service} (h : s.isOpen = false ∨ x.visit? = none) :
    (x.meet s).2.calculator = s.calculator ∧ (x.meet s).2.tally.activeClients = s.tally.activeClients := by
  cases x with
  | request moment r =>
    show (serve s moment r).2.calculator = _ ∧ (serve s moment r).2.tally.activeClients = _
    cases hr : r.isCalculation with
    | true =>
      have hclosed : s.isOpen = false := by
        refine h.resolve_right fun hv => ?_
        unfold visit? at hv
        dsimp only at hv
        rw [if_pos hr] at hv
        cases hv
      rw [serve_of_isCalculation hr]
      unfold calculate
      rw [Service.ask_of_closed hclosed]
      exact ⟨rfl, Tally.activeClients_record ..⟩
    | false =>
      obtain ⟨answer, hserve, -⟩ := serve_of_not_isCalculation hr s moment
      rw [hserve]
      exact ⟨rfl, rfl⟩
  | cutShort moment r =>
    show (serveCutShort s moment r).2.calculator = _ ∧ (serveCutShort s moment r).2.tally.activeClients = _
    unfold serveCutShort
    split
    · exact ⟨rfl, Tally.activeClients_record ..⟩
    · exact ⟨rfl, rfl⟩
  | close => exact ⟨rfl, rfl⟩

end Incident

def after (calculator : Calculator) (incidents : List Incident) : Service :=
  incidents.foldl (fun s x => (x.meet s).2) (.start calculator)

theorem after_concat (calculator : Calculator) (incidents : List Incident) (x : Incident) :
    after calculator (incidents ++ [x]) = (x.meet (after calculator incidents)).2 :=
  List.foldl_append

/-- The counters of a tally of `n` calculation requests. -/
structure Tallied (n : Nat) (t : Tally) : Prop where
  total_eq : t.total = UInt64.ofNat n
  sum_eq : t.total = t.computed + t.failed + t.rateLimited + t.errors
  exact : n < UInt64.size → t.computed.toNat + t.failed.toNat + t.rateLimited.toNat + t.errors.toNat = n

theorem tallied_fresh : Tallied 0 Tally.fresh :=
  ⟨rfl, rfl, fun _ => rfl⟩

theorem Tallied.succ {n : Nat} {t t' : Tally} {outcome : Outcome} (h : Tallied n t) (htotal : t'.total = t.total + 1)
    (hcount : ∀ o, t'.count o = t.count o + if o = outcome then 1 else 0) : Tallied (n + 1) t' := by
  have hcomputed := hcount .computed
  have hfailed := hcount .failed
  have hrateLimited := hcount .rateLimited
  have herrors := hcount .error
  simp only [Tally.count] at hcomputed hfailed hrateLimited herrors
  refine ⟨?_, ?_, fun hn => ?_⟩
  · rw [htotal, h.total_eq, UInt64.ofNat_add]
    rfl
  · rw [htotal, h.sum_eq, hcomputed, hfailed, hrateLimited, herrors]
    cases outcome <;> simp <;> ac_rfl
  · -- the four are `n` together, so none of them is at its last value
    have hsize : UInt64.size = 18446744073709551616 := rfl
    have hexact := h.exact (by omega)
    rw [hcomputed, hfailed, hrateLimited, herrors]
    cases outcome <;> simp [UInt64.toNat_add] <;> omega

/-- **The counters of every run agree** with each other and with the number of calculation requests. -/
theorem tallied_after (calculator : Calculator) (incidents : List Incident) :
    Tallied (incidents.countP Incident.isCalculation) (after calculator incidents).tally := by
  induction incidents using List.reverseRecOn with
  | nil => exact tallied_fresh
  | append_singleton past x ih =>
    rw [after_concat, List.countP_append, List.countP_singleton]
    cases hx : x.isCalculation with
    | true =>
      obtain ⟨moment, said, hspoken, hmeet⟩ := Incident.exists_spoken hx (after calculator past)
      obtain ⟨-, htotal, hcount⟩ := hspoken.conclude moment
      rw [hmeet]
      exact ih.succ htotal hcount
    | false =>
      have htally : (x.meet (after calculator past)).2.tally = (after calculator past).tally := by
        rw [(Incident.meet_of_not_isCalculation hx _).1]
        split <;> rfl
      rw [htally]
      exact ih

theorem isOpen_after (calculator : Calculator) (incidents : List Incident) :
    (after calculator incidents).isOpen = incidents.all fun x => !x.endsService := by
  induction incidents using List.reverseRecOn with
  | nil => rfl
  | append_singleton past x ih =>
    rw [after_concat, Incident.isOpen_meet, ih, List.all_append, List.all_cons, List.all_nil, Bool.and_true]

/-- The visits that the calculator handles before the service ends. -/
def handledVisits (incidents : List Incident) : List Visit :=
  (incidents.takeWhile fun x => !x.endsService).filterMap Incident.visit?

theorem handledVisits_concat_of_open {past : List Incident} (h : (past.all fun x => !x.endsService) = true)
    (x : Incident) : handledVisits (past ++ [x]) = handledVisits past ++ x.visit?.toList := by
  have hall := List.all_eq_true.1 h
  have hlast : ([x].takeWhile fun x => !x.endsService).filterMap Incident.visit? = x.visit?.toList := by
    cases x with
    | request moment r =>
      show [Incident.request moment r].filterMap Incident.visit? = _
      rw [List.filterMap_cons, List.filterMap_nil]
      cases (Incident.request moment r).visit? <;> rfl
    | cutShort moment r => rfl
    | close => rfl
  unfold handledVisits
  rw [List.takeWhile_append_of_pos hall, List.filterMap_append, hlast, List.takeWhile_eq_self_iff.2 hall]

theorem handledVisits_concat_of_ended {past : List Incident} (h : (past.all fun x => !x.endsService) = false)
    (x : Incident) : handledVisits (past ++ [x]) = handledVisits past := by
  unfold handledVisits
  rw [List.takeWhile_append, if_neg]
  intro hlength
  have hself := (List.takeWhile_prefix _).eq_of_length hlength
  have hall := List.all_eq_true.2 (List.takeWhile_eq_self_iff.1 hself)
  rw [h] at hall
  cases hall

/-- The calculator of a service that met these incidents, and what the gauge shows of it. -/
structure Tracked (calculator : Calculator) (incidents : List Incident) (s : Service) : Prop where
  calculator_eq : s.calculator = calculator.after (handledVisits incidents)
  gauge_nil : handledVisits incidents = [] → s.tally.activeClients = 0
  gauge_ne_nil : handledVisits incidents ≠ [] →
    s.tally.activeClients = (calculator.after (handledVisits incidents)).limiter.size

theorem Tracked.frame {calculator : Calculator} {incidents incidents' : List Incident} {s s' : Service}
    (h : Tracked calculator incidents s) (hvisits : handledVisits incidents' = handledVisits incidents)
    (hstate : s'.calculator = s.calculator ∧ s'.tally.activeClients = s.tally.activeClients) :
    Tracked calculator incidents' s' := by
  refine ⟨?_, ?_, ?_⟩
  · rw [hvisits, hstate.1]
    exact h.calculator_eq
  · rw [hvisits, hstate.2]
    exact h.gauge_nil
  · rw [hvisits, hstate.2]
    exact h.gauge_ne_nil

theorem tracked_after (calculator : Calculator) (incidents : List Incident) :
    Tracked calculator incidents (after calculator incidents) := by
  induction incidents using List.reverseRecOn with
  | nil => exact ⟨rfl, fun _ => rfl, fun h => absurd rfl h⟩
  | append_singleton past x ih =>
    have hisOpen := isOpen_after calculator past
    rw [after_concat]
    cases hopen : past.all fun x => !x.endsService with
    | true =>
      rw [hopen] at hisOpen
      have hvisits := handledVisits_concat_of_open hopen x
      cases hv : x.visit? with
      | none =>
        rw [hv, Option.toList_none, List.append_nil] at hvisits
        exact ih.frame hvisits (Incident.meet_of_no_visit (.inr hv))
      | some v =>
        rw [hv, Option.toList_some] at hvisits
        obtain ⟨hcalculator, hgauge⟩ := Incident.meet_of_visit hv hisOpen
        rw [ih.calculator_eq, ← Calculator.after_concat, ← hvisits] at hcalculator hgauge
        refine ⟨hcalculator, fun h => ?_, fun _ => hgauge⟩
        rw [hvisits] at h
        exact absurd (List.append_eq_nil_iff.1 h).2 (List.cons_ne_nil _ _)
    | false =>
      rw [hopen] at hisOpen
      exact ih.frame (handledVisits_concat_of_ended hopen x) (Incident.meet_of_no_visit (.inl hisOpen))

/-- **Answers, counters and the gauge agree.**  After any incidents, the next calculation request raises the total and
the counter of one outcome by one, and its answer shows that outcome and no other; the outcome is an error exactly
when the service has ended.  Every request is answered, but for one that is turned away for longer than 64 bits of
seconds can say, which is counted as turned away.  Anything else counts nothing.  The header that says when to try
again is on the limited answers only.  The total is the sum of the four counters and the number of calculation
requests, and the gauge shows how many clients the calculator tracked after the last visit it handled. -/
theorem counts_what_it_answers (calculator : Calculator) (past : List Incident) (x : Incident) :
    (x.isCalculation = true →
      ∃ outcome, (∀ answer ∈ (x.meet (after calculator past)).1, ∀ o, Shows answer o ↔ o = outcome) ∧
        (x.Overruns (after calculator past) → outcome = .rateLimited) ∧
        (outcome = .error ↔ ∃ y ∈ past ++ [x], y.endsService = true) ∧
        (after calculator (past ++ [x])).tally.total = (after calculator past).tally.total + 1 ∧
        ∀ o, (after calculator (past ++ [x])).tally.count o =
          (after calculator past).tally.count o + if o = outcome then 1 else 0) ∧
    ((x.meet (after calculator past)).1 = none ↔ x = .close ∨ x.Overruns (after calculator past)) ∧
    (x.isCalculation = false → (after calculator (past ++ [x])).tally = (after calculator past).tally) ∧
    (∀ answer ∈ (x.meet (after calculator past)).1,
      answer.retryAfter?.isSome = true ↔ x.isCalculation = true ∧ Shows answer .rateLimited) ∧
    Tallied (past.countP Incident.isCalculation) (after calculator past).tally ∧
    Tracked calculator past (after calculator past) := by
  refine ⟨fun hx => ?_, x.meet_eq_none_iff _, fun hx => ?_, ?_, tallied_after calculator past,
    tracked_after calculator past⟩
  · obtain ⟨moment, said, hspoken, hmeet⟩ := Incident.exists_spoken hx (after calculator past)
    obtain ⟨hshows, htotal, hcount⟩ := hspoken.conclude moment
    have hnext : after calculator (past ++ [x]) = (conclude moment said).2 := by
      rw [after_concat, hmeet]
    have hended : said.2.isOpen = false ↔ ∃ y ∈ past ++ [x], y.endsService = true := by
      have hisOpen := isOpen_after calculator (past ++ [x])
      rw [hnext] at hisOpen
      have : said.2.isOpen = (past ++ [x]).all fun y => !y.endsService := hisOpen
      rw [this, List.all_eq_false]
      simp
    have hoverruns (h : x.Overruns (after calculator past)) : outcomeOf said.1 = .rateLimited := by
      have hnone := (x.meet_eq_none_iff _).2 (.inr h)
      rw [hmeet] at hnone
      exact outcomeOf_of_unanswered hnone
    rw [hnext, hmeet]
    exact ⟨outcomeOf said.1, fun answer hanswer o => ⟨fun h => h.unique (hshows answer hanswer),
      fun h => h ▸ hshows answer hanswer⟩, hoverruns, hspoken.error_iff.trans hended, htotal, hcount⟩
  · rw [after_concat, (Incident.meet_of_not_isCalculation hx _).1]
    split <;> rfl
  · intro answer hanswer
    cases hx : x.isCalculation with
    | true =>
      obtain ⟨moment, said, hspoken, hmeet⟩ := Incident.exists_spoken hx (after calculator past)
      rw [hmeet] at hanswer
      have hshows := (hspoken.conclude moment).1 answer hanswer
      refine (retryAfter?_answerOf? answer hanswer).trans ⟨fun h => ⟨rfl, ?_⟩, fun h => hshows.unique h.2⟩
      rw [h] at hshows
      exact hshows
    | false =>
      rw [(Incident.meet_of_not_isCalculation hx _).2 answer hanswer]
      exact ⟨nofun, nofun⟩

end Http
end InterestDesk
