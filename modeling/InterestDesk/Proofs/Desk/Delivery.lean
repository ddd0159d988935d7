import InterestDesk.Proofs.Admission.Burst
import InterestDesk.Proofs.Desk.Calls
/-!
# Delivery — every caller that waits is answered

A call takes five steps from its begin to its answer, and the work left in a mailbox is the number of such steps not
yet taken.  So a run with finitely many calls comes to an end, and it cannot end while a letter lies in the mailbox or a
caller waits, as long as the mailbox has room for one letter and the service is open.
-/
namespace InterestDesk

/-- The steps of a call that are left to its caller; a caller that gave up leaves none. -/
def Stage.work : Stage → Nat
  | sending => 5
  | waiting => 1
  | replied _ => 1
  | told _ => 0
  | abandoned => 0

def Activity.work : Activity → Nat
  | idle => 0
  | handling _ => 2
  | replying _ _ => 1

namespace Mailbox

/-- The steps that carry a call to its answer. -/
def Event.isForward : Event → Bool
  | .send _ => true
  | .take _ => true
  | .handle _ _ => true
  | .reply _ _ => true
  | .receive _ _ => true
  | _ => false

def callsWork : List Call → Nat
  | [] => 0
  | call :: rest => call.stage.work + callsWork rest

/-- How many forward steps are left; a letter in the mailbox is to be taken, handled and replied to. -/
def work (m : Mailbox) : Nat :=
  callsWork m.calls + 3 * m.letters.length + m.activity.work

variable {calculator : Calculator} {events : List Event} {e : Event} {m m' : Mailbox} {i room : Nat}

theorem callsWork_concat (call : Call) : ∀ calls, callsWork (calls ++ [call]) = callsWork calls + call.stage.work
  | [] => (Nat.zero_add _).symm
  | c :: calls => by
    rw [List.cons_append, callsWork, callsWork, callsWork_concat call calls, Nat.add_assoc]

theorem callsWork_modify {f : Stage → Stage} {call : Call} : ∀ {calls : List Call} {i : Nat}, calls[i]? = some call →
    callsWork (calls.modify i fun c => { c with stage := f c.stage }) + call.stage.work =
      callsWork calls + (f call.stage).work
  | [], _, h => by cases h
  | c :: calls, 0, h => by
    cases h
    rw [List.modify_zero_cons, callsWork, callsWork]
    dsimp only
    omega
  | c :: calls, i + 1, h => by
    have ih := callsWork_modify (f := f) (i := i) h
    rw [List.modify_succ_cons, callsWork, callsWork]
    omega

theorem callsWork_restage {s : Stage} (f : Stage → Stage) (hs : m.stage? i = some s) :
    callsWork (m.restage i f).calls + s.work = callsWork m.calls + (f s).work := by
  obtain ⟨call, hcall, rfl⟩ := Option.map_eq_some_iff.1 hs
  exact callsWork_modify hcall

theorem callsWork_deliver (m : Mailbox) (i : Nat) (response : Response) :
    callsWork (m.restage i (.deliver response)).calls = callsWork m.calls := by
  cases hs : m.stage? i with
  | none =>
    have hlength : m.calls.length ≤ i := List.getElem?_eq_none_iff.1 (Option.map_eq_none_iff.1 hs)
    unfold restage
    rw [List.modify_eq_self hlength]
  | some s =>
    have hcalls := callsWork_restage (.deliver response) hs
    have hwork : (s.deliver response).work = s.work := by cases s <;> rfl
    omega

/-- **Each forward step does one piece of the work**, and only a new call brings more. -/
theorem work_step (hstep : Step m e m') :
    m'.work + [e].countP Event.isForward ≤ m.work + 5 * (begun [e]).length := by
  unfold work
  cases hstep with
  | begin visit =>
    have hcalls : callsWork (m.calls ++ [⟨visit, .sending⟩]) = callsWork m.calls + 5 := callsWork_concat _ _
    show callsWork (m.calls ++ [⟨visit, .sending⟩]) + 3 * m.letters.length + m.activity.work + 0 ≤ _ + 5 * 1
    omega
  | @send i visit isOpen hroom call =>
    have hsending : m.stage? i = some .sending := by
      unfold stage?
      rw [call]
      rfl
    have hcalls : callsWork (m.mark i .waiting).calls + 5 = callsWork m.calls + 1 := callsWork_restage _ hsending
    show callsWork (m.mark i .waiting).calls + 3 * (m.letters ++ [_]).length + m.activity.work + 1 ≤ _
    rw [List.length_append, List.length_singleton]
    omega
  | @take letter rest idle letters =>
    show callsWork m.calls + 3 * rest.length + 2 + 1 ≤ _
    rw [idle, letters, List.length_cons]
    omega
  | @handle letter response service handling ask =>
    show callsWork m.calls + 3 * m.letters.length + 1 + 1 ≤ _
    rw [handling]
    exact Nat.le_refl _
  | @reply i response replying =>
    show callsWork (m.restage i (.deliver response)).calls + 3 * m.letters.length + 0 + 1 ≤ _
    rw [callsWork_deliver, replying]
    exact Nat.le_refl _
  | @receive i response replied =>
    have hcalls : callsWork (m.mark i (.told (.ok response))).calls + 1 = callsWork m.calls + 0 :=
      callsWork_restage _ replied
    show callsWork (m.mark i (.told (.ok response))).calls + 3 * m.letters.length + m.activity.work + 1 ≤ _
    omega
  | @abandon i stage stands notOver =>
    have hcalls : callsWork (m.mark i .abandoned).calls + stage.work = callsWork m.calls + 0 :=
      callsWork_restage _ stands
    show callsWork (m.mark i .abandoned).calls + 3 * m.letters.length + m.activity.work + 0 ≤ _
    omega
  | close idle =>
    show callsWork m.calls + 3 * 0 + m.activity.work + 0 ≤ _
    omega
  | @refuse i closed sending =>
    have hcalls : callsWork (m.mark i (.told (.error .closed))).calls + 5 = callsWork m.calls + 0 :=
      callsWork_restage _ sending
    show callsWork (m.mark i (.told (.error .closed))).calls + 3 * m.letters.length + m.activity.work + 0 ≤ _
    omega
  | @lose i closed waiting =>
    have hcalls : callsWork (m.mark i (.told (.error .dropped))).calls + 1 = callsWork m.calls + 0 :=
      callsWork_restage _ waiting
    show callsWork (m.mark i (.told (.error .dropped))).calls + 3 * m.letters.length + m.activity.work + 0 ≤ _
    omega

theorem Run.forward_add_work (hrun : Run (start room calculator) events m) :
    events.countP Event.isForward + m.work ≤ 5 * (begun events).length := by
  induction hrun with
  | nil => exact Nat.le_refl _
  | snoc hrun hstep ih =>
    have := work_step hstep
    rw [List.countP_append, begun_append, List.length_append]
    omega

theorem Step.room_eq (hstep : Step m e m') : m'.room = m.room := by
  cases hstep <;> rfl

theorem Run.room_eq (hrun : Run (start room calculator) events m) : m.room = room := by
  induction hrun with
  | nil => rfl
  | snoc _ hstep ih => exact hstep.room_eq.trans ih

/-- No forward step can be taken. -/
def AtRest (m : Mailbox) : Prop :=
  ∀ e m', Step m e m' → e.isForward = false

theorem AtRest.activity (h : m.AtRest) (hopen : m.service.isOpen = true) : m.activity = .idle := by
  cases hact : m.activity with
  | idle => rfl
  | handling letter => cases h _ _ (.handle hact (Service.ask_of_isOpen hopen letter.visit))
  | replying call response => cases h _ _ (.reply hact)

theorem AtRest.letters (h : m.AtRest) (hidle : m.activity = .idle) : m.letters = [] := by
  cases hletters : m.letters with
  | nil => rfl
  | cons letter rest => cases h _ _ (.take hidle hletters)

/-- **An open mailbox comes to rest only when its work is done**: every letter is handled, and every caller that did not
give up has received its reply. -/
theorem Faithful.settled (h : Faithful calculator events m) (hroom : 1 ≤ m.room) (hrest : m.AtRest) :
    sent events = (handled events).map Prod.fst ∧
      ∀ i s, m.stage? i = some s →
        s = .abandoned ∨ ∃ response, s = .told (.ok response) ∧ (i, response) ∈ received events := by
  have hopen := h.channel.isOpen
  have hidle := hrest.activity hopen
  have hletters := hrest.letters hidle
  have hinHand : m.inHand = [] := by
    unfold inHand
    rw [hidle]
  refine ⟨?_, fun i s hs => ?_⟩
  · rw [h.channel.sent_eq, hinHand, hletters, List.append_nil, List.append_nil]
  · have hstands := h.standing.stands i s hs
    cases s with
    | sending =>
      -- the mailbox is empty, so a call that is not yet sent could be
      obtain ⟨⟨visit, stage⟩, hcall, rfl⟩ := Option.map_eq_some_iff.1 hs
      have hspace : m.letters.length < m.room := by
        rw [hletters]
        exact hroom
      cases hrest _ _ (.send hopen hspace hcall)
    | waiting =>
      obtain hletter | ⟨response, hreplying⟩ := hstands
      · rw [hinHand, hletters] at hletter
        cases hletter
      · rw [hidle] at hreplying
        cases hreplying
    | replied response => cases hrest _ _ (.receive hs)
    | told answer =>
      obtain ⟨response, rfl, hmem⟩ := hstands
      exact .inr ⟨response, rfl, hmem⟩
    | abandoned => exact .inl rfl

theorem Faithful.exists_of_received (h : Faithful calculator events m) {response : Response}
    (hmem : (i, response) ∈ received events) :
    ∃ visit, (begun events)[i]? = some visit ∧ (⟨i, visit⟩, response) ∈ handled events := by
  obtain ⟨visit, hhandled⟩ := h.once.answered i response hmem
  have hsent : ⟨i, visit⟩ ∈ sent events := by
    rw [h.channel.sent_eq, List.append_assoc]
    exact List.mem_append_left _ (List.mem_map_of_mem hhandled)
  exact ⟨visit, h.addressed.sender _ hsent, hhandled⟩

/-- **Concurrent visits fill the quota exactly.** -/
theorem Channel.length_admitted (h : Channel calculator events m) {plan : LimiterPlan}
    (hfresh : calculator.limiter = .ofPlan plan)
    (hspan : ∀ x ∈ handled events, ∀ y ∈ handled events, x.1.visit.now - y.1.visit.now < plan.allowance.window)
    (client : String) :
    ((handled events).filter fun entry => entry.1.visit.client == client && !entry.2.rateLimited).length =
      min ((handled events).filter fun entry => entry.1.visit.client == client).length plan.allowance.limit := by
  let visits := (handled events).map fun entry => entry.1.visit
  have harrivals : visits.map Visit.arrival = (handled events).map fun entry => entry.1.visit.arrival := List.map_map
  have hspan' : ∀ x ∈ visits.map Visit.arrival, ∀ y ∈ visits.map Visit.arrival,
      x.now - y.now < plan.allowance.window := by
    rw [harrivals]
    intro x hx y hy
    obtain ⟨entry, hentry, rfl⟩ := List.mem_map.1 hx
    obtain ⟨other, hother, rfl⟩ := List.mem_map.1 hy
    exact hspan entry hentry other hother
  calc ((handled events).filter fun entry => entry.1.visit.client == client && !entry.2.rateLimited).length
      = ((calculator.transcript visits).filter fun entry =>
          entry.1.client == client && !entry.2.rateLimited).length := by
        rw [← h.transcript_eq, List.filter_map, List.length_map]
        rfl
    _ = ((calculator.limiter.log (visits.map Visit.arrival)).admissions client).length :=
        calculator.length_admitted_transcript visits client
    _ = min ((visits.map Visit.arrival).filter fun x => x.client == client).length plan.allowance.limit := by
        rw [hfresh]
        exact Limiter.length_admissions_eq_min plan hspan' client
    _ = _ := by
        rw [harrivals, List.filter_map, List.length_map]
        rfl

/-- **Every caller that waits is answered, as by one calculator alone.**  In every run of a mailbox that stays open,
whoever sends, gives up or comes late: the letters are handled in order, each once; each reply is the response to its
caller's visit and comes once; the run takes at most five forward steps for each call and comes to rest only when every
letter is handled and every remaining caller is answered; and visits less than a window apart fill the quota of their
client exactly, those given up included. -/
theorem answers_every_caller (hroom : 1 ≤ room) (hrun : Run (start room calculator) events m)
    (hopen : .close ∉ events) :
    Faithful calculator events m ∧
      (∀ i response, (i, response) ∈ received events →
        ∃ visit, (begun events)[i]? = some visit ∧ (⟨i, visit⟩, response) ∈ handled events) ∧
      events.countP Event.isForward ≤ 5 * (begun events).length ∧
      (m.AtRest → sent events = (handled events).map Prod.fst ∧
        ∀ i s, m.stage? i = some s →
          s = .abandoned ∨ ∃ response, s = .told (.ok response) ∧ (i, response) ∈ received events) ∧
      ∀ plan, calculator.limiter = .ofPlan plan →
        (∀ x ∈ handled events, ∀ y ∈ handled events, x.1.visit.now - y.1.visit.now < plan.allowance.window) →
        ∀ client, ((handled events).filter fun entry => entry.1.visit.client == client && !entry.2.rateLimited).length =
          min ((handled events).filter fun entry => entry.1.visit.client == client).length plan.allowance.limit := by
  have hfaithful := hrun.faithful hopen
  refine ⟨hfaithful, fun i response => hfaithful.exists_of_received, ?_, hfaithful.settled ?_,
    fun plan hfresh hspan => hfaithful.channel.length_admitted hfresh hspan⟩
  · exact Nat.le_trans (Nat.le_add_right _ _) hrun.forward_add_work
  · rw [hrun.room_eq]
    exact hroom

/-- Two visits of `a` at a limit of one, with room for one letter.  The first caller gives up once its letter is in; the
letter is handled all the same and takes the slot, so the second caller, with a clock behind, is told that it is
limited. -/
theorem answers_every_caller_given_up :
    let desk : Calculator := ⟨.ofPlan ⟨⟨1, 10⟩, 0, 0⟩, .plain⟩
    let first : Letter := ⟨0, ⟨"a", .empty, 5⟩⟩
    let second : Letter := ⟨1, ⟨"a", .empty, 3⟩⟩
    let done := desk.handle "a" .empty 5
    let limited := done.2.handle "a" .empty 3
    let events : List Event :=
      [.begin first.visit, .begin second.visit, .send first, .abandon 0, .take first, .send second,
        .handle first done.1, .reply 0 done.1, .take second, .handle second limited.1, .reply 1 limited.1,
        .receive 1 limited.1]
    ∃ m, 1 ≤ 1 ∧ Run (start 1 desk) events m ∧ .close ∉ events ∧ m.stage? 0 = some .abandoned ∧
      m.stage? 1 = some (.told (.ok limited.1)) ∧ limited.1.rateLimited = true ∧ Faithful desk events m ∧
      ((handled events).filter fun entry => entry.1.visit.client == "a" && !entry.2.rateLimited).length = min 2 1 := by
  intro desk first second done limited events
  have hrun := Run.nil.snoc (@Step.begin (start 1 desk) first.visit)
    |>.snoc (.begin second.visit)
    |>.snoc (@Step.send _ 0 _ rfl (by decide) rfl)
    |>.snoc (@Step.abandon _ 0 _ rfl rfl)
    |>.snoc (.take rfl rfl)
    |>.snoc (@Step.send _ 1 _ rfl (by decide) rfl)
    |>.snoc (.handle rfl rfl)
    |>.snoc (.reply rfl)
    |>.snoc (.take rfl rfl)
    |>.snoc (.handle rfl rfl)
    |>.snoc (.reply rfl)
    |>.snoc (@Step.receive _ 1 _ rfl)
  have hopen : .close ∉ events := by simp [events]
  obtain ⟨hfaithful, -, -, -, hquota⟩ := answers_every_caller (Nat.le_refl 1) hrun hopen
  refine ⟨_, Nat.le_refl 1, hrun, hopen, rfl, rfl, by decide, hfaithful, ?_⟩
  exact hquota ⟨⟨1, 10⟩, 0, 0⟩ rfl (by decide) "a"

end Mailbox
end InterestDesk
