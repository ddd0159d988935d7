import InterestDesk.Proofs.Desk.Mailbox
import Mathlib.Data.List.Nodup
/-!
# Calls — what a call holds is the response to its own visit

While the service is open, a stage is the truth about its call: a call that waits has its letter in the mailbox or with
the service, and a reply, in its slot or told, is the response to its letter (`Standing`).  A letter is that of the call
it names (`Addressed`), and no call sends two letters or receives two replies (`Once`).
-/
namespace InterestDesk
namespace Mailbox

variable {calculator : Calculator} {events : List Event} {e : Event} {m m' : Mailbox} {i : Nat} {f : Stage → Stage}

theorem stage?_restage (m : Mailbox) (i j : Nat) (f : Stage → Stage) :
    (m.restage i f).stage? j = if i = j then (m.stage? j).map f else m.stage? j := by
  unfold stage? restage
  rw [List.getElem?_modify, Option.map_eq_map, Option.map_map]
  split
  · rw [Option.map_map]
    rfl
  · rfl

/-- What holds of the changed call and of all others holds of every call. -/
theorem forall_restage {P : Nat → Stage → Prop} (hself : ∀ s, m.stage? i = some s → P i (f s))
    (hother : ∀ j s, i ≠ j → m.stage? j = some s → P j s) : ∀ j s, (m.restage i f).stage? j = some s → P j s := by
  intro j s hs
  rw [stage?_restage] at hs
  by_cases hij : i = j
  · subst hij
    rw [if_pos rfl] at hs
    obtain ⟨old, hold, rfl⟩ := Option.map_eq_some_iff.1 hs
    exact hself old hold
  · rw [if_neg hij] at hs
    exact hother j s hij hs

/-- A change that leaves a stage as it is does not show at a call that stands there. -/
theorem stage?_restage_of_eq {j : Nat} {s : Stage} (hs : m.stage? j = some s) (hf : i = j → f s = s) :
    (m.restage i f).stage? j = some s := by
  rw [stage?_restage]
  split
  · rename_i hij
    rw [hs, Option.map_some, hf hij]
  · exact hs

/-- A call at another stage than the marked one keeps its stage. -/
theorem stage?_mark_of_ne {j : Nat} {s old new : Stage} (hold : m.stage? i = some old) (hs : m.stage? j = some s)
    (hne : s ≠ old) : (m.mark i new).stage? j = some s := by
  refine stage?_restage_of_eq hs fun hij => ?_
  subst hij
  rw [hold] at hs
  exact absurd (Option.some.inj hs).symm hne

theorem visits_restage (m : Mailbox) (i : Nat) (f : Stage → Stage) :
    (m.restage i f).calls.map Call.visit = m.calls.map Call.visit := by
  refine List.ext_getElem? fun j => ?_
  unfold restage
  rw [List.getElem?_map, List.getElem?_map, List.getElem?_modify, Option.map_eq_map, Option.map_map]
  congr 1
  funext call
  rw [Function.comp_apply]
  split <;> rfl

theorem stage?_begin {visit : Visit} {j : Nat} {s : Stage}
    (hs : ({ m with calls := m.calls ++ [⟨visit, .sending⟩] } : Mailbox).stage? j = some s) :
    m.stage? j = some s ∨ j = m.calls.length ∧ s = .sending := by
  unfold stage? at hs ⊢
  rw [List.getElem?_append] at hs
  split at hs
  · exact .inl hs
  · right
    obtain ⟨call, hcall, rfl⟩ := Option.map_eq_some_iff.1 hs
    rw [List.getElem?_singleton] at hcall
    split at hcall
    · cases hcall
      exact ⟨by omega, rfl⟩
    · cases hcall

/-- The calls are those begun, and a letter is the visit of the call it names. -/
structure Addressed (events : List Event) (m : Mailbox) : Prop where
  visits_eq : m.calls.map Call.visit = begun events
  sender : ∀ letter ∈ sent events, (begun events)[letter.call]? = some letter.visit

theorem Addressed.frame (h : Addressed events m) (hbegun : begun [e] = []) (hsent : sent [e] = [])
    (hcalls : m'.calls.map Call.visit = m.calls.map Call.visit) : Addressed (events ++ [e]) m' := by
  refine ⟨?_, ?_⟩
  · rw [hcalls, begun_append, hbegun, List.append_nil, h.visits_eq]
  · rw [begun_append, hbegun, List.append_nil, sent_append, hsent, List.append_nil]
    exact h.sender

theorem Addressed.step (h : Addressed events m) (hstep : Step m e m') : Addressed (events ++ [e]) m' := by
  cases hstep with
  | take idle letters => exact h.frame rfl rfl rfl
  | handle handling ask => exact h.frame rfl rfl rfl
  | close idle => exact h.frame rfl rfl rfl
  | reply replying => exact h.frame rfl rfl (visits_restage ..)
  | receive replied => exact h.frame rfl rfl (visits_restage ..)
  | abandon stands notOver => exact h.frame rfl rfl (visits_restage ..)
  | refuse closed sending => exact h.frame rfl rfl (visits_restage ..)
  | lose closed waiting => exact h.frame rfl rfl (visits_restage ..)
  | begin visit =>
    refine ⟨?_, fun letter hletter => ?_⟩
    · rw [List.map_append, h.visits_eq, begun_append]
      rfl
    · rw [sent_append] at hletter
      have hcall := h.sender letter ((List.mem_append.1 hletter).resolve_right List.not_mem_nil)
      obtain ⟨hlt, -⟩ := List.getElem?_eq_some_iff.1 hcall
      rw [begun_append, List.getElem?_append_left hlt]
      exact hcall
  | @send i visit isOpen room call =>
    have hb : begun (events ++ [.send ⟨i, visit⟩]) = begun events := filterMap_concat_of_eq_none rfl events
    refine ⟨?_, fun letter hletter => ?_⟩
    · rw [hb]
      exact (visits_restage m i fun _ => .waiting).trans h.visits_eq
    · rw [hb]
      rw [sent_append] at hletter
      obtain hold | hnew := List.mem_append.1 hletter
      · exact h.sender letter hold
      · rw [List.mem_singleton.1 hnew, ← h.visits_eq, List.getElem?_map, call]
        rfl

/-- A letter of this call was handled with this response. -/
def Answered (events : List Event) (call : Nat) (response : Response) : Prop :=
  ∃ visit, (⟨call, visit⟩, response) ∈ handled events

theorem Answered.append {response : Response} (h : Answered events i response) (more : List Event) :
    Answered (events ++ more) i response := by
  obtain ⟨visit, hmem⟩ := h
  refine ⟨visit, ?_⟩
  rw [handled_append]
  exact List.mem_append_left _ hmem

/-- The letter of a call lies in the mailbox, or the service has it or is about to reply to it. -/
def Pending (m : Mailbox) (call : Nat) : Prop :=
  call ∈ (m.inHand ++ m.letters).map Letter.call ∨ ∃ response, m.activity = .replying call response

/-- What a stage says of its call while the service is open. -/
def Stands (events : List Event) (m : Mailbox) (call : Nat) : Stage → Prop
  | .sending => call ∉ (sent events).map Letter.call
  | .waiting => m.Pending call
  | .replied response => Answered events call response
  | .told answer => ∃ response, answer = .ok response ∧ (call, response) ∈ received events
  | .abandoned => True

theorem Stands.mono {s : Stage} (h : Stands events m i s)
    (hsent : s = .sending → i ∉ (sent [e]).map Letter.call)
    (hpending : s = .waiting → m.Pending i → m'.Pending i) : Stands (events ++ [e]) m' i s := by
  cases s with
  | sending =>
    intro hmem
    rw [sent_append, List.map_append] at hmem
    obtain hold | hnew := List.mem_append.1 hmem
    · exact h hold
    · exact hsent rfl hnew
  | waiting => exact hpending rfl h
  | replied response => exact Answered.append h _
  | told answer =>
    obtain ⟨response, hanswer, hmem⟩ := h
    refine ⟨response, hanswer, ?_⟩
    rw [received_append]
    exact List.mem_append_left _ hmem
  | abandoned => trivial

structure Standing (events : List Event) (m : Mailbox) : Prop where
  stands : ∀ j s, m.stage? j = some s → Stands events m j s
  replying : ∀ j response, m.activity = .replying j response → Answered events j response

/-- Steps of a caller other than sending: only its own stage changes. -/
theorem Standing.frame (h : Standing events m) (hsent : sent [e] = [])
    (hself : ∀ s, m.stage? i = some s → Stands (events ++ [e]) (m.restage i f) i (f s)) :
    Standing (events ++ [e]) (m.restage i f) := by
  refine ⟨forall_restage hself fun j s _ hs => ?_, fun j response hact => (h.replying j response hact).append _⟩
  refine (h.stands j s hs).mono (fun _ => ?_) fun _ hpending => hpending
  rw [hsent]
  exact List.not_mem_nil

theorem Pending.of_handling {letter : Letter} {response : Response} {service : Service}
    (handling : m.activity = .handling letter) (h : m.Pending i) :
    ({ m with activity := .replying letter.call response, service } : Mailbox).Pending i := by
  obtain hletter | ⟨other, hother⟩ := h
  · have hinHand : m.inHand = [letter] := by
      unfold inHand
      rw [handling]
    rw [hinHand, List.map_append] at hletter
    obtain hself | hrest := List.mem_append.1 hletter
    · rw [List.mem_singleton.1 hself]
      exact .inr ⟨response, rfl⟩
    · exact .inl hrest
  · rw [handling] at hother
    cases hother

theorem Pending.of_replying {j : Nat} {response : Response} (replying : m.activity = .replying i response)
    (hij : i ≠ j) (h : m.Pending j) : ({ m.restage i f with activity := .idle } : Mailbox).Pending j := by
  obtain hletter | ⟨other, hother⟩ := h
  · have hinHand : m.inHand = [] := by
      unfold inHand
      rw [replying]
    rw [hinHand] at hletter
    exact .inl hletter
  · rw [replying] at hother
    cases hother
    exact absurd rfl hij

theorem Standing.step (h : Standing events m) (haddressed : Addressed events m) (hopen : m.service.isOpen = true)
    (hstep : Step m e m') (hclose : e ≠ .close) : Standing (events ++ [e]) m' := by
  cases hstep with
  | close idle => exact absurd rfl hclose
  | refuse closed sending => cases hopen.symm.trans closed
  | lose closed waiting => cases hopen.symm.trans closed
  | abandon stands notOver => exact h.frame rfl fun _ _ => trivial
  | @receive i response replied =>
    refine h.frame rfl fun _ _ => ⟨response, rfl, ?_⟩
    rw [received_append]
    exact List.mem_append_right _ (List.mem_singleton.2 rfl)
  | begin visit =>
    refine ⟨fun j s hs => ?_, fun j response hact => (h.replying j response hact).append _⟩
    obtain hold | ⟨rfl, rfl⟩ := stage?_begin hs
    · exact (h.stands j s hold).mono (fun _ => List.not_mem_nil) fun _ hpending => hpending
    · -- a letter that named the new call would name a call already begun
      intro hmem
      rw [sent_append, List.map_append] at hmem
      obtain ⟨letter, hletter, hcall⟩ := List.mem_map.1 ((List.mem_append.1 hmem).resolve_right List.not_mem_nil)
      obtain ⟨hlt, -⟩ := List.getElem?_eq_some_iff.1 (haddressed.sender letter hletter)
      rw [← haddressed.visits_eq, List.length_map, hcall] at hlt
      exact absurd hlt (Nat.lt_irrefl _)
  | @send i visit isOpen room call =>
    refine ⟨forall_restage (m := m) (f := fun _ => .waiting) (fun _ _ => ?_) fun j s hij hs => ?_,
      fun j response hact => (h.replying j response hact).append _⟩
    · left
      simp
    · refine (h.stands j s hs).mono (fun _ hmem => hij (List.mem_singleton.1 hmem).symm) fun _ hpending => ?_
      obtain hletter | hreplying := hpending
      · left
        rw [← List.append_assoc, List.map_append]
        exact List.mem_append_left _ hletter
      · exact .inr hreplying
  | @take letter rest idle letters =>
    refine ⟨fun j s hs => ?_, fun j response hact => ?_⟩
    · refine (h.stands j s hs).mono (fun _ => List.not_mem_nil) fun _ hpending => ?_
      obtain hletter | ⟨other, hother⟩ := hpending
      · left
        unfold inHand at hletter
        rw [idle, letters] at hletter
        exact hletter
      · rw [idle] at hother
        cases hother
    · cases hact
  | @handle letter response service handling ask =>
    refine ⟨fun j s hs => ?_, fun j other hact => ?_⟩
    · exact (h.stands j s hs).mono (fun _ => List.not_mem_nil) fun _ hpending => hpending.of_handling handling
    · cases hact
      refine ⟨letter.visit, ?_⟩
      rw [handled_append]
      exact List.mem_append_right _ (List.mem_singleton.2 rfl)
  | @reply i response replying =>
    refine ⟨forall_restage (fun s hs => ?_) fun j s hij hs => ?_, fun j other hact => ?_⟩
    · -- only a call that waits takes the reply; at any other stage the reply is lost
      have hstands := h.stands i s hs
      cases s with
      | waiting => exact (h.replying i response replying).append _
      | sending => exact hstands.mono (fun _ => List.not_mem_nil) nofun
      | replied other => exact hstands.mono nofun nofun
      | told answer => exact hstands.mono nofun nofun
      | abandoned => trivial
    · exact (h.stands j s hs).mono (fun _ => List.not_mem_nil) fun _ hpending => hpending.of_replying replying hij
    · cases hact

/-- No call sends two letters or receives two replies, and a reply received is the response to the call's letter. -/
structure Once (events : List Event) (m : Mailbox) : Prop where
  sent_nodup : ((sent events).map Letter.call).Nodup
  received_nodup : ((received events).map Prod.fst).Nodup
  told : ∀ j response, (j, response) ∈ received events → m.stage? j = some (.told (.ok response))
  answered : ∀ j response, (j, response) ∈ received events → Answered events j response

theorem Once.frame (h : Once events m) (hsent : sent [e] = []) (hreceived : received [e] = [])
    (htold : ∀ j response, m.stage? j = some (.told (.ok response)) → m'.stage? j = some (.told (.ok response))) :
    Once (events ++ [e]) m' := by
  have hr : received (events ++ [e]) = received events := by rw [received_append, hreceived, List.append_nil]
  refine ⟨?_, ?_, ?_, ?_⟩
  · rw [sent_append, hsent, List.append_nil]
    exact h.sent_nodup
  · rw [hr]
    exact h.received_nodup
  · rw [hr]
    exact fun j response hmem => htold j response (h.told j response hmem)
  · rw [hr]
    exact fun j response hmem => (h.answered j response hmem).append _

theorem Once.step (h : Once events m) (hstanding : Standing events m) (hopen : m.service.isOpen = true)
    (hstep : Step m e m') (hclose : e ≠ .close) : Once (events ++ [e]) m' := by
  cases hstep with
  | close idle => exact absurd rfl hclose
  | refuse closed sending => cases hopen.symm.trans closed
  | lose closed waiting => cases hopen.symm.trans closed
  | begin visit =>
    refine h.frame rfl rfl fun j response hs => ?_
    obtain ⟨call, hcall, hstage⟩ := Option.map_eq_some_iff.1 hs
    obtain ⟨hlt, -⟩ := List.getElem?_eq_some_iff.1 hcall
    unfold stage?
    rw [List.getElem?_append_left hlt, hcall, Option.map_some, hstage]
  | take idle letters => exact h.frame rfl rfl fun _ _ hs => hs
  | handle handling ask => exact h.frame rfl rfl fun _ _ hs => hs
  | reply replying => exact h.frame rfl rfl fun _ _ hs => stage?_restage_of_eq hs fun _ => rfl
  | abandon stands notOver =>
    refine h.frame rfl rfl fun _ _ hs => stage?_mark_of_ne stands hs ?_
    rintro rfl
    cases notOver
  | @send i visit isOpen room call =>
    have hsending : m.stage? i = some .sending := by
      unfold stage?
      rw [call]
      rfl
    have hr : received (events ++ [.send ⟨i, visit⟩]) = received events := filterMap_concat_of_eq_none rfl events
    refine ⟨?_, ?_, ?_, ?_⟩
    · rw [sent_append, List.map_append]
      exact List.concat_eq_append ▸ List.Nodup.concat (hstanding.stands i _ hsending) h.sent_nodup
    · rw [hr]
      exact h.received_nodup
    · rw [hr]
      exact fun j response hmem => stage?_mark_of_ne hsending (h.told j response hmem) nofun
    · rw [hr]
      exact fun j response hmem => (h.answered j response hmem).append _
  | @receive i response replied =>
    have hnew : i ∉ (received events).map Prod.fst := by
      intro hmem
      obtain ⟨⟨j, other⟩, hother, rfl⟩ := List.mem_map.1 hmem
      have htold := h.told j other hother
      rw [replied] at htold
      cases htold
    refine ⟨?_, ?_, fun j other hmem => ?_, fun j other hmem => ?_⟩
    · have hs : sent (events ++ [.receive i response]) = sent events := filterMap_concat_of_eq_none rfl events
      rw [hs]
      exact h.sent_nodup
    · rw [received_append, List.map_append]
      exact List.concat_eq_append ▸ List.Nodup.concat hnew h.received_nodup
    · rw [received_append] at hmem
      obtain hold | hself := List.mem_append.1 hmem
      · exact stage?_mark_of_ne replied (h.told j other hold) nofun
      · cases List.mem_singleton.1 hself
        refine (stage?_restage ..).trans ?_
        rw [if_pos rfl, replied]
        rfl
    · rw [received_append] at hmem
      obtain hold | hself := List.mem_append.1 hmem
      · exact (h.answered j other hold).append _
      · cases List.mem_singleton.1 hself
        exact (hstanding.stands i _ replied).append _

structure Faithful (calculator : Calculator) (events : List Event) (m : Mailbox) : Prop where
  channel : Channel calculator events m
  addressed : Addressed events m
  standing : Standing events m
  once : Once events m

/-- **Whatever the callers do, an open mailbox stays faithful to the calculator alone.** -/
theorem Run.faithful {room : Nat} (hrun : Run (start room calculator) events m) (hopen : .close ∉ events) :
    Faithful calculator events m := by
  induction hrun with
  | nil =>
    exact ⟨Channel.start room calculator, ⟨rfl, nofun⟩, ⟨nofun, nofun⟩,
      ⟨List.nodup_nil, List.nodup_nil, nofun, nofun⟩⟩
  | snoc hrun hstep ih =>
    rw [List.mem_append, not_or, List.mem_singleton] at hopen
    obtain ⟨hchannel, haddressed, hstanding, honce⟩ := ih hopen.1
    have hclose := Ne.symm hopen.2
    exact ⟨hchannel.step hstep hclose, haddressed.step hstep,
      hstanding.step haddressed hchannel.isOpen hstep hclose, honce.step hstanding hchannel.isOpen hstep hclose⟩

end Mailbox
end InterestDesk
