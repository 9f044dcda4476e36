import ShareFrame.Task.Remote.Updates

/-!
# The reported outcome of an update

`update_install` asks the update service to start an update, and reports a failure
when the service refuses or does not answer in time. The report is true as long as
the command does not give up on a request that can still be served
(`not_started_of_delivered`).
-/

namespace ShareFrame.RemoteUpdate

open Interaction RemoteCommand Transition

variable {f : Frame}

/-! ## What the command asks -/

def Asks (op : Op) : Prop := (ofUpdate op).map IpcMessage.type = some .updatePerform

def Failed (op : Op) : Prop := ∃ id reason, op = .publish (commandResult id "failed" reason)

def Installs (msg : Json) : Prop := ∃ c, readCommand msg = .ok c ∧ c.command = "update_install"

/-- The reply of a service that started no update. -/
def Refuses (j : Json) : Prop := j.find "ok" ≠ some (.bool true)

theorem Asks.isAction {op : Op} (h : Asks op) : op.isAction = true := by
  obtain ⟨msg, hmsg, htype⟩ := Option.map_eq_some_iff.mp h
  rw [ofUpdate_eq_some hmsg]
  simp [Op.isAction, htype]

theorem not_failed_reply {id : Int} {status reason : String} (h : status ≠ "failed") :
    ¬ Failed (.publish (commandResult id status reason)) := by
  rintro ⟨id', reason', he⟩
  simp only [commandResult, Op.publish.injEq, Json.obj.injEq, List.cons.injEq, Prod.mk.injEq,
    Json.str.injEq, true_and] at he
  exact h he.2.1

/-- Before the request to start an update. -/
def Before (msg : Json) (op : Op) : Prop := ¬ Asks op ∧ (Installs msg → ¬ Failed op)

theorem before_of_looks {msg : Json} {op : Op} (h : op.Looks) : Before msg op := by
  refine ⟨fun hasks => ?_, ?_⟩
  · have haction := hasks.isAction
    rw [h.1] at haction
    cases haction
  · rintro - ⟨id, reason, rfl⟩
    exact h.2 _ rfl

theorem before_reply {msg : Json} {id : Int} {status reason : String} (h : status ≠ "failed") :
    Prog.Uses (Before msg) (reply id status reason) :=
  .ask ⟨nofun, fun _ => not_failed_reply h⟩

theorem act_install {timing : Timing} {cfg : DiagnosticsUploader.Config} {c : Command}
    (hc : c.command = "update_install") : act timing cfg c = updateInstall c := by
  simp [act, hc, isSafeMode]

/-- A command asks once to start an update, and reports a failure behind it. -/
theorem install_steps {timing : Timing} {cfg : DiagnosticsUploader.Config} {msg : Json} {t : List Event}
    {rest : Remote Unit} (h : Prog.Steps (handle timing cfg msg) t rest) :
    (∀ e ∈ t, Before msg e.1) ∨ ∃ c t₁ res t₂,
      t = t₁ ++ ⟨.sendAndReceive .update { type := .updatePerform }, res⟩ :: t₂ ∧
      (∀ e ∈ t₁, Before msg e.1) ∧ Prog.Steps (updateAnswered c res) t₂ rest := by
  cases hread : readCommand msg with
  | error e =>
    rw [handle_of_error hread] at h
    cases h
    exact .inl (List.forall_mem_nil _)
  | ok c =>
    rw [handle_of_ok hread] at h
    have hgates : Prog.Uses (Before msg) (gates timing cfg c) :=
      looks_gates.mono fun _ => before_of_looks
    have hevent : ∀ text, Prog.Uses (Before msg) (event c text) := fun text =>
      looks_event.mono fun _ => before_of_looks
    have hanswer : ∀ text status reason, status ≠ "failed" →
        Prog.Uses (Before msg) (event c text >>= fun _ => reply c.id status reason) :=
      fun text status reason hstatus => .bind (hevent text) fun _ => before_reply hstatus
    rcases Prog.steps_bind (show Prog.Steps (perform timing cfg c) t rest from h) with
      ⟨p', hgate⟩ | ⟨gate, t₁, t₂, rfl, hgate, hrest⟩
    · exact .inl (hgates.events hgate)
    cases hok : gate.ok with
    | false =>
      rw [if_neg (by simp [hok])] at hrest
      exact .inl fun e he => (List.mem_append.mp he).elim (hgates.events hgate e)
        ((hanswer _ _ _ (by decide)).events hrest e)
    | true =>
      rw [if_pos hok] at hrest
      rcases Prog.steps_bind hrest with ⟨p', haccept⟩ | ⟨_, t₃, t₄, rfl, haccept, hact⟩
      · exact .inl fun e he => (List.mem_append.mp he).elim (hgates.events hgate e)
          ((hanswer _ _ _ (by decide)).events haccept e)
      have hbefore : ∀ e ∈ t₁ ++ t₃, Before msg e.1 := fun e he =>
        (List.mem_append.mp he).elim (hgates.events hgate e)
          ((hanswer _ _ _ (by decide)).events haccept e)
      by_cases hc : c.command = "update_install"
      · rw [act_install hc] at hact
        rcases Prog.steps_call.mp hact with ⟨rfl, -⟩ | ⟨res, t₅, rfl, hanswered⟩
        · exact .inl (by rwa [List.append_nil])
        · exact .inr ⟨c, t₁ ++ t₃, res, t₅, by rw [List.append_assoc], hbefore, hanswered⟩
      · -- the action of another command asks for no update
        have hwell := (passes_gates ⟨gate, hgate, hok⟩).1
        have hother : Prog.Uses (Before msg) (act timing cfg c) := (acts_act hwell).mono
          fun op hop => ⟨fun hasks => ?_, fun hinstalls => ?_⟩
        · rw [← List.append_assoc]
          exact .inl fun e he => (List.mem_append.mp he).elim (hbefore e) (hother.events hact e)
        · have haction := hop.1 hasks.isAction
          obtain ⟨m, hmsg, -⟩ := Option.map_eq_some_iff.mp hasks
          rw [ofUpdate_eq_some hmsg] at haction
          unfold action at haction
          repeat' split at haction
          all_goals first | contradiction | cases haction
        · obtain ⟨c', hread', hc'⟩ := hinstalls
          rw [hread] at hread'
          cases hread'
          exact absurd hc' hc

/-- Behind its answer nothing more is asked of the update service. -/
theorem updateAnswered_quiet {c : Command} {res : Option Json} :
    Prog.Uses (ofUpdate · = none) (updateAnswered c res) := by
  have hfailed : ∀ error, Prog.Uses (ofUpdate · = none) (updateFailed c error) := fun error =>
    .bind (.bind (.ask rfl) fun _ => .pure) fun _ => .ask rfl
  cases res with
  | none => exact hfailed _
  | some j =>
    refine .bind uses_json fun ok => ?_
    split
    exacts [.bind (.ask rfl) fun _ => .pure, .bind uses_json fun error => hfailed error]

theorem updateAnswered_started {c : Command} {j : Json} (h : j.find "ok" = some (.bool true)) :
    updateAnswered c (some j) = mark := by
  simp only [updateAnswered, Json.value_true_iff.mpr h]
  rfl

theorem asked_next {timing : Timing} {cfg : DiagnosticsUploader.Config} {msg : Json} {t : List Event}
    {rest : Remote Unit} (h : Prog.Steps (handle timing cfg msg) t rest) {e : Event} (he : e ∈ t)
    (hasks : Asks e.1) : rest.next.bind ofUpdate = none := by
  rcases install_steps h with hbefore | ⟨c, t₁, res, t₂, rfl, -, hanswered⟩
  · exact absurd hasks (hbefore e he).1
  · cases hnext : rest.next with
    | none => rfl
    | some op =>
      obtain ⟨k, rfl⟩ := Prog.next_eq_some.mp hnext
      exact updateAnswered_quiet t₂ op ⟨k, hanswered⟩

theorem failed_asked {timing : Timing} {cfg : DiagnosticsUploader.Config} {msg : Json} {t : List Event}
    {rest : Remote Unit} (h : Prog.Steps (handle timing cfg msg) t rest) (hinstalls : Installs msg)
    {e : Event} (he : e ∈ t) (hfailed : Failed e.1) :
    ∃ res : Option Json, ⟨.sendAndReceive .update { type := .updatePerform }, res⟩ ∈ t ∧
      ∀ j, res = some j → Refuses j := by
  rcases install_steps h with hbefore | ⟨c, t₁, res, t₂, rfl, hbefore, hanswered⟩
  · exact absurd hfailed ((hbefore e he).2 hinstalls)
  · refine ⟨res, by simp, ?_⟩
    rintro j rfl hstarted
    rw [updateAnswered_started hstarted] at hanswered
    have hquiet : Prog.Uses (fun op => ¬ Failed op) mark := .bind (.ask nofun) fun _ => .pure
    simp only [List.mem_append, List.mem_cons] at he
    rcases he with he | rfl | he
    · exact (hbefore e he).2 hinstalls hfailed
    · obtain ⟨_, _, hno⟩ := hfailed
      cases hno
    · exact hquiet.events hanswered e he hfailed

/-! ## The IPC thread in `startUpdate` -/

/-- The call has started a worker. -/
def Started : UpdateManager.Call → Prop
  | .joining _ | .returned true _ => True
  | _ => False

theorem threadStarted_ipc {u u' : UpdateManager.State} {c : UpdateManager.Caller} {ok : Bool}
    (hs : UpdateManager.step f.sha256 f.updates u (.threadStarted c ok) = some u') :
    (c = .ipc → (∃ r, u.ipc = .starting r) ∧ (ok = true → Started u'.ipc)) ∧
      (c = .checker → u'.ipc = u.ipc) := by
  unfold UpdateManager.step at hs
  split at hs
  · cases hs
  obtain ⟨t, ht, rfl⟩ := Option.map_eq_some_iff.mp hs
  unfold UpdateManager.threadStarted at ht
  split at ht
  next r hc =>
    constructor
    · rintro rfl
      refine ⟨⟨r, hc⟩, fun hok => ?_⟩
      rw [hok, if_pos rfl] at ht
      cases ht
      trivial
    · rintro rfl
      split at ht <;> cases ht <;> rfl
  next => cases ht

/-- Out of `startUpdate`, only a request changes where the IPC thread is. -/
theorem ipc_still {u u' : UpdateManager.State} {a : UpdateManager.Act}
    (hs : UpdateManager.step f.sha256 f.updates u a = some u') (ha : a ≠ .ipcCall)
    (hover : Over u.ipc = true) : u'.ipc = u.ipc := by
  cases hworker : a.worker with
  | some i =>
    obtain ⟨w, hw, hown | ⟨-, rfl⟩⟩ := UpdateManager.step_own hs hworker
    · cases hown with
      | throws _ state => rw [state]
      | moves _ state => rw [state]
    · rfl
  | none =>
    by_cases hstart : ∃ c ok, a = .threadStarted c ok
    · obtain ⟨c, ok, rfl⟩ := hstart
      obtain ⟨hipc, hchecker⟩ := threadStarted_ipc hs
      cases c with
      | ipc =>
        obtain ⟨⟨r, hr⟩, -⟩ := hipc rfl
        rw [hr] at hover
        cases hover
      | checker => exact hchecker rfl
    · push Not at hstart
      exact (service_still hs hworker hstart).2 ha hover

/-- A call that has started a worker returns so. -/
theorem started_still {u u' : UpdateManager.State} {a : UpdateManager.Act}
    (hs : UpdateManager.step f.sha256 f.updates u a = some u') (ha : a ≠ .ipcCall)
    (h : Started u.ipc) : Started u'.ipc := by
  cases hover : Over u.ipc with
  | true => rw [ipc_still hs ha hover]; exact h
  | false =>
    obtain ⟨n, hn⟩ : ∃ n, u.calls .ipc = .joining n := by
      show ∃ n, u.ipc = .joining n
      cases hc : u.ipc with
      | joining n => exact ⟨n, rfl⟩
      | returned | threw | out => rw [hc] at hover; cases hover
      | _ => rw [hc] at h; exact h.elim
    have hsame : u'.calls = u.calls → Started u'.ipc := fun hcalls => by
      show Started (u'.calls .ipc)
      rw [hcalls]
      exact h
    -- a call of the checker leaves that of the IPC thread alone
    have hset : ∀ {c : UpdateManager.Caller} {call' : UpdateManager.Call},
        u'.calls = Function.update u.calls c call' → (c = .ipc → Started call') → Started u'.ipc := by
      intro c call' hcalls hipc
      show Started (u'.calls .ipc)
      rw [hcalls]
      cases c with
      | ipc => rw [Function.update_self]; exact hipc rfl
      | checker => rw [Function.update_of_ne (show UpdateManager.Caller.ipc ≠ .checker by decide)]; exact h
    cases UpdateManager.step_effect hs with
    | still calls | work _ _ _ calls => exact hsame calls
    | begin outside calls =>
      exact hset calls fun hc => absurd (by rw [hc, hn]; trivial) outside
    | call edge calls =>
      refine hset calls fun hc => ?_
      subst hc
      generalize u'.lock = lock', u'.slotSeen = slot' at edge
      cases edge with
      | leave hno => exact absurd (by rw [hn]; trivial) hno
      | refuse _ hno => exact absurd hn (hno n)
      | joined => trivial
      | lock hc | notBusy hc | noSlot hc | release hc | newer hc | throws hc => rw [hn] at hc; cases hc
    | start at_ calls | startThrows at_ calls =>
      exact hset calls fun hc => by rw [hc, hn] at at_; cases at_

/-! ## A reported failure is true -/

/-- The request was refused, and the client can be told so at most. -/
def Refused (s : State) : Prop :=
  (∃ j, s.request = some ⟨.updatePerform, .replied j⟩ ∧ Refuses j) ∨
    s.handling = true ∧ ((∃ error, s.updates.ipc = .returned false error) ∨ s.updates.ipc = .threw)

/-- The request to start an update is given up only if it is not delivered any more, or was
refused. -/
def Delivered (s : State) : Act → Prop
  | .giveUp dropped =>
    (∃ msg, s.rest.next.bind ofUpdate = some msg ∧ msg.type = .updatePerform) →
      (∃ msg, msg.type = .updatePerform ∧ s.Undelivered msg dropped) ∨ Refused s
  | _ => True

structure Told (s : State) : Prop where
  waits : s.waiting = true → ∃ msg position,
    s.rest.next.bind ofUpdate = some msg ∧ s.request = some ⟨msg.type, position⟩
  asked : ∀ position, s.request = some ⟨.updatePerform, position⟩ →
    s.waiting = true ∨ ∃ e ∈ s.history, Asks e.1
  started : s.started = true → s.handling = true ∧ Started s.updates.ipc ∨
    ∃ j, s.request = some ⟨.updatePerform, .replied j⟩ ∧ ¬ Refuses j
  refused : ∀ msg res, msg.type = .updatePerform → ⟨.sendAndReceive .update msg, res⟩ ∈ s.history →
    (∀ j, res = some j → Refuses j) → s.started = false ∧ (s.request = none ∨ Refused s)

/-- A refused request has started nothing, and will not. -/
theorem Refused.not_started {s : State} (h : Refused s) (ht : Told s) : s.started = false := by
  cases hs : s.started with
  | false => rfl
  | true =>
    rcases ht.started hs with ⟨hhandling, hipc⟩ | ⟨j, hreq, hj⟩
    · have hreq : s.request = some ⟨.updatePerform, .handling⟩ := by simpa [State.handling] using hhandling
      rcases h with ⟨j, hreplied, -⟩ | ⟨-, ⟨error, hreturned⟩ | hthrew⟩
      · rw [hreq] at hreplied; cases hreplied
      · rw [hreturned] at hipc; exact hipc.elim
      · rw [hthrew] at hipc; exact hipc.elim
    · rcases h with ⟨j', hreplied, hj'⟩ | ⟨hhandling, -⟩
      · rw [hreq] at hreplied
        cases hreplied
        exact absurd hj' hj
      · simp [State.handling, hreq] at hhandling

/-- A request that has started a worker is with the service, and was asked for. -/
theorem Told.started_request {s : State} (h : Told s) (hs : s.started = true) :
    (∃ position, s.request = some ⟨.updatePerform, position⟩ ∧ position ≠ .inFlight) ∧
      (s.waiting = true ∨ ∃ e ∈ s.history, Asks e.1) := by
  rcases h.started hs with ⟨hhandling, -⟩ | ⟨j, hreq, -⟩
  · have hreq : s.request = some ⟨.updatePerform, .handling⟩ := by simpa [State.handling] using hhandling
    exact ⟨⟨_, hreq, nofun⟩, h.asked _ hreq⟩
  · exact ⟨⟨_, hreq, nofun⟩, h.asked _ hreq⟩

theorem Told.not_started {s : State} (h : Told s) (hsound : Sound f s) {msg : IpcMessage}
    {dropped : Bool} (hnext : s.rest.next.bind ofUpdate = some msg) (hu : s.Undelivered msg dropped) :
    s.started = false := by
  cases hs : s.started with
  | false => rfl
  | true =>
    obtain ⟨⟨position, hreq, hposition⟩, hasked⟩ := h.started_request hs
    rcases hu with hwaiting | ⟨-, hflight⟩
    · rcases hasked with hwaits | ⟨e, he, hasks⟩
      · rw [hwaiting] at hwaits; cases hwaits
      · rw [asked_next hsound.steps he hasks] at hnext; cases hnext
    · rw [hreq] at hflight
      exact absurd (congrArg Request.position (Option.some.inj hflight)) hposition

/-- Nothing was started by a request that is on its way, and no failure was reported for it. -/
theorem Told.inFlight {s : State} (h : Told s) {type : IpcMessageType}
    (hreq : s.request = some ⟨type, .inFlight⟩) :
    s.started = false ∧ ¬ (s.request = none ∨ Refused s) := by
  constructor
  · cases hs : s.started with
    | false => rfl
    | true =>
      obtain ⟨⟨position, hreq', hposition⟩, -⟩ := h.started_request hs
      rw [hreq] at hreq'
      exact absurd (congrArg Request.position (Option.some.inj hreq')).symm hposition
  · rintro (hnone | ⟨j, hreplied, -⟩ | ⟨hhandling, -⟩)
    · rw [hreq] at hnone; cases hnone
    · rw [hreq] at hreplied; cases hreplied
    · simp [State.handling, hreq] at hhandling

theorem asks_of_type {msg : IpcMessage} (h : msg.type = .updatePerform) :
    Asks (.sendAndReceive .update msg) := congrArg some h

theorem told_update {s : State} {a : UpdateManager.Act} {u : UpdateManager.State} (h : Told s)
    (hu : UpdateManager.step f.sha256 f.updates s.updates a = some u)
    (hfree : s.handling = true → a ≠ .ipcCall) :
    Told { s with
      updates := u
      started := s.started || (s.handling && a = .threadStarted .ipc true) } where
  waits := h.waits
  asked := h.asked
  started hs := by
    simp only [Bool.or_eq_true, Bool.and_eq_true, decide_eq_true_eq] at hs
    rcases hs with hs | ⟨hhandling, rfl⟩
    · rcases h.started hs with ⟨hhandling, hipc⟩ | hreplied
      · exact .inl ⟨hhandling, started_still hu (hfree hhandling) hipc⟩
      · exact .inr hreplied
    · exact .inl ⟨hhandling, ((threadStarted_ipc hu).1 rfl).2 rfl⟩
  refused msg res htype hmem hres := by
    obtain ⟨hno, hrefused⟩ := h.refused msg res htype hmem hres
    rcases hrefused with hnone | ⟨j, hreq, hj⟩ | ⟨hhandling, hipc⟩
    · exact ⟨by simp [hno, State.handling, hnone], .inl hnone⟩
    · exact ⟨by simp [hno, State.handling, hreq], .inr (.inl ⟨j, hreq, hj⟩)⟩
    · have hover : Over s.updates.ipc = true := by
        rcases hipc with ⟨error, hipc⟩ | hipc <;> rw [hipc] <;> rfl
      refine ⟨?_, .inr (.inr ⟨hhandling, ?_⟩)⟩
      · have hne : a ≠ .threadStarted .ipc true := by
          rintro rfl
          obtain ⟨r, hr⟩ := ((threadStarted_ipc hu).1 rfl).1
          rw [hr] at hover
          cases hover
        simp [hno, hne]
      · show (∃ error, u.ipc = _) ∨ u.ipc = _
        rw [ipc_still hu (hfree hhandling) hover]
        exact hipc

/-- The client still waits when its request goes on. -/
theorem Told.waits_at {s : State} (h : Told s) {type : IpcMessageType} {position position' : Position}
    (hreq : s.request = some ⟨type, position⟩) (hw : s.waiting = true) : ∃ msg p,
      s.rest.next.bind ofUpdate = some msg ∧ (s.at_ type position').request = some ⟨msg.type, p⟩ := by
  obtain ⟨msg, p, hnext, hreq'⟩ := h.waits hw
  rw [hreq] at hreq'
  have htype : type = msg.type := congrArg Request.type (Option.some.inj hreq')
  exact ⟨msg, position', hnext, by rw [← htype]; rfl⟩

/-- The service made a reply without starting an update. -/
theorem told_replied {s : State} {type : IpcMessageType} {reply : Json} (h : Told s)
    (hreq : s.request = some ⟨type, .inFlight⟩) (htype : type ≠ .updatePerform) :
    Told (s.at_ type (.replied reply)) where
  waits hw := h.waits_at hreq hw
  asked position hreq' := absurd (congrArg Request.type (Option.some.inj hreq')) htype
  started hs := by
    have hs : s.started = true := hs
    rw [(h.inFlight hreq).1] at hs
    cases hs
  refused msg res hmsg hmem hres := absurd (h.refused msg res hmsg hmem hres).2 (h.inFlight hreq).2

/-- `startUpdate` has returned or thrown, and the reply says which. -/
theorem told_handled {s : State} {reply : Json} (h : Told s) (hhandling : s.handling = true)
    (hstarted : Started s.updates.ipc → ¬ Refuses reply)
    (hrefused : (∃ error, s.updates.ipc = .returned false error) ∨ s.updates.ipc = .threw →
      Refuses reply) : Told (s.at_ .updatePerform (.replied reply)) := by
  have hreq : s.request = some ⟨.updatePerform, .handling⟩ := by simpa [State.handling] using hhandling
  refine ⟨fun hw => h.waits_at hreq hw, fun _ _ => h.asked _ hreq, fun hs => ?_,
    fun msg res hmsg hmem hres => ?_⟩
  · rcases h.started hs with ⟨-, hipc⟩ | ⟨j, hreplied, -⟩
    · exact .inr ⟨reply, rfl, hstarted hipc⟩
    · rw [hreq] at hreplied; cases hreplied
  · obtain ⟨hno, hnone | ⟨j, hreplied, -⟩ | ⟨-, hipc⟩⟩ := h.refused msg res hmsg hmem hres
    · rw [hreq] at hnone; cases hnone
    · rw [hreq] at hreplied; cases hreplied
    · exact ⟨hno, .inr (.inl ⟨reply, rfl, hrefused hipc⟩)⟩

/-- The call returns: what the client is told is what became of the request. -/
theorem told_answered {s : State} {msg : IpcMessage} {res : Option Json} {rest : Remote Unit}
    {request : Option Request} (h : Told s) (hsound : Sound f s)
    (hnext : s.rest.next.bind ofUpdate = some msg)
    (hrequest : ∀ position, request = some ⟨.updatePerform, position⟩ → msg.type = .updatePerform)
    (hsame : request = s.request ∨ s.started = false)
    (hrefused : msg.type = .updatePerform → (∀ j, res = some j → Refuses j) →
      s.started = false ∧ (request = none ∨ Refused { s with request })) :
    Told { s with
      rest, request, waiting := false, history := s.history ++ [⟨.sendAndReceive .update msg, res⟩] } where
  waits := nofun
  asked position hreq := .inr ⟨⟨.sendAndReceive .update msg, res⟩, by simp,
    asks_of_type (hrequest position hreq)⟩
  started hs := by
    rcases hsame with rfl | hno
    · exact h.started hs
    · have hs : s.started = true := hs
      rw [hno] at hs
      cases hs
  refused msg' res' hmsg hmem hres := by
    rcases List.mem_append.mp hmem with hmem | hmem
    · rw [asked_next hsound.steps hmem (asks_of_type hmsg)] at hnext
      cases hnext
    · cases List.mem_singleton.mp hmem
      exact hrefused hmsg hres

theorem told_step {s s' : State} {a : Act} (hsound : Sound f s) (h : Told s) (hG : Delivered s a)
    (hs : step f s a = some s') : Told s' := by
  cases step_effect hs with
  | update hu hfree => exact told_update h hu hfree
  | @answer e rest hop hrest =>
    have hidle : s.waiting = false := by
      cases hw : s.waiting with
      | false => rfl
      | true =>
        obtain ⟨msg, _, hnext, -⟩ := h.waits hw
        rw [hrest.next, Option.bind_some, hop] at hnext
        cases hnext
    refine ⟨fun hw => ?_, fun position hreq => ?_, h.started, fun msg res hmsg hmem => ?_⟩
    · have hw : s.waiting = true := hw
      rw [hidle] at hw; cases hw
    · rcases h.asked position hreq with hw | ⟨e', he', hasks⟩
      · exact .inl hw
      · exact .inr ⟨e', List.mem_append_left _ he', hasks⟩
    · rcases List.mem_append.mp hmem with hmem | hmem
      · exact h.refused msg res hmsg hmem
      · cases List.mem_singleton.mp hmem
        cases hop
  | @send msg hnext hwaiting =>
    have hundelivered : s.Undelivered msg false := .inl hwaiting
    have hno := h.not_started hsound hnext hundelivered
    refine ⟨fun _ => ⟨msg, .inFlight, hnext, rfl⟩, fun _ _ => .inl rfl, fun hs => ?_,
      fun msg' res hmsg hmem => ?_⟩
    · have hs : s.started = true := hs
      rw [hno] at hs; cases hs
    · rw [asked_next hsound.steps hmem (asks_of_type hmsg)] at hnext
      cases hnext
  | status hreq => exact told_replied h hreq nofun
  | other hreq _ hperform => exact told_replied h hreq hperform
  | throws hreq hperform => exact told_replied h hreq hperform
  | perform hreq _ =>
    obtain ⟨hno, hnot⟩ := h.inFlight hreq
    refine ⟨fun hw => h.waits_at hreq hw, fun _ _ => h.asked _ hreq, fun hs => ?_,
      fun msg res hmsg hmem hres => absurd (h.refused msg res hmsg hmem hres).2 hnot⟩
    have hs : s.started = true := hs
    rw [hno] at hs; cases hs
  | @returned ok error hhandling hipc =>
    refine told_handled h hhandling (fun hstarted => ?_) fun hrefused => ?_
    · rw [hipc] at hstarted
      cases ok with
      | false => exact hstarted.elim
      | true => simp [Refuses, performReply, Json.find]
    · rw [hipc] at hrefused
      cases ok with
      | false => simp [Refuses, performReply, Json.find]
      | true => rcases hrefused with ⟨_, he⟩ | he <;> cases he
  | threw hhandling hipc =>
    exact told_handled h hhandling (fun hstarted => by rw [hipc] at hstarted; exact hstarted.elim)
      fun _ => by simp [Refuses, Json.find]
  | @receive msg j rest hreq hwaiting hrest =>
    refine told_answered h hsound (by rw [hrest.next]; rfl) (fun position hreq' => ?_) (.inl rfl)
      fun hmsg hres => ?_
    · rw [hreq] at hreq'
      exact congrArg Request.type (Option.some.inj hreq')
    · have hrefused : Refused s := .inl ⟨j, by rw [hreq, hmsg], hres j rfl⟩
      exact ⟨hrefused.not_started h, .inr hrefused⟩
  | @giveUp msg dropped request rest hnext hrequest hrest =>
    refine told_answered h hsound hnext (fun position hreq' => ?_) ?_ fun hmsg _ => ?_
    · rcases hrequest with ⟨rfl, -⟩ | ⟨rfl, hsent⟩
      · cases hreq'
      · have hw : s.waiting = true := by simpa using (not_or.mp hsent).1
        obtain ⟨msg', p, hnext', hreq⟩ := h.waits hw
        rw [hnext] at hnext'
        cases hnext'
        rw [hreq] at hreq'
        exact congrArg Request.type (Option.some.inj hreq')
    · exact hrequest.symm.imp (·.1) fun hu => h.not_started hsound hnext hu.2
    · rcases hrequest with ⟨rfl, hu⟩ | ⟨rfl, hsent⟩
      · exact ⟨h.not_started hsound hnext hu, .inl rfl⟩
      · rcases hG ⟨msg, hnext, hmsg⟩ with ⟨msg', hmsg', hu⟩ | hrefused
        · rw [State.Undelivered, hmsg'] at hu
          rw [State.Undelivered, hmsg] at hsent
          exact absurd hu hsent
        · exact ⟨hrefused.not_started h, .inr hrefused⟩

theorem told_inductive : (machine f).Inductive Delivered fun s => Sound f s ∧ Told s where
  init := by
    rintro s ⟨msg, pendingSlot, cache, rfl⟩
    exact ⟨sound_inductive.init _ ⟨msg, pendingSlot, cache, rfl⟩, nofun, nofun, nofun, nofun⟩
  step s a s' h hG hs := ⟨sound_inductive.step s a s' h.1 trivial hs, told_step h.1 h.2 hG hs⟩

/-- Where requests are not given up while they can be delivered, an update whose start is reported
as failed has not been started by the request, and is not started later. -/
theorem not_started_of_delivered {s : State} (hr : (machine f).ReachableBy Delivered s)
    (hinstalls : Installs s.msg) (hreported : ∃ e ∈ s.history, Failed e.1) : s.started = false := by
  obtain ⟨hsound, htold⟩ := told_inductive.of_reachable hr
  obtain ⟨e, he, hfailed⟩ := hreported
  obtain ⟨res, hmem, hres⟩ := failed_asked hsound.steps hinstalls he hfailed
  exact (htold.refused _ res rfl hmem hres).1

def installCommand : Json :=
  .obj [("type", .str "command"), ("id", .int 7), ("command", .str "update_install"),
    ("expires_at", .int 100)]

/-- The frame is told to install an update. -/
def toldInstall : State :=
  { msg := installCommand, rest := handle frame.timing frame.uploads installCommand }

/-- Through the gates, and into `startUpdate` up to the fetch of the release. -/
def installRequested : List Act :=
  [.answer ⟨.systemNow, (50 : Int)⟩, .send, .serve .null, .receive, .send,
    .serve (.obj [("ok", .bool true), ("release", .obj [("is_newer", .bool true)])]), .receive,
    .answer ⟨.run (gateCmd false) 5, { exitCode := 0 }⟩, .answer ⟨.steadyNow, (0 : Int)⟩,
    .answer ⟨.stopRequested, false⟩,
    .answer ⟨.sendAndReceive .display { type := .getSlideshowActive }, none⟩,
    .answer ⟨.run ["shareframe-diag", "--out", "/data/pending"] 60, { exitCode := 1, stdErr := "full" }⟩,
    .answer ⟨.run ["shareframe-event", "remote",
        "#7 update_install diagnostics kept on device (Collecting diagnostics failed: full)"] 5,
      { exitCode := 0 }⟩,
    .answer ⟨.run ["shareframe-event", "remote", "#7 update_install accepted"] 5, { exitCode := 0 }⟩,
    .answer ⟨.publish (commandResult 7 "accepted" ""), ()⟩, .send, .serve .null,
    .update (.call .ipc), .update (.call .ipc), .update (.call .ipc)]

/-- The failure goes to the log of the board and to the server. -/
def reported (error : String) : List Act :=
  [.answer ⟨.run ["shareframe-event", "remote", "#7 update_install failed (" ++ error ++ ")"] 5,
      { exitCode := 0 }⟩,
    .answer ⟨.publish (commandResult 7 "failed" error), ()⟩]

/-- The service does not get the release. -/
def refusedInstall : List Act :=
  installRequested ++ [Act.update (.fetched .ipc ⟨500, "", ""⟩ none), .reply, .receive] ++
    reported "Failed to fetch latest release from server"

theorem not_started_of_delivered_refused :
    ∃ s, (machine frame).run toldInstall refusedInstall = some s ∧
      (∃ e ∈ s.history, Failed e.1) ∧ s.started = false := by
  have hrun : ∃ s ∈ (machine frame).run toldInstall refusedInstall, s.msg = installCommand ∧
      ∃ e ∈ s.history,
        e.1 = .publish (commandResult 7 "failed" "Failed to fetch latest release from server") := by
    decide +kernel
  obtain ⟨s, hs, hmsg, e, he, hfailed⟩ := hrun
  have hwaits : (refusedInstall.all fun | .giveUp _ => false | _ => true) = true := by decide
  have hmeets : (machine frame).Meets Delivered toldInstall refusedInstall :=
    Machine.meets_of_mem fun a ha t => by
      have hwait := List.all_eq_true.mp hwaits a ha
      cases a with
      | giveUp => cases hwait
      | _ => trivial
  have hr : (machine frame).ReachableBy Delivered s :=
    Machine.ReachableBy.run _ (.init ⟨installCommand, "", fun _ => none, rfl⟩) hmeets hs
  have hinstalls : Installs s.msg := by
    rw [hmsg]
    exact ⟨⟨7, "update_install", "", 100⟩, by decide +kernel, rfl⟩
  have hreported : ∃ e ∈ s.history, Failed e.1 := ⟨e, he, _, _, hfailed⟩
  exact ⟨s, hs, hreported, not_started_of_delivered hr hinstalls hreported⟩

/-- The command gives up during the fetch; then the release arrives, and the worker is started. -/
def lateInstall : List Act :=
  installRequested ++ [Act.giveUp false] ++ reported "update service unreachable" ++
    ([.fetched .ipc ⟨200, "", ""⟩ (some UpdateManager.nextRelease), .call .ipc,
      .threadStarted .ipc true] : List UpdateManager.Act).map .update

theorem started_behind_failure :
    ∃ s, (machine frame).run toldInstall lateInstall = some s ∧ Installs s.msg ∧
      (∃ e ∈ s.history, Failed e.1) ∧ s.started = true := by
  have hrun : ∃ s ∈ (machine frame).run toldInstall lateInstall, s.msg = installCommand ∧
      (∃ e ∈ s.history, e.1 = .publish (commandResult 7 "failed" "update service unreachable")) ∧
      s.started = true := by decide +kernel
  obtain ⟨s, hs, hmsg, ⟨e, he, hfailed⟩, hstarted⟩ := hrun
  refine ⟨s, hs, ?_, ⟨e, he, _, _, hfailed⟩, hstarted⟩
  rw [hmsg]
  exact ⟨⟨7, "update_install", "", 100⟩, by decide +kernel, rfl⟩

end ShareFrame.RemoteUpdate
