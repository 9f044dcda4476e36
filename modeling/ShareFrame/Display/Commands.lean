import ShareFrame.Display.DisplayService
import ShareFrame.Task.Loop.UserWait

/-!
# Skips and show-now requests

A command is tested on the IPC thread, travels over the bus and sets a flag that
the loop resets behind a paint. While the loop waits behind a user picture and sees
no flag, no command is lost: it is still to be published or delivered
(`commands_kept`). A request that was delivered is what the next pick takes, if the
loop has the picture in its list.
-/

namespace ShareFrame.DisplayService

open Interaction Transition
open Playback (Generator)
open DisplayIpc (Op Ans Handler)

/-! ## What the handlers publish -/

section Handlers

open Prog DisplayIpc

/-- Behind the test of a skip it is published. -/
theorem skip_tested {t : List (Event Ans)} {q : Handler Json}
    (h : Steps skipImage (t ++ [⟨.isRefreshing, false⟩]) q) :
    ∃ k, q = .call (.publish .skipImage) k := by
  unfold skipImage at h
  cases t with
  | nil =>
    simp [DisplayIpc.ask, Prog.ask] at h
    exact ⟨_, h⟩
  | cons e t =>
    -- behind its only test it makes no other
    simp [DisplayIpc.ask, Prog.ask] at h
    obtain ⟨-, ⟨_, ht⟩, -⟩ := h
    have := congrArg List.getLast? ht
    simp at this

/-- A query that found a picture. -/
def Found (e : Event Ans) : Prop :=
  ∃ ids image more, e = ⟨.getByIds ids, some (image :: more)⟩

def Publishes (e : Event Ans) : Prop := ∃ event, e = ⟨.publish event, ()⟩

/-- Where the handler of a show-now request is: before the picture is found nothing is published,
behind it the request. -/
theorem showImage_steps {id : Int} {t : List (Event Ans)} {q : Handler Json}
    (h : Steps (showImage id) t q) :
    (∀ e ∈ t, ¬ Found e ∧ ¬ Publishes e) ∨
    ∃ image more t', t = [⟨.isRefreshing, false⟩, ⟨.isSlideshowActive, true⟩,
        ⟨.getByIds [id], some (image :: more)⟩] ++ t' ∧
      (t' = [] ∧ (∃ k, q = .call (.publish (.showImage id)) k) ∨
        t' = [⟨.publish (.showImage id), ()⟩]) := by
  unfold showImage at h
  simp only [DisplayIpc.ask, Prog.ask, call_bind, pure_bind_eq, steps_call, pure_eq] at h
  obtain ⟨rfl, rfl⟩ | ⟨b, t', rfl, h⟩ := h
  · exact .inl (by simp)
  cases b with
  | true =>
    simp at h
    obtain ⟨rfl, rfl⟩ := h
    exact .inl (by simp [Found, Publishes])
  | false =>
  simp at h
  obtain ⟨rfl, rfl⟩ | ⟨rfl, rfl⟩ | ⟨t', rfl, h⟩ := h
  · exact .inl (by simp [Found, Publishes])
  · exact .inl (by simp [Found, Publishes])
  obtain ⟨rfl, rfl⟩ | ⟨stored, t', rfl, h⟩ := h
  · exact .inl (by simp [Found, Publishes])
  cases stored with
  | none =>
    simp [query] at h
    obtain ⟨rfl, rfl⟩ := h
    exact .inl (by simp [Found, Publishes])
  | some stored =>
    cases stored with
    | nil =>
      simp [query] at h
      obtain ⟨rfl, rfl⟩ := h
      exact .inl (by simp [Found, Publishes])
    | cons image more =>
      simp [query] at h
      refine .inr ⟨image, more, t', rfl, ?_⟩
      obtain ⟨rfl, rfl⟩ | ⟨⟨_, rfl⟩, rfl⟩ := h
      · exact .inl ⟨rfl, _, rfl⟩
      · exact .inr rfl

theorem handle_showImage {msg : IpcMessage} (hm : msg.type = .showImage) {t : List (Event Ans)}
    {q : Handler Json} (h : Steps (handle msg) t q) :
    t = [] ∨ ∃ id, Steps (showImage id) t q := by
  simp only [handle, hm, DisplayIpc.json] at h
  cases hread : readId msg.data with
  | error e =>
    rw [hread] at h
    exact .inl (steps_throw.mp h).1
  | ok id =>
    rw [hread] at h
    exact .inr ⟨id, h⟩

/-- Behind the query that finds the picture the request is published. -/
theorem show_found {msg : IpcMessage} (hm : msg.type = .showImage) {t : List (Event Ans)}
    {e : Event Ans} (he : Found e) {q : Handler Json} (h : Steps (handle msg) (t ++ [e]) q) :
    ∃ id k, q = .call (.publish (.showImage id)) k := by
  obtain ht | ⟨id, h⟩ := handle_showImage hm h
  · simp at ht
  obtain hno | ⟨image, more, t', ht, ⟨rfl, hq⟩ | rfl⟩ := showImage_steps h
  · exact absurd he (hno e (by simp)).1
  · exact ⟨id, hq⟩
  · -- the last event is the publication
    obtain ⟨ids, image', more', rfl⟩ := he
    have := congrArg List.getLast? ht
    simp at this

/-- A request that is published was found. -/
theorem show_published {msg : IpcMessage} (hm : msg.type = .showImage) {t : List (Event Ans)}
    {event : DisplayEvent} {q : Handler Json}
    (h : Steps (handle msg) (t ++ [⟨.publish event, ()⟩]) q) :
    ∃ id image more, event = .showImage id ∧
      (⟨.getByIds [id], some (image :: more)⟩ : Event Ans) ∈ t := by
  obtain ht | ⟨id, h⟩ := handle_showImage hm h
  · simp at ht
  obtain hno | ⟨image, more, t', ht, ⟨rfl, -⟩ | rfl⟩ := showImage_steps h
  · exact absurd ⟨event, rfl⟩ (hno _ (by simp)).2
  · have := congrArg List.getLast? ht
    simp at this
  · obtain ⟨rfl, heq⟩ := List.append_inj' ht rfl
    simp only [List.cons.injEq, Sigma.mk.injEq, Op.publish.injEq, and_true] at heq
    exact ⟨id, image, more, heq.1, by simp⟩

/-- The other messages publish no show-now request. -/
theorem not_published {msg : IpcMessage} (hm : msg.type ≠ .showImage) {t : List (Event Ans)}
    {id : Int} : ¬ Calls (handle msg) t (.publish (.showImage id)) := by
  intro h
  obtain ⟨-, he⟩ | ⟨hshow, -⟩ | hread := handle_publishes h
  · cases he
  · exact hm hshow
  · exact readEvent_own hread id rfl

end Handlers

/-! ## Nothing is lost -/

variable {γ : Type} {gen : Generator γ} {cfg : DisplayImageLoop.Config}

/-- The event of a message is still to be published by the IPC thread. -/
def State.Publishing (s : State γ) (number : Nat) (event : DisplayEvent) : Prop :=
  ∃ call k, s.ipc = some call ∧ call.number = number ∧ call.rest = .call (.publish event) k

/-- The event of a message is still to be published, or on the bus. -/
def State.Undelivered (s : State γ) (number : Nat) (event : DisplayEvent) : Prop :=
  s.Publishing number event ∨ (number, event) ∈ s.bus

/-- What the handler on the IPC thread was answered: found pictures have an id that was asked for. -/
structure Call.Ok (call : Call) (t : List (Event Ans)) : Prop where
  steps : Prog.Steps (DisplayIpc.handle call.msg) t call.rest
  found : ∀ ids stored, (⟨.getByIds ids, some stored⟩ : Event Ans) ∈ t →
    ∀ image ∈ stored, image.id ∈ ids ∧ image.id ≠ 0

structure Inv (s : State γ) : Prop where
  rows : ∀ image ∈ s.loop.rows, image.id ≠ 0
  call : ∀ call, s.ipc = some call → ∃ t, call.Ok t
  bus : ∀ number id, (number, .showImage id) ∈ s.bus → id ≠ 0
  pending : ∀ number id, s.pending = some (number, id) → s.loop.pendingShowId_ = id ∧ id ≠ 0
  inPaint : s.loop.pc.InPaint → s.loop.refreshing_ = true ∧ s.tested = []
  behindUser : s.loop.pc.BehindUser → ∀ number ∈ s.tested,
    s.loop.skipCurrent_ = true ∨ s.Undelivered number .skipImage
  requests : ∀ number ∈ s.accepted, number ∈ s.done ∨ (∃ id, s.pending = some (number, id)) ∨
    ∃ id, s.Undelivered number (.showImage id)

/-- What a step of the loop or of its surroundings keeps, while the IPC thread and the bus stay. -/
theorem Inv.loop {s : State γ} (h : Inv s) {act : DisplayImageLoop.Act} (hfree : Free act)
    {loop : DisplayImageLoop.State γ} (hs : DisplayImageLoop.step gen cfg s.loop act = some loop) :
    Inv (afterLoop s act loop) := by
  have hfollows := DisplayImageLoop.step_follows hs
  have hframe := DisplayImageLoop.step_frame hs
  have hrows : ∀ image ∈ loop.rows, image.id ≠ 0 := by
    obtain he | ⟨image, rfl, he⟩ | ⟨ids, rfl, he⟩ := hframe.rows <;> rw [he]
    · exact h.rows
    · intro im him
      obtain him | him := List.mem_append.mp him
      · exact h.rows im (List.mem_filter.mp him).1
      · exact List.mem_singleton.mp him ▸ hfree
    · exact fun im him => h.rows im (List.mem_filter.mp him).1
  have hnoShow : ∀ id, act ≠ .showImage id := by
    rintro id rfl
    exact hfree
  unfold afterLoop
  split
  next all hpc =>
    -- a pick: the request that is pending is taken
    have hpaint : ¬ loop.pc.InPaint := fun hp => by
      obtain ⟨-, -, ⟨image, hcheck⟩, -⟩ | ⟨hp, -⟩ := hfollows.inPaint hp
      · rw [hpc] at hcheck; cases hcheck
      · rw [hpc] at hp; exact hp
    have hwait : ¬ loop.pc.BehindUser := fun hp => by
      obtain hp | ⟨hp, -⟩ := hfollows.behindUser hp <;> rw [hpc] at hp <;> exact hp
    refine ⟨hrows, h.call, h.bus, fun _ _ hp => (nomatch hp), fun hp => absurd hp hpaint,
      fun hp => absurd hp hwait, fun number hn => ?_⟩
    obtain hdone | ⟨id, hpending⟩ | hun := h.requests number hn
    · exact .inl (List.mem_append_right _ hdone)
    · exact .inl (List.mem_append_left _ (by simp [hpending]))
    · exact .inr (.inr hun)
  next image image' hcheck hpainting =>
    have hpending : loop.pendingShowId_ = s.loop.pendingShowId_ := by
      obtain he | ⟨-, all, hpc⟩ | ⟨id, he⟩ := hframe.pending
      · exact he
      · rw [hcheck] at hpc; cases hpc
      · exact absurd he (hnoShow id)
    refine ⟨hrows, h.call, h.bus, fun number id hp => ?_, fun hp => ⟨?_, rfl⟩,
      fun _ _ hn => (nomatch hn), h.requests⟩
    · rw [hpending]
      exact h.pending number id hp
    · obtain ⟨-, hr, -⟩ | ⟨hp, -⟩ := hfollows.inPaint hp
      · exact hr
      · rw [hcheck] at hp; exact hp.elim
  next hnoPick hnoPaint =>
    have hpending : loop.pendingShowId_ = s.loop.pendingShowId_ := by
      obtain he | ⟨hloop, all, hpc⟩ | ⟨id, he⟩ := hframe.pending
      · exact he
      · exact (hnoPick all hloop hpc).elim
      · exact absurd he (hnoShow id)
    refine ⟨hrows, h.call, h.bus, fun number id hp => ?_, fun hp => ?_, fun hp => ?_, h.requests⟩
    · rw [hpending]
      exact h.pending number id hp
    · obtain ⟨hloop, -, ⟨image, hcheck⟩, image', hpainting⟩ | ⟨hp, hr⟩ := hfollows.inPaint hp
      · exact (hnoPaint image image' hloop hcheck hpainting).elim
      · rw [hr]
        exact h.inPaint hp
    · obtain hp | ⟨hp, hskip⟩ := hfollows.behindUser hp
      · -- behind the reset nothing was tested
        intro number hn
        rw [(h.inPaint hp).2] at hn
        cases hn
      · exact fun number hn => (h.behindUser hp number hn).imp_left hskip

/-- The IPC thread moves on while it has nothing to publish. -/
theorem Inv.moveIpc {s : State γ} (h : Inv s) (hno : ∀ number event, ¬ s.Publishing number event)
    {ipc : Option Call} (hipc : ∀ call, ipc = some call → ∃ t, call.Ok t) (received : Nat) :
    Inv { s with ipc, received } := by
  have hbus : ∀ number event, s.Undelivered number event → (number, event) ∈ s.bus :=
    fun number event hun => hun.resolve_left (hno number event)
  refine ⟨h.rows, hipc, h.bus, h.pending, h.inPaint, fun hp number hn => ?_, fun number hn => ?_⟩
  · exact (h.behindUser hp number hn).imp_right fun hun => .inr (hbus _ _ hun)
  · obtain hdone | hpending | ⟨id, hun⟩ := h.requests number hn
    · exact .inl hdone
    · exact .inr (.inl hpending)
    · exact .inr (.inr ⟨id, .inr (hbus _ _ hun)⟩)

/-- The answer to a call keeps what the handler was answered. -/
theorem Call.Ok.answer {s : State γ} (h : Inv s) {call : Call} {t : List (Event Ans)} (hok : call.Ok t)
    {e : Event Ans} (hsees : Sees cfg s.loop e) {rest : Handler Json}
    (ha : call.rest.answer e = some rest) : ({ call with rest } : Call).Ok (t ++ [e]) where
  steps := hok.steps.append (Prog.answer_eq_some.mp ha)
  found ids stored hmem image him := by
    obtain hmem | hmem := List.mem_append.mp hmem
    · exact hok.found ids stored hmem image him
    · obtain rfl := List.mem_singleton.mp hmem
      obtain hnone | hsome := hsees
      · cases hnone
      · cases hsome
        obtain ⟨hrow, hid⟩ := List.mem_filter.mp him
        exact ⟨of_decide_eq_true hid, h.rows image hrow⟩

theorem eq_publish {e : Event Ans} {event : DisplayEvent} (h : e.1 = .publish event) :
    e = ⟨.publish event, ()⟩ := by
  obtain ⟨op, answer⟩ := e
  cases h
  rfl

/-- A handler that publishes asks for nothing else. -/
theorem answered_publishes {s : State γ} {call : Call} (hcall : s.ipc = some call) {e : Event Ans}
    {rest : Handler Json} (ha : call.rest.answer e = some rest) {number : Nat} {event : DisplayEvent}
    (hp : s.Publishing number event) : number = call.number ∧ e.1 = .publish event := by
  obtain ⟨call', k, hcall', rfl, hrest⟩ := hp
  rw [hcall] at hcall'
  cases hcall'
  have hnext := (Prog.answer_eq_some.mp ha).next
  rw [hrest] at hnext
  exact ⟨rfl, (Option.some.inj hnext).symm⟩

/-- A handler publishes a show-now request for a stored picture only. -/
theorem published_id {call : Call} {t : List (Event Ans)} (hok : call.Ok t) {id : Int}
    {rest : Handler Json} (ha : call.rest.answer ⟨.publish (.showImage id), ()⟩ = some rest) :
    id ≠ 0 := by
  have hsteps := hok.steps.append (Prog.answer_eq_some.mp ha)
  by_cases hm : call.msg.type = .showImage
  · obtain ⟨id', image, more, he, hfound⟩ := show_published hm hsteps
    obtain ⟨hid, hne⟩ := hok.found _ _ hfound image List.mem_cons_self
    rw [List.mem_singleton] at hid
    cases he
    exact hid ▸ hne
  · exact absurd hsteps.calls (not_published hm)

/-- An operation of the IPC thread. -/
theorem Inv.ipc {s : State γ} (h : Inv s) {call : Call} (hcall : s.ipc = some call) {e : Event Ans}
    (hsees : Sees cfg s.loop e) {rest : Handler Json} (ha : call.rest.answer e = some rest) :
    Inv (afterIpc s call rest e) := by
  obtain ⟨t, hok⟩ := h.call call hcall
  have hok' := hok.answer h hsees ha
  have hcalls : ∀ call', some { call with rest } = some call' → ∃ t, call'.Ok t := by
    rintro _ ⟨⟩
    exact ⟨_, hok'⟩
  have hno : (∀ event, e.1 ≠ .publish event) → ∀ number event, ¬ s.Publishing number event :=
    fun he number event hp => he event (answered_publishes hcall ha hp).2
  unfold afterIpc
  simp only
  split
  next event _ =>
    -- it is published
    have hun : ∀ number ev, s.Undelivered number ev → (number, ev) ∈ s.bus ++ [(call.number, event)] := by
      rintro number ev (hp | hbus)
      · obtain ⟨rfl, he⟩ := answered_publishes hcall ha hp
        cases he
        exact List.mem_append_right _ (List.mem_singleton.mpr rfl)
      · exact List.mem_append_left _ hbus
    refine ⟨h.rows, hcalls, fun number id hmem => ?_, h.pending, h.inPaint, fun hp number hn => ?_,
      fun number hn => ?_⟩
    · obtain hmem | hmem := List.mem_append.mp hmem
      · exact h.bus number id hmem
      · cases List.mem_singleton.mp hmem
        exact published_id hok ha
    · exact (h.behindUser hp number hn).imp_right fun hu => .inr (hun _ _ hu)
    · obtain hdone | hpending | ⟨id, hu⟩ := h.requests number hn
      · exact .inl hdone
      · exact .inr (.inl hpending)
      · exact .inr (.inr ⟨id, .inr (hun _ _ hu)⟩)
  next hm =>
    -- a skip that found no refresh
    have hmoved := h.moveIpc (hno (by nofun)) hcalls s.received
    obtain ⟨k, hk⟩ : ∃ k, rest = .call (.publish .skipImage) k := by
      have hsteps := hok'.steps
      simp only [DisplayIpc.handle, hm] at hsteps
      exact skip_tested hsteps
    refine { hmoved with inPaint := fun hp => ?_, behindUser := fun hp number hn => ?_ }
    · have hr := (h.inPaint hp).1
      rw [← show false = s.loop.refreshing_ from hsees] at hr
      cases hr
    · obtain rfl | hn := List.mem_cons.mp hn
      · exact .inr (.inl ⟨_, k, rfl, rfl, hk⟩)
      · exact hmoved.behindUser hp number hn
  next ids image more hm =>
    -- a request whose picture is stored
    have hmoved := h.moveIpc (hno (by nofun)) hcalls s.received
    obtain ⟨id, k, hk⟩ := show_found hm ⟨ids, image, more, rfl⟩ hok'.steps
    refine { hmoved with requests := fun number hn => ?_ }
    obtain rfl | hn := List.mem_cons.mp hn
    · exact .inr (.inr ⟨id, .inl ⟨_, k, rfl, rfl, hk⟩⟩)
    · exact hmoved.requests number hn
  next hpublish _ _ =>
    exact h.moveIpc (hno fun event he => hpublish event () (eq_publish he)) hcalls s.received

/-- The bus thread runs a handler that neither signals nor asks for a picture. -/
theorem Inv.drop {s : State γ} (h : Inv s) {number : Nat} {event : DisplayEvent}
    {bus : List (Nat × DisplayEvent)} (hbus : s.bus = (number, event) :: bus)
    (hskip : event ≠ .skipImage) (hshow : ∀ id, event ≠ .showImage id)
    {loop : DisplayImageLoop.State γ} (hrows : loop.rows = s.loop.rows)
    (hpending : loop.pendingShowId_ = s.loop.pendingShowId_) (hpc : loop.pc = s.loop.pc)
    (hr : loop.refreshing_ = s.loop.refreshing_) (hflag : loop.skipCurrent_ = s.loop.skipCurrent_) :
    Inv { s with bus, loop } := by
  have htail : ∀ n ev, ev ≠ event → s.Undelivered n ev →
      ({ s with bus, loop } : State γ).Undelivered n ev := by
    rintro n ev hne (hp | hmem)
    · exact .inl hp
    · rw [hbus] at hmem
      obtain he | hmem := List.mem_cons.mp hmem
      · exact absurd (congrArg Prod.snd he) hne
      · exact .inr hmem
  refine ⟨fun image him => h.rows image (hrows ▸ him), h.call, fun n id hmem => ?_, fun n id hp => ?_,
    fun hp => ?_, fun hp n hn => ?_, fun n hn => ?_⟩
  · exact h.bus n id (by rw [hbus]; exact List.mem_cons_of_mem _ hmem)
  · rw [hpending]
    exact h.pending n id hp
  · rw [hr]
    exact h.inPaint (hpc ▸ hp)
  · rw [hflag]
    exact (h.behindUser (hpc ▸ hp) n hn).imp_right (htail n _ hskip.symm)
  · obtain hdone | hpend | ⟨id, hun⟩ := h.requests n hn
    · exact .inl hdone
    · exact .inr (.inl hpend)
    · exact .inr (.inr ⟨id, htail n _ (hshow id).symm hun⟩)

/-- The bus thread runs the handlers of the oldest event. -/
theorem Inv.deliver {s : State γ} (h : Inv s) {number : Nat} {event : DisplayEvent}
    {bus : List (Nat × DisplayEvent)} (hbus : s.bus = (number, event) :: bus)
    {act : DisplayImageLoop.Act} (hact : handlerOf event = some act)
    {loop : DisplayImageLoop.State γ} (hs : DisplayImageLoop.step gen cfg s.loop act = some loop) :
    Inv (afterDeliver { s with bus } number event loop) := by
  have hmem : ∀ n id, (n, .showImage id) ∈ bus → id ≠ 0 :=
    fun n id hmem => h.bus n id (by rw [hbus]; exact List.mem_cons_of_mem _ hmem)
  cases event with
  | skipImage =>
    cases hact
    cases hs
    refine ⟨h.rows, h.call, hmem, h.pending, h.inPaint, fun _ _ _ => .inl rfl, fun n hn => ?_⟩
    obtain hdone | hpend | ⟨id, hp | hun⟩ := h.requests n hn
    · exact .inl hdone
    · exact .inr (.inl hpend)
    · exact .inr (.inr ⟨id, .inl hp⟩)
    · rw [hbus] at hun
      obtain he | hun := List.mem_cons.mp hun
      · cases he
      · exact .inr (.inr ⟨id, .inr hun⟩)
  | showImage id =>
    cases hact
    cases hs
    have hid : id ≠ 0 := h.bus number id (by rw [hbus]; exact List.mem_cons_self)
    refine ⟨h.rows, h.call, hmem, fun n id' hp => ?_, h.inPaint, fun _ _ _ => .inl rfl,
      fun n hn => ?_⟩
    · cases hp
      exact ⟨rfl, hid⟩
    · obtain hdone | ⟨id', hpend⟩ | ⟨id', hp | hun⟩ := h.requests n hn
      · exact .inl (List.mem_append_right _ hdone)
      · -- replaced by this one
        exact .inl (List.mem_append_left _ (by simp [hpend]))
      · exact .inr (.inr ⟨id', .inl hp⟩)
      · rw [hbus] at hun
        obtain he | hun := List.mem_cons.mp hun
        · cases he
          exact .inr (.inl ⟨id, rfl⟩)
        · exact .inr (.inr ⟨id', .inr hun⟩)
  | clearDisplay => cases hact
  | statusScreen _ => cases hact
  | _ =>
    cases hact
    cases hs
    exact h.drop hbus (by nofun) (by nofun) rfl rfl rfl rfl rfl

theorem inv_inductive : (machine gen cfg).Inductive (fun _ _ => True) Inv where
  init := by
    rintro s ⟨loop, ⟨_, _, _, _, _, _, _, _, _, rfl⟩, hrows, rfl⟩
    exact ⟨hrows, nofun, nofun, nofun, fun hp => hp.elim, fun hp => hp.elim, nofun⟩
  step s act s' h _ hs := by
    cases act with
    | loop act =>
      simp only [machine, step] at hs
      split at hs
      next hfree =>
        obtain ⟨loop, hloop, rfl⟩ := Option.map_eq_some_iff.mp hs
        exact h.loop hfree hloop
      next => cases hs
    | request msg =>
      simp only [machine, step] at hs
      split at hs <;> cases hs
      next hidle =>
        refine h.moveIpc (fun n ev hp => ?_) (fun call hc => ?_) _
        · obtain ⟨call, k, hcall, -⟩ := hp
          rw [hidle] at hcall
          cases hcall
        · cases hc
          exact ⟨[], .nil _, fun _ _ hmem => nomatch hmem⟩
    | ipc e =>
      simp only [machine, step] at hs
      split at hs
      next => cases hs
      next call hcall =>
        split at hs
        next hsees =>
          obtain ⟨rest, ha, rfl⟩ := Option.map_eq_some_iff.mp hs
          exact h.ipc hcall hsees ha
        next => cases hs
    | reply =>
      simp only [machine, step] at hs
      split at hs
      next => cases hs
      next call hcall =>
        split at hs <;> cases hs
        next hended =>
          refine h.moveIpc (fun n ev hp => ?_) (fun call hc => by cases hc) _
          obtain ⟨call', k, hcall', -, hrest⟩ := hp
          rw [hcall] at hcall'
          cases hcall'
          rw [hrest] at hended
          cases hended
    | deliver =>
      simp only [machine, step] at hs
      split at hs
      next => cases hs
      next number event bus hbus =>
        split at hs
        next hnone =>
          cases hs
          refine h.drop hbus ?_ ?_ rfl rfl rfl rfl rfl
          · rintro rfl
            cases hnone
          · rintro id rfl
            cases hnone
        next act hact =>
          obtain ⟨loop, hloop, rfl⟩ := Option.map_eq_some_iff.mp hs
          exact h.deliver hbus hact hloop

/-- While the loop waits behind a user picture and nothing wakes it, the skips tested since that
picture's paint began and the show-now requests that are neither taken nor replaced are still to be
published or delivered. A request whose handler ran is what the next pick takes, if its list has
the picture. -/
theorem commands_kept {s : State γ} (hr : (machine gen cfg).Reachable s) :
    (∀ image, s.loop.pc.BehindUser → DisplayImageLoop.wake cfg s.loop (.user image) = false →
      (∀ number ∈ s.tested, s.Undelivered number .skipImage) ∧
        ∀ number ∈ s.accepted, number ∉ s.done → ∃ id, s.Undelivered number (.showImage id)) ∧
    ∀ all number id, s.loop.pc = .pick all → s.pending = some (number, id) →
      id ∈ all.map (·.id) → (DisplayImageLoop.takeNext gen s.loop all).1 = id := by
  have h := inv_inductive.of_reachable hr
  refine ⟨fun image hwait hwake => ?_, fun all number id _ hpending hmem => ?_⟩
  · simp only [DisplayImageLoop.wake, Bool.or_eq_false_iff, decide_eq_false_iff_not, not_not]
      at hwake
    obtain ⟨⟨hskip, hshow⟩, -⟩ := hwake
    refine ⟨fun number hn => ?_, fun number hn hdone => ?_⟩
    · obtain hset | hun := h.behindUser hwait number hn
      · rw [hskip] at hset
        cases hset
      · exact hun
    · obtain hd | ⟨id, hpending⟩ | hun := h.requests number hn
      · exact absurd hd hdone
      · obtain ⟨he, hid⟩ := h.pending number id hpending
        exact absurd (he.symm.trans hshow) hid
      · exact hun
  · obtain ⟨he, hid⟩ := h.pending number id hpending
    unfold DisplayImageLoop.takeNext
    simp only
    rw [if_pos ⟨he ▸ hid, he ▸ hmem⟩]
    exact he

/-! ## Two runs -/

section Runs

open DisplayImageLoop (freshState freshState_init defaultConfig)
open Playback (lowest)

def alice : Image := ⟨1, "alice", "1.jpg", 0, 0⟩

def bob : Image := ⟨2, "bob", "2.jpg", 0, 0⟩

/-- One picture is stored. -/
def oneStored : State Unit := { loop := freshState [alice] ["1.jpg", "2.jpg"] [] }

theorem oneStored_init : (machine lowest defaultConfig).Init oneStored :=
  ⟨_, freshState_init lowest [alice] ["1.jpg", "2.jpg"] [] (by decide), by decide, rfl⟩

/-- The picture is shown, then a skip finds no refresh. -/
def skipTested : List Act :=
  (List.replicate 4 (Act.loop .loop)) ++
    [Act.loop (.painted .shown), .loop .loop, .loop .loop, .request { type := .skipImage },
      .ipc ⟨.isRefreshing, false⟩]

/-- The loop has read its list when a second picture comes, is asked for and is delivered. -/
def shownTooSoon : List Act :=
  [.loop .loop, .loop .loop, .loop (.store bob),
    .request { type := .showImage, data := .obj [("id", .int 2)] }, .ipc ⟨.isRefreshing, false⟩,
    .ipc ⟨.isSlideshowActive, true⟩, .ipc ⟨.getByIds [2], some [bob]⟩,
    .ipc ⟨.publish (.showImage 2), ()⟩, .deliver]

/-- A skip that is published waits on the bus; a request for the picture that is shown is taken. -/
theorem commands_kept_skip :
    (∃ s, (machine lowest defaultConfig).run oneStored
        (skipTested ++ [.ipc ⟨.publish .skipImage, ()⟩]) = some s ∧
      s.loop.pc.BehindUser ∧ s.tested = [0] ∧ s.Undelivered 0 .skipImage) ∧
    ∃ s, (machine lowest defaultConfig).run oneStored
        (.loop (.store bob) :: shownTooSoon.drop 3 ++ shownTooSoon.take 2) = some s ∧
      s.loop.pc = .pick [alice, bob] ∧
      (DisplayImageLoop.takeNext lowest s.loop [alice, bob]).1 = 2 := by
  refine ⟨⟨_, rfl, trivial, rfl, ?_⟩, _, rfl, rfl, ?_⟩
  · have hr := Machine.reachable_run (skipTested ++ [.ipc ⟨.publish .skipImage, ()⟩])
      oneStored_init rfl
    exact ((commands_kept hr).1 alice trivial (by decide)).1 0 (by decide)
  · have hr := Machine.reachable_run (.loop (.store bob) :: shownTooSoon.drop 3 ++ shownTooSoon.take 2)
      oneStored_init rfl
    exact (commands_kept hr).2 [alice, bob] 0 2 rfl rfl (by decide)

/-- A skip can be tested and not yet be on the bus, and a request for a picture that was stored
behind the loop's query is dropped. -/
theorem commands_elsewhere :
    (∃ s, (machine lowest defaultConfig).Reachable s ∧ s.loop.pc.BehindUser ∧
      DisplayImageLoop.wake defaultConfig s.loop (.user alice) = false ∧ 0 ∈ s.tested ∧
      (0, DisplayEvent.skipImage) ∉ s.bus) ∧
    ∃ s, (machine lowest defaultConfig).Reachable s ∧ s.loop.pc = .pick [alice] ∧
      s.pending = some (0, 2) ∧ bob ∈ s.loop.rows ∧
      (DisplayImageLoop.takeNext lowest s.loop [alice]).1 = 1 :=
  ⟨⟨_, Machine.reachable_run skipTested oneStored_init rfl, trivial, by decide, by decide,
      by decide⟩,
    _, Machine.reachable_run shownTooSoon oneStored_init rfl, rfl, rfl, by decide, by decide⟩

end Runs

end ShareFrame.DisplayService
