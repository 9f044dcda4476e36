import ShareFrame.Dashboard.OrderUpdates
import ShareFrame.Lib.Places
import ShareFrame.Task.Loop.UserWait

/-!
# The custom order behind an update of the mode

A request without a custom order reads the order of the display service and writes
it back with the mode. Between the two the stored order can change, and where the
read fails the request writes an empty one: the order is kept if and only if it is
still the one that was read (`order_kept_iff`).
-/

namespace ShareFrame.OrderUpdates

open Interaction Transition Prog
open Playback (Generator)
open Dashboard (Outside OutsideAns Service Request Response)
open Dashboard.SlideshowImageHandlers (handleUpdateOrder currentOrder)
open DisplayIpc (Ans Handler)
open Places (update_eq_some update_none_eq_some)

/-! ## What a request without an order sends -/

/-- The message that sets a mode and an order. -/
def orderMsg (mode : String) (ids : List Int) : IpcMessage where
  type := .updatePlaybackOrder
  data := .obj [("mode", .str mode), ("custom_order", .arr (ids.map .int))]

theorem update_sends {parse : HTTPClient.Bytes → Option Json} {req : Request}
    (hgiven : givenOrder parse req = none) {t : List (Event OutsideAns)} {q : Service Response}
    (h : Steps (handleUpdateOrder parse req) t q) {op : Outside}
    (hnext : q.next = some op) {msg : IpcMessage} (hmsg : message op = some msg)
    (htype : msg.type = .updatePlaybackOrder) :
    ∃ reply mode ids, t = [⟨.sendAndReceive .display readOrder, reply⟩] ∧
      currentOrder reply = .ok ids ∧ msg = orderMsg mode ids := by
  unfold handleUpdateOrder Dashboard.bodyHandler at h
  split at h
  next =>
    obtain ⟨rfl, rfl⟩ := steps_pure.mp h
    cases hnext
  next body hparse =>
    have hfind : body.find "custom_order" = none := by
      rw [givenOrder, hparse] at hgiven
      exact hgiven
    unfold Dashboard.answerBody at h
    cases hread : Dashboard.SlideshowImageHandlers.readOrder body with
    | error e =>
      rw [hread] at h
      obtain ⟨rfl, rfl⟩ := steps_throw.mp h
      cases hnext
    | ok checked =>
    rw [hread] at h
    cases checked with
    | refused message =>
      obtain ⟨rfl, rfl⟩ := steps_pure.mp h
      cases hnext
    | accepted args =>
    have hargs : args.customOrder = none := by
      obtain ⟨mode, -, hread⟩ := Json.eq_ok_of_bind hread
      split at hread
      · cases hread
      · rw [hfind] at hread
        cases hread
        rfl
    have hupdate : Steps (Dashboard.SlideshowImageHandlers.updateOrder args) t q := h
    unfold Dashboard.SlideshowImageHandlers.updateOrder
      Dashboard.SlideshowImageHandlers.orderToSet at hupdate
    rw [hargs] at hupdate
    obtain ⟨rfl, rfl⟩ | ⟨reply, t', rfl, hread⟩ := steps_call.mp hupdate
    · cases hnext
      cases hmsg
      cases htype
    have hrest : Steps (Dashboard.json (currentOrder reply) >>= fun customOrder =>
      Dashboard.FrameHandlers.forward .updatePlaybackOrder
        (.obj [("mode", .str args.mode), ("custom_order", .arr (customOrder.map .int))])
        (.obj [("mode", .str args.mode), ("custom_order", .arr (customOrder.map .int))])) t' q := hread
    cases horder : currentOrder reply with
    | error e =>
      rw [horder] at hrest
      obtain ⟨rfl, rfl⟩ := steps_throw.mp hrest
      cases hnext
    | ok ids =>
      rw [horder] at hrest
      obtain ⟨rfl, rfl⟩ | ⟨sent, t'', rfl, hend⟩ := steps_call.mp hrest
      · cases hnext
        cases hmsg
        exact ⟨reply, args.mode, ids, rfl, horder, rfl⟩
      · obtain ⟨rfl, rfl⟩ := steps_pure.mp hend
        cases hnext

theorem readEvent_orderMsg {mode : String} {ids : List Int} (hids : ∀ id ∈ ids, Json.IsInt64 id)
    {event : DisplayEvent} (h : DisplayIpc.readEvent (orderMsg mode ids) = .ok (some event)) :
    ∃ m, event = .updatePlaybackOrder m ids := by
  obtain ⟨mode', -, h⟩ := Json.eq_ok_of_bind h
  obtain ⟨m, -, rfl⟩ := Option.map_eq_some_iff.mp (Except.ok.inj h)
  refine ⟨m, ?_⟩
  have hread : (orderMsg mode ids).data.value Json.getInt64s "custom_order" [] = .ok ids :=
    Json.getInt64s_map_int hids
  rw [DisplayIpc.readCustomOrder, hread]

/-- The reply to the read, and the order that it was answered. -/
theorem getPlaybackOrder_runs {t : List (Event Ans)} {r : Except DisplayIpc.Error Json}
    (h : Runs DisplayIpc.getPlaybackOrder t r) :
    ∃ doc mode ids shuffle current, r = .ok doc ∧ doc.isObject = true ∧
      t = [⟨.getPlaybackMode, mode⟩, ⟨.getCustomOrder, ids⟩, ⟨.shuffleOrder, shuffle⟩,
        ⟨.currentImageId, current⟩] ∧
      doc.find "custom_order" = some (.arr (ids.map .int)) := by
  unfold DisplayIpc.getPlaybackOrder at h
  simp only [DisplayIpc.ask, runs_ask_bind, pure_eq, runs_pure] at h
  obtain ⟨mode, _, rfl, ids, _, rfl, shuffle, _, rfl, current, _, rfl, rfl, rfl⟩ := h
  exact ⟨_, mode, ids, shuffle, current, rfl, rfl, rfl, rfl⟩

/-! ## The display service -/

variable {γ : Type} {gen : Generator γ} {cfg : DisplayImageLoop.Config}
  {parse : HTTPClient.Bytes → Option Json}

/-- The order that an operation was answered. -/
def customOrderOf : Event Ans → Option (List Int)
  | ⟨.getCustomOrder, ids⟩ => some ids
  | _ => none

/-- `seen` behind a step of the display service. -/
def seenAfter (seen : Option (List Int)) : DisplayService.Act → Option (List Int)
  | .request _ => none
  | .ipc e => (customOrderOf e).or seen
  | _ => seen

/-- The ids of an order fit an `int64_t`. -/
def Fits (ids : List Int) : Prop := ∀ id ∈ ids, Json.IsInt64 id

/-- What is known of a message with a number that updates the mode of a request with this read. -/
structure Carries (d : DisplayService.State γ) (number : Nat) (read : Option (List Int)) : Prop where
  fits : Fits (read.getD [])
  received : number < d.received
  call : ∀ call, d.ipc = some call → call.number = number →
    ∃ mode, call.msg = orderMsg mode (read.getD [])
  bus : ∀ event, (number, event) ∈ d.bus → ∃ mode, event = .updatePlaybackOrder mode (read.getD [])

structure Kept (d : DisplayService.State γ) (seen : Option (List Int))
    (origins : List (Nat × Option (List Int))) : Prop where
  stored : Fits d.loop.settings.customOrder_
  answered : ∀ ids, seen = some ids → Fits ids
  call : ∀ call, d.ipc = some call → call.number < d.received ∧
    ∃ t, Steps (DisplayIpc.handle call.msg) t call.rest ∧
      (t.filterMap customOrderOf).getLast? = seen
  bus : ∀ number event, (number, event) ∈ d.bus → number < d.received ∧
    ∀ mode ids, event = .updatePlaybackOrder mode ids → Fits ids
  origins : ∀ number read, (number, read) ∈ origins → Carries d number read

theorem Kept.congr {d d' : DisplayService.State γ} {seen : Option (List Int)}
    {origins : List (Nat × Option (List Int))} (h : Kept d seen origins)
    (hfits : Fits d'.loop.settings.customOrder_) (hipc : d'.ipc = d.ipc)
    (hbus : d'.bus = d.bus) (hreceived : d'.received = d.received) : Kept d' seen origins := by
  refine ⟨hfits, h.answered, ?_, ?_, fun number read hmem => ?_⟩
  · rw [hipc, hreceived]
    exact h.call
  · rw [hbus, hreceived]
    exact h.bus
  · have ho := h.origins number read hmem
    exact ⟨ho.fits, hreceived ▸ ho.received, hipc ▸ ho.call, hbus ▸ ho.bus⟩

/-- Only a delivery changes the stored order, to the one of its event. -/
theorem display_order {d d' : DisplayService.State γ} {act : DisplayService.Act}
    (hs : DisplayService.step gen cfg d act = some d') :
    d'.loop.settings.customOrder_ = d.loop.settings.customOrder_ ∨
      ∃ number mode ids bus, act = .deliver ∧
        d.bus = (number, .updatePlaybackOrder mode ids) :: bus ∧
        d'.loop.settings.customOrder_ = ids := by
  cases act with
  | loop act =>
    simp only [DisplayService.step] at hs
    split at hs
    next hfree =>
      obtain ⟨loop, hloop, rfl⟩ := Option.map_eq_some_iff.mp hs
      have hset : loop.settings = d.loop.settings := by
        obtain hset | hsets := (DisplayImageLoop.step_frame hloop).settings
        · exact hset
        · cases act <;> first | exact hsets.elim | exact hfree.elim
      refine .inl ?_
      rw [← hset]
      unfold DisplayService.afterLoop
      split <;> rfl
    next => cases hs
  | request msg =>
    simp only [DisplayService.step] at hs
    split at hs <;> cases hs
    exact .inl rfl
  | ipc e =>
    simp only [DisplayService.step] at hs
    split at hs
    next => cases hs
    next =>
      split at hs
      next =>
        obtain ⟨rest, -, rfl⟩ := Option.map_eq_some_iff.mp hs
        refine .inl ?_
        unfold DisplayService.afterIpc
        simp only
        split <;> rfl
      next => cases hs
  | reply =>
    simp only [DisplayService.step] at hs
    split at hs
    next => cases hs
    next => split at hs <;> cases hs; exact .inl rfl
  | deliver =>
    simp only [DisplayService.step] at hs
    split at hs
    next => cases hs
    next number event bus hbus =>
      split at hs
      next => cases hs; exact .inl rfl
      next act hact =>
        obtain ⟨loop, hloop, rfl⟩ := Option.map_eq_some_iff.mp hs
        cases event with
        | updatePlaybackOrder mode ids =>
          cases hact
          cases hloop
          exact .inr ⟨number, mode, ids, bus, rfl, hbus, rfl⟩
        | clearDisplay => cases hact
        | statusScreen _ => cases hact
        | _ => cases hact; cases hloop; exact .inl rfl

/-- An operation of the IPC thread: a handler publishes what its message says. -/
theorem Kept.ipc {d : DisplayService.State γ} {seen : Option (List Int)}
    {origins : List (Nat × Option (List Int))} (h : Kept d seen origins)
    {call : DisplayService.Call} (hcall : d.ipc = some call) {e : Event Ans}
    (hsees : DisplayService.Sees cfg d.loop e) {rest : Handler Json}
    (ha : call.rest.answer e = some rest) :
    Kept (DisplayService.afterIpc d call rest e) (seenAfter seen (.ipc e)) origins := by
  obtain ⟨hreceived, t, hsteps, hseen⟩ := h.call call hcall
  have hsteps' := hsteps.append (Prog.answer_eq_some.mp ha)
  have hmoved : Kept { d with ipc := some { call with rest } } (seenAfter seen (.ipc e)) origins := by
    refine ⟨h.stored, fun ids he => ?_, ?_, h.bus, fun number read hmem => ?_⟩
    · obtain ⟨op, a⟩ := e
      cases op
      case getCustomOrder =>
        cases he
        rw [show ids = d.loop.settings.customOrder_ from hsees]
        exact h.stored
      all_goals exact h.answered ids he
    · rintro _ ⟨⟩
      refine ⟨hreceived, _, hsteps', ?_⟩
      rw [List.filterMap_append, List.getLast?_append, hseen]
      cases hc : customOrderOf e <;> simp [seenAfter, hc]
    · have ho := h.origins number read hmem
      refine ⟨ho.fits, ho.received, ?_, ho.bus⟩
      rintro _ ⟨⟩ hn
      exact ho.call call hcall hn
  unfold DisplayService.afterIpc
  simp only
  split
  next event _ =>
    have hmay := DisplayIpc.handle_publishes hsteps'.calls
    refine ⟨hmoved.stored, hmoved.answered, hmoved.call, fun number ev hmem => ?_,
      fun number read hmem => ?_⟩
    · obtain hmem | hmem := List.mem_append.mp hmem
      · exact h.bus number ev hmem
      · cases List.mem_singleton.mp hmem
        refine ⟨hreceived, ?_⟩
        rintro mode ids rfl
        obtain ⟨-, he⟩ | ⟨-, id, he⟩ | hread := hmay
        · cases he
        · cases he
        · exact DisplayIpc.readEvent_isInt64 hread
    · have ho := h.origins number read hmem
      have hm := hmoved.origins number read hmem
      refine ⟨ho.fits, ho.received, hm.call, fun ev hmem => ?_⟩
      obtain hmem | hmem := List.mem_append.mp hmem
      · exact ho.bus ev hmem
      · cases List.mem_singleton.mp hmem
        obtain ⟨mode, hmsg⟩ := ho.call call hcall rfl
        rw [hmsg] at hmay
        obtain ⟨he, -⟩ | ⟨he, -⟩ | hread := hmay
        · cases he
        · cases he
        · exact readEvent_orderMsg ho.fits hread
  · exact hmoved.congr hmoved.stored rfl rfl rfl
  · exact hmoved.congr hmoved.stored rfl rfl rfl
  · exact hmoved

/-- The oldest event leaves the bus. -/
theorem Kept.deliver {d : DisplayService.State γ} {seen : Option (List Int)}
    {origins : List (Nat × Option (List Int))} (h : Kept d seen origins) {number : Nat}
    {event : DisplayEvent} {bus : List (Nat × DisplayEvent)} (hbus : d.bus = (number, event) :: bus) :
    Kept { d with bus } seen origins := by
  refine ⟨h.stored, h.answered, h.call, fun n ev hmem => ?_, fun n read hmem => ?_⟩
  · exact h.bus n ev (hbus ▸ List.mem_cons_of_mem _ hmem)
  · have ho := h.origins n read hmem
    exact ⟨ho.fits, ho.received, ho.call,
      fun ev hmem => ho.bus ev (hbus ▸ List.mem_cons_of_mem _ hmem)⟩

theorem Kept.step {d d' : DisplayService.State γ} {seen : Option (List Int)}
    {origins : List (Nat × Option (List Int))} (h : Kept d seen origins) {act : DisplayService.Act}
    (hs : DisplayService.step gen cfg d act = some d') : Kept d' (seenAfter seen act) origins := by
  have hfits : Fits d'.loop.settings.customOrder_ := by
    obtain he | ⟨number, mode, ids, bus, -, hbus, he⟩ := display_order hs <;> rw [he]
    · exact h.stored
    · exact (h.bus number _ (hbus ▸ List.mem_cons_self)).2 mode ids rfl
  cases act with
  | loop act =>
    simp only [DisplayService.step] at hs
    split at hs
    next =>
      obtain ⟨loop, -, rfl⟩ := Option.map_eq_some_iff.mp hs
      unfold DisplayService.afterLoop at hfits ⊢
      split at hfits <;> exact h.congr hfits rfl rfl rfl
    next => cases hs
  | request msg =>
    simp only [DisplayService.step] at hs
    split at hs <;> cases hs
    refine ⟨h.stored, nofun, ?_, fun number event hmem => ?_, fun number read hmem => ?_⟩
    · rintro _ ⟨⟩
      exact ⟨Nat.lt_succ_self _, [], .nil _, rfl⟩
    · exact ⟨Nat.lt_succ_of_lt (h.bus number event hmem).1, (h.bus number event hmem).2⟩
    · have ho := h.origins number read hmem
      refine ⟨ho.fits, Nat.lt_succ_of_lt ho.received, ?_, ho.bus⟩
      rintro _ ⟨⟩ hn
      exact absurd hn (Nat.ne_of_gt ho.received)
  | ipc e =>
    simp only [DisplayService.step] at hs
    split at hs
    next => cases hs
    next call hcall =>
      split at hs
      next hsees =>
        obtain ⟨rest, ha, rfl⟩ := Option.map_eq_some_iff.mp hs
        exact h.ipc hcall hsees ha
      next => cases hs
  | reply =>
    simp only [DisplayService.step] at hs
    split at hs
    next => cases hs
    next call hcall =>
      split at hs <;> cases hs
      refine ⟨h.stored, h.answered, nofun, h.bus, fun number read hmem => ?_⟩
      have ho := h.origins number read hmem
      exact ⟨ho.fits, ho.received, nofun, ho.bus⟩
  | deliver =>
    simp only [DisplayService.step] at hs
    split at hs
    next => cases hs
    next number event bus hbus =>
      have hdropped := h.deliver hbus
      split at hs
      next => cases hs; exact hdropped
      next =>
        obtain ⟨loop, -, rfl⟩ := Option.map_eq_some_iff.mp hs
        unfold DisplayService.afterDeliver at hfits ⊢
        split at hfits <;> exact hdropped.congr hfits rfl rfl rfl

/-- A message of a request without an order arrives. -/
theorem Kept.receive {d d' : DisplayService.State γ} {seen : Option (List Int)}
    {origins : List (Nat × Option (List Int))} (h : Kept d seen origins) {mode : String}
    {read : Option (List Int)} (hfits : Fits (read.getD []))
    (hs : DisplayService.step gen cfg d (.request (orderMsg mode (read.getD []))) = some d') :
    Kept d' none ((d.received, read) :: origins) := by
  have h' := h.step hs
  refine ⟨h'.stored, h'.answered, h'.call, h'.bus, fun number read' hmem => ?_⟩
  obtain he | hmem := List.mem_cons.mp hmem
  · cases he
    simp only [DisplayService.step] at hs
    split at hs <;> cases hs
    refine ⟨hfits, Nat.lt_succ_self _, ?_, fun event hmem => ?_⟩
    · rintro _ ⟨⟩ -
      exact ⟨mode, rfl⟩
    · exact absurd (h.bus _ event hmem).1 (Nat.lt_irrefl _)
  · exact h'.origins number read' hmem

/-! ## The sessions and their calls -/

/-- What a request without an order read. -/
def Reads (t : List (Event OutsideAns)) (read : Option (List Int)) : Prop :=
  (t = [] → read = none) ∧
    ∀ reply, t = [⟨.sendAndReceive .display readOrder, reply⟩] →
      (reply = none → read = none) ∧ ∀ doc, reply = some doc →
        ∃ ids, read = some ids ∧ currentOrder (some doc) = .ok ids ∧ Fits ids

/-- Where a session is. -/
def Session.Ok (parse : HTTPClient.Bytes → Option Json) (session : Session) : Prop :=
  ∃ t, Steps (handleUpdateOrder parse session.req) t session.rest ∧ Reads t session.read

/-- A message of a request without an order writes back what was read. -/
structure Packet.Ok (packet : Packet) : Prop where
  op : message packet.op = some packet.msg
  keeps : ∀ read, packet.keeps = some read →
    Fits (read.getD []) ∧ ∃ mode, packet.msg = orderMsg mode (read.getD [])

/-- A request without an order sends what it read. -/
theorem Session.Ok.sends {session : Session} (h : session.Ok parse) {op : Outside}
    (hnext : session.rest.next = some op) {msg : IpcMessage} (hmsg : message op = some msg)
    {read : Option (List Int)} (hread : (if msg.type = .updatePlaybackOrder ∧
      givenOrder parse session.req = none then some session.read else none) = some read) :
    Fits (read.getD []) ∧ ∃ mode, msg = orderMsg mode (read.getD []) := by
  obtain ⟨t, hsteps, hreads⟩ := h
  split at hread <;> cases hread
  next hcond =>
  obtain ⟨htype, hgiven⟩ := hcond
  obtain ⟨reply, mode, ids, rfl, horder, rfl⟩ := update_sends hgiven hsteps hnext hmsg htype
  have hreply := hreads.2 reply rfl
  cases reply with
  | none =>
    cases horder
    rw [hreply.1 rfl]
    exact ⟨nofun, mode, rfl⟩
  | some doc =>
    obtain ⟨ids', hids, horder', hfits⟩ := hreply.2 doc rfl
    rw [horder] at horder'
    cases horder'
    rw [hids]
    exact ⟨hfits, mode, rfl⟩

/-- What an answered read leaves with its session. -/
theorem Reads.append {t : List (Event OutsideAns)} {read seen : Option (List Int)} (h : Reads t read)
    {packet : Packet} (hop : message packet.op = some packet.msg) {reply : Option Json}
    {e : Event OutsideAns} (he : ended packet.op reply = some e)
    (hseen : packet.msg = readOrder → ∀ doc, reply = some doc →
      ∃ ids, seen = some ids ∧ currentOrder (some doc) = .ok ids ∧ Fits ids) :
    Reads (t ++ [e]) (if packet.msg = readOrder ∧ reply.isSome then seen else read) := by
  refine ⟨fun ht => by simp at ht, fun reply' ht => ?_⟩
  obtain ⟨rfl, he'⟩ : t = [] ∧ e = ⟨.sendAndReceive .display readOrder, reply'⟩ := by
    cases t with
    | nil => exact ⟨rfl, List.head_eq_of_cons_eq ht⟩
    | cons x t => simp at ht
  subst he'
  unfold ended at he
  split at he <;> cases he
  next hpacket =>
    rw [hpacket] at hop
    have hmsg : packet.msg = readOrder := (Option.some.inj hop).symm
    refine ⟨?_, ?_⟩
    · rintro rfl
      simp [h.1 rfl]
    · rintro doc rfl
      rw [if_pos ⟨hmsg, rfl⟩]
      exact hseen hmsg doc rfl

structure Inv (parse : HTTPClient.Bytes → Option Json) (s : State γ) : Prop where
  display : Kept s.display s.seen s.origins
  sessions : ∀ n session, s.sessions n = some session → session.Ok parse
  waiting : ∀ packet, s.waiting = some packet → packet.Ok
  wire : ∀ packet ∈ s.wire, packet.Ok
  serving : ∀ packet call, s.serving = some packet → s.display.ipc = some call →
    call.msg = packet.msg

/-- A call ends. -/
theorem Inv.endCall {s s' : State γ} (h : Inv parse s) {packet : Packet}
    (hwaiting : s.waiting = some packet) {reply : Option Json}
    (hseen : packet.msg = readOrder → ∀ doc, reply = some doc →
      ∃ ids, s.seen = some ids ∧ currentOrder (some doc) = .ok ids ∧ Fits ids)
    (hs : endCall s packet reply = some s') : Inv parse s' := by
  unfold OrderUpdates.endCall at hs
  split at hs
  next session e hsession he =>
    obtain ⟨rest, ha, rfl⟩ := Option.map_eq_some_iff.mp hs
    refine ⟨h.display, fun n session' hn => ?_, fun _ hw => (by cases hw), h.wire, h.serving⟩
    obtain ⟨rfl, rfl⟩ | ⟨-, hn⟩ := update_eq_some hn
    · obtain ⟨t, hsteps, hreads⟩ := h.sessions _ session hsession
      exact ⟨_, hsteps.append (Prog.answer_eq_some.mp ha),
        hreads.append (h.waiting packet hwaiting).op he hseen⟩
    · exact h.sessions n session' hn
  next => cases hs

/-- The reply to a read carries the order that the handler saw. -/
theorem Kept.reply {d : DisplayService.State γ} {seen : Option (List Int)}
    {origins : List (Nat × Option (List Int))} (h : Kept d seen origins)
    {call : DisplayService.Call} (hcall : d.ipc = some call) (hmsg : call.msg = readOrder)
    {result : Except DisplayIpc.Error Json} (hresult : call.rest.outcome = some result) :
    ∃ ids, seen = some ids ∧ currentOrder (some (document result)) = .ok ids ∧ Fits ids := by
  obtain ⟨-, t, hsteps, hseen⟩ := h.call call hcall
  rw [hmsg, Prog.outcome_eq_some.mp hresult] at hsteps
  obtain ⟨doc, mode, ids, shuffle, current, rfl, hobj, rfl, horder⟩ := getPlaybackOrder_runs hsteps
  have hfits := h.answered ids hseen.symm
  refine ⟨ids, hseen.symm, ?_, hfits⟩
  cases doc with
  | obj members =>
    simp only [document, currentOrder, Json.value]
    rw [show members.lookup "custom_order" = some (.arr (ids.map .int)) from horder]
    exact Json.getInt64s_map_int hfits
  | _ => cases hobj

/-- A step of the display service beside the calls of the sessions. -/
theorem step_display {s s' : State γ} {act : DisplayService.Act}
    (hs : step gen cfg parse s (.display act) = some s') :
    ∃ display serving, DisplayService.step gen cfg s.display act = some display ∧
      s' = { s with display, serving, seen := seenAfter s.seen act } ∧
      (serving = none ∨ serving = s.serving ∧ ∀ msg, act ≠ .request msg) := by
  simp only [step] at hs
  split at hs
  next => cases hs
  next msg =>
    obtain ⟨display, hd, rfl⟩ := Option.map_eq_some_iff.mp hs
    exact ⟨display, none, hd, rfl, .inl rfl⟩
  next ids =>
    obtain ⟨display, hd, rfl⟩ := Option.map_eq_some_iff.mp hs
    exact ⟨display, s.serving, hd, rfl, .inr ⟨rfl, fun _ he => by cases he⟩⟩
  next hreply hrequest horder =>
    obtain ⟨display, hd, rfl⟩ := Option.map_eq_some_iff.mp hs
    refine ⟨display, s.serving, hd, ?_, .inr ⟨rfl, hrequest⟩⟩
    cases act with
    | request msg => exact (hrequest msg rfl).elim
    | ipc e =>
      obtain ⟨op, a⟩ := e
      cases op
      case getCustomOrder => exact (horder a rfl).elim
      all_goals rfl
    | _ => rfl

/-- Only a request and a reply change which message is on the IPC thread. -/
theorem ipc_msg {d d' : DisplayService.State γ} {act : DisplayService.Act}
    (hs : DisplayService.step gen cfg d act = some d') (hact : ∀ msg, act ≠ .request msg)
    {call' : DisplayService.Call} (hcall' : d'.ipc = some call') :
    ∃ call, d.ipc = some call ∧ call'.msg = call.msg := by
  cases act with
  | loop act =>
    simp only [DisplayService.step] at hs
    split at hs
    next =>
      obtain ⟨loop, -, rfl⟩ := Option.map_eq_some_iff.mp hs
      refine ⟨call', ?_, rfl⟩
      unfold DisplayService.afterLoop at hcall'
      split at hcall' <;> exact hcall'
    next => cases hs
  | request msg => exact (hact msg rfl).elim
  | ipc e =>
    simp only [DisplayService.step] at hs
    split at hs
    next => cases hs
    next call hcall =>
      split at hs
      next =>
        obtain ⟨rest, -, rfl⟩ := Option.map_eq_some_iff.mp hs
        refine ⟨call, hcall, ?_⟩
        unfold DisplayService.afterIpc at hcall'
        simp only at hcall'
        split at hcall' <;> cases hcall' <;> rfl
      next => cases hs
  | reply =>
    simp only [DisplayService.step] at hs
    split at hs
    next => cases hs
    next =>
      split at hs <;> cases hs
      cases hcall'
  | deliver =>
    simp only [DisplayService.step] at hs
    split at hs
    next => cases hs
    next =>
      split at hs
      next => cases hs; exact ⟨call', hcall', rfl⟩
      next =>
        obtain ⟨loop, -, rfl⟩ := Option.map_eq_some_iff.mp hs
        refine ⟨call', ?_, rfl⟩
        unfold DisplayService.afterDeliver at hcall'
        split at hcall' <;> exact hcall'

theorem Inv.step {s s' : State γ} (h : Inv parse s) {act : Act}
    (hs : step gen cfg parse s act = some s') : Inv parse s' := by
  cases act with
  | display act =>
    obtain ⟨display, serving, hd, rfl, hserving⟩ := step_display hs
    refine ⟨h.display.step hd, h.sessions, h.waiting, h.wire, fun packet call' hp hcall' => ?_⟩
    obtain rfl | ⟨rfl, hact⟩ := hserving
    · cases hp
    · obtain ⟨call, hcall, hmsg⟩ := ipc_msg hd hact hcall'
      exact hmsg.trans (h.serving packet call hp hcall)
  | begin n req =>
    simp only [OrderUpdates.step] at hs
    split at hs <;> cases hs
    refine ⟨h.display, fun k session hk => ?_, h.waiting, h.wire, h.serving⟩
    obtain ⟨rfl, rfl⟩ | ⟨-, hk⟩ := update_eq_some hk
    · exact ⟨[], .nil _, fun _ => rfl, fun _ ht => by cases ht⟩
    · exact h.sessions k session hk
  | send n =>
    simp only [OrderUpdates.step] at hs
    split at hs
    next session hwaiting hsession =>
      split at hs
      next => cases hs
      next op hnext =>
        obtain ⟨msg, hmsg, rfl⟩ := Option.map_eq_some_iff.mp hs
        have hok : Packet.Ok { number := s.calls, session := n, op, msg
                               keeps := if msg.type = .updatePlaybackOrder ∧
                                 givenOrder parse session.req = none then some session.read
                                 else none } :=
          ⟨hmsg, fun read hread => (h.sessions n session hsession).sends hnext hmsg hread⟩
        refine ⟨h.display, h.sessions, fun packet hp => ?_, fun packet hp => ?_, h.serving⟩
        · cases hp
          exact hok
        · obtain hp | hp := List.mem_append.mp hp
          · exact h.wire packet hp
          · cases List.mem_singleton.mp hp
            exact hok
    next => cases hs
  | resend =>
    obtain ⟨packet, hwaiting, rfl⟩ := Option.map_eq_some_iff.mp hs
    refine ⟨h.display, h.sessions, h.waiting, fun packet' hp => ?_, h.serving⟩
    obtain hp | hp := List.mem_append.mp hp
    · exact h.wire packet' hp
    · cases List.mem_singleton.mp hp
      exact h.waiting packet hwaiting
  | lose position =>
    cases hs
    exact ⟨h.display, h.sessions, h.waiting,
      fun packet hp => h.wire packet (List.mem_of_mem_eraseIdx hp), h.serving⟩
  | fail =>
    simp only [OrderUpdates.step] at hs
    split at hs
    next => cases hs
    next packet hwaiting => exact h.endCall hwaiting (fun _ _ hd => by cases hd) hs
  | receive position =>
    simp only [OrderUpdates.step] at hs
    split at hs
    next => cases hs
    next packet hpacket =>
      obtain ⟨display, hd, rfl⟩ := Option.map_eq_some_iff.mp hs
      have hok := h.wire packet (List.mem_of_getElem? hpacket)
      refine ⟨?_, h.sessions, h.waiting, fun p hp => h.wire p (List.mem_of_mem_eraseIdx hp),
        fun p call hp hcall => ?_⟩
      · cases hkeeps : packet.keeps with
        | none => exact h.display.step hd
        | some read =>
          obtain ⟨hfits, mode, hmsg⟩ := hok.keeps read hkeeps
          rw [hmsg] at hd
          exact h.display.receive hfits hd
      · cases hp
        simp only [DisplayService.step] at hd
        split at hd <;> cases hd
        cases hcall
        rfl
  | reply =>
    simp only [OrderUpdates.step] at hs
    split at hs
    next => cases hs
    next call hcall =>
      split at hs
      next result display hresult hd =>
        have hmoved : Inv parse { s with display } :=
          ⟨h.display.step hd, h.sessions, h.waiting, h.wire, fun packet call' hp hcall' => by
            obtain ⟨call, hcall, hmsg⟩ := ipc_msg hd (fun _ he => by cases he) hcall'
            exact hmsg.trans (h.serving packet call hp hcall)⟩
        split at hs
        next => cases hs; exact hmoved
        next packet hserving =>
          split at hs
          next hwaiting =>
            refine hmoved.endCall hwaiting (fun hmsg doc hdoc => ?_) hs
            cases hdoc
            exact h.display.reply hcall ((h.serving packet call hserving hcall).trans hmsg) hresult
          next => cases hs; exact hmoved
      next => cases hs
  | finish n =>
    simp only [OrderUpdates.step] at hs
    split at hs
    next => cases hs
    next =>
      split at hs <;> cases hs
      refine ⟨h.display, fun k session hk => ?_, h.waiting, h.wire, h.serving⟩
      exact h.sessions k session (update_none_eq_some hk).2

theorem inv_inductive : (machine gen cfg parse).Inductive (fun _ _ => True) (Inv parse) where
  init := by
    rintro s ⟨display, ⟨loop, -, -, rfl⟩, hfits, rfl⟩
    refine ⟨⟨hfits, fun _ h => ?_, fun _ h => ?_, fun _ _ h => ?_, fun _ _ h => ?_⟩,
      fun _ _ h => ?_, fun _ h => ?_, fun _ h => ?_, fun _ _ h _ => ?_⟩ <;> cases h
  step _ _ _ h _ hs := h.step hs

/-! ## When the order is kept -/

/-- What a request without an order read is what is stored, or the read failed and nothing is. -/
def Fresh (read : Option (List Int)) (stored : List Int) : Prop :=
  read = some stored ∨ read = none ∧ stored = []

instance (read : Option (List Int)) (stored : List Int) : Decidable (Fresh read stored) := by
  unfold Fresh; infer_instance

theorem getD_eq_iff {read : Option (List Int)} {stored : List Int} :
    read.getD [] = stored ↔ Fresh read stored := by
  cases read <;> simp [Fresh, eq_comm]

/-- An order that is delivered belongs to a request without one, whose read is fresh. -/
def KeepsOrder (s : State γ) (act : Act) : Prop :=
  act = .display .deliver → ∀ number mode ids bus,
    s.display.bus = (number, .updatePlaybackOrder mode ids) :: bus →
      ∃ read, (number, read) ∈ s.origins ∧ Fresh read s.stored

/-- Only a delivery changes the stored order. -/
theorem step_stored {s s' : State γ} {act : Act} (hs : step gen cfg parse s act = some s') :
    s'.stored = s.stored ∨ ∃ number mode ids bus, act = .display .deliver ∧
      s.display.bus = (number, .updatePlaybackOrder mode ids) :: bus ∧ s'.stored = ids := by
  have hend : ∀ {s : State γ} {packet reply}, endCall s packet reply = some s' → s'.stored = s.stored := by
    intro s packet reply h
    unfold endCall at h
    split at h
    next => obtain ⟨rest, -, rfl⟩ := Option.map_eq_some_iff.mp h; rfl
    next => cases h
  have hkeep : ∀ {act display}, act ≠ .deliver →
      DisplayService.step gen cfg s.display act = some display →
      display.loop.settings.customOrder_ = s.stored := fun hact hd => by
    obtain he | ⟨_, _, _, _, he, _⟩ := display_order hd
    · exact he
    · exact absurd he hact
  cases act with
  | display act =>
    obtain ⟨display, serving, hd, rfl, -⟩ := step_display hs
    obtain he | ⟨number, mode, ids, bus, rfl, hbus, he⟩ := display_order hd
    · exact .inl he
    · exact .inr ⟨number, mode, ids, bus, rfl, hbus, he⟩
  | fail =>
    simp only [OrderUpdates.step] at hs
    split at hs
    next => cases hs
    next => exact .inl (hend hs)
  | receive position =>
    simp only [OrderUpdates.step] at hs
    split at hs
    next => cases hs
    next =>
      obtain ⟨display, hd, rfl⟩ := Option.map_eq_some_iff.mp hs
      exact .inl (hkeep (fun h => by cases h) hd)
  | reply =>
    simp only [OrderUpdates.step] at hs
    split at hs
    next => cases hs
    next =>
      split at hs
      next display _ hd =>
        have hd := hkeep (fun h => by cases h) hd
        split at hs
        next => cases hs; exact .inl hd
        next =>
          split at hs
          next => exact .inl ((hend hs).trans hd)
          next => cases hs; exact .inl hd
      next => cases hs
  | begin n req =>
    simp only [OrderUpdates.step] at hs
    split at hs <;> cases hs
    exact .inl rfl
  | send n =>
    simp only [OrderUpdates.step] at hs
    split at hs
    next =>
      split at hs
      next => cases hs
      next => obtain ⟨msg, -, rfl⟩ := Option.map_eq_some_iff.mp hs; exact .inl rfl
    next => cases hs
  | resend => obtain ⟨packet, -, rfl⟩ := Option.map_eq_some_iff.mp hs; exact .inl rfl
  | lose position => cases hs; exact .inl rfl
  | finish n =>
    simp only [OrderUpdates.step] at hs
    split at hs
    next => cases hs
    next => split at hs <;> cases hs; exact .inl rfl

/-- An update that carries no order keeps the stored one if and only if the request's read was
answered and the order is still the one it was answered, or the read failed and the order is empty.
So a run that applies only such updates ends with the order it began with. -/
theorem order_kept {s : State γ} (hr : (machine gen cfg parse).Reachable s) :
    (∀ number event bus read s', s.display.bus = (number, event) :: bus →
      (number, read) ∈ s.origins → step gen cfg parse s (.display .deliver) = some s' →
      (s'.stored = s.stored ↔ Fresh read s.stored)) ∧
    ∀ as t, (machine gen cfg parse).RunBy KeepsOrder s as t → t.stored = s.stored := by
  have happlied : ∀ {s : State γ}, Inv parse s → ∀ {number event bus read s'},
      s.display.bus = (number, event) :: bus → (number, read) ∈ s.origins →
      step gen cfg parse s (.display .deliver) = some s' →
      (s'.stored = s.stored ↔ Fresh read s.stored) := by
    intro s h number event bus read s' hbus hread hs
    obtain ⟨mode, rfl⟩ := (h.display.origins number read hread).bus event
      (hbus ▸ List.mem_cons_self)
    obtain ⟨display, serving, hd, rfl, -⟩ := step_display hs
    simp only [DisplayService.step, hbus, DisplayService.handlerOf] at hd
    obtain ⟨loop, hloop, rfl⟩ := Option.map_eq_some_iff.mp hd
    cases hloop
    exact getD_eq_iff
  refine ⟨fun _ _ _ _ _ => happlied (inv_inductive.of_reachable hr), fun as t hrun => ?_⟩
  -- every step keeps the invariant and the order
  refine (hrun.invariant (I := fun t => Inv parse t ∧ t.stored = s.stored) ?_
    ⟨inv_inductive.of_reachable hr, rfl⟩).2
  rintro u act u' ⟨hinv, hstored⟩ hkeeps hs
  refine ⟨hinv.step hs, ?_⟩
  obtain he | ⟨number, mode, ids, bus, rfl, hbus, -⟩ := step_stored hs
  · exact he.trans hstored
  · obtain ⟨read, hread, hfresh⟩ := hkeeps rfl number mode ids bus hbus
    exact ((happlied hinv hbus hread hs).mpr hfresh).trans hstored

/-! ## Three runs -/

section Runs

open DisplayImageLoop (freshState freshState_init defaultConfig defaultSettings)
open Playback (lowest)

/-- An object with the mode `shuffle`. -/
def modeText : String := "\x7b\"mode\":\"shuffle\"\x7d"

/-- An object with the mode `custom` and the order 1, 2. -/
def orderText : String := "\x7b\"mode\":\"custom\",\"custom_order\":[1,2]\x7d"

/-- A parser that knows the bodies of two requests. -/
def twoBodies (text : HTTPClient.Bytes) : Option Json :=
  if text = modeText.toUTF8.toList then some (.obj [("mode", .str "shuffle")])
  else if text = orderText.toUTF8.toList then
    some (.obj [("mode", .str "custom"), ("custom_order", .arr [.int 1, .int 2])])
  else none

def orderRequest (text : String) : Request where
  method := "PUT"
  uri := "/api/frame/slideshow/order"
  body := text.toUTF8.toList

/-- The order 2, 1 is stored. -/
def orderStored : State Unit where
  display.loop := { freshState [] [] [] with
    settings := { defaultSettings with customOrder_ := [2, 1] } }

theorem orderStored_init : (machine lowest defaultConfig twoBodies).Init orderStored :=
  ⟨_, ⟨_, ⟨_, _, _, [], _, _, _, _, List.nodup_nil, rfl⟩, fun _ h => (nomatch h), rfl⟩, by decide, rfl⟩

/-- The session's read is answered. -/
def readAnswered (session : Nat) : List Act :=
  [.send session, .receive 0, .display (.ipc ⟨.getPlaybackMode, .chronological⟩),
    .display (.ipc ⟨.getCustomOrder, [2, 1]⟩), .display (.ipc ⟨.shuffleOrder, []⟩),
    .display (.ipc ⟨.currentImageId, 0⟩), .reply]

/-- The session's update is on the bus. -/
def published (session : Nat) (mode : PlaybackMode) (ids : List Int) : List Act :=
  [.send session, .receive 0, .display (.ipc ⟨.publish (.updatePlaybackOrder mode ids), ()⟩), .reply]

/-- What the theorem is about. -/
structure View where
  bus : List (Nat × DisplayEvent)
  origins : List (Nat × Option (List Int))
  stored : List Int
  deriving DecidableEq

def State.view (s : State Unit) : View := ⟨s.display.bus, s.origins, s.stored⟩

/-- After these labels the delivery changes the stored order or not. -/
theorem exists_delivered (as : List Act) (bus : List (Nat × DisplayEvent))
    (origins : List (Nat × Option (List Int))) (before after : List Int)
    (h : ((machine lowest defaultConfig twoBodies).run orderStored as).map State.view =
      some ⟨bus, origins, before⟩)
    (h' : ((machine lowest defaultConfig twoBodies).run orderStored
      (as ++ [.display .deliver])).map State.stored = some after) :
    ∃ s s', (machine lowest defaultConfig twoBodies).Reachable s ∧ s.display.bus = bus ∧
      s.origins = origins ∧ s.stored = before ∧
      step lowest defaultConfig twoBodies s (.display .deliver) = some s' ∧ s'.stored = after := by
  obtain ⟨s, hs, hview⟩ := Option.map_eq_some_iff.mp h
  rw [Machine.run_append, hs] at h'
  obtain ⟨s', hs', hstored⟩ := Option.map_eq_some_iff.mp h'
  simp only [Option.bind_some, Machine.run, Option.bind_fun_some] at hs'
  cases hview
  exact ⟨s, s', Machine.reachable_run as orderStored_init hs, rfl, rfl, rfl, hs', hstored⟩

/-- The mode is set behind an answered read, and the order is kept. -/
theorem order_kept_shuffle : ∃ s s',
    s.display.bus = [(1, DisplayEvent.updatePlaybackOrder .shuffle [2, 1])] ∧
    (1, some [2, 1]) ∈ s.origins ∧
    step lowest defaultConfig twoBodies s (.display .deliver) = some s' ∧ s'.stored = s.stored := by
  obtain ⟨s, s', hr, hbus, horigins, hstored, hs, -⟩ :=
    exists_delivered (.begin 0 (orderRequest modeText) :: readAnswered 0 ++
      published 0 .shuffle [2, 1]) [(1, .updatePlaybackOrder .shuffle [2, 1])]
      [(1, some [2, 1])] [2, 1] [2, 1]
      (by decide +kernel) (by decide +kernel)
  have hread : (1, some [2, 1]) ∈ s.origins := by rw [horigins]; decide
  refine ⟨s, s', hbus, hread, hs, ((order_kept hr).1 1 _ _ _ s' hbus hread hs).mpr ?_⟩
  rw [hstored]
  decide

/-- The read fails and an empty order is written; the read is answered and the order of another
session, applied in between, is overwritten. -/
theorem order_lost :
    (∃ s s', (machine lowest defaultConfig twoBodies).Reachable s ∧
      s.display.bus = [(0, .updatePlaybackOrder .shuffle [])] ∧ s.origins = [(0, none)] ∧
      s.stored = [2, 1] ∧ step lowest defaultConfig twoBodies s (.display .deliver) = some s' ∧
      s'.stored = []) ∧
    ∃ s s', (machine lowest defaultConfig twoBodies).Reachable s ∧
      s.display.bus = [(2, .updatePlaybackOrder .shuffle [2, 1])] ∧ s.origins = [(2, some [2, 1])] ∧
      s.stored = [1, 2] ∧ step lowest defaultConfig twoBodies s (.display .deliver) = some s' ∧
      s'.stored = [2, 1] :=
  ⟨exists_delivered (.begin 0 (orderRequest modeText) :: .send 0 :: .fail :: .lose 0 ::
      published 0 .shuffle []) _ _ _ _ (by decide +kernel) (by decide +kernel),
    exists_delivered (.begin 0 (orderRequest modeText) :: readAnswered 0 ++
      .begin 1 (orderRequest orderText) :: published 1 .custom [1, 2] ++
      .display .deliver :: published 0 .shuffle [2, 1]) _ _ _ _
      (by decide +kernel) (by decide +kernel)⟩

end Runs

end ShareFrame.OrderUpdates
