import ShareFrame.Display.Hardware
import ShareFrame.Display.DisplayProcess
import ShareFrame.Lib.Places

/-!
# The picture a shutdown leaves

`requestShutdown` ends the wait of every pending call. A pending `displayBuffer`
then returns, but a pending `clear` clears, and `finishForShutdown` trusts
`shown_`, which a clear does not take back. The right picture is left if no
`clear` or `init` is pending at the request or begins behind it, no
`displayBuffer` has just passed its last check, and a status screen that counts as
shown is on the panel.
-/

namespace ShareFrame.DisplayProcess

open DisplayManager (Kind Config Active Pc Picture Follows Still Told BUFFER_SIZE)
open DisplayTaskManager (DisplayState Content Stage)
open Places (update_eq_some update_none_eq_some)

variable {β : Type}

/-- The status screen is the one the shutdown keeps: it was started, and the task manager is not on
its way to another screen. -/
def State.StatusCurrent (s : State β) : Prop :=
  match s.managerPc with
  | .switching t .start => t = .status
  | .switching t .store => t = .status
  | .switching _ _ => False
  | _ => s.state = .status

/-- `StatusScreen` counts its screen as shown, or is about to. -/
def State.Remembered (s : State β) : Prop :=
  s.shown = true ∨ ∃ th, s.tasks .status = some th ∧ th.pc = .painted true

/-- The panel shows the status screen. -/
def State.ShowsStatus (s : State β) : Prop :=
  ∃ b, s.buffer = some b ∧ s.display.panel = some (.image b s.source)

/-- What the shutdown is to leave on the panel. -/
def State.RightPicture (s : State β) : Prop :=
  (s.state = .status → s.ShowsStatus) ∧ (s.state ≠ .status → s.display.panel = some .white)

/-- No pending call will refresh once the shutdown is requested: the queued ones are
`displayBuffer`, and so is the active one, in front of its last check, unless its refresh has begun. -/
def State.NothingPending (s : State β) : Prop :=
  (∀ t c, s.display.queued t = some c → c.1.displays = true) ∧
    ∀ a, s.display.active = some a →
      a.pc.begun = true ∨ (a.kind.displays = true ∧ a.pc.waits = true)

/-- A status screen that counts as shown is on the panel and stays there. -/
def State.StatusUp (s : State β) : Prop :=
  s.StatusCurrent → s.Remembered →
    s.ShowsStatus ∧ ∀ a, s.display.active = some a → a.pc.refreshes = false

/-- The panel is powered up and accepts the refresh. -/
def Act.accepts : Act β → Bool
  | .display (.power outcome _) => outcome == .ready
  | .display (.refreshed accepted) => accepted
  | _ => true

/-- A metrics write of a call throws. -/
def Act.callThrows : Act β → Bool
  | .display (.power _ written) => !written
  | .display .throws => true
  | _ => false

/-- The steps under which the right picture is left: the panel accepts every refresh, the recorded
screen state stays true, and around the shutdown request nothing is pending that would refresh. -/
structure Orderly (s : State β) (act : Act β) : Prop where
  accepts : act.accepts = true
  records : act = .display .throws →
    DisplayManager.Recorded.Recording Thread β s.display .throws
  pending : act = .main → s.mainPc = .running → s.NothingPending
  up : act = .main → s.mainPc = .running → s.StatusUp
  noClear : s.mainPc ≠ .running →
    act ≠ .boot ∧ act ≠ .clear ∧ (act = .clearer → s.clearerPc ≠ .clearing)
  noThrow : s.mainPc ≠ .running → act ≠ .managerThrows ∧
    (act.callThrows = true → ∀ a, s.display.active = some a → a.thread ≠ .manager)

namespace Shutdown

/-- A call of thread `t` with these arguments is under way. -/
def CallOf (d : DisplayManager.State Thread β) (t : Thread) (k : Kind β) : Prop :=
  (∃ stop, d.queued t = some (k, stop)) ∨ ∃ a, d.active = some a ∧ a.thread = t ∧ a.kind = k

/-- The content task whose thread may be running. -/
def Owns (s : State β) (c : Content) : Prop :=
  match s.managerPc with
  | .switching _ .clear => False
  | .switching _ .set => False
  | .switching _ .start => False
  | .switching t .store => t.content = some c
  | _ => s.state.content = some c

/-- Between two points of the thread that own the same. -/
theorem Owns.move {s : State β} {c : Content} {pc next : ManagerPc} (h : Owns s c)
    (hpc : s.managerPc = pc)
    (hmove : Owns { s with managerPc := pc } c → Owns { s with managerPc := next } c) :
    Owns { s with managerPc := next } c := by
  subst hpc
  exact hmove h

/-- At a point that owns nothing. -/
theorem Owns.false {s : State β} {c : Content} {pc : ManagerPc} (h : Owns s c)
    (hpc : s.managerPc = pc) (hnot : ¬ Owns { s with managerPc := pc } c) : False := by
  subst hpc
  exact hnot h

theorem statusCurrent_of_move {s : State β} {pc next : ManagerPc} (hpc : s.managerPc = pc)
    (hmove : State.StatusCurrent { s with managerPc := next } →
      State.StatusCurrent { s with managerPc := pc })
    (h : State.StatusCurrent { s with managerPc := next }) : s.StatusCurrent := by
  subst hpc
  exact hmove h

/-- `main` has stopped the task manager. -/
def ManagerGone : MainPc → Prop
  | .running => False
  | .requested => False
  | .joiningManager => False
  | _ => True

/-- `main` has begun its final refresh. -/
def MainBegun (s : State β) : Prop :=
  s.mainPc = .finished ∨ s.mainPc = .terminated ∨
    ∃ a, s.display.active = some a ∧ a.thread = .main ∧ a.pc.begun = true

/-- The call of the final refresh. -/
def FinalCall (s : State β) (k : Kind β) : Prop :=
  (s.mainPc = .painting ∧ s.state = .status ∧
      ∃ b, s.buffer = some b ∧ k = .paintForShutdown b s.source) ∨
    (s.mainPc = .clearing ∧ s.state ≠ .status ∧ k = .clearForShutdown)

/-- The final refresh succeeds. -/
def MainTells (s : State β) (a : Active Thread β) : Prop :=
  match a.pc with
  | .power => True
  | .refreshing _ => True
  | .finishing _ result => result = true ∧ s.display.panel = some a.kind.picture
  | .returning result => result = true ∧ s.display.panel = some a.kind.picture
  | _ => False

/-- What holds once the shutdown is requested. -/
structure Closed (s : State β) : Prop where
  queued : ∀ t c, s.display.queued t = some c → t ≠ .main → c.1.displays = true
  active : ∀ a, s.display.active = some a → a.thread ≠ .main →
    a.pc.begun = true ∨ (a.kind.displays = true ∧ a.pc.waits = true)
  up : s.StatusCurrent → s.Remembered → s.ShowsStatus ∧
    ∀ a, s.display.active = some a → a.thread ≠ .main → a.pc.refreshes = false

structure Inv (cfg : Config β) (s : State β) : Prop where
  told : ∀ a, s.display.active = some a → Told a
  once : ∀ a, s.display.active = some a → s.display.queued a.thread = none
  recorded : DisplayManager.Recorded.Inv s.display
  owns : ∀ c th, s.tasks c = some th → Owns s c
  statusCall : ∀ k, CallOf s.display (.content .status) k →
    (∃ b, s.buffer = some b ∧ k = .displayBuffer b s.source .respectMinInterval) ∧
      ∃ th, s.tasks .status = some th ∧ th.pc = .running
  size : ∀ b, s.buffer = some b → cfg.size b = BUFFER_SIZE
  buffered : s.state = .status ∨ s.StatusCurrent → ∃ b, s.buffer = some b
  down : s.display.shuttingDown = true ↔ s.mainPc ≠ .running
  gone : ManagerGone s.mainPc → s.managerPc = .exited
  managerCall : ∀ k, CallOf s.display .manager k → ∀ t, s.managerPc ≠ .switching t .store
  mainCall : ∀ k, CallOf s.display .main k → FinalCall s k
  mainTells : ∀ a, s.display.active = some a → a.thread = .main → MainTells s a
  closed : s.mainPc ≠ .running → Closed s
  after : s.after = [] ∨
    (MainBegun s ∧ ∃ k : Kind β, s.after = [k] ∧ (k = .clearForShutdown ∨ ∃ b src, k = .paintForShutdown b src))
  finished : s.mainPc = .finished →
    s.RightPicture ∧ ∀ a, s.display.active = some a → a.pc.refreshes = false

variable {cfg : Config β} {s s' : State β}

/-- Nothing is said about the stop requests and about where the daily clear is. -/
theorem Inv.setOther (h : Inv cfg s) (managerStop booted clearerStop : Bool) (clearerPc : ClearerPc) :
    Inv cfg { s with managerStop, booted, clearerStop, clearerPc } :=
  { h with closed := fun hm => { h.closed hm with } }

/-! ## Steps of the task manager -/

theorem Inv.no_main (h : Inv cfg s) (hpc : s.managerPc ≠ .exited) : ¬ ManagerGone s.mainPc :=
  fun hgone => hpc (h.gone hgone)

theorem FinalCall.gone {k : Kind β} (h : FinalCall s k) : ManagerGone s.mainPc := by
  obtain ⟨hpc, -⟩ | ⟨hpc, -⟩ := h <;> rw [hpc] <;> trivial

theorem Inv.idle_main (h : Inv cfg s) (hpc : s.managerPc ≠ .exited) (k : Kind β) :
    ¬ CallOf s.display .main k :=
  fun hk => h.no_main hpc (h.mainCall k hk).gone

theorem Inv.unfinished (h : Inv cfg s) (hpc : s.managerPc ≠ .exited) : s.mainPc ≠ .finished :=
  fun hf => h.no_main hpc (by rw [hf]; trivial)

/-- The manager's thread goes on. -/
theorem Inv.move (h : Inv cfg s) (pc : ManagerPc) (hpc : s.managerPc ≠ .exited)
    (hfree : ∀ k, ¬ CallOf s.display .manager k)
    (howns : ∀ c th, s.tasks c = some th → Owns { s with managerPc := pc } c)
    (hcur : State.StatusCurrent { s with managerPc := pc } → s.StatusCurrent) :
    Inv cfg { s with managerPc := pc } :=
  { h with
    owns := howns
    buffered := fun hb => h.buffered (hb.imp_right hcur)
    gone := fun hg => absurd hg (h.no_main hpc)
    managerCall := fun k hk => absurd hk (hfree k)
    closed := fun hmain => { h.closed hmain with up := fun hc => (h.closed hmain).up (hcur hc) } }

/-- A task that is not joinable has no thread. -/
theorem Inv.no_tasks (h : Inv cfg s) (howns : ∀ c, Owns s c → s.state.content = some c)
    (hnone : ∀ c, s.state.content = some c → s.tasks c = none) (c : Content) : s.tasks c = none := by
  cases hc : s.tasks c with
  | none => rfl
  | some th => exact hc.symm.trans (hnone c (howns c (h.owns c th hc)))

/-- The threads of the content tasks change. -/
theorem Inv.setTasks (h : Inv cfg s) {tasks : Content → Option ContentThread}
    (howns : ∀ c th, tasks c = some th → Owns s c)
    (hstatus : ∀ k, CallOf s.display (.content .status) k →
      ∃ th, tasks .status = some th ∧ th.pc = .running)
    (hpainted : ∀ th, tasks .status = some th → th.pc = .painted true →
      ∃ th₀, s.tasks .status = some th₀ ∧ th₀.pc = .painted true) : Inv cfg { s with tasks } :=
  { h with
    owns := howns
    statusCall := fun k hk => ⟨(h.statusCall k hk).1, hstatus k hk⟩
    closed := fun hm =>
      { h.closed hm with
        up := fun hc hr => (h.closed hm).up hc
          (hr.imp_right fun ⟨th, hth, hp⟩ => hpainted th hth hp) } }

/-- The thread of one content task changes. -/
theorem Inv.setTask (h : Inv cfg s) {c : Content} {th : ContentThread} (th' : ContentThread)
    (hth : s.tasks c = some th)
    (hrun : c = .status → ∀ k, CallOf s.display (.content .status) k → th'.pc = .running)
    (hpainted : c = .status → th'.pc = .painted true → th.pc = .painted true) :
    Inv cfg { s with tasks := Function.update s.tasks c (some th') } := by
  refine h.setTasks (fun c' t ht => ?_) (fun k hk => ?_) (fun t ht hp => ?_)
  · by_cases hc : c' = c
    · exact hc ▸ h.owns c th hth
    · exact h.owns c' t ((Function.update_of_ne hc _ _).symm.trans ht)
  · by_cases hc : c = .status
    · subst hc
      exact ⟨th', Function.update_self .., hrun rfl k hk⟩
    · obtain ⟨th₀, hth₀, hr⟩ := (h.statusCall k hk).2
      exact ⟨th₀, (Function.update_of_ne (Ne.symm hc) _ _).trans hth₀, hr⟩
  · by_cases hc : c = .status
    · subst hc
      rw [Function.update_self] at ht
      cases ht
      exact ⟨th, hth, hpainted rfl hp⟩
    · rw [Function.update_of_ne (Ne.symm hc)] at ht
      exact ⟨t, ht, hp⟩

/-- A task that has exited is joined. -/
theorem Inv.joinTask (h : Inv cfg s) {c : Content} {th : ContentThread} (hth : s.tasks c = some th)
    (hexit : th.pc = .exited) : Inv cfg { s with tasks := Function.update s.tasks c none } := by
  have hsub : ∀ c' th', Function.update s.tasks c none c' = some th' →
      c' ≠ c ∧ s.tasks c' = some th' := by
    intro c' th' hth'
    exact update_none_eq_some hth'
  refine h.setTasks (fun c' th' hth' => h.owns c' th' (hsub c' th' hth').2) (fun k hk => ?_)
    fun th' hth' hp => ⟨th', (hsub _ th' hth').2, hp⟩
  obtain ⟨th₀, hth₀, hrun⟩ := (h.statusCall k hk).2
  have hc : Content.status ≠ c := by
    rintro rfl
    rw [hth] at hth₀
    cases hth₀
    exact absurd (hexit.symm.trans hrun) (by decide)
  exact ⟨th₀, (Function.update_of_ne hc _ _).trans hth₀, hrun⟩

/-! ## Steps of the display manager -/

theorem recorded_step {d d' : DisplayManager.State Thread β} (h : DisplayManager.Recorded.Inv d)
    {act : DisplayManager.Act Thread β} (hact : act ≠ .throws)
    (hs : DisplayManager.step cfg d act = some d') : DisplayManager.Recorded.Inv d' :=
  (DisplayManager.Recorded.inductive_inv cfg).step d act d' h (fun hthrow => absurd hthrow hact) hs

theorem Told.congr {a b : Active Thread β} (h : Told a) (hkind : b.kind = a.kind)
    (hpc : b.pc = a.pc) (hacc : b.accepted = a.accepted) : Told b := by
  cases a
  cases b
  cases hkind
  cases hpc
  cases hacc
  exact h

theorem MainTells.congr {a b : Active Thread β} (h : MainTells s a) (hkind : b.kind = a.kind)
    (hpc : b.pc = a.pc) (hpanel : s'.display.panel = s.display.panel) : MainTells s' b := by
  simp only [MainTells, hpc, hkind, hpanel]
  exact h

/-- A call that was under way before. -/
theorem CallOf.of_display {d d' : DisplayManager.State Thread β}
    (hqueued : ∀ t k stop, d.queued t = some (k, stop) → ∃ stop', d'.queued t = some (k, stop'))
    (hactive : ∀ b, d.active = some b →
      ∃ a, d'.active = some a ∧ a.thread = b.thread ∧ a.kind = b.kind) {t : Thread} {k : Kind β}
    (h : CallOf d t k) : CallOf d' t k := by
  obtain ⟨stop, hq⟩ | ⟨b, hb, ht, hk⟩ := h
  · exact .inl (hqueued t k stop hq)
  · obtain ⟨a, ha, hthread, hkind⟩ := hactive b hb
    exact .inr ⟨a, ha, hthread.trans ht, hkind.trans hk⟩

/-- A step of the display manager that begins no call: what is left to show is where the active
call is and what the panel shows. -/
theorem Inv.withDisplay (h : Inv cfg s) {d : DisplayManager.State Thread β}
    {after : List (Kind β)}
    (hqueued : ∀ t k stop, d.queued t = some (k, stop) → ∃ stop', s.display.queued t = some (k, stop'))
    (hactive : ∀ b, d.active = some b →
      ∃ a, s.display.active = some a ∧ a.thread = b.thread ∧ a.kind = b.kind)
    (hrec : DisplayManager.Recorded.Inv d) (hdown : d.shuttingDown = s.display.shuttingDown)
    (htold : ∀ b, d.active = some b → Told b)
    (htells : ∀ b, d.active = some b → b.thread = .main →
      MainTells { s with display := d, after } b)
    (hwaits : s.mainPc ≠ .running → ∀ b, d.active = some b → b.thread ≠ .main →
      b.pc.begun = true ∨ (b.kind.displays = true ∧ b.pc.waits = true))
    (hup : s.mainPc ≠ .running → s.StatusCurrent → s.Remembered →
      State.ShowsStatus { s with display := d } ∧
        ∀ b, d.active = some b → b.thread ≠ .main → b.pc.refreshes = false)
    (hafter : after = [] ∨ (MainBegun { s with display := d } ∧ ∃ k : Kind β, after = [k] ∧
      (k = .clearForShutdown ∨ ∃ b src, k = .paintForShutdown b src)))
    (hfinished : s.mainPc = .finished → State.RightPicture { s with display := d } ∧
      ∀ b, d.active = some b → b.pc.refreshes = false) :
    Inv cfg { s with display := d, after } := by
  have hcall {t : Thread} {k : Kind β} (hk : CallOf d t k) : CallOf s.display t k :=
    hk.of_display hqueued hactive
  refine ⟨htold, fun b hb => ?_, hrec, h.owns, fun k hk => h.statusCall k (hcall hk), h.size,
    h.buffered, by rw [hdown]; exact h.down, h.gone, fun k hk => h.managerCall k (hcall hk),
    fun k hk => h.mainCall k (hcall hk), htells, fun hm => ⟨?_, hwaits hm, hup hm⟩, hafter,
    hfinished⟩
  · obtain ⟨a, ha, hthread, -⟩ := hactive b hb
    rw [← hthread, Option.eq_none_iff_forall_ne_some]
    rintro ⟨k, stop⟩ hq
    obtain ⟨stop', hq'⟩ := hqueued _ k stop hq
    rw [h.once a ha] at hq'
    cases hq'
  · rintro t ⟨k, stop⟩ hq ht
    obtain ⟨stop', hq'⟩ := hqueued t k stop hq
    exact (h.closed hm).queued t (k, stop') hq' ht

/-- A step of the display manager that changes neither a call nor the panel, but for the stop flags
of the calls. -/
theorem Inv.setDisplay (h : Inv cfg s) {d : DisplayManager.State Thread β}
    (f : Active Thread β → Active Thread β)
    (hf : ∀ a, (f a).thread = a.thread ∧ (f a).kind = a.kind ∧ (f a).pc = a.pc ∧
      (f a).accepted = a.accepted)
    (hrec : DisplayManager.Recorded.Inv d) (hactive : d.active = s.display.active.map f)
    (hqueued : ∀ t k stop, d.queued t = some (k, stop) → ∃ stop', s.display.queued t = some (k, stop'))
    (hpanel : d.panel = s.display.panel) (hdown : d.shuttingDown = s.display.shuttingDown) :
    Inv cfg { s with display := d } := by
  have hact : ∀ b, d.active = some b → ∃ a, s.display.active = some a ∧ f a = b := fun b hb => by
    rw [hactive] at hb
    exact Option.map_eq_some_iff.1 hb
  refine h.withDisplay hqueued (fun b hb => ?_) hrec hdown (fun b hb => ?_) (fun b hb ht => ?_)
    (fun hm b hb ht => ?_) (fun hm hc hr => ?_) ?_ fun hfin => ?_
  · obtain ⟨a, ha, rfl⟩ := hact b hb
    exact ⟨a, ha, (hf a).1.symm, (hf a).2.1.symm⟩
  · obtain ⟨a, ha, rfl⟩ := hact b hb
    exact Told.congr (h.told a ha) (hf a).2.1 (hf a).2.2.1 (hf a).2.2.2
  · obtain ⟨a, ha, rfl⟩ := hact b hb
    exact (h.mainTells a ha ((hf a).1.symm.trans ht)).congr (hf a).2.1 (hf a).2.2.1 hpanel
  · obtain ⟨a, ha, rfl⟩ := hact b hb
    obtain ⟨hthread, hkind, hpc, -⟩ := hf a
    rw [hpc, hkind]
    exact (h.closed hm).active a ha (hthread ▸ ht)
  · obtain ⟨⟨b, hbuf, hshow⟩, hidle⟩ := (h.closed hm).up hc hr
    refine ⟨⟨b, hbuf, hpanel.trans hshow⟩, fun b hb ht => ?_⟩
    obtain ⟨a, ha, rfl⟩ := hact b hb
    obtain ⟨hthread, -, hpc, -⟩ := hf a
    rw [hpc]
    exact hidle a ha (hthread ▸ ht)
  · refine h.after.imp_right fun ⟨hbegun, hk⟩ => ⟨?_, hk⟩
    refine hbegun.imp_right (Or.imp_right ?_)
    rintro ⟨a, ha, ht, hb⟩
    obtain ⟨hthread, -, hpc, -⟩ := hf a
    exact ⟨f a, by simp only [hactive, ha, Option.map_some], hthread.trans ht, hpc ▸ hb⟩
  · obtain ⟨hright, hidle⟩ := h.finished hfin
    refine ⟨⟨fun hst => ?_, fun hst => hpanel.trans (hright.2 hst)⟩, fun b hb => ?_⟩
    · obtain ⟨b, hbuf, hshow⟩ := hright.1 hst
      exact ⟨b, hbuf, hpanel.trans hshow⟩
    · obtain ⟨a, ha, rfl⟩ := hact b hb
      rw [(hf a).2.2.1]
      exact hidle a ha

theorem Inv.requestStop (h : Inv cfg s) {t : Thread}
    (hs : s.onDisplay cfg (.requestStop t) = some s') : Inv cfg s' := by
  obtain ⟨d, hd, rfl⟩ := Option.map_eq_some_iff.1 hs
  have hrec := recorded_step h.recorded (by simp) hd
  cases hd
  refine h.setDisplay (fun a => if a.thread = t then { a with stop := true } else a) (fun a => ?_) hrec
    rfl (fun t' k stop hq => ?_) rfl rfl
  · split <;> exact ⟨rfl, rfl, rfl, rfl⟩
  · by_cases ht : t' = t
    · subst ht
      simp only [Function.update_self, Option.map_eq_some_iff] at hq
      obtain ⟨c, hc, heq⟩ := hq
      cases heq
      exact ⟨c.2, hc⟩
    · exact ⟨stop, (Function.update_of_ne ht _ _).symm.trans hq⟩

theorem Inv.tick (h : Inv cfg s) (ticks : Nat) :
    Inv cfg { s with display := { s.display with now := s.display.now + ticks } } :=
  h.setDisplay id (fun _ => ⟨rfl, rfl, rfl, rfl⟩)
    (@recorded_step _ cfg _ _ h.recorded (.tick ticks) (by simp) rfl) (by simp)
    (fun _ _ stop hq => ⟨stop, hq⟩) rfl rfl

/-- A thread makes a call. -/
theorem Inv.call (h : Inv cfg s) {t : Thread} {kind : Kind β} {stop : Bool}
    (hs : s.call cfg t kind stop = some s')
    (hdisplays : s.mainPc ≠ .running → t ≠ .main → kind.displays = true)
    (hstatus : t = .content .status →
      (∃ b, s.buffer = some b ∧ kind = .displayBuffer b s.source .respectMinInterval) ∧
        ∃ th, s.tasks .status = some th ∧ th.pc = .running)
    (hmanager : t = .manager → ∀ target, s.managerPc ≠ .switching target .store)
    (hmain : t = .main → FinalCall s kind) : Inv cfg s' := by
  obtain ⟨d, hd, rfl⟩ := Option.map_eq_some_iff.1 hs
  have hrec := recorded_step h.recorded (by simp) hd
  simp only [DisplayManager.step] at hd
  split at hd
  · cases hd
  rename_i hfree
  cases hd
  have hq : ∀ t' c, Function.update s.display.queued t (some (kind, stop)) t' = some c →
      (t' = t ∧ c = (kind, stop)) ∨ s.display.queued t' = some c := by
    intro t' c hc
    exact (update_eq_some hc).imp_right And.right
  have hcall : ∀ t' k, CallOf { s.display with
        queued := Function.update s.display.queued t (some (kind, stop)) } t' k →
      (t' = t ∧ k = kind) ∨ CallOf s.display t' k := by
    rintro t' k (⟨st, hc⟩ | hact)
    · obtain ⟨ht, heq⟩ | hc := hq t' _ hc
      · cases heq
        exact .inl ⟨ht, rfl⟩
      · exact .inr (.inl ⟨st, hc⟩)
    · exact .inr (.inr hact)
  refine { h with
    once := fun a ha => ?_
    recorded := hrec
    statusCall := fun k hk => ?_
    managerCall := fun k hk => ?_
    mainCall := fun k hk => ?_
    closed := fun hm => { h.closed hm with queued := fun t' c hc ht => ?_ } }
  · have hne : a.thread ≠ t := by
      rintro rfl
      refine hfree (.inr ?_)
      rw [show s.display.active = some a from ha]
      simp
    exact (Function.update_of_ne hne _ _).trans (h.once a ha)
  · obtain ⟨ht, rfl⟩ | hk := hcall _ k hk
    · exact hstatus ht.symm
    · exact h.statusCall k hk
  · obtain ⟨ht, -⟩ | hk := hcall _ k hk
    · exact hmanager ht.symm
    · exact h.managerCall k hk
  · obtain ⟨ht, rfl⟩ | hk := hcall _ k hk
    · exact hmain ht.symm
    · exact h.mainCall k hk
  · obtain ⟨rfl, rfl⟩ | hc := hq t' c hc
    · exact hdisplays hm ht
    · exact (h.closed hm).queued t' c hc ht

/-- The lock is taken. -/
theorem Inv.acquire (hw : cfg.mockDisplay = false) (h : Inv cfg s) {t : Thread}
    {d : DisplayManager.State Thread β} (hd : DisplayManager.step cfg s.display (.acquire t) = some d) :
    Inv cfg { s with display := d } := by
  have hrec := recorded_step h.recorded (by simp) hd
  simp only [DisplayManager.step] at hd
  split at hd
  · rename_i kind stop hqueued hactive
    cases hd
    obtain ⟨htold, hidle⟩ := DisplayManager.told_enter (s := s.display) hw t kind stop
    have hq : ∀ t' c, Function.update s.display.queued t none t' = some c →
        s.display.queued t' = some c := by
      intro t' c hc
      exact (update_none_eq_some hc).2
    have hcall : ∀ t' k, CallOf { s.display with
          queued := Function.update s.display.queued t none
          active := some { thread := t, kind, stop, pc := DisplayManager.enter cfg s.display kind } }
          t' k → CallOf s.display t' k := by
      rintro t' k (⟨st, hc⟩ | ⟨a, ⟨⟩, rfl, rfl⟩)
      · exact .inl ⟨st, hq t' _ hc⟩
      · exact .inl ⟨stop, hqueued⟩
    refine { h with
      told := ?_
      once := ?_
      recorded := hrec
      statusCall := fun k hk => h.statusCall k (hcall _ k hk)
      managerCall := fun k hk => h.managerCall k (hcall _ k hk)
      mainCall := fun k hk => h.mainCall k (hcall _ k hk)
      mainTells := ?_
      closed := fun hm => ⟨fun t' c hc => (h.closed hm).queued t' c (hq t' c hc), ?_, ?_⟩
      after := ?_
      finished := fun hf => ⟨(h.finished hf).1, ?_⟩ }
    · rintro _ ⟨⟩
      exact htold
    · rintro _ ⟨⟩
      exact Function.update_self ..
    · rintro _ ⟨⟩ rfl
      -- the final call: it skips only a white panel
      obtain ⟨-, -, b, hbuf, rfl⟩ | ⟨-, -, rfl⟩ := h.mainCall kind (.inl ⟨stop, hqueued⟩)
      · simp [DisplayManager.enter, DisplayManager.sendBufferHw_eq hw, h.size b hbuf, MainTells]
      · simp only [DisplayManager.enter, DisplayManager.clearHw_eq hw]
        split
        · rename_i hcleared
          exact ⟨rfl, (h.recorded.idle hactive).1.1 hcleared⟩
        · trivial
    · rintro _ ⟨⟩ ht
      have hdisplays := (h.closed hm).queued t _ hqueued ht
      exact .inr ⟨hdisplays, DisplayManager.enter_waits hdisplays⟩
    · intro hc hr
      refine ⟨((h.closed hm).up hc hr).1, ?_⟩
      rintro _ ⟨⟩ -
      exact hidle
    · refine h.after.imp_right fun hk => ⟨hk.1.imp_right (Or.imp_right ?_), hk.2⟩
      rintro ⟨a, ha, -⟩
      rw [hactive] at ha
      cases ha
    · rintro _ ⟨⟩
      exact hidle
  · cases hd

/-- The active call goes from one point to the next, the panel and the refreshes stay. -/
theorem Inv.follow (h : Inv cfg s) {a : Active Thread β} {pc : Pc β} {late : Bool}
    {d : DisplayManager.State Thread β} (ha : s.display.active = some a)
    (hf : Follows s.display a pc) (hrec : DisplayManager.Recorded.Inv d)
    (hstill : Still s.display d) (hactive : d.active = some { a with pc, late }) :
    Inv cfg { s with display := d } := by
  obtain ⟨hpanel, -, hqueued, hdown⟩ := hstill
  have hact : ∀ b, d.active = some b → b = { a with pc, late } := fun b hb => by
    rw [hactive] at hb
    exact (Option.some.inj hb).symm
  refine h.withDisplay (fun t k stop hq => ⟨stop, hqueued ▸ hq⟩) (fun b hb => ?_) hrec hdown
    (fun b hb => ?_) (fun b hb ht => ?_) (fun hm b hb ht => ?_) (fun hm hc hr => ?_) ?_
    fun hfin => ?_
  · rw [hact b hb]
    exact ⟨a, ha, rfl, rfl⟩
  · rw [hact b hb]
    exact hf.told (h.told a ha) late
  · rw [hact b hb] at ht ⊢
    have htells := h.mainTells a ha ht
    simp only [MainTells, hpanel]
    cases hf with
    | wait hw _ | refused hw | start hw _ =>
      cases hpc : a.pc <;> simp only [MainTells, hpc] at htells <;> rw [hpc] at hw <;> cases hw
    | effect hpc | behind hpc =>
      simp only [MainTells, hpc] at htells
      exact htells
    | settle hpc hinit =>
      obtain ⟨-, -, b, -, hk⟩ | ⟨-, -, hk⟩ := h.mainCall a.kind (.inr ⟨a, ha, ht, rfl⟩) <;>
        rw [hinit] at hk <;> cases hk
    | settled hpc => simp only [MainTells, hpc] at htells
  · rw [hact b hb] at ht ⊢
    obtain hbegun | ⟨hd, hw⟩ := (h.closed hm).active a ha ht
    · exact .inl (hf.begun hbegun)
    · obtain hw' | hb' := hf.waits hd (h.down.2 hm) hw
      · exact .inr ⟨hd, hw'⟩
      · exact .inl hb'
  · obtain ⟨⟨b, hbuf, hshow⟩, -⟩ := (h.closed hm).up hc hr
    refine ⟨⟨b, hbuf, hpanel.trans hshow⟩, fun b hb _ => ?_⟩
    rw [hact b hb]
    exact hf.refreshes
  · refine h.after.imp_right fun ⟨hbegun, hk⟩ => ⟨hbegun.imp_right (Or.imp_right ?_), hk⟩
    rintro ⟨b, hb, ht, hbeg⟩
    rw [ha] at hb
    cases hb
    exact ⟨_, hactive, ht, hf.begun hbeg⟩
  · obtain ⟨⟨hstatus, hwhite⟩, -⟩ := h.finished hfin
    refine ⟨⟨fun hst => ?_, fun hst => hpanel.trans (hwhite hst)⟩, fun b hb => ?_⟩
    · obtain ⟨b, hbuf, hshow⟩ := hstatus hst
      exact ⟨b, hbuf, hpanel.trans hshow⟩
    · rw [hact b hb]
      exact hf.refreshes

/-! ## The end of a call -/

/-- A call of a thread but `main` has ended. -/
theorem Inv.release (h : Inv cfg s) {a : Active Thread β} (ha : s.display.active = some a)
    (ht : a.thread ≠ .main) {d : DisplayManager.State Thread β}
    (hrec : DisplayManager.Recorded.Inv d) (hstill : Still s.display d) (hnone : d.active = none) :
    Inv cfg { s with display := d } := by
  obtain ⟨hpanel, -, hqueued, hdown⟩ := hstill
  have hidle : ∀ {p : Active Thread β → Prop} b, d.active = some b → p b := fun b hb => by
    rw [hnone] at hb
    cases hb
  have hshows : s.ShowsStatus → State.ShowsStatus { s with display := d } :=
    fun ⟨b, hbuf, hshow⟩ => ⟨b, hbuf, hpanel.trans hshow⟩
  refine h.withDisplay (fun t k stop hq => ⟨stop, hqueued ▸ hq⟩) hidle hrec hdown hidle hidle
    (fun _ => hidle) (fun hm hc hr => ⟨hshows ((h.closed hm).up hc hr).1, hidle⟩) ?_ fun hfin => ?_
  · refine h.after.imp_right fun ⟨hbegun, hk⟩ => ⟨hbegun.imp_right (Or.imp_right ?_), hk⟩
    rintro ⟨b, hb, htb, -⟩
    rw [ha] at hb
    cases hb
    exact absurd htb ht
  · obtain ⟨⟨hstatus, hwhite⟩, -⟩ := h.finished hfin
    exact ⟨⟨fun hst => hshows (hstatus hst), fun hst => hpanel.trans (hwhite hst)⟩, hidle⟩

/-- The task manager's thread behind an exception, before the shutdown. -/
theorem Inv.managerCaught (h : Inv cfg s) (hm : s.mainPc = .running)
    (hfree : ∀ k, ¬ CallOf s.display .manager k)
    (howns : ∀ c, Owns s c → s.state.content = some c) : Inv cfg s.managerCaught := by
  have hnot : ¬ ManagerGone s.mainPc := by rw [hm]; exact id
  have hmoved : ∀ pc : ManagerPc,
      (∀ c, Owns { s with managerPc := pc } c ↔ s.state.content = some c) →
      (State.StatusCurrent { s with managerPc := pc } ↔ s.state = .status) →
      Inv cfg { s with managerPc := pc } := fun pc hpc hcur =>
    { h with
      owns := fun c th hth => (hpc c).2 (howns c (h.owns c th hth))
      buffered := fun hb => h.buffered (.inl (hb.elim id hcur.1))
      gone := fun hg => absurd hg hnot
      managerCall := fun k hk => absurd hk (hfree k)
      closed := fun hne => absurd hm hne }
  unfold State.managerCaught
  split
  · exact hmoved _ (fun _ => .rfl) .rfl
  · split
    · exact hmoved _ (fun _ => .rfl) .rfl
    · exact hmoved _ (fun _ => .rfl) .rfl

/-- `displayBuffer` has returned to the status screen. -/
theorem Inv.painted (h : Inv cfg s) (hidle : s.display.active = none)
    (hqueued : s.display.queued (.content .status) = none) {th : ContentThread}
    (hth : s.tasks .status = some th) {result : Bool} (hshow : result = true → s.ShowsStatus) :
    Inv cfg { s with
      tasks := Function.update s.tasks .status (some { th with pc := .painted result }) } := by
  have hno : ∀ k, ¬ CallOf s.display (.content .status) k := by
    rintro k (⟨stop, hq⟩ | ⟨a, ha, -⟩)
    · rw [hqueued] at hq
      cases hq
    · rw [hidle] at ha
      cases ha
  refine { h with
    owns := fun c th' hth' => ?_
    statusCall := fun k hk => absurd hk (hno k)
    closed := fun hm => { h.closed hm with up := fun hc hr => ?_ } }
  · by_cases hc : c = .status
    · subst hc
      exact h.owns _ th hth
    · exact h.owns c th' ((Function.update_of_ne hc _ _).symm.trans hth')
  · have hnone : ∀ a, s.display.active = some a → a.thread ≠ .main → a.pc.refreshes = false :=
      fun a ha => by rw [hidle] at ha; cases ha
    obtain hshown | ⟨th', hth', hpainted⟩ := hr
    · exact (h.closed hm).up hc (.inl hshown)
    · have hself : Function.update s.tasks .status (some { th with pc := .painted result }) .status =
          some th' := hth'
      rw [Function.update_self] at hself
      cases hself
      exact ⟨hshow (ContentPc.painted.inj hpainted), hnone⟩

/-- The final refresh of `main` has ended. -/
theorem Inv.mainReturned (h : Inv cfg s) {a : Active Thread β} (ha : s.display.active = some a)
    (ht : a.thread = .main) {d : DisplayManager.State Thread β}
    (hrec : DisplayManager.Recorded.Inv d) (hstill : Still s.display d) (hnone : d.active = none)
    {result : Option Bool} (hresult : ∀ r, result = some r → a.pc = .returning r) :
    Inv cfg (State.mainReturned { s with display := d } result) := by
  obtain ⟨hpanel, -, hqueued, hdown⟩ := hstill
  have hfinal : FinalCall s a.kind := h.mainCall a.kind (.inr ⟨a, ha, ht, rfl⟩)
  have hrunning : s.mainPc ≠ .running := by
    obtain ⟨hpc, -⟩ | ⟨hpc, -⟩ := hfinal <;> rw [hpc] <;> exact MainPc.noConfusion
  have hexited := h.gone hfinal.gone
  have hshutting : d.shuttingDown = true := hdown.trans (h.down.2 hrunning)
  have hidle : ∀ {p : Active Thread β → Prop} b, d.active = some b → p b := fun b hb => by
    rw [hnone] at hb
    cases hb
  have hcall : ∀ t k, CallOf d t k → t ≠ .main ∧ CallOf s.display t k := by
    rintro t k (⟨stop, hq⟩ | ⟨b, hb, -⟩)
    · refine ⟨?_, .inl ⟨stop, hqueued ▸ hq⟩⟩
      rintro rfl
      rw [hqueued, ← ht, h.once a ha] at hq
      cases hq
    · exact hidle (p := fun _ => _) b hb
  have hclosed := h.closed hrunning
  have hqueue : ∀ t c, d.queued t = some c → t ≠ .main → c.1.displays = true :=
    fun t c hq => hclosed.queued t c (hqueued ▸ hq)
  have hk : ∃ k : Kind β, s.after = [] ∨ (s.after = [k] ∧ (k = .clearForShutdown ∨
      ∃ b src, k = .paintForShutdown b src)) := by
    obtain hnil | ⟨-, k, hk⟩ := h.after
    · exact ⟨.clear, .inl hnil⟩
    · exact ⟨k, .inr hk⟩
  have hafter : ∀ {pc : MainPc} {sh : Bool}, pc = .finished ∨ pc = .terminated →
      s.after = [] ∨ (MainBegun { s with display := d, shown := sh, mainPc := pc } ∧
        ∃ k : Kind β, s.after = [k] ∧ (k = .clearForShutdown ∨ ∃ b src, k = .paintForShutdown b src)) :=
    fun hpc => hk.elim fun k hk => hk.imp_right fun hk => ⟨hpc.imp_right .inl, k, hk⟩
  cases result with
  | none =>
    refine ⟨hidle, hidle, hrec, h.owns, fun k hk => h.statusCall k (hcall _ k hk).2, h.size,
      h.buffered, ?_, fun _ => hexited, fun k hk => h.managerCall k (hcall _ k hk).2,
      fun k hk => absurd rfl (hcall _ k hk).1, hidle, fun _ => ?_,
      hafter (.inr rfl), fun hf => by cases hf⟩
    · exact ⟨fun _ hpc => (by cases hpc), fun _ => hshutting⟩
    · refine ⟨hqueue, hidle, fun hc hr => ⟨?_, hidle⟩⟩
      obtain ⟨b, hbuf, hshow⟩ := (hclosed.up hc hr).1
      exact ⟨b, hbuf, hpanel.trans hshow⟩
  | some r =>
    have htells := h.mainTells a ha ht
    rw [MainTells, hresult r rfl] at htells
    obtain ⟨rfl, hshown⟩ := htells
    have hright : State.RightPicture { s with display := d } := by
      obtain ⟨-, hst, b, hbuf, hkind⟩ | ⟨-, hst, hkind⟩ := hfinal
      · refine ⟨fun _ => ⟨b, hbuf, ?_⟩, fun hne => absurd hst hne⟩
        exact hpanel.trans (hshown.trans (by rw [hkind]; rfl))
      · refine ⟨fun heq => absurd heq hst, fun _ => ?_⟩
        exact hpanel.trans (hshown.trans (by rw [hkind]; rfl))
    have hcurrent : s.StatusCurrent → s.state = .status := fun hc => by
      rw [State.StatusCurrent, hexited] at hc
      exact hc
    refine ⟨hidle, hidle, hrec, h.owns, fun k hk => h.statusCall k (hcall _ k hk).2, h.size,
      h.buffered, ?_, fun _ => hexited, fun k hk => h.managerCall k (hcall _ k hk).2,
      fun k hk => absurd rfl (hcall _ k hk).1, hidle, fun _ => ?_,
      hafter (.inl rfl), fun _ => ⟨hright, hidle⟩⟩
    · exact ⟨fun _ hpc => (by cases hpc), fun _ => hshutting⟩
    · exact ⟨hqueue, hidle, fun hc _ => ⟨hright.1 (hcurrent hc), hidle⟩⟩

/-- A call has ended, with a result or with an exception. -/
theorem Inv.callEnded (h : Inv cfg s) {a : Active Thread β} (ha : s.display.active = some a)
    {d : DisplayManager.State Thread β} (hrec : DisplayManager.Recorded.Inv d)
    (hstill : Still s.display d) (hnone : d.active = none) {result : Option Bool}
    (hresult : ∀ r, result = some r → a.pc = .returning r)
    (hmanager : a.thread = .manager → result = none → s.mainPc = .running) :
    Inv cfg (State.returned { s with display := d } a.thread result) := by
  have hfree : ∀ k, ¬ CallOf d a.thread k := by
    rintro k (⟨stop, hq⟩ | ⟨b, hb, -⟩)
    · rw [hstill.queued, h.once a ha] at hq
      cases hq
    · rw [hnone] at hb
      cases hb
  cases ht : a.thread with
  | manager =>
    have h' := h.release ha (by simp [ht]) hrec hstill hnone
    rw [ht] at hfree
    cases result with
    | none =>
      refine h'.managerCaught (hmanager ht rfl) hfree fun c hc => ?_
      have hstore := h.managerCall a.kind (.inr ⟨a, ha, ht, rfl⟩)
      unfold Owns at hc
      split at hc <;> first | exact hc.elim | exact absurd (by assumption) (hstore _) | exact hc
    | some r =>
      simp only [State.returned]
      split
      · rename_i hpc
        have hloop := h'.move .loop (by simp only [hpc]; exact ManagerPc.noConfusion) hfree
          (fun c th hth => (h'.owns c th hth).move hpc id)
          (statusCurrent_of_move hpc id)
        exact hloop.setOther _ true _ _
      · exact h'
  | clearer => exact (h.release ha (by simp [ht]) hrec hstill hnone).setOther _ _ _ .waiting
  | content c =>
    have h' := h.release ha (by simp [ht]) hrec hstill hnone
    simp only [State.returned]
    split
    · rename_i th r hth
      obtain ⟨⟨b, hbuf, hkind⟩, -⟩ := h.statusCall a.kind (.inr ⟨a, ha, ht, rfl⟩)
      refine h'.painted hnone (hstill.queued ▸ ht ▸ h.once a ha) hth fun hr => ?_
      have htold := h.told a ha
      simp only [Told, hresult r rfl] at htold
      have hshown := (h.recorded.active a ha).shown _ (htold hr (by rw [hkind]; rfl))
      rw [hkind] at hshown
      exact ⟨b, hbuf, hstill.panel.trans hshown⟩
    · exact h'
  | main => exact h.mainReturned ha ht hrec hstill hnone hresult

end Shutdown

end ShareFrame.DisplayProcess
