import ShareFrame.Display.Recorded

/-!
# Calls on the real panel

One step of the active call of a manager that drives the real panel: `next` leaves
the panel and the refreshes as they are and follows the program points in order
(`Follows`), the panel changes only when it accepts a refresh, and a paint returns
true only behind an accepted one (`Told`).
-/

namespace ShareFrame.DisplayManager

variable {τ β : Type}

/-- `displayBuffer`. -/
def Kind.displays : Kind β → Bool
  | .displayBuffer _ _ _ => true
  | _ => false

/-- The functions whose result says whether the buffer was painted. -/
def Kind.paints : Kind β → Bool
  | .displayBuffer _ _ _ => true
  | .paintForShutdown _ _ => true
  | _ => false

/-- In front of the last check of a call. -/
def Pc.waits : Pc β → Bool
  | .interval => true
  | .delaying _ => true
  | .blocked _ => true
  | .stopCheck => true
  | .shutdownCheck => true
  | _ => false

/-- The refresh of the call has begun, or it will have none. -/
def Pc.begun : Pc β → Bool
  | .refreshing _ => true
  | .finishing _ _ => true
  | .settling _ => true
  | .returning _ => true
  | _ => false

/-- The driver is refreshing the panel. -/
def Pc.refreshes : Pc β → Bool
  | .refreshing _ => true
  | _ => false

/-- The statement shows a picture on the mock panel. -/
def Effect.shows : Effect β → Bool
  | .mockPicture _ => true
  | .mockLog _ => true
  | _ => false

/-- What the call will say or says is what the panel did. -/
def Told (a : Active τ β) : Prop :=
  match a.pc with
  | .finishing rest result =>
    (∀ e ∈ rest, e.shows = false) ∧ (result = true → a.accepted = some a.kind.picture)
  | .settling _ => a.kind = .init
  | .returning result =>
    result = true → a.kind.paints = true → a.accepted = some a.kind.picture
  | _ => True

/-- The program points in order. -/
inductive Follows (s : State τ β) (a : Active τ β) : Pc β → Prop where
  | wait {pc : Pc β} : a.pc.waits = true → pc.waits = true → Follows s a pc
  | refused : a.pc.waits = true → Follows s a (.returning false)
  | start : a.pc.waits = true → (a.kind.displays = true → s.shuttingDown = false) → Follows s a .power
  | effect {e : Effect β} {rest : List (Effect β)} {result : Bool} :
    a.pc = .finishing (e :: rest) result → Follows s a (.finishing rest result)
  | behind {result : Bool} : a.pc = .finishing [] result → Follows s a (.returning result)
  | settle {result : Bool} {t : Nat} : a.pc = .finishing [] result → a.kind = .init →
    Follows s a (.settling t)
  | settled {t : Nat} : a.pc = .settling t → Follows s a (.returning true)

/-- A step that shows nothing, starts no refresh and lets no thread in. -/
structure Still (s s' : State τ β) : Prop where
  panel : s'.panel = s.panel
  log : s'.log = s.log
  queued : s'.queued = s.queued
  shuttingDown : s'.shuttingDown = s.shuttingDown

variable {cfg : Config β} {s s' : State τ β} {a : Active τ β}

theorem Effect.still {e : Effect β} (h : e.shows = false) (s : State τ β) :
    Still s (e.exec cfg s) ∧ (e.exec cfg s).active = s.active := by
  cases e with
  | mockPicture p => cases h
  | mockLog p => cases h
  | _ => exact ⟨⟨rfl, rfl, rfl, rfl⟩, rfl⟩

theorem still_powered (s : State τ β) (outcome : PowerOn) (written : Bool) :
    Still s (powered s outcome written) := ⟨by simp, by simp, by simp, by simp⟩

theorem clearHw_eq (hw : cfg.mockDisplay = false) : clearHw cfg = .power := by
  simp [clearHw, send, hw]

theorem sendBufferHw_eq (hw : cfg.mockDisplay = false) (buffer : β) (source : String) :
    sendBufferHw cfg buffer source =
      if cfg.size buffer ≠ BUFFER_SIZE then .returning false else .power := by
  simp [sendBufferHw, send, hw]

/-- The next statement of the active call. -/
theorem next_spec (hw : cfg.mockDisplay = false) (ht : Told a) (h : next cfg s a = some s') :
    Still s s' ∧ ((∃ result, a.pc = .returning result ∧ s'.active = none) ∨
      ∃ pc late, s'.active = some { a with pc, late } ∧ Follows s a pc) := by
  obtain ⟨thread, kind, stop, pc, late, accepted⟩ := a
  cases pc with
  | interval =>
    simp only [next] at h
    split at h
    · cases h
      exact ⟨⟨rfl, rfl, rfl, rfl⟩, .inr ⟨_, _, rfl, .wait rfl rfl⟩⟩
    · cases h
      exact ⟨⟨rfl, rfl, rfl, rfl⟩, .inr ⟨_, _, rfl, .wait rfl rfl⟩⟩
  | delaying remaining =>
    cases h
    exact ⟨⟨rfl, rfl, rfl, rfl⟩, .inr ⟨_, _, rfl, .wait rfl rfl⟩⟩
  | blocked deadline =>
    simp only [next] at h
    split at h
    · cases h
      exact ⟨⟨rfl, rfl, rfl, rfl⟩, .inr ⟨_, _, rfl, .wait rfl rfl⟩⟩
    · cases h
  | stopCheck =>
    simp only [next] at h
    split at h
    · cases h
      exact ⟨⟨rfl, rfl, rfl, rfl⟩, .inr ⟨_, _, rfl, .refused rfl⟩⟩
    · split at h
      · cases h
        exact ⟨⟨rfl, rfl, rfl, rfl⟩, .inr ⟨_, _, rfl, .wait rfl rfl⟩⟩
      · rename_i hkind
        rw [clearHw_eq hw] at h
        cases h
        refine ⟨⟨rfl, rfl, rfl, rfl⟩, .inr ⟨_, _, rfl, .start rfl fun hd => ?_⟩⟩
        cases kind with
        | displayBuffer b src policy => exact absurd rfl (hkind b src policy)
        | _ => cases hd
  | shutdownCheck =>
    simp only [next] at h
    split at h
    · cases h
      exact ⟨⟨rfl, rfl, rfl, rfl⟩, .inr ⟨_, _, rfl, .refused rfl⟩⟩
    · rename_i hdown
      split at h
      · rw [sendBufferHw_eq hw] at h
        cases h
        split
        · exact ⟨⟨rfl, rfl, rfl, rfl⟩, .inr ⟨_, _, rfl, .refused rfl⟩⟩
        · exact ⟨⟨rfl, rfl, rfl, rfl⟩, .inr ⟨_, _, rfl, .start rfl fun _ => by simpa using hdown⟩⟩
      · cases h
  | initPower => cases h
  | power => cases h
  | refreshing t0 => cases h
  | finishing rest result =>
    cases rest with
    | nil =>
      cases h
      simp only [leave]
      split
      · exact ⟨⟨rfl, rfl, rfl, rfl⟩, .inr ⟨_, _, rfl, .settle rfl rfl⟩⟩
      · exact ⟨⟨rfl, rfl, rfl, rfl⟩, .inr ⟨_, _, rfl, .behind rfl⟩⟩
    | cons e rest =>
      cases h
      obtain ⟨hstill, hactive⟩ := @Effect.still _ _ cfg _ (ht.1 e List.mem_cons_self)
        { s with active := some ⟨thread, kind, stop, .finishing rest result, late, accepted⟩ }
      exact ⟨⟨hstill.panel, hstill.log, hstill.queued, hstill.shuttingDown⟩,
        .inr ⟨_, _, hactive, .effect rfl⟩⟩
  | settling t =>
    simp only [next] at h
    split at h
    · cases h
      exact ⟨⟨rfl, rfl, rfl, rfl⟩, .inr ⟨_, _, rfl, .settled rfl⟩⟩
    · cases h
  | returning result =>
    cases h
    exact ⟨⟨rfl, rfl, rfl, rfl⟩, .inl ⟨result, rfl, rfl⟩⟩

/-- `_hwInit` ends with the panel ready: behind it the call refreshes, unless its metrics write
threw. -/
theorem power_spec (hw : cfg.mockDisplay = false) {written : Bool}
    (h : power cfg s a .ready written = some s') :
    (a.pc = .initPower ∨ a.pc = .power) ∧ Still { s with log := s'.log } s' ∧
      ((written = false ∧ s'.log = s.log ∧ s'.active = none) ∨
        (a.pc = .initPower ∧ s'.log = s.log ∧ s'.active = some { a with pc := .power }) ∨
        (a.pc = .power ∧ s'.active = some { a with pc := .refreshing s.now } ∧
          s'.log = { kind := a.kind, start := s.now, late := a.late } :: s.log)) := by
  obtain ⟨hpanel, -, hqueued, hdown⟩ := still_powered s .ready written
  have hlog := powered_log s .ready written
  simp only [power, reduceCtorEq, false_and, if_false, if_true] at h
  split at h
  · rename_i hpc
    split at h
    · rename_i hw'
      cases h
      exact ⟨.inl hpc, ⟨hpanel, rfl, hqueued, hdown⟩, .inl ⟨by simpa using hw', hlog, rfl⟩⟩
    · rw [clearHw_eq hw] at h
      cases h
      exact ⟨.inl hpc, ⟨hpanel, rfl, hqueued, hdown⟩, .inr (.inl ⟨hpc, hlog, rfl⟩)⟩
  · rename_i hpc
    split at h
    · rename_i hw'
      cases h
      exact ⟨.inr hpc, ⟨hpanel, rfl, hqueued, hdown⟩, .inl ⟨by simpa using hw', hlog, rfl⟩⟩
    · cases h
      exact ⟨.inr hpc, ⟨hpanel, rfl, hqueued, hdown⟩, .inr (.inr ⟨hpc, rfl, rfl⟩)⟩
  · cases h

/-- The panel accepts the refresh. -/
theorem refreshed_spec (h : refreshed s a true = some s') :
    ∃ t0, a.pc = .refreshing t0 ∧ s'.panel = some a.kind.picture ∧ s'.queued = s.queued ∧
      s'.shuttingDown = s.shuttingDown ∧ s'.log.length = s.log.length ∧
      ∃ ms, s'.active = some { a with
        pc := .finishing (acceptedRefresh a.kind.picture ms) true
        accepted := some a.kind.picture } := by
  simp only [refreshed, if_true] at h
  split at h
  · rename_i t0 hpc
    cases h
    refine ⟨t0, hpc, rfl, rfl, rfl, ?_, _, rfl⟩
    change (endRefresh s.now s.log).length = s.log.length
    cases s.log <;> rfl
  · cases h

/-! ## What the points say -/

theorem Follows.begun {pc : Pc β} (h : Follows s a pc) (hb : a.pc.begun = true) : pc.begun = true := by
  have hwaits : a.pc.waits = false := by
    cases hpc : a.pc <;> rw [hpc] at hb <;> first | rfl | cases hb
  cases h with
  | wait hw _ => rw [hwaits] at hw; cases hw
  | start hw _ => rw [hwaits] at hw; cases hw
  | _ => rfl

/-- Once a shutdown is requested a pending `displayBuffer` starts nothing. -/
theorem Follows.waits {pc : Pc β} (h : Follows s a pc) (hd : a.kind.displays = true)
    (hdown : s.shuttingDown = true) (hw : a.pc.waits = true) :
    pc.waits = true ∨ pc.begun = true := by
  cases h with
  | wait _ h' => exact .inl h'
  | refused => exact .inr rfl
  | start _ hrun => exact absurd ((hrun hd).symm.trans hdown) (by decide)
  | effect hpc | behind hpc | settle hpc | settled hpc => rw [hpc] at hw; cases hw

theorem Follows.refreshes {pc : Pc β} (h : Follows s a pc) : pc.refreshes = false := by
  cases h with
  | wait _ hw => cases pc <;> first | rfl | cases hw
  | _ => rfl

theorem Follows.told {pc : Pc β} (h : Follows s a pc) (ht : Told a) (late : Bool) :
    Told { a with pc, late } := by
  cases h with
  | wait _ hw => cases pc <;> trivial
  | refused => exact fun hfalse => by cases hfalse
  | start => trivial
  | effect hpc =>
    simp only [Told, hpc] at ht
    exact ⟨fun e he => ht.1 e (List.mem_cons_of_mem _ he), ht.2⟩
  | behind hpc =>
    simp only [Told, hpc] at ht
    exact fun hr _ => ht.2 hr
  | settle _ hinit => exact hinit
  | settled hpc =>
    simp only [Told, hpc] at ht
    exact fun _ hp => by simp only [ht] at hp; cases hp

theorem told_enter (hw : cfg.mockDisplay = false) (t : τ) (kind : Kind β) (stop : Bool) :
    Told { thread := t, kind, stop, pc := enter cfg s kind } ∧ (enter cfg s kind).refreshes = false := by
  cases kind with
  | init => simp [enter, hw, Told, Pc.refreshes]
  | clear => exact ⟨trivial, rfl⟩
  | clearForShutdown =>
    simp only [enter, clearHw_eq hw]
    split
    · exact ⟨fun _ hp => (by cases hp), rfl⟩
    · exact ⟨trivial, rfl⟩
  | displayBuffer buffer source policy =>
    simp only [enter]
    split <;> exact ⟨trivial, rfl⟩
  | paintForShutdown buffer source =>
    simp only [enter, sendBufferHw_eq hw]
    split
    · exact ⟨fun hfalse => (by cases hfalse), rfl⟩
    · exact ⟨trivial, rfl⟩

theorem enter_waits {kind : Kind β} (h : kind.displays = true) : (enter cfg s kind).waits = true := by
  cases kind with
  | displayBuffer buffer source policy => simp only [enter]; split <;> rfl
  | _ => cases h

theorem told_accepted (a : Active τ β) (ms : Int) :
    Told { a with
      pc := .finishing (acceptedRefresh a.kind.picture ms) true
      accepted := some a.kind.picture } :=
  ⟨by simp [acceptedRefresh, Effect.shows], fun _ => rfl⟩

end ShareFrame.DisplayManager
