import ShareFrame.Display.Shutdown.Invariant

/-!
# The calls around a shutdown

The steps inside a call of the display manager keep the invariant of the shutdown:
time, the lock, the statements of the active call, the panel's answers and the
exceptions of the metrics writes.
-/

namespace ShareFrame.DisplayProcess

open DisplayManager (Kind Config Active Pc Picture Follows Still Told BUFFER_SIZE)
open DisplayTaskManager (DisplayState Content Stage)

variable {β : Type}

namespace Shutdown

variable {cfg : Config β} {s s' : State β}

/-- Once the shutdown is requested only `main` powers the panel up. -/
theorem Inv.powering (h : Inv cfg s) {a : Active Thread β} (ha : s.display.active = some a)
    (hpc : a.pc = .initPower ∨ a.pc = .power) (hm : s.mainPc ≠ .running) : a.thread = .main := by
  by_cases ht : a.thread = .main
  · exact ht
  · obtain hb | ⟨-, hb⟩ := (h.closed hm).active a ha ht <;>
      obtain hpc | hpc := hpc <;> rw [hpc] at hb <;> cases hb

/-- The final refresh has not begun while the active call powers the panel up. -/
theorem Inv.after_nil (h : Inv cfg s) {a : Active Thread β} (ha : s.display.active = some a)
    (hpc : a.pc = .initPower ∨ a.pc = .power) : s.after = [] := by
  refine h.after.resolve_right fun ⟨hbegun, _⟩ => ?_
  have hrun : s.mainPc ≠ .running := by
    rintro hrun
    obtain hf | hf | ⟨b, hb, htb, -⟩ := hbegun
    · rw [hrun] at hf; cases hf
    · rw [hrun] at hf; cases hf
    · have := (h.mainCall b.kind (.inr ⟨b, hb, htb, rfl⟩)).gone
      rw [hrun] at this
      exact this
  have hfinal := h.mainCall a.kind (.inr ⟨a, ha, h.powering ha hpc hrun, rfl⟩)
  obtain hf | hf | ⟨b, hb, -, hbeg⟩ := hbegun
  · obtain ⟨hp, -⟩ | ⟨hp, -⟩ := hfinal <;> rw [hp] at hf <;> cases hf
  · obtain ⟨hp, -⟩ | ⟨hp, -⟩ := hfinal <;> rw [hp] at hf <;> cases hf
  · rw [ha] at hb
    cases hb
    obtain hpc | hpc := hpc <;> rw [hpc] at hbeg <;> cases hbeg

theorem FinalCall.kind {k : Kind β} (h : FinalCall s k) :
    k = .clearForShutdown ∨ ∃ b src, k = .paintForShutdown b src := by
  obtain ⟨-, -, b, -, hk⟩ | ⟨-, -, hk⟩ := h
  · exact .inr ⟨b, _, hk⟩
  · exact .inl hk

/-- The panel is powered up: `init` goes on to its clear, any other call to its refresh. -/
theorem Inv.powered (h : Inv cfg s) {a : Active Thread β} (ha : s.display.active = some a)
    (hpc : a.pc = .initPower ∨ a.pc = .power) {d : DisplayManager.State Thread β} {pc : Pc β}
    (hnext : (a.pc = .initPower ∧ pc = .power) ∨ pc = .refreshing s.display.now)
    (hrec : DisplayManager.Recorded.Inv d) (hpanel : d.panel = s.display.panel)
    (hqueued : d.queued = s.display.queued) (hdown : d.shuttingDown = s.display.shuttingDown)
    (hactive : d.active = some { a with pc }) {after : List (Kind β)}
    (hafter : after = [] ∨ (s.mainPc ≠ .running ∧ pc = .refreshing s.display.now ∧ after = [a.kind])) :
    Inv cfg { s with display := d, after } := by
  have hact : ∀ b, d.active = some b → b = { a with pc } := fun b hb => by
    rw [hactive] at hb
    exact (Option.some.inj hb).symm
  have hmain : ∀ b, d.active = some b → s.mainPc ≠ .running → b.thread = .main := fun b hb hm => by
    have ht := h.powering ha hpc hm
    rw [hact b hb]
    exact ht
  refine h.withDisplay (fun t k stop hq => ⟨stop, hqueued ▸ hq⟩) (fun b hb => ?_) hrec hdown
    (fun b hb => ?_) (fun b hb _ => ?_) (fun hm b hb ht => absurd (hmain b hb hm) ht)
    (fun hm hc hr => ?_) ?_ fun hfin => ?_
  · rw [hact b hb]
    exact ⟨a, ha, rfl, rfl⟩
  · rw [hact b hb]
    obtain ⟨-, rfl⟩ | rfl := hnext <;> trivial
  · rw [hact b hb]
    obtain ⟨-, rfl⟩ | rfl := hnext <;> trivial
  · obtain ⟨⟨b, hbuf, hshow⟩, -⟩ := (h.closed hm).up hc hr
    exact ⟨⟨b, hbuf, hpanel.trans hshow⟩, fun b hb ht => absurd (hmain b hb hm) ht⟩
  · refine hafter.imp_right fun ⟨hm, hpc', hk⟩ => ?_
    have ht := h.powering ha hpc hm
    exact ⟨.inr (.inr ⟨_, hactive, ht, by simp only [hpc']; rfl⟩), a.kind, hk,
      (h.mainCall a.kind (.inr ⟨a, ha, ht, rfl⟩)).kind⟩
  · have hfinal := h.mainCall a.kind
      (.inr ⟨a, ha, h.powering ha hpc (by rw [hfin]; exact MainPc.noConfusion), rfl⟩)
    obtain ⟨hp, -⟩ | ⟨hp, -⟩ := hfinal <;> rw [hfin] at hp <;> cases hp

/-- The panel accepts the refresh of the active call. -/
theorem Inv.accepted (h : Inv cfg s) {a : Active Thread β} (ha : s.display.active = some a)
    {t0 : Nat} (hpc : a.pc = .refreshing t0) {d : DisplayManager.State Thread β}
    (hrec : DisplayManager.Recorded.Inv d) (hpanel : d.panel = some a.kind.picture)
    (hqueued : d.queued = s.display.queued) (hdown : d.shuttingDown = s.display.shuttingDown)
    {ms : Int} (hactive : d.active = some { a with
      pc := .finishing (DisplayManager.acceptedRefresh a.kind.picture ms) true
      accepted := some a.kind.picture }) : Inv cfg { s with display := d } := by
  have hact : ∀ {p : Active Thread β → Prop}, p { a with
      pc := .finishing (DisplayManager.acceptedRefresh a.kind.picture ms) true
      accepted := some a.kind.picture } → ∀ b, d.active = some b → p b := fun hp b hb => by
    rw [hactive] at hb
    cases hb
    exact hp
  refine h.withDisplay (fun t k stop hq => ⟨stop, hqueued ▸ hq⟩) (hact ⟨a, ha, rfl, rfl⟩) hrec hdown
    (hact (DisplayManager.told_accepted a ms)) (hact fun _ => ⟨rfl, hpanel⟩)
    (fun _ => hact fun _ => .inl rfl) (fun hm hc hr => ⟨?_, hact fun _ => rfl⟩) ?_ fun hf => ?_
  · -- the status screen stays up, so the refresh is the final one of `main`
    obtain ⟨-, hidle⟩ := (h.closed hm).up hc hr
    by_cases ht : a.thread = .main
    · have hfinal := h.mainCall a.kind (.inr ⟨a, ha, ht, rfl⟩)
      have hexited := h.gone hfinal.gone
      obtain ⟨-, -, b, hbuf, hk⟩ | ⟨-, hst, -⟩ := hfinal
      · exact ⟨b, hbuf, hpanel.trans (by rw [hk]; rfl)⟩
      · have hcur : State.StatusCurrent s := hc
        rw [State.StatusCurrent, hexited] at hcur
        exact absurd hcur hst
    · have := hidle a ha ht
      rw [hpc] at this
      cases this
  · refine h.after.imp_right fun hk => ⟨hk.1.imp_right (Or.imp_right ?_), hk.2⟩
    rintro ⟨b, hb, htb, -⟩
    rw [ha] at hb
    cases hb
    exact ⟨_, hactive, htb, rfl⟩
  · have := (h.finished hf).2 a ha
    rw [hpc] at this
    cases this

theorem inside_eq {act : DisplayManager.Act Thread β} {d : DisplayManager.State Thread β}
    (hd : DisplayManager.step cfg s.display act = some d)
    (hlog : d.log.length = s.display.log.length) (hs : s.inside cfg act = some s') :
    s' = match ended s.display d with
      | some (t, result) => State.returned { s with display := d } t result
      | none => { s with display := d } := by
  simp only [State.inside, hd, Option.map_some, hlog, ne_eq, not_true_eq_false, decide_false,
    Bool.and_false, Bool.false_eq_true, if_false, Option.some.injEq] at hs
  exact hs.symm

theorem ended_none {d d' : DisplayManager.State Thread β}
    (h : d.active = none ∨ d'.active ≠ none) : ended d d' = none := by
  unfold ended
  split
  · rename_i a ha hnone
    rcases h with h | h
    · rw [h] at ha
      cases ha
    · exact absurd hnone h
  · rfl

theorem ended_returning {d d' : DisplayManager.State Thread β} {a : Active Thread β} {r : Bool}
    (ha : d.active = some a) (hpc : a.pc = .returning r) (hnone : d'.active = none) :
    ended d d' = some (a.thread, some r) := by
  simp only [ended, ha, hnone, hpc]

theorem ended_thrown {d d' : DisplayManager.State Thread β} {a : Active Thread β}
    (ha : d.active = some a) (hpc : ∀ r, a.pc ≠ .returning r) (hnone : d'.active = none) :
    ended d d' = some (a.thread, none) := by
  unfold ended
  rw [ha, hnone]
  cases hp : a.pc with
  | returning r => exact absurd hp (hpc r)
  | _ => simp only [hp]

theorem acquire_spec {t : Thread} {d d' : DisplayManager.State Thread β}
    (h : DisplayManager.step cfg d (.acquire t) = some d') : d.active = none ∧ d'.log = d.log := by
  simp only [DisplayManager.step] at h
  split at h
  · rename_i hactive
    cases h
    exact ⟨hactive, rfl⟩
  · cases h

theorem Inv.next (hw : cfg.mockDisplay = false) (h : Inv cfg s)
    (hs : s.inside cfg .next = some s') : Inv cfg s' := by
  obtain ⟨d, hd, -⟩ := Option.map_eq_some_iff.1 hs
  have hrec := recorded_step h.recorded (by simp) hd
  obtain ⟨a, ha, hnext⟩ := Option.bind_eq_some_iff.1 hd
  obtain ⟨hstill, hcase⟩ := DisplayManager.next_spec hw (h.told a ha) hnext
  rw [inside_eq hd (by rw [hstill.log]) hs]
  obtain ⟨r, hpc, hnone⟩ | ⟨pc, late, hactive, hf⟩ := hcase
  · rw [ended_returning ha hpc hnone]
    refine h.callEnded ha hrec hstill hnone (fun r' hr => ?_) fun _ hr => by cases hr
    cases hr
    exact hpc
  · rw [ended_none (.inr (by rw [hactive]; simp))]
    exact h.follow ha hf hrec hstill hactive

theorem Inv.power (hw : cfg.mockDisplay = false) (h : Inv cfg s) {written : Bool}
    (hrun : s.mainPc ≠ .running → written = false →
      ∀ a, s.display.active = some a → a.thread ≠ .manager)
    (hs : s.inside cfg (.power .ready written) = some s') : Inv cfg s' := by
  obtain ⟨d, hd, hs'⟩ := Option.map_eq_some_iff.1 hs
  have hrec := recorded_step h.recorded (by simp) hd
  obtain ⟨a, ha, hpower⟩ := Option.bind_eq_some_iff.1 hd
  obtain ⟨hpc, ⟨hpanel, -, hqueued, hdown⟩, hcase⟩ := DisplayManager.power_spec hw hpower
  have hnil := h.after_nil ha hpc
  obtain ⟨rfl, hlog, hnone⟩ | ⟨hinit, hlog, hactive⟩ | ⟨hpow, hactive, hlog⟩ := hcase
  · rw [inside_eq hd (by rw [hlog]) hs,
      ended_thrown ha (fun r hr => by obtain hpc | hpc := hpc <;> rw [hpc] at hr <;> cases hr) hnone]
    refine h.callEnded ha hrec ⟨hpanel, hlog, hqueued, hdown⟩ hnone (fun _ hr => by cases hr)
      fun ht _ => ?_
    by_cases hm : s.mainPc = .running
    · exact hm
    · exact absurd ht (hrun hm rfl a ha)
  · rw [inside_eq hd (by rw [hlog]) hs, ended_none (.inr (by rw [hactive]; simp))]
    exact h.powered ha hpc (.inl ⟨hinit, rfl⟩) hrec hpanel hqueued hdown hactive (.inl hnil)
  · have hend : ended s.display d = none := ended_none (.inr (by rw [hactive]; simp))
    have hlen : d.log.length ≠ s.display.log.length := by rw [hlog]; simp
    simp only [hend, hnil, hlen, ne_eq, not_false_eq_true, decide_true, Bool.and_true] at hs'
    rw [← hs']
    refine h.powered ha hpc (.inr rfl) hrec hpanel hqueued hdown hactive ?_
    cases hsd : s.display.shuttingDown with
    | false => exact .inl (by simp)
    | true => exact .inr ⟨h.down.1 hsd, rfl, by simp [hlog]⟩

theorem Inv.refreshed (h : Inv cfg s) (hs : s.inside cfg (.refreshed true) = some s') :
    Inv cfg s' := by
  obtain ⟨d, hd, -⟩ := Option.map_eq_some_iff.1 hs
  have hrec := recorded_step h.recorded (by simp) hd
  obtain ⟨a, ha, hrefreshed⟩ := Option.bind_eq_some_iff.1 hd
  obtain ⟨t0, hpc, hpanel, hqueued, hdown, hlog, ms, hactive⟩ :=
    DisplayManager.refreshed_spec hrefreshed
  rw [inside_eq hd hlog hs, ended_none (.inr (by rw [hactive]; simp))]
  exact h.accepted ha hpc hrec hpanel hqueued hdown hactive

theorem Inv.throws (h : Inv cfg s)
    (hG : DisplayManager.Recorded.Recording Thread β s.display .throws)
    (hrun : s.mainPc ≠ .running → ∀ a, s.display.active = some a → a.thread ≠ .manager)
    (hs : s.inside cfg .throws = some s') : Inv cfg s' := by
  obtain ⟨d, hd, -⟩ := Option.map_eq_some_iff.1 hs
  have hrec := (DisplayManager.Recorded.inductive_inv cfg).step _ _ d h.recorded hG hd
  obtain ⟨a, ha, hthrows⟩ := Option.bind_eq_some_iff.1 hd
  have hpc : ∀ r, a.pc ≠ .returning r := fun r hr => by
    simp only [DisplayManager.throws, hr] at hthrows
    cases hthrows
  have hd' := DisplayManager.Recorded.throws_eq hthrows
  rw [inside_eq hd (by rw [hd']) hs, ended_thrown ha hpc (by rw [hd'])]
  refine h.callEnded ha hrec (by rw [hd']; exact ⟨rfl, rfl, rfl, rfl⟩) (by rw [hd'])
    (fun _ hr => by cases hr) fun ht _ => ?_
  by_cases hm : s.mainPc = .running
  · exact hm
  · exact absurd ht (hrun hm a ha)

theorem Inv.display (hw : cfg.mockDisplay = false) (h : Inv cfg s)
    {act : DisplayManager.Act Thread β} (hG : Orderly s (.display act))
    (hs : step cfg s (.display act) = some s') : Inv cfg s' := by
  simp only [step] at hs
  split at hs
  · rename_i hint
    cases act with
    | tick ticks =>
      obtain ⟨d, hd, -⟩ := Option.map_eq_some_iff.1 hs
      have heq := inside_eq hd (by cases hd; rfl) hs
      cases hd
      rw [heq, ended_none ?_]
      · exact h.tick ticks
      · cases ha : s.display.active with
        | none => exact .inl rfl
        | some a => exact .inr (by simp)
    | acquire t =>
      obtain ⟨d, hd, -⟩ := Option.map_eq_some_iff.1 hs
      obtain ⟨hfree, hlog⟩ := acquire_spec hd
      rw [inside_eq hd (by rw [hlog]) hs, ended_none (.inl hfree)]
      exact h.acquire hw hd
    | next => exact h.next hw hs
    | power outcome written =>
      obtain rfl := eq_of_beq hG.accepts
      exact h.power hw (fun hm hwr => (hG.noThrow hm).2 (by rw [hwr]; rfl)) hs
    | refreshed accepted =>
      cases accepted with
      | false => cases hG.accepts
      | true => exact h.refreshed hs
    | throws => exact h.throws (hG.records rfl) (fun hm => (hG.noThrow hm).2 rfl) hs
    | call t kind stop => cases hint
    | requestStop t => cases hint
    | requestShutdown => cases hint
  · cases hs

end Shutdown

end ShareFrame.DisplayProcess
