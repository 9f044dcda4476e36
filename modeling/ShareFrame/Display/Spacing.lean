import ShareFrame.Display.DisplayManager

/-!
# Refreshes keep their distance

Every refresh of the panel stamps `_lastDisplayTime` behind its end, also one that
failed; no statement that can throw stands in front of the stamp. `clear` and
`displayBuffer` wait under the lock until the interval after that stamp is over,
so before a shutdown they start no refresh too early.
-/

namespace ShareFrame.DisplayManager

variable {τ β : Type}

/-- The calls that wait for the min refresh interval. -/
def Kind.keepsInterval : Kind β → Bool
  | .clear => true
  | .displayBuffer _ _ .respectMinInterval => true
  | _ => false

namespace Spacing

variable (cfg : Config β)

/-- The later refresh started the whole interval after the end of the earlier one, if its call waits
for the interval. -/
def Spaced (later earlier : Refresh β) : Prop :=
  later.kind.keepsInterval = true →
    ∃ e : Nat, earlier.finish = some e ∧ (e : Int) + cfg.minRefresh ≤ later.start

/-- The refresh has ended, at `t` at the latest. -/
def EndedBy (t : Int) (r : Refresh β) : Prop := ∃ e : Nat, r.finish = some e ∧ (e : Int) ≤ t

/-- Every refresh is covered by the stamp. -/
def Stamped (s : State τ β) : Prop := ∀ r ∈ s.log, EndedBy s.lastDisplayTime r

/-- The interval is over. -/
def Due (s : State τ β) : Prop := s.lastDisplayTime + cfg.minRefresh ≤ s.now

/-- A call that waits has waited. -/
def MayStart (s : State τ β) (a : Active τ β) : Prop :=
  Stamped s ∧ (a.kind.keepsInterval = true → Due cfg s) ∧ a.late = false

/-- What holds at a point of the active call. -/
def At (s : State τ β) (a : Active τ β) : Prop :=
  match a.pc with
  | .interval => Stamped s
  | .delaying remaining => Stamped s ∧ s.lastDisplayTime + cfg.minRefresh ≤ s.now + remaining
  | .blocked deadline => Stamped s ∧ s.lastDisplayTime + cfg.minRefresh ≤ deadline
  | .stopCheck =>
    Stamped s ∧ (a.late = true → a.stop = true)
      ∧ (a.kind.keepsInterval = true → a.stop = false → Due cfg s)
  | .shutdownCheck => MayStart cfg s a
  | .initPower => MayStart cfg s a
  | .power => MayStart cfg s a
  | .refreshing _ =>
    ∃ r rs, s.log = r :: rs ∧ (∀ q ∈ rs, EndedBy s.lastDisplayTime q)
  | .finishing rest _ =>
    Stamped s ∨ (rest.head? = some .stamp ∧ ∀ r ∈ s.log, EndedBy s.now r)
  | .settling _ => Stamped s
  | .returning _ => Stamped s

structure Inv (s : State τ β) : Prop where
  spaced : s.log.Pairwise (Spaced cfg)
  intime : ∀ r ∈ s.log, r.late = false
  before : ∀ r ∈ s.log, ∀ e, r.finish = some e → e ≤ s.now
  running : s.shuttingDown = false
  idle : s.active = none → Stamped s
  at' : ∀ a, s.active = some a → At cfg s a

variable {cfg}

theorem EndedBy.mono {t u : Int} (htu : t ≤ u) {r : Refresh β} (h : EndedBy t r) : EndedBy u r :=
  let ⟨e, he, hle⟩ := h
  ⟨e, he, Int.le_trans hle htu⟩

theorem Stamped.ended {s : State τ β} (h : Stamped s)
    (hbefore : ∀ r ∈ s.log, ∀ e, r.finish = some e → e ≤ s.now) : ∀ r ∈ s.log, EndedBy s.now r :=
  fun r hr =>
    let ⟨e, he, _⟩ := h r hr
    ⟨e, he, by have := hbefore r hr e he; omega⟩

theorem At.stamped {s : State τ β} {a : Active τ β} (h : At cfg s a)
    (hne : ∀ t, a.pc ≠ .refreshing t) (hhead : ∀ rest r, a.pc ≠ .finishing (.stamp :: rest) r) :
    Stamped s := by
  obtain ⟨thread, kind, stop, pc, late, accepted⟩ := a
  cases pc with
  | refreshing t => exact absurd rfl (hne t)
  | finishing rest r =>
    refine h.resolve_right fun hstamp => ?_
    cases rest with
    | nil => exact absurd hstamp.1 (by simp)
    | cons e rest =>
      obtain ⟨hhd, -⟩ := hstamp
      simp only [List.head?_cons, Option.some.injEq] at hhd
      exact hhead rest r (by rw [hhd])
  | interval => exact h
  | settling t => exact h
  | returning r => exact h
  | _ => exact h.1

theorem MayStart.stamped {s : State τ β} {a : Active τ β} (h : MayStart cfg s a) : Stamped s := h.1

/-- Behind the checks, with the panel or with the mock. -/
theorem MayStart.at_send {s : State τ β} {a : Active τ β} (h : MayStart cfg s a) (p : Picture β) :
    At cfg s { a with pc := send cfg p } := by
  unfold send
  split
  · exact .inl h.stamped
  · exact h

theorem MayStart.at_sendBufferHw {s : State τ β} {a : Active τ β} (h : MayStart cfg s a)
    (buffer : β) (source : String) : At cfg s { a with pc := sendBufferHw cfg buffer source } := by
  unfold sendBufferHw
  split
  · exact h.stamped
  · exact h.at_send _

theorem Stamped.at_leave {s : State τ β} (h : Stamped s) (b a : Active τ β) (result : Bool) :
    At cfg s { a with pc := leave cfg s b result } := by
  unfold leave
  split <;> exact h

/-- A call that has just taken the lock. -/
theorem Stamped.at_enter {s : State τ β} (h : Stamped s) (t : τ) (kind : Kind β) (stop : Bool) :
    At cfg s { thread := t, kind, stop, pc := enter cfg s kind } := by
  have hfree : ∀ k : Kind β, k.keepsInterval = false →
      ∀ pc, MayStart cfg s { thread := t, kind := k, stop, pc } :=
    fun k hk pc => ⟨h, fun hkeep => absurd hkeep (by simp [hk]), rfl⟩
  cases kind with
  | init =>
    simp only [enter]
    split
    · exact (hfree .init rfl .power).at_send _
    · exact hfree .init rfl _
  | clear => exact h
  | clearForShutdown =>
    simp only [enter]
    split
    · exact h
    · exact (hfree .clearForShutdown rfl .power).at_send _
  | displayBuffer buffer source policy =>
    simp only [enter]
    split
    · rename_i himm
      subst himm
      exact ⟨h, fun hlate => absurd hlate (by simp), fun hkeep => absurd hkeep (by simp [Kind.keepsInterval])⟩
    · exact h
  | paintForShutdown buffer source =>
    exact (hfree (.paintForShutdown buffer source) rfl .power).at_sendBufferHw buffer source

/-! ## One step -/

theorem At.congr {s s' : State τ β} {a : Active τ β} (h : At cfg s a) (hlog : s'.log = s.log)
    (hlast : s'.lastDisplayTime = s.lastDisplayTime) (hnow : s'.now = s.now) : At cfg s' a := by
  cases s
  cases s'
  simp only at hlog hlast hnow
  subst hlog hlast hnow
  exact h

/-- A step that leaves the log and the times as they are. -/
theorem Inv.of_same {s s' : State τ β} (h : Inv cfg s) (hlog : s'.log = s.log)
    (hlast : s'.lastDisplayTime = s.lastDisplayTime) (hnow : s'.now = s.now)
    (hdown : s'.shuttingDown = s.shuttingDown) (hidle : s'.active = none → Stamped s)
    (hat : ∀ a, s'.active = some a → At cfg s a) : Inv cfg s' where
  spaced := hlog ▸ h.spaced
  intime := hlog ▸ h.intime
  before := by rw [hlog, hnow]; exact h.before
  running := hdown ▸ h.running
  idle hnone := by
    intro r hr
    rw [hlast]
    exact hidle hnone r (hlog ▸ hr)
  at' a ha := (hat a ha).congr hlog hlast hnow

theorem Inv.goto {s : State τ β} (h : Inv cfg s) {a : Active τ β} {pc : Pc β}
    (hat : At cfg s { a with pc }) : Inv cfg (s.goto a pc) := by
  refine h.of_same rfl rfl rfl rfl (fun hnone => by cases hnone) ?_
  rintro _ ⟨⟩
  exact hat

/-- The wait for the interval ends. -/
theorem Inv.endWait {s : State τ β} (h : Inv cfg s) (a : Active τ β) (hstamp : Stamped s)
    (hdue : a.stop = false → Due cfg s) :
    Inv cfg { s with active := some { a with pc := .stopCheck, late := a.stop } } := by
  refine h.of_same rfl rfl rfl rfl (fun hnone => by cases hnone) ?_
  rintro _ ⟨⟩
  exact ⟨hstamp, fun hlate => hlate, fun _ => hdue⟩

theorem Inv.release {s : State τ β} (h : Inv cfg s) (hstamp : Stamped s) :
    Inv cfg { s with active := none } :=
  h.of_same rfl rfl rfl rfl (fun _ => hstamp) fun _ ha => by cases ha

theorem Inv.exec {s : State τ β} (h : Inv cfg s) {a : Active τ β} {e : Effect β}
    {rest : List (Effect β)} {result : Bool} (ha : s.active = some a)
    (hpc : a.pc = .finishing (e :: rest) result) :
    Inv cfg (e.exec cfg { s with active := some { a with pc := .finishing rest result } }) := by
  have hat := h.at' a ha
  by_cases hstamp : e = .stamp
  · subst hstamp
    have hended : ∀ r ∈ s.log, EndedBy s.now r := by
      simp only [At, hpc] at hat
      exact hat.elim (·.ended h.before) (·.2)
    exact ⟨h.spaced, h.intime, h.before, h.running, fun _ => hended, fun b hb => by
      cases hb
      exact .inl hended⟩
  · have hstamped : Stamped s := hat.stamped (fun t => by simp [hpc])
      fun rest' r heq => by
        rw [hpc] at heq
        cases heq
        exact hstamp rfl
    have hfin : ∀ acc, At cfg s { a with pc := .finishing rest result, accepted := acc } :=
      fun _ => .inl hstamped
    cases e with
    | stamp => exact absurd rfl hstamp
    | mockPicture p | mockLog p =>
      refine h.of_same rfl rfl rfl rfl (fun hnone => by cases hnone) ?_
      rintro _ ⟨⟩
      exact hfin _
    | _ =>
      refine h.of_same rfl rfl rfl rfl (fun hnone => by cases hnone) ?_
      rintro _ ⟨⟩
      exact hfin _

theorem Inv.next {s s' : State τ β} (h : Inv cfg s) {a : Active τ β} (ha : s.active = some a)
    (hs : DisplayManager.next cfg s a = some s') : Inv cfg s' := by
  have hat := h.at' a ha
  obtain ⟨thread, kind, stop, pc, late, accepted⟩ := a
  cases pc with
  | interval =>
    simp only [DisplayManager.next] at hs
    split at hs
    · cases hs
      refine h.endWait ⟨thread, kind, stop, .interval, late, accepted⟩ hat fun _ => ?_
      simp only [Due]
      omega
    · cases hs
      refine h.goto ⟨hat, ?_⟩
      omega
  | delaying remaining =>
    cases hs
    exact h.goto hat
  | blocked deadline =>
    simp only [DisplayManager.next] at hs
    split at hs
    · rename_i hends
      cases hs
      refine h.endWait ⟨thread, kind, stop, .blocked deadline, late, accepted⟩ hat.1 fun hstop => ?_
      simp only at hstop
      simp only [h.running, hstop, Bool.false_eq_true, false_or] at hends
      exact Int.le_trans hat.2 hends
    · cases hs
  | stopCheck =>
    simp only [DisplayManager.next] at hs
    obtain ⟨hstamp, hlate, hdue⟩ := hat
    split at hs
    · cases hs
      exact h.goto hstamp
    · rename_i hstop
      simp only [Bool.not_eq_true] at hstop
      have hmay : ∀ pc, MayStart cfg s ⟨thread, kind, stop, pc, late, accepted⟩ := fun pc => by
        refine ⟨hstamp, fun hkeep => hdue hkeep hstop, ?_⟩
        cases late with
        | false => rfl
        | true => exact absurd (hlate rfl) (by simp [hstop])
      split at hs
      · cases hs
        exact h.goto (hmay _)
      · cases hs
        exact h.goto ((hmay .power).at_send _)
  | shutdownCheck =>
    simp only [DisplayManager.next] at hs
    split at hs
    · cases hs
      exact h.goto (MayStart.stamped hat)
    · split at hs
      · cases hs
        exact h.goto (MayStart.at_sendBufferHw hat _ _)
      · cases hs
  | initPower => cases hs
  | power => cases hs
  | refreshing t0 => cases hs
  | finishing rest result =>
    cases rest with
    | nil =>
      cases hs
      have hstamp : Stamped s := hat.resolve_right fun hr => absurd hr.1 (by simp)
      exact h.goto (hstamp.at_leave _ _ _)
    | cons e rest =>
      cases hs
      exact h.exec ha rfl
  | settling t =>
    simp only [DisplayManager.next] at hs
    split at hs
    · cases hs
      exact h.goto hat
    · cases hs
  | returning result =>
    cases hs
    exact h.release hat

/-- `_hwInit` changes neither the log nor the times. -/
theorem Inv.powered {s : State τ β} (h : Inv cfg s) (outcome : PowerOn) (written : Bool)
    {next : Option (Active τ β)} (hidle : next = none → Stamped s)
    (hat : ∀ a, next = some a → At cfg s a) :
    Inv cfg { DisplayManager.powered s outcome written with active := next } :=
  h.of_same (powered_log s outcome written) (powered_lastDisplayTime s outcome written)
    (powered_now s outcome written) (powered_shuttingDown s outcome written) hidle hat

theorem Inv.power {s s' : State τ β} (h : Inv cfg s) {a : Active τ β} (ha : s.active = some a)
    {outcome : PowerOn} {written : Bool}
    (hs : DisplayManager.power cfg s a outcome written = some s') : Inv cfg s' := by
  have hat := h.at' a ha
  simp only [DisplayManager.power] at hs
  split at hs
  · cases hs
  · split at hs
    · rename_i hpc
      have hmay : MayStart cfg s a := by simpa only [At, hpc] using hat
      split at hs
      · cases hs
        exact h.powered outcome written (fun _ => hmay.stamped) fun _ hb => by cases hb
      · cases hs
        refine h.powered outcome written (fun hnone => by cases hnone) ?_
        rintro _ ⟨⟩
        split
        · exact hmay.at_send _
        · exact hmay.stamped
    · rename_i hpc
      have hmay : MayStart cfg s a := by simpa only [At, hpc] using hat
      split at hs
      · cases hs
        exact h.powered outcome written (fun _ => hmay.stamped) fun _ hb => by cases hb
      · split at hs
        · cases hs
          obtain ⟨hstamp, hdue, hlate⟩ := hmay
          refine ⟨?_, ?_, ?_, ?_, (fun hnone => by cases hnone), ?_⟩
          · refine List.pairwise_cons.2 ⟨fun r hr hkeep => ?_, h.spaced⟩
            obtain ⟨e, hfin, hle⟩ := hstamp r hr
            have hready := hdue hkeep
            simp only [Due] at hready
            exact ⟨e, hfin, by simp only; omega⟩
          · intro r hr
            rcases List.mem_cons.1 hr with rfl | hr
            · exact hlate
            · exact h.intime r hr
          · intro r hr e he
            rw [powered_now]
            rcases List.mem_cons.1 hr with rfl | hr
            · cases he
            · exact h.before r hr e he
          · simpa using h.running
          · rintro _ ⟨⟩
            exact ⟨_, s.log, rfl, by simp only [powered_lastDisplayTime]; exact hstamp⟩
        · cases hs
          refine h.powered outcome written (fun hnone => by cases hnone) ?_
          rintro _ ⟨⟩
          exact hmay.stamped.at_leave _ _ _
    · cases hs

/-- The end of a refresh, in front of its stamp. -/
theorem Inv.ended {s : State τ β} (h : Inv cfg s) {a b : Active τ β} {t0 : Nat}
    (hat : At cfg s { a with pc := .refreshing t0 }) {rest : List (Effect β)} {result : Bool}
    (hb : b.pc = .finishing (.stamp :: rest) result) (panel : Option (Picture β)) :
    Inv cfg { s with log := endRefresh s.now s.log, active := some b, panel } := by
  obtain ⟨r, rs, hlog, hrs⟩ := hat
  have hspaced := h.spaced
  have hintime := h.intime
  have hbefore := h.before
  rw [hlog] at hspaced hintime hbefore
  obtain ⟨hhead, htail⟩ := List.pairwise_cons.1 hspaced
  have hend : endRefresh s.now s.log = { r with finish := some s.now } :: rs := by rw [hlog]; rfl
  refine ⟨?_, ?_, ?_, h.running, (fun hnone => by cases hnone), ?_⟩
  · rw [hend]
    exact List.pairwise_cons.2 ⟨hhead, htail⟩
  · rw [hend]
    intro q hq
    rcases List.mem_cons.1 hq with rfl | hq
    · exact hintime r List.mem_cons_self
    · exact hintime q (List.mem_cons_of_mem r hq)
  · rw [hend]
    intro q hq e he
    rcases List.mem_cons.1 hq with rfl | hq
    · cases he
      exact Nat.le_refl _
    · exact hbefore q (List.mem_cons_of_mem r hq) e he
  · rintro _ ⟨⟩
    simp only [At, hb, hend]
    refine .inr ⟨rfl, fun q hq => ?_⟩
    rcases List.mem_cons.1 hq with rfl | hq
    · exact ⟨s.now, rfl, Int.le_refl _⟩
    · obtain ⟨e, he, -⟩ := hrs q hq
      exact ⟨e, he, by have := hbefore q (List.mem_cons_of_mem r hq) e he; omega⟩

theorem Inv.refreshed {s s' : State τ β} (h : Inv cfg s) {a : Active τ β} (ha : s.active = some a)
    {accepted : Bool} (hs : DisplayManager.refreshed s a accepted = some s') : Inv cfg s' := by
  have hat := h.at' a ha
  obtain ⟨thread, kind, stop, pc, late, acc⟩ := a
  cases pc with
  | refreshing t0 =>
    simp only [DisplayManager.refreshed] at hs
    split at hs
    · cases hs
      exact h.ended (a := ⟨thread, kind, stop, .refreshing t0, late, acc⟩) hat rfl _
    · cases hs
      exact h.ended (a := ⟨thread, kind, stop, .refreshing t0, late, acc⟩) hat rfl _
  | _ => cases hs

theorem Inv.throws {s s' : State τ β} (h : Inv cfg s) {a : Active τ β} (ha : s.active = some a)
    (hs : DisplayManager.throws s a = some s') : Inv cfg s' := by
  have hat := h.at' a ha
  simp only [DisplayManager.throws] at hs
  split at hs
  · rename_i e rest result hpc
    split at hs
    · rename_i hmay
      cases hs
      refine h.release (hat.stamped (fun t => by simp [hpc]) fun rest' r heq => ?_)
      rw [hpc] at heq
      cases heq
      exact absurd hmay (by simp [Effect.mayThrow])
    · cases hs
  · cases hs

theorem Inv.tick {s : State τ β} (h : Inv cfg s) (d : Nat) :
    Inv cfg { s with now := s.now + d } := by
  have hlater : ∀ r ∈ s.log, ∀ e, r.finish = some e → e ≤ s.now + d :=
    fun r hr e he => Nat.le_add_right_of_le (h.before r hr e he)
  refine ⟨h.spaced, h.intime, hlater, h.running, h.idle, fun a ha => ?_⟩
  have hat := h.at' a ha
  obtain ⟨thread, kind, stop, pc, late, accepted⟩ := a
  have hdue : Due cfg s → Due cfg { s with now := s.now + d } := fun hd => by
    simp only [Due] at hd ⊢
    omega
  cases pc with
  | delaying remaining =>
    refine ⟨hat.1, ?_⟩
    have := hat.2
    simp only
    omega
  | stopCheck => exact ⟨hat.1, hat.2.1, fun hk hst => hdue (hat.2.2 hk hst)⟩
  | shutdownCheck | initPower | power => exact ⟨hat.1, fun hk => hdue (hat.2.1 hk), hat.2.2⟩
  | finishing rest result =>
    refine hat.imp_right fun hr => ⟨hr.1, fun q hq => (hr.2 q hq).mono ?_⟩
    simp only
    omega
  | _ => exact hat

/-- A stop request never takes a check back. -/
theorem At.requestStop {s : State τ β} {a : Active τ β} (h : At cfg s a) :
    At cfg s { a with stop := true } := by
  obtain ⟨thread, kind, stop, pc, late, accepted⟩ := a
  cases pc with
  | stopCheck => exact ⟨h.1, fun _ => rfl, fun _ hst => by cases hst⟩
  | _ => exact h

variable [DecidableEq τ]

variable (τ β) in
/-- Steps before `requestShutdown`. -/
def Running (_ : State τ β) (act : Act τ β) : Prop := act ≠ .requestShutdown

instance (s : State τ β) [DecidableEq β] (act : Act τ β) : Decidable (Running τ β s act) :=
  inferInstanceAs (Decidable (act ≠ .requestShutdown))

theorem inductive_inv : (machine cfg).Inductive (Running τ β) (Inv cfg) where
  init := by
    rintro s ⟨now, rfl⟩
    have hlog : ∀ r, r ∉ (created cfg now : State τ β).log := fun _ => List.not_mem_nil
    exact ⟨.nil, fun r hr => absurd hr (hlog r), fun r hr => absurd hr (hlog r), rfl,
      fun _ r hr => absurd hr (hlog r), fun a ha => by cases ha⟩
  step s act s' h hG hs := by
    cases act with
    | tick d =>
      cases hs
      exact h.tick d
    | call t kind stop =>
      simp only [machine, step] at hs
      split at hs
      · cases hs
      · cases hs
        exact h.of_same rfl rfl rfl rfl h.idle h.at'
    | acquire t =>
      simp only [machine, step] at hs
      split at hs
      · rename_i kind stop hq hact
        cases hs
        refine h.of_same rfl rfl rfl rfl (fun hnone => by cases hnone) ?_
        rintro _ ⟨⟩
        exact (h.idle hact).at_enter t kind stop
      · cases hs
    | requestStop t =>
      cases hs
      refine h.of_same rfl rfl rfl rfl (fun hnone => h.idle (by simpa using hnone)) fun b hb => ?_
      simp only [Option.map_eq_some_iff] at hb
      obtain ⟨a, ha, rfl⟩ := hb
      split
      · exact (h.at' a ha).requestStop
      · exact h.at' a ha
    | requestShutdown => exact absurd rfl hG
    | next =>
      obtain ⟨a, ha, hs⟩ := Option.bind_eq_some_iff.1 hs
      exact h.next ha hs
    | power outcome written =>
      obtain ⟨a, ha, hs⟩ := Option.bind_eq_some_iff.1 hs
      exact h.power ha hs
    | refreshed accepted =>
      obtain ⟨a, ha, hs⟩ := Option.bind_eq_some_iff.1 hs
      exact h.refreshed ha hs
    | throws =>
      obtain ⟨a, ha, hs⟩ := Option.bind_eq_some_iff.1 hs
      exact h.throws ha hs

end Spacing

open Spacing

variable [DecidableEq τ]

/-- Until a shutdown is requested, a refresh of `clear` or of a `displayBuffer` that respects the
interval starts the whole interval after the end of every earlier refresh of any kind, and no call
refreshes whose stop was requested when its wait was over. -/
theorem refreshes_spaced (cfg : Config β) {s : State τ β}
    (h : (machine cfg).ReachableBy (Running τ β) s) :
    (s.log.Pairwise fun later earlier => later.kind.keepsInterval = true →
      ∃ e : Nat, earlier.finish = some e ∧ (e : Int) + cfg.minRefreshSecs * second ≤ later.start)
    ∧ ∀ r ∈ s.log, r.late = false :=
  have hinv := inductive_inv.of_reachable h
  ⟨hinv.spaced, hinv.intime⟩

/-- A clear that fails and whose metrics write throws, while a paint queues behind it. -/
def failedClear : List (Act Bool Nat) :=
  [.call true .clear false, .acquire true,
    .call false (.displayBuffer BUFFER_SIZE "a.jpg" .respectMinInterval) false, .next, .next,
    .power .ready true, .tick (20 * second), .refreshed false, .next, .next, .throws,
    .acquire false, .next, .next, .tick (120 * second), .next, .next, .next, .power .ready true]

/-- The paint behind the failed clear starts 120 seconds after its end. -/
theorem refreshes_spaced_failedClear :
    ∃ s, (machine (panelConfig false)).run (created (panelConfig false) 0) failedClear = some s ∧
      s.log.map (fun r => (r.start, r.finish)) =
        [(140 * second, none), (0, some (20 * second))] ∧
      s.log.Pairwise fun later earlier => later.kind.keepsInterval = true →
        ∃ e : Nat, earlier.finish = some e ∧ (e : Int) + 120 * second ≤ later.start := by
  refine ⟨_, rfl, rfl, ?_⟩
  have hr := Transition.Machine.ReachableBy.run (G := Running Bool Nat) failedClear
    (.init (created_init (panelConfig false) 0)) (by decide) rfl
  exact (refreshes_spaced (panelConfig false) hr).1

end ShareFrame.DisplayManager
