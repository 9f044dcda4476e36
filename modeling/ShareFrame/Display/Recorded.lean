import ShareFrame.Display.DisplayManager

/-!
# The recorded screen state

Behind a refresh that the panel accepted, `_isCleared` and the screen snapshot are
updated after the metrics writes, and a write that throws leaves both behind the
panel. The next accepted refresh brings them up to date again. They follow the
panel as long as no call throws between its refresh and the record of it, unless
the refresh repeats the one recorded.
-/

namespace ShareFrame.DisplayManager

variable {τ β : Type}

/-- What `isCleared()` and `screenSnapshot()` return, beside what the panel shows. -/
structure View (β : Type) where
  isCleared : Bool
  state : String
  source : String
  panel : Option (Picture β)

namespace View

/-- The memory names the picture. -/
def Records (v : View β) (p : Picture β) : Prop :=
  v.isCleared = p.cleared ∧ v.state = p.state ∧ v.source = p.source

/-- `isCleared()` is true iff the panel was last cleared, and the snapshot names what it shows. -/
def Matches (v : View β) : Prop :=
  (v.isCleared = true ↔ v.panel = some .white) ∧
    ∀ p, v.panel = some p → v.state = p.state ∧ v.source = p.source

theorem matches_iff_records {v : View β} {p : Picture β} (hp : v.panel = some p) :
    v.Matches ↔ v.Records p := by
  have hwhite : p.cleared = true ↔ v.panel = some .white := by
    rw [hp]
    cases p <;> simp [Picture.cleared]
  constructor
  · intro h
    refine ⟨?_, h.2 p hp⟩
    rw [Bool.eq_iff_iff]
    exact h.1.trans hwhite.symm
  · rintro ⟨hcleared, hnames⟩
    refine ⟨by rw [hcleared]; exact hwhite, fun q hq => ?_⟩
    rw [hp] at hq
    cases hq
    exact hnames

end View

def State.view (s : State τ β) : View β := ⟨s.isCleared, s.screen.state, s.screen.source, s.panel⟩

/-- The recorded screen state matches the panel. -/
def State.Matches (s : State τ β) : Prop := s.view.Matches

namespace Recorded

/-- What a statement does to the view. -/
def onView (v : View β) : Effect β → View β
  | .isCleared value => { v with isCleared := value }
  | .recordScreen state source => { v with state, source }
  | .mockPicture p => { v with panel := some p }
  | .mockLog p => { v with panel := some p }
  | _ => v

@[simp] theorem view_powered (s : State τ β) (outcome : PowerOn) (written : Bool) :
    (powered s outcome written).view = s.view := by
  simp [State.view]

/-- Nothing is recorded before a picture is shown. -/
def Quiet : List (Effect β) → Prop
  | [] => True
  | .mockPicture _ :: _ => True
  | .mockLog _ :: _ => True
  | .isCleared _ :: _ => False
  | .recordScreen _ _ :: _ => False
  | _ :: rest => Quiet rest

/-- The view once the call is over, if nothing throws. -/
def settled (v : View β) : Pc β → View β
  | .finishing rest _ => rest.foldl onView v
  | _ => v

/-- No statement of the call records before it shows. -/
def QuietAt : Pc β → Prop
  | .finishing rest _ => Quiet rest
  | _ => True

/-- What holds during a call. -/
structure Good (v : View β) (a : Active τ β) : Prop where
  shown : ∀ p, a.accepted = some p → v.panel = some p
  unshown : a.accepted = none → v.Matches ∧ QuietAt a.pc
  settles : (settled v a.pc).Matches

structure Inv (s : State τ β) : Prop where
  idle : s.active = none → s.Matches
  active : ∀ a, s.active = some a → Good s.view a

theorem settled_acceptedRefresh (v : View β) (p : Picture β) (ms : Int) :
    (acceptedRefresh p ms).foldl onView v = ⟨p.cleared, p.state, p.source, v.panel⟩ := rfl

theorem settled_mockRefresh (cfg : Config β) (v : View β) (p : Picture β) :
    (mockRefresh cfg p).foldl onView v = ⟨p.cleared, p.state, p.source, some p⟩ := by
  unfold mockRefresh
  split <;> rfl

theorem quiet_mockRefresh (cfg : Config β) (p : Picture β) : Quiet (mockRefresh cfg p) := by
  unfold mockRefresh
  split <;> trivial

theorem matches_recorded (p : Picture β) : View.Matches ⟨p.cleared, p.state, p.source, some p⟩ :=
  (View.matches_iff_records rfl).2 ⟨rfl, rfl, rfl⟩

/-! ## One step -/

/-- A program point that is not behind a refresh. -/
def Plain : Pc β → Prop
  | .finishing _ _ => False
  | _ => True

theorem settled_plain {v : View β} {pc : Pc β} (h : Plain pc) : settled v pc = v := by
  cases pc with
  | finishing _ _ => exact h.elim
  | _ => rfl

section
variable {v : View β} {a : Active τ β}

theorem Good.matches (h : Good v a) (hp : Plain a.pc) : v.Matches := by
  have := h.settles
  rwa [settled_plain hp] at this

/-- The call goes on with the view it has. -/
theorem Good.plain (h : Good v a) (hm : v.Matches) (b : Active τ β) (hacc : b.accepted = a.accepted)
    (hpc : Plain b.pc) : Good v b where
  shown p hp := h.shown p (hacc ▸ hp)
  unshown _ := by
    refine ⟨hm, ?_⟩
    cases hb : b.pc with
    | finishing rest result => rw [hb] at hpc; exact hpc.elim
    | _ => trivial
  settles := by
    rw [settled_plain hpc]
    exact hm

theorem Good.send (h : Good v a) (hm : v.Matches) (cfg : Config β) (p : Picture β) :
    Good v { a with pc := DisplayManager.send cfg p } := by
  unfold DisplayManager.send
  split
  · refine ⟨h.shown, fun _ => ⟨hm, quiet_mockRefresh cfg p⟩, ?_⟩
    simp only [settled, settled_mockRefresh]
    exact matches_recorded p
  · exact h.plain hm _ rfl trivial

theorem Good.sendBufferHw (h : Good v a) (hm : v.Matches) (cfg : Config β) (buffer : β)
    (source : String) : Good v { a with pc := DisplayManager.sendBufferHw cfg buffer source } := by
  unfold DisplayManager.sendBufferHw
  split
  · exact h.plain hm _ rfl trivial
  · exact h.send hm cfg _

/-- A throw leaves the memory behind the panel iff the panel accepted a refresh of this call that
the memory does not name yet. -/
theorem Good.matches_iff (h : Good v a) :
    v.Matches ↔ ∀ p, a.accepted = some p → v.Records p := by
  constructor
  · intro hm p hp
    exact (View.matches_iff_records (h.shown p hp)).1 hm
  · intro hrec
    cases hacc : a.accepted with
    | none => exact (h.unshown hacc).1
    | some p => exact (View.matches_iff_records (h.shown p hacc)).2 (hrec p hacc)

end

theorem plain_leave (cfg : Config β) (s : State τ β) (a : Active τ β) (result : Bool) :
    Plain (leave cfg s a result) := by
  unfold leave
  split <;> trivial

/-- A call that has just taken the lock. -/
theorem good_enter {s : State τ β} (hm : s.Matches) (cfg : Config β) (t : τ) (kind : Kind β)
    (stop : Bool) : Good s.view { thread := t, kind, stop, pc := enter cfg s kind } := by
  have h : Good s.view { thread := t, kind, stop, pc := .interval } :=
    ⟨fun _ hp => (by cases hp), fun _ => ⟨hm, trivial⟩, hm⟩
  cases kind with
  | init =>
    simp only [enter]
    split
    · exact h.send hm cfg _
    · exact h.plain hm _ rfl trivial
  | clear => exact h
  | clearForShutdown =>
    simp only [enter]
    split
    · exact h.plain hm _ rfl trivial
    · exact h.send hm cfg _
  | displayBuffer buffer source policy =>
    simp only [enter]
    split
    · exact h.plain hm _ rfl trivial
    · exact h
  | paintForShutdown buffer source => exact h.sendBufferHw hm cfg _ _

theorem Quiet.onView {e : Effect β} {rest : List (Effect β)} (h : Quiet (e :: rest))
    (hshow : ∀ p, e ≠ .mockPicture p ∧ e ≠ .mockLog p) (v : View β) :
    Recorded.onView v e = v ∧ Quiet rest := by
  cases e with
  | mockPicture p => exact absurd rfl (hshow p).1
  | mockLog p => exact absurd rfl (hshow p).2
  | isCleared value => exact h.elim
  | recordScreen state source => exact h.elim
  | _ => exact ⟨rfl, h⟩

variable {s : State τ β} {a : Active τ β}

theorem Inv.of_good {s' : State τ β} (ha : s'.active = some a) (h : Good s'.view a) : Inv s' where
  idle hnone := by rw [ha] at hnone; cases hnone
  active b hb := by
    rw [ha] at hb
    cases hb
    exact h

theorem Inv.released {s' : State τ β} (hnone : s'.active = none) (h : s'.Matches) : Inv s' where
  idle _ := h
  active a ha := by rw [hnone] at ha; cases ha

/-- A statement behind a refresh. -/
theorem Good.exec (h : Good s.view a) (cfg : Config β) {e : Effect β} {rest : List (Effect β)}
    {result : Bool} (hpc : a.pc = .finishing (e :: rest) result) :
    Inv (e.exec cfg { s with active := some { a with pc := .finishing rest result } }) := by
  have hsettles : (rest.foldl onView (onView s.view e)).Matches := by
    have := h.settles
    rwa [hpc] at this
  have hquiet : a.accepted = none → s.Matches ∧ Quiet (e :: rest) := fun hacc => by
    have := h.unshown hacc
    rwa [hpc] at this
  by_cases hshow : ∃ p, e = .mockPicture p ∨ e = .mockLog p
  · obtain ⟨p, rfl | rfl⟩ := hshow
    all_goals
      exact Inv.of_good rfl ⟨fun q hq => hq, fun hacc => (by cases hacc), hsettles⟩
  · have hother : ∀ p, e ≠ .mockPicture p ∧ e ≠ .mockLog p :=
      fun p => ⟨fun he => hshow ⟨p, .inl he⟩, fun he => hshow ⟨p, .inr he⟩⟩
    have hkeep : ∀ t : State τ β, t.view = onView s.view e → t.view.panel = s.view.panel →
        Good t.view { a with pc := .finishing rest result } := fun t hview hpanel => by
      refine ⟨fun q hq => hpanel.trans (h.shown q hq), fun hacc => ?_, ?_⟩
      · obtain ⟨hm, hq⟩ := hquiet hacc
        obtain ⟨hsame, hrest⟩ := hq.onView hother s.view
        refine ⟨?_, hrest⟩
        rw [hview, hsame]
        exact hm
      · rw [hview]
        exact hsettles
    cases e with
    | mockPicture p => exact absurd rfl (hother p).1
    | mockLog p => exact absurd rfl (hother p).2
    | _ => exact Inv.of_good rfl (hkeep _ rfl rfl)

theorem Inv.goto (hm : s.Matches) (h : Good s.view a) {pc : Pc β} (hpc : Plain pc) :
    Inv (s.goto a pc) :=
  Inv.of_good rfl (h.plain hm _ rfl hpc)

theorem Inv.next {s' : State τ β} (h : Good s.view a) (cfg : Config β)
    (hs : DisplayManager.next cfg s a = some s') : Inv s' := by
  obtain ⟨thread, kind, stop, pc, late, accepted⟩ := a
  cases pc with
  | interval =>
    simp only [DisplayManager.next] at hs
    split at hs
    · cases hs
      exact Inv.of_good rfl (h.plain h.settles _ rfl trivial)
    · cases hs
      exact Inv.goto h.settles h trivial
  | delaying remaining =>
    cases hs
    exact Inv.goto h.settles h trivial
  | blocked deadline =>
    simp only [DisplayManager.next] at hs
    split at hs
    · cases hs
      exact Inv.of_good rfl (h.plain h.settles _ rfl trivial)
    · cases hs
  | stopCheck =>
    simp only [DisplayManager.next] at hs
    split at hs
    · cases hs
      exact Inv.goto h.settles h trivial
    · split at hs
      · cases hs
        exact Inv.goto h.settles h trivial
      · cases hs
        exact Inv.of_good rfl (h.send h.settles cfg _)
  | shutdownCheck =>
    simp only [DisplayManager.next] at hs
    split at hs
    · cases hs
      exact Inv.goto h.settles h trivial
    · split at hs
      · cases hs
        exact Inv.of_good rfl (h.sendBufferHw h.settles cfg _ _)
      · cases hs
  | initPower => cases hs
  | power => cases hs
  | refreshing t0 => cases hs
  | finishing rest result =>
    cases rest with
    | nil =>
      cases hs
      exact Inv.goto h.settles h (plain_leave cfg s _ result)
    | cons e rest =>
      cases hs
      exact h.exec cfg rfl
  | settling t =>
    simp only [DisplayManager.next] at hs
    split at hs
    · cases hs
      exact Inv.goto h.settles h trivial
    · cases hs
  | returning result =>
    cases hs
    exact Inv.released rfl h.settles

theorem Inv.power {s' : State τ β} (h : Good s.view a) (cfg : Config β) {outcome : PowerOn}
    {written : Bool} (hs : DisplayManager.power cfg s a outcome written = some s') : Inv s' := by
  have h' : Good (powered s outcome written).view a := by
    rw [view_powered]
    exact h
  simp only [DisplayManager.power] at hs
  split at hs
  · cases hs
  · split at hs
    · rename_i hpc
      have hm := h'.matches (by rw [hpc]; trivial)
      split at hs
      · cases hs
        exact Inv.released rfl hm
      · cases hs
        split
        · exact Inv.of_good rfl (h'.send hm cfg _)
        · exact Inv.goto hm h' trivial
    · rename_i hpc
      have hm := h'.matches (by rw [hpc]; trivial)
      split at hs
      · cases hs
        exact Inv.released rfl hm
      · split at hs
        · cases hs
          exact Inv.of_good rfl (h'.plain hm _ rfl trivial)
        · cases hs
          exact Inv.goto hm h' (plain_leave cfg s a false)
    · cases hs

theorem Inv.refreshed {s' : State τ β} (h : Good s.view a) {accepted : Bool}
    (hs : DisplayManager.refreshed s a accepted = some s') : Inv s' := by
  simp only [DisplayManager.refreshed] at hs
  split at hs
  · rename_i t0 hpc
    have hm := h.matches (by rw [hpc]; trivial)
    split at hs
    · cases hs
      refine Inv.of_good rfl ⟨fun _ hp => hp, fun hacc => (by cases hacc), ?_⟩
      simp only [settled, settled_acceptedRefresh]
      exact matches_recorded _
    · cases hs
      exact Inv.of_good rfl ⟨h.shown, fun _ => ⟨hm, trivial⟩, hm⟩
  · cases hs

theorem throws_eq {s' : State τ β} (hs : throws s a = some s') : s' = { s with active := none } := by
  simp only [throws] at hs
  split at hs
  · split at hs
    · cases hs
      rfl
    · cases hs
  · cases hs

variable [DecidableEq τ]

variable (τ β) in
/-- A call throws behind its accepted refresh only if that refresh repeats the one recorded. -/
def Recording (s : State τ β) (act : Act τ β) : Prop :=
  act = .throws → ∀ a, s.active = some a → ∀ p, a.accepted = some p → s.view.Records p

instance (v : View β) (p : Picture β) : Decidable (v.Records p) :=
  inferInstanceAs (Decidable (_ ∧ _ ∧ _))

instance [DecidableEq β] (s : State τ β) (act : Act τ β) : Decidable (Recording τ β s act) :=
  decidable_of_iff (act = .throws → ∀ a ∈ s.active, ∀ p ∈ a.accepted, s.view.Records p) Iff.rfl

theorem inductive_inv (cfg : Config β) : (machine cfg).Inductive (Recording τ β) Inv where
  init := by
    rintro s ⟨now, rfl⟩
    exact Inv.released rfl ⟨by simp [State.view, created], fun p hp => by cases hp⟩
  step s act s' h hG hs := by
    cases act with
    | tick d =>
      cases hs
      exact ⟨h.idle, h.active⟩
    | call t kind stop =>
      simp only [machine, step] at hs
      split at hs
      · cases hs
      · cases hs
        exact ⟨h.idle, h.active⟩
    | acquire t =>
      simp only [machine, step] at hs
      split at hs
      · rename_i kind stop hq hact
        cases hs
        exact Inv.of_good rfl (good_enter (h.idle hact) cfg t kind stop)
      · cases hs
    | requestStop t =>
      cases hs
      refine ⟨fun hnone => h.idle (by simpa using hnone), fun b hb => ?_⟩
      obtain ⟨a, ha, rfl⟩ := Option.map_eq_some_iff.1 hb
      have hgood := h.active a ha
      split
      · exact ⟨hgood.shown, hgood.unshown, hgood.settles⟩
      · exact ⟨hgood.shown, hgood.unshown, hgood.settles⟩
    | requestShutdown =>
      cases hs
      exact ⟨h.idle, h.active⟩
    | next =>
      obtain ⟨a, ha, hs⟩ := Option.bind_eq_some_iff.1 hs
      exact Inv.next (h.active a ha) cfg hs
    | power outcome written =>
      obtain ⟨a, ha, hs⟩ := Option.bind_eq_some_iff.1 hs
      exact Inv.power (h.active a ha) cfg hs
    | refreshed accepted =>
      obtain ⟨a, ha, hs⟩ := Option.bind_eq_some_iff.1 hs
      exact Inv.refreshed (h.active a ha) hs
    | throws =>
      obtain ⟨a, ha, hs⟩ := Option.bind_eq_some_iff.1 hs
      rw [throws_eq hs]
      exact Inv.released rfl ((h.active a ha).matches_iff.2 (hG rfl a ha))

end Recorded

open Recorded

variable [DecidableEq τ]

/-- Whenever no call is under way, `isCleared()` and `screenSnapshot()` name the last refresh the
panel accepted, as long as a call that throws behind an accepted refresh repeats the one recorded.
A throw that does not leaves them wrong. -/
theorem screen_matches (cfg : Config β) {s : State τ β}
    (h : (machine cfg).ReachableBy (Recording τ β) s) :
    (s.active = none → s.Matches) ∧
      ∀ s', (machine cfg).step s .throws = some s' → (s'.Matches ↔ Recording τ β s .throws) := by
  have hinv := (inductive_inv cfg).of_reachable h
  refine ⟨hinv.idle, fun s' hs => ?_⟩
  obtain ⟨a, ha, hs⟩ := Option.bind_eq_some_iff.1 hs
  rw [throws_eq hs]
  refine (hinv.active a ha).matches_iff.trans ⟨fun hrec _ b hb => ?_, fun hG => hG rfl a ha⟩
  rw [ha] at hb
  cases hb
  exact hrec

/-- The panel is cleared, cleared again, and the metrics write behind the second clear throws. -/
def clearedTwice : List (Act Unit Nat) :=
  ([.call () .clear false, .acquire (), .next, .next, .power .ready true,
      .refreshed true] : List (Act Unit Nat))
    ++ (List.replicate 13 .next : List (Act Unit Nat))
    ++ ([.tick (120 * second), .call () .clear false, .acquire (), .next, .next, .power .ready true,
      .refreshed true, .next, .next, .throws] : List (Act Unit Nat))

/-- The throw behind a clear of a white panel does no harm. -/
theorem screen_matches_clearedTwice :
    ∃ s, (machine (panelConfig false)).run (created (panelConfig false) 0) clearedTwice = some s ∧
      s.active = none ∧ s.Matches := by
  refine ⟨_, rfl, rfl, ?_⟩
  have hr := Transition.Machine.ReachableBy.run (G := Recording Unit Nat) clearedTwice
    (.init (created_init (panelConfig false) 0)) (by decide) rfl
  exact (screen_matches (panelConfig false) hr).1 rfl

/-- A clear whose first metrics write throws behind the refresh. -/
def clearThrows : List (Act Unit Nat) :=
  [.call () .clear false, .acquire (), .next, .next, .power .ready true, .refreshed true, .next,
    .next, .throws]

/-- The mock panel is written, then its metrics write throws. -/
def mockThrows : List (Act Unit Nat) :=
  [.call () .clear false, .acquire (), .next, .next, .next, .next, .next, .throws]

/-- On the real panel and on the mock one: it is white, `isCleared()` is false and the snapshot says
that nothing was ever shown. -/
theorem screen_behind_panel :
    (∃ s : State Unit Nat, (machine (panelConfig false)).Reachable s ∧ s.active = none ∧
      s.panel = some .white ∧ s.isCleared = false ∧ s.screen.state = "empty" ∧ ¬ s.Matches) ∧
    ∃ s : State Unit Nat, (machine (panelConfig true)).Reachable s ∧ s.active = none ∧
      s.panel = some .white ∧ s.isCleared = false ∧ s.screen.state = "empty" ∧ ¬ s.Matches := by
  have hwrong : ∀ {s : State Unit Nat}, s.panel = some .white → s.isCleared = false →
      ¬ s.Matches := fun hwhite hcleared hm =>
    absurd ((hm.1.2 hwhite).symm.trans hcleared) (by decide)
  constructor
  · exact Transition.Machine.exists_reachable_of_run clearThrows (created_init (panelConfig false) 0)
      ⟨_, rfl, rfl, rfl, rfl, rfl, hwrong rfl rfl⟩
  · exact Transition.Machine.exists_reachable_of_run mockThrows (created_init (panelConfig true) 0)
      ⟨_, rfl, rfl, rfl, rfl, rfl, hwrong rfl rfl⟩

end ShareFrame.DisplayManager
