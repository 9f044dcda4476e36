import ShareFrame.Lib.Places
import ShareFrame.Update.Steps

/-!
# The update is safe

In every run at most one worker is between its start and its final phase, the
phase takes the documented way, `rauc install` runs for newer versions with a
matching checksum only, and a call that returns false has changed nothing
(`update_safe`). Behind it stand four invariants: the lock belongs to the call
that holds it and the phase to the one active worker (`Exclusive`), workers are
started as they should be (`Started`), what is installed was checked (`Checked`),
and refused calls are harmless (`Untouched`).
-/

namespace ShareFrame.UpdateManager

open HTTPClient Update Transition
open Places (getElem?_set_cases getElem?_concat_cases update_cases)

variable {sha256 : Bytes → Bytes} {cfg : Config}

/-! ## Phases -/

/-- The way of the phase. -/
def Phase.Next : Phase → Phase → Prop
  | .idle, .checking | .failed, .checking | .checking, .downloading | .downloading, .installing
  | .installing, .awaitingReboot | .checking, .failed | .downloading, .failed
  | .installing, .failed => True
  | _, _ => False

/-- The phase while an active worker is at a program point. -/
def WorkerPc.Phases : WorkerPc → Phase → Prop
  | .begin, p | .preparing, p | .toDownloading, p => p = .checking
  | .downloading, p | .hashing, p | .finalizing, p | .toInstalling, p => p = .downloading
  | .installing, p | .installRuns, p | .toAwaiting, p => p = .installing
  | .failing _, p => p = .checking ∨ p = .downloading ∨ p = .installing
  | .rebooting, _ | .history _, _ | .exited, _ => True

theorem busy_of_active {pc : WorkerPc} {p : Phase} (h : pc.Active) (hp : pc.Phases p) :
    p.busy = true := by
  cases pc <;> first | exact h.elim | (cases hp; rfl) | (rcases hp with rfl | rfl | rfl <;> rfl)

theorem WorkEdge.active {lock : Option Caller} {p p' : Phase} {pc pc' : WorkerPc}
    (h : WorkEdge lock p pc pc' p') (ha : pc'.Active) : pc.Active := by
  cases h with
  | fails hc => cases pc <;> first | exact hc.elim | trivial
  | _ => first | exact ha.elim | trivial

theorem WorkEdge.phases {lock : Option Caller} {p p' : Phase} {pc pc' : WorkerPc}
    (h : WorkEdge lock p pc pc' p') (hp : pc.Phases p) (ha : pc'.Active) : pc'.Phases p' := by
  cases h with
  | fails hc =>
    cases pc with
    | begin => exact .inl hp
    | downloading | hashing | finalizing => exact .inr (.inl hp)
    | installRuns => exact .inr (.inr hp)
    | _ => exact hc.elim
  | url | prepared | downloaded | hashed | renamed | runs | ran => exact hp
  | download | install => rfl
  | _ => exact ha.elim

/-- A worker changes the phase with the lock free, and along the way. -/
theorem WorkEdge.next {lock : Option Caller} {p p' : Phase} {pc pc' : WorkerPc}
    (h : WorkEdge lock p pc pc' p') (hp : pc.Active → pc.Phases p) :
    p' = p ∨ lock = none ∧ pc.Active ∧ p.Next p' := by
  cases h with
  | download hfree => obtain rfl : p = .checking := hp trivial; exact .inr ⟨hfree, trivial, trivial⟩
  | install hfree => obtain rfl : p = .downloading := hp trivial; exact .inr ⟨hfree, trivial, trivial⟩
  | await hfree => obtain rfl : p = .installing := hp trivial; exact .inr ⟨hfree, trivial, trivial⟩
  | failed hfree =>
    rcases hp trivial with rfl | rfl | rfl <;> exact .inr ⟨hfree, trivial, trivial⟩
  | _ => exact .inl rfl

/-! ## The lock and the active worker -/

/-- Behind the busy check. -/
def Call.Checked : Call → Prop
  | .slotCheck | .fetching | .comparing _ | .starting _ => True
  | _ => False

theorem Call.Checked.inLock {call : Call} (h : call.Checked) : call.InLock := by
  cases call <;> first | exact h.elim | trivial

structure Exclusive (s : State) : Prop where
  lock : ∀ c, (s.calls c).InLock ↔ s.lock = some c
  phases : ∀ (i : Nat) (w : Worker), s.workers[i]? = some w → w.pc.Active → w.pc.Phases s.phase_
  single : ∀ (i j : Nat) (v w : Worker), s.workers[i]? = some v → s.workers[j]? = some w →
    v.pc.Active → w.pc.Active → i = j
  notBusy : ∀ c, (s.calls c).Checked → s.phase_.busy = false

/-- A step of a call and the lock. -/
theorem CallEdge.lock_spec {s : State} {c : Caller} {call' : Call} {lock' : Option Caller}
    {slot' : Option String} (h : CallEdge cfg s c call' lock' slot') :
    (lock' = s.lock ∧ ((s.calls c).InLock ↔ call'.InLock)) ∨
      (s.lock = none ∧ lock' = some c ∧ call'.InLock) ∨
      ((s.calls c).InLock ∧ lock' = none ∧ ¬ call'.InLock) := by
  cases h with
  | leave h => exact .inl ⟨rfl, fun h' => absurd h' h, False.elim⟩
  | lock _ hfree => exact .inr (.inl ⟨hfree, rfl, trivial⟩)
  | refuse h => exact .inr (.inr ⟨h, rfl, id⟩)
  | notBusy hc | noSlot hc | release hc | newer hc =>
    exact .inl ⟨rfl, fun _ => trivial, fun _ => by rw [hc]; trivial⟩
  | throws hc => exact .inr (.inr ⟨by rw [hc]; trivial, rfl, id⟩)
  | joined hc => exact .inr (.inr ⟨by rw [hc]; trivial, rfl, id⟩)

theorem CallEdge.checked {s : State} {c : Caller} {call' : Call} {lock' : Option Caller}
    {slot' : Option String} (h : CallEdge cfg s c call' lock' slot') (hc' : call'.Checked) :
    s.phase_.busy = false ∨ (s.calls c).Checked := by
  cases h with
  | notBusy _ hbusy => exact .inl hbusy
  | noSlot hc | release hc | newer hc => exact .inr (by rw [hc]; trivial)
  | _ => exact hc'.elim

/-- With the lock a call is the only one in it. -/
theorem Exclusive.unique {s : State} (h : Exclusive s) {c d : Caller} (hc : (s.calls c).InLock)
    (hd : (s.calls d).InLock) : c = d :=
  Option.some.inj (((h.lock c).mp hc).symm.trans ((h.lock d).mp hd))

/-- Between the busy check and the start no worker is active. -/
theorem Exclusive.none_active {s : State} (h : Exclusive s) {c : Caller}
    (hc : (s.calls c).Checked) {i : Nat} {w : Worker} (hw : s.workers[i]? = some w) :
    ¬ w.pc.Active := by
  intro ha
  have hbusy := busy_of_active ha (h.phases i w hw ha)
  rw [h.notBusy c hc] at hbusy; cases hbusy

/-- Other calls are where they were. -/
theorem calls_other {s s' : State} {c : Caller} {call' : Call} {P : Call → Prop}
    (hcalls : s'.calls = Function.update s.calls c call') {d : Caller} (hd : P (s'.calls d)) :
    (d = c ∧ P call') ∨ (d ≠ c ∧ P (s.calls d)) := by
  obtain ⟨hdc, heq⟩ | ⟨hdc, heq⟩ := update_cases (congrFun hcalls d).symm
  · exact .inl ⟨hdc, heq ▸ hd⟩
  · exact .inr ⟨hdc, heq ▸ hd⟩

/-- The lock behind a step of call `c`, given what the step does to it. -/
theorem lock_step {s s' : State} {c : Caller} {call' : Call} (h : Exclusive s)
    (hcalls : s'.calls = Function.update s.calls c call')
    (hspec : (s'.lock = s.lock ∧ ((s.calls c).InLock ↔ call'.InLock)) ∨
      (s.lock = none ∧ s'.lock = some c ∧ call'.InLock) ∨
      ((s.calls c).InLock ∧ s'.lock = none ∧ ¬ call'.InLock)) (d : Caller) :
    (s'.calls d).InLock ↔ s'.lock = some d := by
  rw [hcalls]
  by_cases hd : d = c
  · subst hd
    rw [Function.update_self]
    rcases hspec with ⟨hlock, hiff⟩ | ⟨-, hlock, hin⟩ | ⟨-, hlock, hout⟩ <;> rw [hlock]
    · rw [← hiff]; exact h.lock d
    · exact ⟨fun _ => rfl, fun _ => hin⟩
    · exact ⟨fun hin => absurd hin hout, fun hno => nomatch hno⟩
  · rw [Function.update_of_ne hd]
    rcases hspec with ⟨hlock, -⟩ | ⟨hfree, hlock, -⟩ | ⟨hin, hlock, -⟩ <;> rw [hlock]
    · exact h.lock d
    · rw [h.lock d, hfree]
      exact ⟨fun hno => (nomatch hno), fun he => absurd (Option.some.inj he).symm hd⟩
    · exact ⟨fun hin' => absurd (h.unique hin' hin) hd, fun hno => nomatch hno⟩

theorem exclusive_effect {s s' : State} (h : Exclusive s) (heff : Effect sha256 cfg s s') :
    Exclusive s' := by
  cases heff with
  | still calls lock _ _ update workers =>
    have hphase : s'.phase_ = s.phase_ := congrArg Prod.fst update
    exact ⟨by rw [calls, lock]; exact h.lock, by rw [workers, hphase]; exact h.phases,
      by rw [workers]; exact h.single, by rw [calls, hphase]; exact h.notBusy⟩
  | @begin c outside calls lock _ _ update workers =>
    have hphase : s'.phase_ = s.phase_ := congrArg Prod.fst update
    refine ⟨lock_step h calls (.inl ⟨lock, fun h' => absurd h' outside, False.elim⟩),
      by rw [workers, hphase]; exact h.phases, by rw [workers]; exact h.single, fun d hd => ?_⟩
    rw [hphase]
    rcases calls_other calls hd with ⟨-, hd⟩ | ⟨-, hd⟩
    · exact hd.elim
    · exact h.notBusy d hd
  | @call c call' edge calls _ update workers =>
    have hphase : s'.phase_ = s.phase_ := congrArg Prod.fst update
    refine ⟨lock_step h calls edge.lock_spec, by rw [workers, hphase]; exact h.phases,
      by rw [workers]; exact h.single, fun d hd => ?_⟩
    rw [hphase]
    rcases calls_other calls hd with ⟨rfl, hd⟩ | ⟨-, hd⟩
    · exact (edge.checked hd).elim id (h.notBusy d)
    · exact h.notBusy d hd
  | @start c release at_ calls lock _ _ phase workers =>
    have hin : (s.calls c).InLock := by rw [at_]; trivial
    have hchecked : (s.calls c).Checked := by rw [at_]; trivial
    have hnew : ∀ i (w : Worker), s'.workers[i]? = some w → w.pc.Active →
        i = s.workers.length ∧ w.pc = .begin := by
      intro i w hw ha
      rw [workers] at hw
      rcases getElem?_concat_cases hw with ⟨-, hold⟩ | ⟨hi, hw⟩
      · exact absurd ha (h.none_active hchecked hold)
      · exact ⟨hi, by rw [hw]⟩
    refine ⟨lock_step h calls (.inl ⟨lock, fun _ => trivial, fun _ => hin⟩), fun i w hw ha => ?_,
      fun i j v w hv hw hav haw => ?_, fun d hd => ?_⟩
    · rw [(hnew i w hw ha).2]; exact phase
    · rw [(hnew i v hv hav).1, (hnew j w hw haw).1]
    · rcases calls_other calls hd with ⟨-, hd⟩ | ⟨hdc, hd⟩
      · exact hd.elim
      · exact absurd (h.unique hd.inLock hin) hdc
  | @startThrows c release at_ calls lock _ _ phase workers =>
    have hin : (s.calls c).InLock := by rw [at_]; trivial
    have hchecked : (s.calls c).Checked := by rw [at_]; trivial
    refine ⟨lock_step h calls (.inr (.inr ⟨hin, lock, id⟩)), fun i w hw ha => ?_,
      by rw [workers]; exact h.single, fun d hd => ?_⟩
    · rw [workers] at hw; exact absurd ha (h.none_active hchecked hw)
    · rcases calls_other calls hd with ⟨-, hd⟩ | ⟨hdc, hd⟩
      · exact hd.elim
      · exact absurd (h.unique hd.inLock hin) hdc
  | @work i w pc' at_ edge workers calls lock =>
    have hnext := edge.next (h.phases i w at_)
    -- an active worker behind the step is the old one, and was active before it
    have hold : ∀ (j : Nat) (v : Worker), s'.workers[j]? = some v → v.pc.Active →
        ∃ u : Worker, s.workers[j]? = some u ∧ u.pc.Active := by
      intro j v hv ha
      rw [workers] at hv
      rcases getElem?_set_cases hv with ⟨rfl, rfl⟩ | ⟨-, hv⟩
      · exact ⟨w, at_, edge.active ha⟩
      · exact ⟨v, hv, ha⟩
    refine ⟨by rw [calls, lock]; exact h.lock, fun j v hv ha => ?_,
      fun j k u v hu hv hau hav => ?_, fun d hd => ?_⟩
    · rw [workers] at hv
      rcases getElem?_set_cases hv with ⟨rfl, rfl⟩ | ⟨hne, hv⟩
      · exact edge.phases (h.phases j w at_ (edge.active ha)) ha
      · rcases hnext with hsame | ⟨-, hactive, -⟩
        · rw [hsame]; exact h.phases j v hv ha
        · exact absurd (h.single j i v w hv at_ ha hactive) hne
    · obtain ⟨u', hu', hau'⟩ := hold j u hu hau
      obtain ⟨v', hv', hav'⟩ := hold k v hv hav
      exact h.single j k u' v' hu' hv' hau' hav'
    · rw [calls] at hd
      rcases hnext with hsame | ⟨hfree, -, -⟩
      · rw [hsame]; exact h.notBusy d hd
      · rw [(h.lock d).mp hd.inLock] at hfree; cases hfree

/-- The phase goes its way. -/
theorem next_effect {s s' : State} (h : Exclusive s) (heff : Effect sha256 cfg s s') :
    s'.phase_ = s.phase_ ∨ s.phase_.Next s'.phase_ := by
  have hstart : ∀ {c : Caller}, (s.calls c).Checked → s'.phase_ = .checking →
      s'.phase_ = s.phase_ ∨ s.phase_.Next s'.phase_ := by
    intro c hc hp
    have hbusy := h.notBusy c hc
    rw [hp]
    cases hs : s.phase_ with
    | idle | failed => exact .inr trivial
    | _ => rw [hs] at hbusy; cases hbusy
  cases heff with
  | still _ _ _ _ update => exact .inl (congrArg Prod.fst update)
  | begin _ _ _ _ _ update => exact .inl (congrArg Prod.fst update)
  | call _ _ _ update => exact .inl (congrArg Prod.fst update)
  | start at_ _ _ _ _ phase => exact hstart (by rw [at_]; trivial) phase
  | startThrows at_ _ _ _ _ phase => exact hstart (by rw [at_]; trivial) phase
  | work at_ edge => exact (edge.next (h.phases _ _ at_)).imp id fun hn => hn.2.2

/-! ## What is installed -/

/-- Between the slot check and the start. -/
def Call.SlotRead : Call → Prop
  | .fetching | .comparing _ | .starting _ => True
  | _ => False

/-- Workers are started for newer versions, when no slot was pending. -/
structure Started (cfg : Config) (s : State) : Prop where
  slot : ∀ c, (s.calls c).SlotRead → s.slotSeen = some ""
  newer : ∀ c r, s.calls c = .starting r → isVersionNewer r.version cfg.version = true
  workers : ∀ (i : Nat) (w : Worker), s.workers[i]? = some w →
    isVersionNewer w.release.version cfg.version = true ∧ w.slotAtStart = some ""

theorem CallEdge.slot {s : State} {c : Caller} {call' : Call} {lock' : Option Caller}
    {slot' : Option String} (h : CallEdge cfg s c call' lock' slot') :
    slot' = some "" ∨ slot' = s.slotSeen ∧ (call'.SlotRead → (s.calls c).SlotRead) := by
  cases h with
  | noSlot => exact .inl rfl
  | release hc | newer hc => exact .inr ⟨rfl, fun _ => by rw [hc]; trivial⟩
  | _ => exact .inr ⟨rfl, False.elim⟩

theorem CallEdge.isNewer {s : State} {c : Caller} {r : Release} {lock' : Option Caller}
    {slot' : Option String} (h : CallEdge cfg s c (.starting r) lock' slot') :
    isVersionNewer r.version cfg.version = true := by
  cases h with
  | newer _ hnewer => exact hnewer

theorem started_effect {s s' : State} (h : Started cfg s) (heff : Effect sha256 cfg s s') :
    Started cfg s' := by
  -- a call that goes to neither of these points
  have hcall : ∀ {c : Caller} {call' : Call}, s'.calls = Function.update s.calls c call' →
      s'.slotSeen = s.slotSeen → ¬ call'.SlotRead → (∀ r, call' ≠ .starting r) →
      (∀ d, (s'.calls d).SlotRead → s'.slotSeen = some "") ∧
      ∀ d r, s'.calls d = .starting r → isVersionNewer r.version cfg.version = true := by
    intro c call' hcalls hslot hno hns
    refine ⟨fun d hd => ?_, fun d r hd => ?_⟩
    · rw [hslot]
      rcases calls_other hcalls hd with ⟨-, hd⟩ | ⟨-, hd⟩
      · exact absurd hd hno
      · exact h.slot d hd
    · rcases calls_other (P := (· = .starting r)) hcalls hd with ⟨-, hd⟩ | ⟨-, hd⟩
      · exact absurd hd (hns r)
      · exact h.newer d r hd
  cases heff with
  | still calls _ slotSeen _ _ workers =>
    exact ⟨by rw [calls, slotSeen]; exact h.slot, by rw [calls]; exact h.newer,
      by rw [workers]; exact h.workers⟩
  | begin _ calls _ slotSeen _ _ workers =>
    obtain ⟨h1, h2⟩ := hcall calls slotSeen id (by simp)
    exact ⟨h1, h2, by rw [workers]; exact h.workers⟩
  | @call c call' edge calls _ _ workers =>
    refine ⟨fun d hd => ?_, fun d r hd => ?_, by rw [workers]; exact h.workers⟩
    · rcases edge.slot with hslot | ⟨hslot, hread⟩
      · exact hslot
      · rw [hslot]
        rcases calls_other calls hd with ⟨rfl, hd⟩ | ⟨-, hd⟩
        · exact h.slot d (hread hd)
        · exact h.slot d hd
    · rcases calls_other (P := (· = .starting r)) calls hd with ⟨rfl, rfl⟩ | ⟨-, hd⟩
      · exact edge.isNewer
      · exact h.newer d r hd
  | @start c release at_ calls _ slotSeen _ _ workers =>
    obtain ⟨h1, h2⟩ := hcall calls slotSeen id (by simp)
    refine ⟨h1, h2, fun i w hw => ?_⟩
    rw [workers] at hw
    rcases getElem?_concat_cases hw with ⟨-, hold⟩ | ⟨-, rfl⟩
    · exact h.workers i w hold
    · exact ⟨h.newer c release at_, h.slot c (by rw [at_]; trivial)⟩
  | startThrows at_ calls _ slotSeen _ _ workers =>
    obtain ⟨h1, h2⟩ := hcall calls slotSeen id (by simp)
    exact ⟨h1, h2, by rw [workers]; exact h.workers⟩
  | @work i w pc' at_ edge workers calls _ slotSeen =>
    refine ⟨by rw [calls, slotSeen]; exact h.slot, by rw [calls]; exact h.newer, fun j v hv => ?_⟩
    rw [workers] at hv
    rcases getElem?_set_cases hv with ⟨-, rfl⟩ | ⟨-, hv⟩
    · exact h.workers i w at_
    · exact h.workers j v hv

/-- The files that active workers go on with and the bundles that were installed have the checksum
of their release. -/
structure Checked (sha256 : Bytes → Bytes) (cfg : Config) (s : State) : Prop where
  verified : ∀ (i : Nat) (w : Worker), s.workers[i]? = some w → Verified sha256 s.cache w
  installs : ∀ x ∈ s.installs, isVersionNewer x.release.version cfg.version = true ∧
    x.slotAtStart = some "" ∧ HashOk sha256 x.release x.installed

theorem verified_of_not_active {cache : String → Option Bytes} {w : Worker} (h : ¬ w.pc.Active) :
    Verified sha256 cache w := by
  unfold Verified
  split
  next hpc => exact absurd (by rw [hpc]; trivial) h
  next hpc => exact absurd (by rw [hpc]; trivial) h
  next hpc => exact absurd (by rw [hpc]; trivial) h
  next => trivial

theorem checked_effect {s s' : State} (hex : Exclusive s) (hst : Started cfg s)
    (h : Checked sha256 cfg s) (heff : Effect sha256 cfg s s') : Checked sha256 cfg s' := by
  cases heff with
  | still _ _ _ _ _ workers cache installs =>
    exact ⟨by rw [workers, cache]; exact h.verified, by rw [installs]; exact h.installs⟩
  | begin _ _ _ _ _ _ workers cache installs =>
    exact ⟨by rw [workers, cache]; exact h.verified, by rw [installs]; exact h.installs⟩
  | call _ _ _ _ workers cache installs =>
    exact ⟨by rw [workers, cache]; exact h.verified, by rw [installs]; exact h.installs⟩
  | start _ _ _ _ _ _ workers cache installs =>
    refine ⟨fun i w hw => ?_, by rw [installs]; exact h.installs⟩
    rw [workers] at hw
    rw [cache]
    rcases getElem?_concat_cases hw with ⟨-, hold⟩ | ⟨-, rfl⟩
    · exact h.verified i w hold
    · trivial
  | startThrows _ _ _ _ _ _ workers cache installs =>
    exact ⟨by rw [workers, cache]; exact h.verified, by rw [installs]; exact h.installs⟩
  | @work i w pc' at_ edge workers _ _ _ _ cache verified installs =>
    refine ⟨fun j v hv => ?_, ?_⟩
    · rw [workers] at hv
      rcases getElem?_set_cases hv with ⟨-, rfl⟩ | ⟨hne, hv⟩
      · exact verified (h.verified i w at_)
      · rcases cache with hsame | hactive
        · rw [hsame]; exact h.verified j v hv
        · -- only the active worker touches the files
          exact verified_of_not_active fun ha => hne (hex.single j i v w hv at_ ha hactive)
    · rcases installs with hsame | ⟨hpc, hinstall⟩
      · rw [hsame]; exact h.installs
      · rw [hinstall]
        rintro x (_ | ⟨_, hx⟩)
        · have hv := h.verified i w at_
          rw [Verified, hpc] at hv
          exact ⟨(hst.workers i w at_).1, (hst.workers i w at_).2, hv⟩
        · exact h.installs x hx

/-! ## Refused calls -/

/-- Before the start, or refused. -/
def Call.Harmless : Call → Prop
  | .locking | .busyCheck | .slotCheck | .fetching | .comparing _ | .starting _
  | .returned false _ => True
  | _ => False

/-- A call that has not started a worker has changed nothing. -/
def Untouched (s : State) : Prop := ∀ c, (s.calls c).Harmless → s.touched c = false

theorem CallEdge.harmless {s : State} {c : Caller} {call' : Call} {lock' : Option Caller}
    {slot' : Option String} (h : CallEdge cfg s c call' lock' slot') (hc' : call'.Harmless) :
    (s.calls c).Harmless := by
  cases h with
  | lock hc | notBusy hc | noSlot hc | release hc | newer hc => rw [hc]; trivial
  | refuse hin hno =>
    cases hc : s.calls c with
    | joining n => exact absurd hc (hno n)
    | busyCheck | slotCheck | fetching | comparing | starting => trivial
    | _ => rw [hc] at hin; exact hin.elim
  | _ => exact hc'.elim

theorem untouched_effect {s s' : State} (h : Untouched s) (heff : Effect sha256 cfg s s') :
    Untouched s' := by
  intro d hd
  cases heff with
  | still calls _ _ touched => rw [touched]; rw [calls] at hd; exact h d hd
  | @begin c _ calls _ _ touched =>
    rw [touched]
    by_cases hdc : d = c
    · rw [hdc, Function.update_self]
    · rw [calls, Function.update_of_ne hdc] at hd
      rw [Function.update_of_ne hdc]
      exact h d hd
  | call edge calls touched =>
    rw [touched]
    rcases calls_other calls hd with ⟨rfl, hd⟩ | ⟨-, hd⟩
    · exact h d (edge.harmless hd)
    · exact h d hd
  | @start c release at_ calls _ _ touched =>
    rcases calls_other calls hd with ⟨-, hd⟩ | ⟨hdc, hd⟩
    · exact hd.elim
    · rw [touched d hdc]
      exact h d hd
  | @startThrows c release at_ calls _ _ touched =>
    rcases calls_other calls hd with ⟨-, hd⟩ | ⟨hdc, hd⟩
    · exact hd.elim
    · rw [touched d hdc]
      exact h d hd
  | work _ _ _ calls _ _ touched => rw [touched]; rw [calls] at hd; exact h d hd

/-! ## The update -/

structure Safe (sha256 : Bytes → Bytes) (cfg : Config) (s : State) : Prop where
  exclusive : Exclusive s
  started : Started cfg s
  checked : Checked sha256 cfg s
  untouched : Untouched s

theorem safe_inductive : (machine sha256 cfg).Inductive (fun _ _ => True) (Safe sha256 cfg) where
  init := by
    rintro s ⟨pendingSlot, cache, rfl⟩
    have hout : ∀ c, State.calls { pendingSlot, cache } c = .out := by intro c; cases c <;> rfl
    refine ⟨⟨fun c => ?_, fun i w hw => (nomatch hw), fun i j v w hv => (nomatch hv), fun c hc => ?_⟩,
      ⟨fun c hc => ?_, fun c r hc => ?_, fun i w hw => (nomatch hw)⟩,
      ⟨fun i w hw => (nomatch hw), fun x hx => (nomatch hx)⟩, fun c hc => ?_⟩
    · rw [hout]; exact ⟨False.elim, fun h => nomatch h⟩
    · rw [hout] at hc; exact hc.elim
    · rw [hout] at hc; exact hc.elim
    · rw [hout] at hc; cases hc
    · rfl
  step s a s' h _ hs := by
    have heff := step_effect hs
    exact ⟨exclusive_effect h.exclusive heff, started_effect h.started heff,
      checked_effect h.exclusive h.started h.checked heff, untouched_effect h.untouched heff⟩

theorem lower_hex (digest : Bytes) : lower (FileHash.hex digest) = FileHash.hex digest := by
  rw [lower, FileHash.hex_toLower, String.ofList_toList]

/-- The update is safe: at most one worker is active; the phase takes its way; `rauc install` runs
for newer versions that were started with no slot pending, on a file that has the checksum, up to
case, that the release names; a call that returned false has changed nothing. -/
theorem update_safe {s : State} (hr : (machine sha256 cfg).Reachable s) :
    (∀ (i j : Nat) (v w : Worker), s.workers[i]? = some v → s.workers[j]? = some w →
      v.pc.Active → w.pc.Active → i = j) ∧
    (∀ a s', (machine sha256 cfg).step s a = some s' →
      s'.phase_ = s.phase_ ∨ s.phase_.Next s'.phase_) ∧
    (∀ x ∈ s.installs, isVersionNewer x.release.version cfg.version = true ∧
      x.slotAtStart = some "" ∧
      ∀ checksum, x.release.checksum = .string checksum → checksum ≠ "" →
        ∃ bytes, x.installed = some bytes ∧
          lower (FileHash.hex (sha256 bytes)) = lower checksum) ∧
    ∀ c error, s.calls c = .returned false error → s.touched c = false := by
  have h := safe_inductive.of_reachable hr
  refine ⟨h.exclusive.single, fun a s' hs => next_effect h.exclusive (step_effect hs),
    fun x hx => ?_, fun c error hc => h.untouched c (by rw [hc]; trivial)⟩
  obtain ⟨hnewer, hslot, hhash⟩ := h.checked.installs x hx
  refine ⟨hnewer, hslot, fun checksum hc hne => ?_⟩
  obtain ⟨bytes, hbytes, hhex⟩ := hhash checksum hc hne
  exact ⟨bytes, hbytes, by rw [lower_hex]; exact hhex⟩

/-- The SHA-256 of `abc`. -/
def abcDigest : Bytes :=
  [186, 120, 22, 191, 143, 1, 207, 234, 65, 65, 64, 222, 93, 174, 34, 35,
    176, 3, 97, 163, 150, 23, 122, 156, 180, 16, 255, 97, 242, 0, 21, 173]

def frameConfig : Config :=
  { version := "1.0.3", checkIntervalSecs := 3600, autoInstallCriticality := "critical" }

/-- The release 1.1 with the bundle `abc`. -/
def nextRelease : Json :=
  .object (.string "1.1") .absent (.string "https://updates/1.1")
    (.string "BA7816BF8F01CFEA414140DE5DAE2223B00361A396177A9CB410FF61F20015AD")

/-- An update from the dashboard up to `rauc install`, and a second request meanwhile. -/
def installRun : List Act :=
  [.ipcCall, .call .ipc, .call .ipc, .call .ipc, .fetched .ipc ⟨200, "", ""⟩ (some nextRelease),
    .call .ipc, .threadStarted .ipc true, .work 0, .call .ipc, .prepared 0 [], .work 0,
    .downloaded 0 [{ answer := some { statusCode := 200 }, received := [97, 98, 99] }],
    .hashed 0 true false, .renamed 0 none, .work 0, .work 0, .ipcCall, .call .ipc, .call .ipc]

theorem update_safe_install :
    ∃ s, (machine (fun _ => abcDigest) frameConfig).run {} installRun = some s ∧
      s.phase_ = .installing ∧
      (∃ x ∈ s.installs, x.release.version = "1.1" ∧ x.installed = some [97, 98, 99] ∧
        isVersionNewer x.release.version frameConfig.version = true) ∧
      s.calls .ipc = .returned false "Update already in progress" ∧ s.touched .ipc = false := by
  have hrun : ∃ s ∈ (machine (fun _ => abcDigest) frameConfig).run {} installRun,
      s.phase_ = .installing ∧
      (∃ x ∈ s.installs, x.release.version = "1.1" ∧ x.installed = some [97, 98, 99]) ∧
      s.calls .ipc = .returned false "Update already in progress" := by decide +kernel
  obtain ⟨s, hs, hphase, ⟨x, hx, hversion, hbytes⟩, hcall⟩ := hrun
  have hr : (machine (fun _ => abcDigest) frameConfig).Reachable s :=
    Machine.reachable_run installRun ⟨"", fun _ => none, rfl⟩ hs
  obtain ⟨-, -, hinstalls, htouched⟩ := update_safe hr
  exact ⟨s, hs, hphase, ⟨x, hx, hversion, hbytes, (hinstalls x hx).1⟩, hcall,
    htouched .ipc _ hcall⟩

end ShareFrame.UpdateManager
