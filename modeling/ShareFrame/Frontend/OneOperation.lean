import ShareFrame.Frontend.SlideshowOperation
import ShareFrame.Lib.Places
import ShareFrame.Lib.Turns

/-!
# One operation at a time

Between its guard and its last request no other thunk sends anything, and every thunk clears
its flag once, as long as no follow-up clear of a toggle is rejected. Where one is, the `catch`
inside the loop lets the toggle go on with its flag already down: others pass the guard, and
the toggle clears its flag and the panel once more (`cleared` counts it). A thunk whose
awaits settle comes to its end in any case (`Pc.rank`).
-/

namespace ShareFrame.SlideshowOperation

open Transition Turns
open Places (getElem?_set_cases getElem?_concat_cases)

/-- The guard was passed. -/
def Enters (e : Effect) : Prop := e = .setStatus true

def Sends (e : Effect) : Prop := ∃ r, e = .send r

/-- No follow-up clear of a toggle is rejected. -/
def FollowUpAnswered (s : St) : Act → Prop
  | .dispatch _ _ => True
  | .settle i answer _ => ∀ f ∈ s.flights[i]?, followUpRejected f.pc answer = false

instance (s : St) : (a : Act) → Decidable (FollowUpAnswered s a)
  | .dispatch _ _ => .isTrue trivial
  | .settle i answer _ =>
    inferInstanceAs (Decidable (∀ f ∈ s.flights[i]?, followUpRejected f.pc answer = false))

/-! ## One step -/

/-- A thunk behind its guard. -/
def St.passed (s : St) (t : Thunk) (now : Nat) : St :=
  St.emit { s with flights := s.flights ++ [⟨t, t.start.1, 0⟩] } s.flights.length t now t.start.2

/-- The `i`-th thunk behind an await. -/
def St.settled (s : St) (i : Nat) (f : Flight) (answer : Answer) (now : Nat)
    (p : Pc × List Effect) : St :=
  St.emit { s with flights := s.flights.set i (f.settled p.1 answer) } i f.thunk now p.2

/-- What a step does. -/
inductive Step (s : St) : Act → St → Prop where
  | refused (t : Thunk) (now : Nat) : s.now ≤ now → Step s (.dispatch t now) { s with now }
  | passed (t : Thunk) (now : Nat) : s.now ≤ now → s.store.busy = false →
    Step s (.dispatch t now) (s.passed t now)
  | settled (i : Nat) (answer : Answer) (now : Nat) (f : Flight) (p : Pc × List Effect) :
    s.now ≤ now → s.flights[i]? = some f → resume f.thunk f.pc answer now = some p →
    Step s (.settle i answer now) (s.settled i f answer now p)

variable {s s' : St} {a : Act} {i j : Nat} {f g : Flight}

theorem Step.of_step (h : step s a = some s') : Step s a s' := by
  cases a with
  | dispatch t now =>
    rw [step] at h
    split at h
    · cases h
    · next hnow =>
      split at h
      · obtain rfl := Option.some.inj h
        exact .refused t now (Nat.le_of_not_lt hnow)
      · next hbusy =>
        obtain rfl := Option.some.inj h
        exact .passed t now (Nat.le_of_not_lt hnow) (Bool.eq_false_iff.mpr hbusy)
  | settle i answer now =>
    rw [step] at h
    split at h
    · cases h
    · next hnow =>
      obtain ⟨f, hf, h⟩ := Option.bind_eq_some_iff.mp h
      obtain ⟨p, hp, h⟩ := Option.bind_eq_some_iff.mp h
      obtain rfl := Option.some.inj h
      exact .settled i answer now f p (Nat.le_of_not_lt hnow) hf hp

theorem start_cases (t : Thunk) :
    ∃ r, t.start.2 = [.setStatus true, .send r] ∧ t.start.1.engaged = true ∧
      (t = .toggleSlideshowThunk → r ≠ .clear) := by
  cases t with
  | toggleSlideshowThunk => exact ⟨_, rfl, rfl, by rintro - ⟨⟩⟩
  | _ => exact ⟨_, rfl, rfl, by rintro ⟨⟩⟩

/-! ## Counting -/

theorem Advance.count_cleared {pc : Pc} {answer : Answer} {p : Pc × List Effect}
    (h : Advance pc answer p) :
    (!pc.engaged).toNat + p.2.count (.setStatus false) =
      (followUpRejected pc answer).toNat + (!p.1.engaged).toNat := by
  cases h with
  | goes he hp =>
    have hcount : p.2.count (.setStatus false) = 0 := by
      refine List.count_eq_zero.mpr fun hmem => ?_
      obtain ⟨r, hr, -⟩ := hp.2 _ hmem
      cases hr
    rw [he, hp.1, hcount, followUpRejected_of_engaged answer he]
    rfl
  | ends he hp =>
    rw [he, hp.1, hp.2.1, followUpRejected_of_engaged answer he]
    rfl
  | follows he hp =>
    obtain ⟨⟨wasActive, startTime, hpc⟩, heffects⟩ := hp
    rw [he, hpc, heffects, followUpRejected_of_engaged answer he]
    rfl
  | followed wasActive startTime status => rfl
  | again wasActive startTime since error => rfl

theorem Advance.count_raised {pc : Pc} {answer : Answer} {p : Pc × List Effect}
    (h : Advance pc answer p) : p.2.count (.setStatus true) = 0 := by
  cases h with
  | goes he hp =>
    refine List.count_eq_zero.mpr fun hmem => ?_
    obtain ⟨r, hr, -⟩ := hp.2 _ hmem
    cases hr
  | ends he hp => exact List.count_eq_zero.mpr hp.2.2.1
  | follows he hp => rw [hp.2]; rfl
  | followed wasActive startTime status => rfl
  | again wasActive startTime since error => rfl

theorem Advance.count_clears {pc : Pc} {answer : Answer} {p : Pc × List Effect}
    (h : Advance pc answer p) :
    (!pc.engaged).toNat + p.2.count (.send .clear) ≤
      (followUpRejected pc answer).toNat + (!p.1.engaged).toNat := by
  cases h with
  | goes he hp =>
    have hcount : p.2.count (.send .clear) = 0 := by
      refine List.count_eq_zero.mpr fun hmem => ?_
      obtain ⟨r, hr, hne⟩ := hp.2 _ hmem
      exact hne (Effect.send.inj hr).symm
    rw [he, hcount]
    exact Nat.zero_le _
  | ends he hp =>
    rw [he, List.count_eq_zero.mpr (hp.2.2.2 .clear)]
    exact Nat.zero_le _
  | follows he hp =>
    obtain ⟨⟨wasActive, startTime, hpc⟩, heffects⟩ := hp
    rw [he, hpc, heffects, followUpRejected_of_engaged answer he]
    exact Nat.le_refl _
  | followed wasActive startTime status => exact Nat.le_refl _
  | again wasActive startTime since error => exact Nat.le_refl _

/-- How often a thunk raised and cleared its flag, and sent its follow-up clear. -/
structure Counted (s : St) : Prop where
  known : ∀ x ∈ s.log, x.1 < s.flights.length
  raised : ∀ i f, s.flights[i]? = some f → s.log.count (i, .setStatus true) = 1
  cleared : ∀ i f, s.flights[i]? = some f →
    s.log.count (i, .setStatus false) = f.rejects + (!f.pc.engaged).toNat
  clears : ∀ i f, s.flights[i]? = some f → f.thunk = .toggleSlideshowThunk →
    s.log.count (i, .send .clear) ≤ f.rejects + (!f.pc.engaged).toNat

theorem Counted.count_fresh (h : Counted s) (e : Effect) : s.log.count (s.flights.length, e) = 0 :=
  List.count_eq_zero.mpr fun hmem => absurd (h.known _ hmem) (Nat.lt_irrefl _)

/-- An effect in the log behind a step of the `i`-th thunk. -/
theorem count_emit (s : St) (i j : Nat) (t : Thunk) (now : Nat) (effects : List Effect)
    (e : Effect) : (s.emit i t now effects).log.count (j, e) =
      s.log.count (j, e) + if j = i then effects.count e else 0 := by
  rw [St.emit, List.count_append, count_tagged]

theorem known_emit (hs : ∀ x ∈ s.log, x.1 < j) (hi : i < j) (t : Thunk) (now : Nat)
    (effects : List Effect) : ∀ x ∈ (s.emit i t now effects).log, x.1 < j := by
  refine List.forall_mem_append.mpr ⟨hs, fun x hx => ?_⟩
  rw [fst_of_mem_tagged hx]
  exact hi

theorem length_passed (s : St) (t : Thunk) (now : Nat) :
    (s.passed t now).flights.length = s.flights.length + 1 := List.length_append

theorem counted_passed (hs : Counted s) (t : Thunk) (now : Nat) : Counted (s.passed t now) := by
  obtain ⟨r, heffects, he, hr⟩ := start_cases t
  have hold (e : Effect) {j : Nat} (hj : j < s.flights.length) :
      (s.passed t now).log.count (j, e) = s.log.count (j, e) := by
    rw [St.passed, count_emit, if_neg (Nat.ne_of_lt hj), Nat.add_zero]
  have hnew (e : Effect) :
      (s.passed t now).log.count (s.flights.length, e) = t.start.2.count e := by
    rw [St.passed, count_emit, if_pos rfl, hs.count_fresh, Nat.zero_add]
  refine ⟨?_, fun j f hf => ?_, fun j f hf => ?_, fun j f hf ht => ?_⟩
  · rw [length_passed]
    exact known_emit (fun x hx => Nat.lt_succ_of_lt (hs.known x hx)) (Nat.lt_succ_self _) t now _
  · obtain ⟨hj, hf⟩ | ⟨rfl, rfl⟩ := getElem?_concat_cases hf
    · rw [hold _ hj, hs.raised j f hf]
    · rw [hnew, heffects]
      rfl
  · obtain ⟨hj, hf⟩ | ⟨rfl, rfl⟩ := getElem?_concat_cases hf
    · rw [hold _ hj, hs.cleared j f hf]
    · rw [hnew, heffects, he]
      rfl
  · obtain ⟨hj, hf⟩ | ⟨rfl, rfl⟩ := getElem?_concat_cases hf
    · rw [hold _ hj]
      exact hs.clears j f hf ht
    · have hne : ∀ x ∈ [Effect.setStatus true, .send r], x ≠ .send .clear := by
        simp [hr ht]
      rw [hnew, heffects, List.count_eq_zero.mpr fun hmem => hne _ hmem rfl]
      exact Nat.zero_le _

theorem counted_settled (hs : Counted s) {answer : Answer} {p : Pc × List Effect}
    (hf : s.flights[i]? = some f) (hadv : Advance f.pc answer p) (now : Nat) :
    Counted (s.settled i f answer now p) := by
  obtain ⟨hi, -⟩ := List.getElem?_eq_some_iff.mp hf
  have hlen : (s.settled i f answer now p).flights.length = s.flights.length := List.length_set
  refine ⟨?_, fun j g hg => ?_, fun j g hg => ?_, fun j g hg ht => ?_⟩
  · rw [hlen]
    exact known_emit hs.known hi f.thunk now p.2
  · rw [St.settled, count_emit]
    obtain ⟨rfl, rfl⟩ | ⟨hj, hg⟩ := getElem?_set_cases hg
    · rw [if_pos rfl, hadv.count_raised, hs.raised j f hf]
    · rw [if_neg hj, hs.raised j g hg]
  · rw [St.settled, count_emit]
    obtain ⟨rfl, rfl⟩ | ⟨hj, hg⟩ := getElem?_set_cases hg
    · have hcount := hadv.count_cleared
      rw [if_pos rfl, hs.cleared j f hf]
      simp only [Flight.settled]
      omega
    · rw [if_neg hj, hs.cleared j g hg, Nat.add_zero]
  · rw [St.settled, count_emit]
    obtain ⟨rfl, rfl⟩ | ⟨hj, hg⟩ := getElem?_set_cases hg
    · have hcount := hadv.count_clears
      have hle := hs.clears j f hf ht
      rw [if_pos rfl]
      simp only [Flight.settled]
      omega
    · rw [if_neg hj, Nat.add_zero]
      exact hs.clears j g hg ht

theorem counted_step (hs : Counted s) (h : Step s a s') : Counted s' := by
  cases h with
  | refused t now hnow => exact ⟨hs.known, hs.raised, hs.cleared, hs.clears⟩
  | passed t now hnow hbusy => exact counted_passed hs t now
  | settled i answer now f p hnow hf hp => exact counted_settled hs hf (advance_resume hp) now

theorem inductive_counted : machine.Inductive (fun _ _ => True) Counted where
  init := by
    rintro s rfl
    exact ⟨by rintro x ⟨⟩, by rintro i f ⟨⟩, by rintro i f ⟨⟩, by rintro i f ⟨⟩⟩
  step s a s' hs _ h := counted_step hs (Step.of_step h)

/-! ## Taking turns -/

def Thunk.flag : Thunk → SlideshowOperationState → Bool
  | updateDisplayImagesLoopInterval _ => (·.isUpdatingInterval)
  | skipImageThunk => (·.isSkippingImage)
  | showImageThunk _ => (·.isShowingImage)
  | clearDisplayThunk => (·.isClearingDisplay)
  | toggleSlideshowThunk => (·.isToggling)

theorem busy_of_flag {t : Thunk} {store : SlideshowOperationState} (h : t.flag store = true) :
    store.busy = true := by
  cases t <;> simp_all [Thunk.flag, SlideshowOperationState.busy]

theorem flag_setStatus (t : Thunk) (b : Bool) (now : Nat) (store : SlideshowOperationState) :
    t.flag (t.setStatus b now store) = b := by
  cases t <;> rfl

theorem store_of_goes {p : Pc × List Effect} (h : Goes p) (t : Thunk) (now : Nat)
    (store : SlideshowOperationState) : p.2.foldl (t.apply now) store = store := by
  obtain ⟨pc, effects⟩ := p
  obtain ⟨-, h⟩ := h
  replace h : ∀ e ∈ effects, ∃ r, e = .send r ∧ r ≠ .clear := h
  induction effects with
  | nil => rfl
  | cons e effects ih =>
    obtain ⟨⟨r, rfl, -⟩, hrest⟩ := List.forall_mem_cons.mp h
    exact ih hrest

/-- In a run in which no follow-up clear is rejected. -/
structure Orderly (s : St) : Prop where
  rejects : ∀ (i : Nat) (f : Flight), s.flights[i]? = some f → f.rejects = 0
  up : ∀ (i : Nat) (f : Flight), s.flights[i]? = some f → f.pc.engaged = true →
    f.thunk.flag s.store = true
  one : ∀ (i j : Nat) (f g : Flight), s.flights[i]? = some f → s.flights[j]? = some g →
    f.pc.engaged = true → g.pc.engaged = true → i = j
  alone : ∀ (i : Nat) (f : Flight), s.flights[i]? = some f → f.pc.engaged = true →
    Alone Enters Sends i s.log
  exclusive : Exclusive Enters Sends s.log

/-- Where no flag is up nobody is on the way. -/
theorem Orderly.idle (hs : Orderly s) (h : s.store.busy = false) (hf : s.flights[i]? = some f) :
    f.pc.engaged = false := by
  refine Bool.eq_false_iff.mpr fun he => ?_
  rw [busy_of_flag (hs.up i f hf he)] at h
  cases h

theorem orderly_passed (hc : Counted s) (hs : Orderly s) (hbusy : s.store.busy = false) (t : Thunk)
    (now : Nat) : Orderly (s.passed t now) := by
  obtain ⟨r, heffects, he, -⟩ := start_cases t
  have hnew : ∀ x ∈ t.start.2.map fun e => (s.flights.length, e), x.1 = s.flights.length :=
    fun x hx => fst_of_mem_tagged hx
  have halone : Alone Enters Sends s.flights.length s.log :=
    .of_notMem fun x hx => Nat.ne_of_lt (hc.known x hx)
  refine ⟨fun j f hf => ?_, fun j f hf hj => ?_, fun j k f g hf hg hj hk => ?_,
    fun j f hf hj => ?_, ?_⟩
  · obtain ⟨-, hf⟩ | ⟨-, rfl⟩ := getElem?_concat_cases hf
    · exact hs.rejects j f hf
    · rfl
  · obtain ⟨-, hf⟩ | ⟨-, rfl⟩ := getElem?_concat_cases hf
    · rw [hs.idle hbusy hf] at hj
      cases hj
    · simp only [St.passed, St.emit, heffects]
      exact flag_setStatus t true now s.store
  · obtain ⟨-, hf⟩ | ⟨hjn, -⟩ := getElem?_concat_cases hf
    · rw [hs.idle hbusy hf] at hj
      cases hj
    · obtain ⟨-, hg⟩ | ⟨hkn, -⟩ := getElem?_concat_cases hg
      · rw [hs.idle hbusy hg] at hk
        cases hk
      · rw [hjn, hkn]
  · obtain ⟨-, hf⟩ | ⟨rfl, -⟩ := getElem?_concat_cases hf
    · rw [hs.idle hbusy hf] at hj
      cases hj
    · exact halone.append fun x hx _ => hnew x hx
  · exact hs.exclusive.append (fun x hx _ => hnew x hx) fun _ => halone

/-- A thunk that is on the way stays the only one, or none is left. -/
theorem orderly_engaged (hs : Orderly s) (hf : s.flights[i]? = some f)
    (he : f.pc.engaged = true) {answer : Answer} {now : Nat} {p : Pc × List Effect}
    (hp : p.1.engaged = false ∨ Goes p) : Orderly (s.settled i f answer now p) := by
  have hnew : ∀ x ∈ p.2.map fun e => (i, e), x.1 = i := fun x hx => fst_of_mem_tagged hx
  have hother {j : Nat} {g : Flight} (hj : j ≠ i) (hg : s.flights[j]? = some g) :
      g.pc.engaged = false :=
    Bool.eq_false_iff.mpr fun hge => hj (hs.one j i g f hg hf hge he)
  refine ⟨fun j g hg => ?_, fun j g hg hj => ?_, fun j k g g' hg hg' hj hk => ?_,
    fun j g hg hj => ?_, ?_⟩
  · obtain ⟨rfl, rfl⟩ | ⟨-, hg⟩ := getElem?_set_cases hg
    · simp only [Flight.settled, hs.rejects j f hf, followUpRejected_of_engaged answer he]
      rfl
    · exact hs.rejects j g hg
  · obtain ⟨rfl, rfl⟩ | ⟨hji, hg⟩ := getElem?_set_cases hg
    · obtain hp | hp := hp
      · rw [show (f.settled p.1 answer).pc = p.1 from rfl, hp] at hj
        cases hj
      · simp only [St.settled, St.emit, store_of_goes hp]
        exact hs.up j f hf he
    · rw [hother hji hg] at hj
      cases hj
  · obtain ⟨hji, -⟩ | ⟨hji, hg⟩ := getElem?_set_cases hg
    · obtain ⟨hki, -⟩ | ⟨hki, hg'⟩ := getElem?_set_cases hg'
      · rw [hji, hki]
      · rw [hother hki hg'] at hk
        cases hk
    · rw [hother hji hg] at hj
      cases hj
  · obtain ⟨rfl, -⟩ | ⟨hji, hg⟩ := getElem?_set_cases hg
    · exact (hs.alone j f hf he).append fun x hx _ => hnew x hx
    · rw [hother hji hg] at hj
      cases hj
  · exact hs.exclusive.append (fun x hx _ => hnew x hx) fun _ => hs.alone i f hf he

/-- The follow-up clear was answered. -/
theorem orderly_followed (hs : Orderly s) (hf : s.flights[i]? = some f) {answer : Answer}
    {now : Nat} (hanswer : followUpRejected f.pc answer = false) :
    Orderly (s.settled i f answer now (.returned, [])) := by
  have hlog : (s.settled i f answer now (.returned, [])).log = s.log := List.append_nil _
  have hold {j : Nat} {g : Flight}
      (hg : (s.settled i f answer now (.returned, [])).flights[j]? = some g)
      (hj : g.pc.engaged = true) : s.flights[j]? = some g := by
    obtain ⟨-, rfl⟩ | ⟨-, hg⟩ := getElem?_set_cases hg
    · cases hj
    · exact hg
  refine ⟨fun j g hg => ?_, fun j g hg hj => hs.up j g (hold hg hj) hj,
    fun j k g g' hg hg' hj hk => hs.one j k g g' (hold hg hj) (hold hg' hk) hj hk,
    fun j g hg hj => ?_, ?_⟩
  · obtain ⟨rfl, rfl⟩ | ⟨-, hg⟩ := getElem?_set_cases hg
    · simp only [Flight.settled, hs.rejects j f hf, hanswer]
      rfl
    · exact hs.rejects j g hg
  · rw [hlog]
    exact hs.alone j g (hold hg hj) hj
  · rw [hlog]
    exact hs.exclusive

theorem orderly_step (hc : Counted s) (hs : Orderly s) (hG : FollowUpAnswered s a)
    (h : Step s a s') : Orderly s' := by
  cases h with
  | refused t now hnow => exact ⟨hs.rejects, hs.up, hs.one, hs.alone, hs.exclusive⟩
  | passed t now hnow hbusy => exact orderly_passed hc hs hbusy t now
  | settled i answer now f p hnow hf hp =>
    have hanswer : followUpRejected f.pc answer = false := hG f hf
    generalize hpc : f.pc = pc at hp hanswer
    cases advance_resume hp with
    | goes he hgoes => exact orderly_engaged hs hf (hpc ▸ he) (.inr hgoes)
    | ends he hends => exact orderly_engaged hs hf (hpc ▸ he) (.inl (by rw [hends.1]; rfl))
    | follows he hfollows =>
      obtain ⟨⟨wasActive, startTime, hclear⟩, -⟩ := hfollows
      exact orderly_engaged hs hf (hpc ▸ he) (.inl (by rw [hclear]; rfl))
    | followed wasActive startTime status => exact orderly_followed hs hf (hpc ▸ hanswer)
    | again wasActive startTime since error => cases hanswer

theorem inductive_orderly : machine.Inductive FollowUpAnswered fun s => Counted s ∧ Orderly s where
  init := by
    rintro s rfl
    exact ⟨inductive_counted.init _ rfl, by rintro i f ⟨⟩, by rintro i f ⟨⟩, by rintro i j f g ⟨⟩,
      by rintro i f ⟨⟩, exclusive_nil⟩
  step s a s' hs hG h :=
    ⟨counted_step hs.1 (Step.of_step h), orderly_step hs.1 hs.2 hG (Step.of_step h)⟩

end ShareFrame.SlideshowOperation
