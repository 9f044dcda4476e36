import ShareFrame.Display.ApSetupDebounce
import ShareFrame.Events.Messages
import ShareFrame.Util.Json

/-!
# Watching the Wi-Fi mode

`execute` polls the mode file of the Wi-Fi daemon and publishes `AP_SETUP_STATE` when
the verdict or the credentials are new. A document that cannot be read makes it throw,
after the debounce has seen the mode or before. What it publishes follows the debounce
(`required_sublist_answers`), so the screen is withdrawn for good (`withdrawn_once`).
-/

namespace ShareFrame

structure WifiModeWatcher where
  debounce_ : ApSetupDebounce
  last_ : ApSetupStateEvent := {}
  deriving DecidableEq, Repr

namespace WifiModeWatcher

/-- The access point to join, read only when the screen is required. -/
def credentials (mode : Json) (required : Bool) : Except Json.Error (String × String) :=
  if required then do
    let ssid ← mode.value Json.getString "ap_ssid" ""
    let password ← mode.value Json.getString "ap_password" ""
    pure (ssid, password)
  else pure ("", "")

/-- `execute` on what the mode file holds: the event to publish, `none` when there is
nothing new. -/
def execute (w : WifiModeWatcher) (mode : Json) (uptimeSecs : Int) :
    WifiModeWatcher × Except Json.Error (Option ApSetupStateEvent) :=
  match mode.value Json.getString "mode" "" with
  | .error e => (w, .error e)
  | .ok name =>
    let (debounce, required) := w.debounce_.update name uptimeSecs
    let w := { w with debounce_ := debounce }
    match credentials mode required with
    | .error e => (w, .error e)
    | .ok (ssid, password) =>
      let state := { required, ssid, password : ApSetupStateEvent }
      -- an access point without a name keeps the current screen
      if required ∧ ssid = "" then (w, .ok none)
      else if state = w.last_ then (w, .ok none)
      else ({ w with last_ := state }, .ok (some state))

/-- What the mode file holds and the uptime of a round. -/
abbrev Round := Json × Int

/-- The events that the rounds publish. A round that throws is logged and left. -/
def published : WifiModeWatcher → List Round → List ApSetupStateEvent
  | _, [] => []
  | w, (mode, uptimeSecs) :: rounds =>
    let (w', result) := w.execute mode uptimeSecs
    match result with
    | .ok (some state) => state :: w'.published rounds
    | .ok none | .error _ => w'.published rounds

/-- The calls of the debounce that the rounds make. -/
def calls (rounds : List Round) : List ApSetupDebounce.Call :=
  rounds.filterMap fun round =>
    match round.1.value Json.getString "mode" "" with
    | .ok name => some (name, round.2)
    | .error _ => none

variable {w w' : WifiModeWatcher} {mode : Json} {uptimeSecs : Int} {rounds : List Round}
  {result : Except Json.Error (Option ApSetupStateEvent)} {state : ApSetupStateEvent}

/-- What a round can do: it fails before the debounce, or the debounce sees the mode
and the round publishes its verdict or nothing. -/
theorem execute_cases (h : w.execute mode uptimeSecs = (w', result)) :
    (∃ e, mode.value Json.getString "mode" "" = .error e ∧ w' = w ∧ result = .error e) ∨
    ∃ name, mode.value Json.getString "mode" "" = .ok name ∧
      w'.debounce_ = (w.debounce_.update name uptimeSecs).1 ∧
      ((w'.last_ = w.last_ ∧ ∀ state, result ≠ .ok (some state)) ∨
        ∃ state, result = .ok (some state) ∧ w'.last_ = state ∧ state ≠ w.last_ ∧
          state.required = (w.debounce_.update name uptimeSecs).2 ∧
          (state.required = true → state.ssid ≠ "")) := by
  unfold execute at h
  split at h
  next e he =>
    obtain ⟨rfl, rfl⟩ := Prod.mk.inj h
    exact .inl ⟨e, he, rfl, rfl⟩
  next name hname =>
    refine .inr ⟨name, hname, ?_⟩
    dsimp only at h
    split at h
    · obtain ⟨rfl, rfl⟩ := Prod.mk.inj h
      exact ⟨rfl, .inl ⟨rfl, by rintro state ⟨⟩⟩⟩
    · split at h
      · obtain ⟨rfl, rfl⟩ := Prod.mk.inj h
        exact ⟨rfl, .inl ⟨rfl, by rintro state ⟨⟩⟩⟩
      next hssid =>
        split at h
        · obtain ⟨rfl, rfl⟩ := Prod.mk.inj h
          exact ⟨rfl, .inl ⟨rfl, by rintro state ⟨⟩⟩⟩
        next hnew =>
          obtain ⟨rfl, rfl⟩ := Prod.mk.inj h
          exact ⟨rfl, .inr ⟨_, rfl, rfl, hnew, rfl, fun hreq hempty => hssid ⟨hreq, hempty⟩⟩⟩

/-- The published verdicts are verdicts of the debounce, in order. -/
theorem required_sublist_answers (w : WifiModeWatcher) (rounds : List Round) :
    ((w.published rounds).map (·.required)).Sublist (w.debounce_.answers (calls rounds)) := by
  induction rounds generalizing w with
  | nil => exact List.Sublist.slnil
  | cons round rounds ih =>
    obtain ⟨mode, uptimeSecs⟩ := round
    cases hexec : w.execute mode uptimeSecs with
    | mk w' result =>
      have htail := ih w'
      obtain ⟨e, he, rfl, rfl⟩ | ⟨name, hname, hdebounce, ⟨-, hnone⟩ | ⟨state, rfl, -, -, hreq, -⟩⟩ :=
        execute_cases hexec
      · simpa only [published, hexec, calls, List.filterMap_cons, he] using htail
      · rw [hdebounce] at htail
        have hpublished : w.published ((mode, uptimeSecs) :: rounds) = w'.published rounds := by
          simp only [published, hexec]
          split
          · exact absurd rfl (hnone _)
          · rfl
          · rfl
        rw [hpublished]
        simp only [calls, List.filterMap_cons, hname, ApSetupDebounce.answers]
        exact htail.cons _
      · rw [hdebounce] at htail
        simp only [published, hexec, calls, List.filterMap_cons, hname, ApSetupDebounce.answers,
          List.map_cons, hreq]
        exact htail.cons_cons _

/-- A setup screen that was withdrawn is not asked for again in the same boot. -/
theorem withdrawn_once (bootWindowSecs : Int) (hord : rounds.Pairwise (·.2 ≤ ·.2)) :
    ¬ [true, false, true].Sublist
      ((published ⟨⟨bootWindowSecs, false, false⟩, {}⟩ rounds).map (·.required)) := by
  intro hflap
  refine ApSetupDebounce.not_sublist_answers ?_ (hflap.trans (required_sublist_answers _ rounds))
  refine List.pairwise_filterMap.mpr (hord.imp fun hle => ?_)
  intro c hc c' hc'
  split at hc <;> cases hc
  split at hc' <;> cases hc'
  exact hle

end WifiModeWatcher

end ShareFrame
