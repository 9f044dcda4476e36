import Mathlib.Data.List.Nodup
import Mathlib.Logic.Function.Basic
import ShareFrame.Display.DisplayService
import ShareFrame.Util.Text

/-!
# Settings in the repository

`RuntimeSettings` keeps ten settings, one row each. A setter changes the memory and
then writes its rows one by one; the constructor takes the configured value of a
setting and reads its row over it. A row that was written is read back
(`restore_set`), so after any updates a restart restores the settings as they were
(`settings_survive`). A setter that is cut short between two rows is not undone
(`all_or_nothing_iff`).
-/

namespace ShareFrame.StoredSettings

open Transition

inductive Setting where
  | displayInterval
  | slideshowActive
  | nightModeEnabled
  | nightStartHour
  | nightEndHour
  | nightInterval
  | nightStyle
  | playbackMode
  | customOrder
  | showSender
  deriving DecidableEq, Repr

abbrev Setting.Val : Setting → Type
  | .displayInterval | .nightStartHour | .nightEndHour | .nightInterval => Int
  | .slideshowActive | .nightModeEnabled | .showSender => Bool
  | .nightStyle => NightStyle
  | .playbackMode => PlaybackMode
  | .customOrder => List Int

/-- The key of its row. -/
def Setting.key : Setting → String
  | .displayInterval => "display_interval"
  | .slideshowActive => "slideshow_active"
  | .nightModeEnabled => "night_mode_enabled"
  | .nightStartHour => "night_start_hour"
  | .nightEndHour => "night_end_hour"
  | .nightInterval => "night_interval"
  | .nightStyle => "night_style"
  | .playbackMode => "playback_mode"
  | .customOrder => "playback_custom_order"
  | .showSender => "show_sender"

theorem Setting.key_injective : Function.Injective Setting.key := by
  intro a b h
  cases a <;> cases b <;> first | rfl | exact absurd h (by decide)

/-- The fields of `RuntimeSettings`. -/
abbrev Settings := (setting : Setting) → setting.Val

/-- The configured values, of any kind. -/
structure Config where
  intervalSecs : Int
  nightModeEnabled : Bool
  nightStartHour : Int
  nightEndHour : Int
  nightIntervalSecs : Int
  nightStyle : String

/-- `SettingsRepository`, by key. -/
abbrev Rows := String → Option String

variable (cfg : Config) (dump : Json → String) (parse : String → Option Json)

/-! ## The constructor -/

/-- What the fields hold before the rows are read. -/
def Setting.initial : (setting : Setting) → setting.Val
  | .displayInterval => cfg.intervalSecs
  | .slideshowActive => true
  | .nightModeEnabled => cfg.nightModeEnabled
  | .nightStartHour => cfg.nightStartHour
  | .nightEndHour => cfg.nightEndHour
  | .nightInterval => cfg.nightIntervalSecs
  | .nightStyle => (nightStyleFromString cfg.nightStyle).getD .hold
  | .playbackMode => .chronological
  | .customOrder => []
  | .showSender => false

/-- A number that passes the filter; where `std::stoi` throws, the target stays. -/
def restoreInt (ok : Int → Bool) (text : String) (target : Int) : Int :=
  match Text.integer 32 text with
  | some (val, _) => if ok val then val else target
  | none => target

def restoreSecs : String → Int → Int := restoreInt fun val => val > 0

def restoreHour : String → Int → Int := restoreInt fun val => val ≥ 0 && val ≤ 23

/-- A list of ids; where the parser or the conversion throws, the target stays. -/
def restoreOrder (text : String) (target : List Int) : List Int :=
  match (parse text).map Json.getInt64s with
  | some (.ok ids) => ids
  | _ => target

/-- The text of a row, read over a field. -/
def Setting.restore : (setting : Setting) → String → setting.Val → setting.Val
  | .displayInterval, text, target | .nightInterval, text, target => restoreSecs text target
  | .nightStartHour, text, target | .nightEndHour, text, target => restoreHour text target
  | .slideshowActive, text, _ | .nightModeEnabled, text, _ | .showSender, text, _ => text == "1"
  | .nightStyle, text, target => (nightStyleFromString text).getD target
  | .playbackMode, text, target => (playbackModeFromString text).getD target
  | .customOrder, text, target => restoreOrder parse text target

/-- `RuntimeSettings::RuntimeSettings` -/
def restore (rows : Rows) : Settings := fun setting =>
  match rows setting.key with
  | some text => setting.restore parse text (setting.initial cfg)
  | none => setting.initial cfg

/-! ## The setters -/

def Setting.text : (setting : Setting) → setting.Val → String
  | .displayInterval, val | .nightStartHour, val | .nightEndHour, val | .nightInterval, val => toString val
  | .slideshowActive, val | .nightModeEnabled, val | .showSender, val => if val then "1" else "0"
  | .nightStyle, style => style.toString
  | .playbackMode, mode => mode.toString
  | .customOrder, ids => dump (.arr (ids.map .int))

/-- A setting and its new value. -/
abbrev Write := (setting : Setting) × setting.Val

/-- `SettingsRepository::set` -/
def set (rows : Rows) (w : Write) : Rows :=
  Function.update rows w.1.key (some (w.1.text dump w.2))

/-- An assignment to the field. -/
def assign (memory : Settings) (w : Write) : Settings := Function.update memory w.1 w.2

def setDisplayInterval (secs : Int) : List Write := [⟨.displayInterval, secs⟩]

def setSlideshowActive (active : Bool) : List Write := [⟨.slideshowActive, active⟩]

def setNightMode (enabled : Bool) (startHour endHour intervalSecs : Int) (style : NightStyle) :
    List Write :=
  [⟨.nightModeEnabled, enabled⟩, ⟨.nightStartHour, startHour⟩, ⟨.nightEndHour, endHour⟩,
    ⟨.nightInterval, intervalSecs⟩, ⟨.nightStyle, style⟩]

def setPlaybackOrder (mode : PlaybackMode) (customOrder : List Int) : List Write :=
  [⟨.playbackMode, mode⟩, ⟨.customOrder, customOrder⟩]

def setShowSender (showSender : Bool) : List Write := [⟨.showSender, showSender⟩]

/-- The handlers of the slideshow loop. -/
def setter : DisplayEvent → List Write
  | .updateDisplayInterval secs => setDisplayInterval secs
  | .updateNightMode night => setNightMode night.val.enabled night.val.startHour night.val.endHour
      night.val.intervalSecs night.val.style
  | .updatePlaybackOrder mode customOrder => setPlaybackOrder mode customOrder
  | .updateCustomization showSender => setShowSender showSender
  | .setSlideshowActive active => setSlideshowActive active
  | .skipImage | .showImage _ | .clearDisplay | .statusScreen _ => []

/-- What a message to the display service sets. -/
def writes (msg : IpcMessage) : List Write :=
  match DisplayIpc.readEvent msg with
  | .ok (some event) => setter event
  | _ => []

/-! ## The service -/

structure State where
  rows : Rows
  memory : Settings

inductive Act where
  /-- a message sets its settings -/
  | update (msg : IpcMessage)
  /-- so many rows are written, the next write throws -/
  | throws (msg : IpcMessage) (written : Nat)
  /-- the process dies behind so many rows and is started again -/
  | dies (msg : IpcMessage) (written : Nat)

/-- The rows behind the first writes of a setter. -/
def rowsAfter (s : State) (msg : IpcMessage) (written : Nat) : Rows :=
  ((writes msg).take written).foldl (set dump) s.rows

/-- The memory is set before the first row is written. -/
def memoryAfter (s : State) (msg : IpcMessage) : Settings := (writes msg).foldl assign s.memory

def step (s : State) : Act → Option State
  | .update msg =>
    some { rows := rowsAfter dump s msg (writes msg).length, memory := memoryAfter s msg }
  | .throws msg written =>
    if written < (writes msg).length then
      some { rows := rowsAfter dump s msg written, memory := memoryAfter s msg }
    else none
  | .dies msg written =>
    let rows := rowsAfter dump s msg written
    some { rows, memory := restore cfg parse rows }

/-- The service starts with any rows. -/
def machine : Machine State Act where
  Init s := s.memory = restore cfg parse s.rows
  step := step cfg dump parse

variable {cfg dump parse}

/-! ## Written settings are read back -/

/-- The writer and the parser are inverse on lists of ids. -/
def ReadsOrders (dump : Json → String) (parse : String → Option Json) : Prop :=
  ∀ ids : List Int, (∀ id ∈ ids, Json.IsInt64 id) →
    parse (dump (.arr (ids.map .int))) = some (.arr (ids.map .int))

def SecsOk (secs : Int) : Prop := 0 < secs ∧ secs ≤ 2147483647

/-- The values that the filters of the constructor let through. -/
def Write.Fits : Write → Prop
  | ⟨.displayInterval, secs⟩ | ⟨.nightInterval, secs⟩ => SecsOk secs
  | ⟨.nightStartHour, hour⟩ | ⟨.nightEndHour, hour⟩ => Night.HourOk hour
  | ⟨.customOrder, ids⟩ => ∀ id ∈ ids, Json.IsInt64 id
  | _ => True

theorem restoreInt_toString {ok : Int → Bool} {val : Int} (h : 0 ≤ val) (h' : val ≤ 2147483647)
    (hok : ok val = true) (target : Int) : restoreInt ok (toString val) target = val := by
  have hpow : Int.pow 2 (32 - 1) = 2147483648 := rfl
  rw [restoreInt, Text.integer_toString 32 (by omega) (by omega)]
  simp only [hok, if_true]

theorem SecsOk.restore {secs : Int} (h : SecsOk secs) (target : Int) :
    restoreSecs (toString secs) target = secs :=
  restoreInt_toString (Int.le_of_lt h.1) h.2 (decide_eq_true h.1) target

theorem restoreHour_toString {hour : Int} (h : Night.HourOk hour) (target : Int) :
    restoreHour (toString hour) target = hour := by
  obtain ⟨h0, h23⟩ := h
  exact restoreInt_toString h0 (by omega) (by simp [h0, h23]) target

theorem Write.Fits.read (hjson : ReadsOrders dump parse) {w : Write} (h : w.Fits) (target : w.1.Val) :
    w.1.restore parse (w.1.text dump w.2) target = w.2 := by
  obtain ⟨setting, val⟩ := w
  cases setting with
  | displayInterval | nightInterval => exact SecsOk.restore h target
  | nightStartHour | nightEndHour => exact restoreHour_toString h target
  | slideshowActive | nightModeEnabled | showSender => cases val <;> rfl
  | nightStyle => cases val <;> rfl
  | playbackMode => cases val <;> rfl
  | customOrder =>
    show restoreOrder parse (dump (.arr (val.map .int))) target = val
    rw [restoreOrder, hjson val h]
    simp only [Option.map_some, Json.getInt64s_map_int h]

/-- A row that is written changes its setting only, to the written value. -/
theorem restore_set (hjson : ReadsOrders dump parse) {w : Write} (h : w.Fits) (rows : Rows) :
    restore cfg parse (set dump rows w) = assign (restore cfg parse rows) w := by
  funext setting
  by_cases hs : setting = w.1
  · subst hs
    rw [assign, Function.update_self, restore, set, Function.update_self]
    exact h.read hjson _
  · have hkey : setting.key ≠ w.1.key := fun he => hs (Setting.key_injective he)
    rw [assign, Function.update_of_ne hs, restore, set, Function.update_of_ne hkey]
    rfl

theorem restore_foldl (hjson : ReadsOrders dump parse) {ws : List Write} (h : ∀ w ∈ ws, w.Fits)
    (rows : Rows) :
    restore cfg parse (ws.foldl (set dump) rows) = ws.foldl assign (restore cfg parse rows) := by
  induction ws generalizing rows with
  | nil => rfl
  | cons w ws ih =>
    rw [List.foldl_cons, List.foldl_cons, ih fun w hw => h w (List.mem_cons_of_mem _ hw),
      restore_set hjson (h w List.mem_cons_self)]

/-! ## What the display service accepts -/

theorem isInt32_getInt {j : Json} {n : Int} (h : j.getInt = .ok n) :
    -2147483648 ≤ n ∧ n ≤ 2147483647 := by
  cases j with
  | int m =>
    cases h
    have h1 := Int.le_bmod (x := m) (m := 2 ^ 32) (by decide)
    have h2 := Int.bmod_lt (x := m) (m := 2 ^ 32) (by decide)
    rw [show Nat.pow 2 32 = 2 ^ 32 from rfl]
    omega
  | float x =>
    cases h
    unfold Json.truncate
    rw [show Int.pow 2 (32 - 1) = 2147483648 from rfl]
    omega
  | bool b => cases b <;> cases h <;> decide
  | _ => cases h

theorem isInt32_value {j : Json} {key : String} {n : Int} {dflt : Int} (hdflt : dflt ≤ 2147483647)
    (h : j.value Json.getInt key dflt = .ok n) : n ≤ 2147483647 := by
  cases j with
  | obj members =>
    simp only [Json.value] at h
    split at h
    · exact (isInt32_getInt h).2
    · cases h
      exact hdflt
  | _ => cases h

/-- The values of an accepted message pass the filters of the constructor. -/
theorem fits_setter {msg : IpcMessage} {event : DisplayEvent}
    (h : DisplayIpc.readEvent msg = .ok (some event)) : ∀ w ∈ setter event, w.Fits := by
  have hsource := DisplayIpc.readEvent_source h
  cases event with
  | updateDisplayInterval secs =>
    rw [DisplayIpc.readEvent, ← hsource] at h
    obtain ⟨n, hn, h⟩ := Json.eq_ok_of_bind h
    have hn := isInt32_value (by decide) hn
    have h := Except.ok.inj h
    split at h <;> cases h
    next hpos =>
      have hsecs : SecsOk secs := ⟨by omega, hn⟩
      rintro w (_ | ⟨_, ⟨⟩⟩)
      exact hsecs
  | updateNightMode night =>
    rw [DisplayIpc.readEvent, ← hsource] at h
    obtain ⟨enabled, -, h⟩ := Json.eq_ok_of_bind h
    obtain ⟨startHour, -, h⟩ := Json.eq_ok_of_bind h
    obtain ⟨endHour, -, h⟩ := Json.eq_ok_of_bind h
    obtain ⟨secs, hsecs, h⟩ := Json.eq_ok_of_bind h
    obtain ⟨style, -, h⟩ := Json.eq_ok_of_bind h
    have hsecs := isInt32_value (by decide) hsecs
    have h := Except.ok.inj h
    unfold DisplayIpc.checkNightMode at h
    split at h <;> [skip; split at h] <;> cases h
    next hok =>
      have hstart : Night.HourOk startHour := ⟨by omega, by omega⟩
      have hend : Night.HourOk endHour := ⟨by omega, by omega⟩
      have hsecs : SecsOk secs := ⟨by omega, hsecs⟩
      intro w hw
      simp only [setter, setNightMode, List.mem_cons, List.not_mem_nil, or_false] at hw
      obtain rfl | rfl | rfl | rfl | rfl := hw
      · trivial
      · exact hstart
      · exact hend
      · exact hsecs
      · trivial
  | updatePlaybackOrder mode customOrder =>
    intro w hw
    simp only [setter, setPlaybackOrder, List.mem_cons, List.not_mem_nil, or_false] at hw
    obtain rfl | rfl := hw
    · trivial
    · exact DisplayIpc.readEvent_isInt64 h
  | updateCustomization showSender =>
    rintro w (_ | ⟨_, ⟨⟩⟩)
    trivial
  | setSlideshowActive active =>
    rintro w (_ | ⟨_, ⟨⟩⟩)
    trivial
  | _ => exact List.forall_mem_nil _

theorem fits_writes (msg : IpcMessage) : ∀ w ∈ writes msg, w.Fits := by
  unfold writes
  split
  next event h => exact fits_setter h
  next => nofun

/-! ## Assignments -/

theorem foldl_assign_of_not_mem {ws : List Write} {setting : Setting}
    (h : setting ∉ ws.map Sigma.fst) (memory : Settings) :
    ws.foldl assign memory setting = memory setting := by
  induction ws generalizing memory with
  | nil => rfl
  | cons w ws ih =>
    rw [List.map_cons, List.mem_cons, not_or] at h
    rw [List.foldl_cons, ih h.2, assign, Function.update_of_ne h.1]

theorem foldl_assign_of_mem {ws : List Write} (hnodup : (ws.map Sigma.fst).Nodup) {w : Write}
    (hw : w ∈ ws) (memory : Settings) : ws.foldl assign memory w.1 = w.2 := by
  induction ws generalizing memory with
  | nil => cases hw
  | cons v ws ih =>
    rw [List.map_cons, List.nodup_cons] at hnodup
    rw [List.foldl_cons]
    obtain rfl | hw := List.mem_cons.mp hw
    · rw [foldl_assign_of_not_mem hnodup.1, assign, Function.update_self]
    · exact ih hnodup.2 hw _

/-- The settings have these values already. -/
def Unchanged (memory : Settings) (ws : List Write) : Prop := ∀ w ∈ ws, memory w.1 = w.2

theorem foldl_assign_eq_iff {ws : List Write} (hnodup : (ws.map Sigma.fst).Nodup) {memory : Settings} :
    ws.foldl assign memory = memory ↔ Unchanged memory ws := by
  constructor
  · intro h w hw
    rw [← foldl_assign_of_mem hnodup hw memory, h]
  · intro h
    funext setting
    by_cases hmem : setting ∈ ws.map Sigma.fst
    · obtain ⟨w, hw, rfl⟩ := List.mem_map.mp hmem
      rw [foldl_assign_of_mem hnodup hw, h w hw]
    · exact foldl_assign_of_not_mem hmem memory

/-- A setter that is cut short leaves what the whole one does, if the rest changes nothing. -/
theorem foldl_take_eq_iff {ws : List Write} (hnodup : (ws.map Sigma.fst).Nodup) (written : Nat)
    (memory : Settings) : (ws.take written).foldl assign memory = ws.foldl assign memory ↔
      Unchanged memory (ws.drop written) := by
  have hsplit : ws.foldl assign memory =
      (ws.drop written).foldl assign ((ws.take written).foldl assign memory) := by
    rw [← List.foldl_append, List.take_append_drop]
  have hparts : (ws.take written ++ ws.drop written).map Sigma.fst = ws.map Sigma.fst := by
    rw [List.take_append_drop]
  rw [List.map_append] at hparts
  rw [← hparts] at hnodup
  obtain ⟨-, hdrop, hdisjoint⟩ := List.nodup_append.mp hnodup
  rw [hsplit, eq_comm, foldl_assign_eq_iff hdrop]
  refine forall₂_congr fun w hw => ?_
  rw [foldl_assign_of_not_mem fun hmem => hdisjoint _ hmem _ (List.mem_map_of_mem hw) rfl]

theorem nodup_writes (msg : IpcMessage) : ((writes msg).map Sigma.fst).Nodup := by
  unfold writes
  split
  next event _ =>
    cases event <;> simp [setter, setDisplayInterval, setNightMode, setPlaybackOrder, setShowSender,
      setSlideshowActive]
  next => exact List.nodup_nil

/-! ## A restart -/

/-- A throw leaves no difference between the memory and the rows. -/
def KeepsRows (s : State) : Act → Prop
  | .throws msg written => Unchanged s.memory ((writes msg).drop written)
  | _ => True

theorem restore_rowsAfter (hjson : ReadsOrders dump parse) {s : State}
    (h : s.memory = restore cfg parse s.rows) (msg : IpcMessage) (written : Nat) :
    restore cfg parse (rowsAfter dump s msg written) =
      ((writes msg).take written).foldl assign s.memory := by
  rw [rowsAfter, restore_foldl hjson fun w hw => fits_writes msg w (List.mem_of_mem_take hw), h]

/-- The memory is what a restart would restore. -/
theorem memory_inductive (hjson : ReadsOrders dump parse) : (machine cfg dump parse).Inductive KeepsRows
    fun s => s.memory = restore cfg parse s.rows where
  init _ h := h
  step s act s' h hkeeps hs := by
    cases act with
    | update msg =>
      cases hs
      show memoryAfter s msg = restore cfg parse (rowsAfter dump s msg _)
      rw [restore_rowsAfter hjson h, List.take_length, memoryAfter]
    | throws msg written =>
      simp only [machine, step] at hs
      split at hs <;> cases hs
      show memoryAfter s msg = restore cfg parse (rowsAfter dump s msg written)
      rw [restore_rowsAfter hjson h, (foldl_take_eq_iff (nodup_writes msg) written _).mpr hkeeps,
        memoryAfter]
    | dies msg written => cases hs; rfl

/-- What a restart finds behind a setter that was cut short. -/
def OldOrNew (s : State) (msg : IpcMessage) (restored : Settings) : Prop :=
  restored = s.memory ∨ restored = memoryAfter s msg

/-- A process that dies restores all of the old settings or all of the new ones if and only if the
rows it wrote, or the rows it did not write, change nothing. Where a write throws and the process
lives on, its memory is in addition what a restart would restore, if and only if the rows it did not
write change nothing. -/
theorem all_or_nothing_iff (hjson : ReadsOrders dump parse) {s : State}
    (hr : (machine cfg dump parse).ReachableBy KeepsRows s) (msg : IpcMessage) (written : Nat) :
    (∀ s', step cfg dump parse s (.dies msg written) = some s' →
      (OldOrNew s msg s'.memory ↔ Unchanged s.memory ((writes msg).take written) ∨
        Unchanged s.memory ((writes msg).drop written))) ∧
    ∀ s', step cfg dump parse s (.throws msg written) = some s' →
      (OldOrNew s msg (restore cfg parse s'.rows) ∧ s'.memory = restore cfg parse s'.rows ↔
        Unchanged s.memory ((writes msg).drop written)) := by
  have h := (memory_inductive hjson).of_reachable hr
  have hrestored := restore_rowsAfter hjson h msg written
  have hnodup := nodup_writes msg
  have hnew := foldl_take_eq_iff hnodup written s.memory
  have htake : (((writes msg).take written).map Sigma.fst).Nodup :=
    hnodup.sublist ((List.take_sublist _ _).map _)
  refine ⟨fun s' hs => ?_, fun s' hs => ?_⟩
  · cases hs
    show OldOrNew s msg (restore cfg parse (rowsAfter dump s msg written)) ↔ _
    rw [hrestored]
    exact or_congr (foldl_assign_eq_iff htake) hnew
  · simp only [step] at hs
    split at hs <;> cases hs
    show OldOrNew s msg (restore cfg parse (rowsAfter dump s msg written)) ∧
      memoryAfter s msg = restore cfg parse (rowsAfter dump s msg written) ↔ _
    rw [hrestored, eq_comm (a := memoryAfter s msg)]
    exact ⟨fun hs => hnew.mp hs.2, fun hs => ⟨.inr (hnew.mpr hs), hnew.mpr hs⟩⟩

/-! ## A restart behind finished setters -/

/-- Every row was written. -/
def Finished (_ : State) : Act → Prop
  | .update _ => True
  | _ => False

theorem restoreInt_ok (ok : Int → Bool) {target : Int} (h : ok target = true) (text : String) :
    ok (restoreInt ok text target) = true := by
  unfold restoreInt
  split
  next val _ _ =>
    split
    next hok => exact hok
    next => exact h
  next => exact h

/-- The restored intervals are positive and the hours are hours, if the configured ones are. -/
theorem restore_ok (rows : Rows) :
    (0 < cfg.intervalSecs → 0 < (restore cfg parse rows .displayInterval : Int)) ∧
    (0 < cfg.nightIntervalSecs → 0 < (restore cfg parse rows .nightInterval : Int)) ∧
    (Night.HourOk cfg.nightStartHour → Night.HourOk (restore cfg parse rows .nightStartHour)) ∧
    (Night.HourOk cfg.nightEndHour → Night.HourOk (restore cfg parse rows .nightEndHour)) := by
  have hsecs : ∀ {target : Int}, 0 < target → ∀ text, 0 < restoreSecs text target :=
    fun {target} h text => by
      have hok : decide (restoreSecs text target > 0) = true :=
        restoreInt_ok (fun val => val > 0) (decide_eq_true h) text
      exact of_decide_eq_true hok
  have hhour : ∀ {target : Int}, Night.HourOk target → ∀ text, Night.HourOk (restoreHour text target) :=
    fun {target} h text => by
      have hok : (decide (restoreHour text target ≥ 0) && decide (restoreHour text target ≤ 23)) = true :=
        restoreInt_ok (fun val => val ≥ 0 && val ≤ 23) (by simpa [Night.HourOk] using h) text
      simpa [Night.HourOk] using hok
  refine ⟨fun h => ?_, fun h => ?_, fun h => ?_, fun h => ?_⟩ <;> unfold restore <;> split
  · exact hsecs h _
  · exact h
  · exact hsecs h _
  · exact h
  · exact hhour h _
  · exact h
  · exact hhour h _
  · exact h

/-- Behind any updates that the display service accepted, a restart restores every setting as it
is. -/
theorem settings_survive (hjson : ReadsOrders dump parse) {s : State}
    (hr : (machine cfg dump parse).ReachableBy Finished s) :
    (∀ setting, restore cfg parse s.rows setting = s.memory setting) ∧
    (0 < cfg.intervalSecs → 0 < (restore cfg parse s.rows .displayInterval : Int)) ∧
    (0 < cfg.nightIntervalSecs → 0 < (restore cfg parse s.rows .nightInterval : Int)) ∧
    (Night.HourOk cfg.nightStartHour → Night.HourOk (restore cfg parse s.rows .nightStartHour)) ∧
    (Night.HourOk cfg.nightEndHour → Night.HourOk (restore cfg parse s.rows .nightEndHour)) := by
  have hkeeps : (machine cfg dump parse).ReachableBy KeepsRows s := hr.mono fun s act hact => by
    cases act with
    | throws => exact hact.elim
    | _ => trivial
  have h := (memory_inductive hjson).of_reachable hkeeps
  exact ⟨fun setting => congrFun h.symm setting, restore_ok s.rows⟩

/-! ## The loop's settings -/

/-- The fields of the loop's settings. -/
def ofRuntime (s : RuntimeSettings) : Settings
  | .displayInterval => s.displayIntervalSecs_
  | .slideshowActive => s.slideshowActive_
  | .nightModeEnabled => s.night_.val.enabled
  | .nightStartHour => s.night_.val.startHour
  | .nightEndHour => s.night_.val.endHour
  | .nightInterval => s.night_.val.intervalSecs
  | .nightStyle => s.night_.val.style
  | .playbackMode => s.playbackMode_
  | .customOrder => s.customOrder_
  | .showSender => s.showSender_

/-- The bus thread's handlers assign what the setters do. -/
theorem handler_assigns {γ : Type} {gen : Playback.Generator γ} {lcfg : DisplayImageLoop.Config}
    {s s' : DisplayImageLoop.State γ} {event : DisplayEvent} {act : DisplayImageLoop.Act}
    (hact : DisplayService.handlerOf event = some act)
    (hs : DisplayImageLoop.step gen lcfg s act = some s') :
    ofRuntime s'.settings = (setter event).foldl assign (ofRuntime s.settings) := by
  cases event <;> cases hact <;> cases hs <;> funext setting <;> cases setting <;> rfl

/-! ## Three runs -/

section Runs

/-- The text of a list of integers. -/
def writeList : Json → String
  | .arr items => String.ofList ('[' :: (List.intercalate [','] (items.map fun item =>
      match item with
      | .int n => (toString n).toList
      | _ => [])) ++ [']'])
  | _ => ""

def readItem (part : List Char) : Option Json :=
  match Text.number part with
  | some (n, []) => some (.int n)
  | _ => none

/-- A list of integers. -/
def readList (text : String) : Option Json :=
  match text.toList with
  | '[' :: rest =>
    if rest = [']'] then some (.arr []) else ((rest.dropLast.splitOn ',').mapM readItem).map .arr
  | _ => none

theorem readList_writeList (ids : List Int) :
    readList (writeList (.arr (ids.map .int))) = some (.arr (ids.map .int)) := by
  have hwrite : (writeList (.arr (ids.map .int))).toList =
      '[' :: (List.intercalate [','] (ids.map fun n => (toString n).toList) ++ [']']) := by
    simp [writeList, Function.comp_def]
  unfold readList
  simp only [hwrite, List.dropLast_concat]
  cases ids with
  | nil => rfl
  | cons id ids =>
    have hsplit : (List.intercalate [','] ((id :: ids).map fun n => (toString n).toList)).splitOn ',' =
        (id :: ids).map fun n => (toString n).toList := by
      refine List.splitOn_intercalate ',' (fun l hl => ?_) (by simp)
      obtain ⟨n, -, rfl⟩ := List.mem_map.mp hl
      exact Text.comma_notMem n
    have hne : List.intercalate [','] ((id :: ids).map fun n => (toString n).toList) ++ [']'] ≠ [']'] := by
      intro he
      have hnil : List.intercalate [','] ((id :: ids).map fun n => (toString n).toList) = [] :=
        List.append_left_eq_self.mp he
      have hlist := hsplit
      rw [hnil] at hlist
      have hid : [] = (toString id).toList := (List.cons.inj hlist).1
      have hnum := Text.number_toString id
      rw [← hid] at hnum
      cases hnum
    rw [if_neg hne, hsplit, List.mapM_map]
    have hread : ∀ ids : List Int, ids.mapM (fun n => readItem (toString n).toList) =
        some (ids.map Json.int) := by
      intro ids
      induction ids with
      | nil => rfl
      | cons n ids ih =>
        have hitem : readItem (toString n).toList = some (.int n) := by
          rw [readItem, Text.number_toString]
        rw [List.mapM_cons, hitem, ih]
        rfl
    rw [show (readItem ∘ fun n : Int => (toString n).toList) = fun n => readItem (toString n).toList from rfl,
      hread]
    rfl


theorem readsOrders_list : ReadsOrders writeList readList := fun ids _ => readList_writeList ids

/-- Quiet hours from ten in the evening to six in the morning. -/
def nights : Config where
  intervalSecs := 900
  nightModeEnabled := true
  nightStartHour := 22
  nightEndHour := 6
  nightIntervalSecs := 3600
  nightStyle := "pause"

/-- Nothing was set yet. -/
def unset : State where
  rows _ := none
  memory := restore nights readList fun _ => none

theorem unset_reachable {G : State → Act → Prop} :
    (machine nights writeList readList).ReachableBy G unset := .init rfl

def nightMsg (startHour endHour : Int) (style : String) : IpcMessage where
  type := .updateNightMode
  data := .obj [("enabled", .bool true), ("start_hour", .int startHour), ("end_hour", .int endHour),
    ("interval_secs", .int 3600), ("style", .str style)]

/-- Only the last row changes something. -/
theorem all_or_nothing_iff_style :
    ∃ s', step nights writeList readList unset (.dies (nightMsg 22 6 "hold") 4) = some s' ∧
      OldOrNew unset (nightMsg 22 6 "hold") s'.memory := by
  refine ⟨_, rfl, ((all_or_nothing_iff readsOrders_list unset_reachable (nightMsg 22 6 "hold") 4).1
    _ rfl).mpr (.inl fun w hw => ?_)⟩
  have hwrites : (writes (nightMsg 22 6 "hold")).take 4 = [⟨.nightModeEnabled, true⟩,
    ⟨.nightStartHour, (22 : Int)⟩, ⟨.nightEndHour, (6 : Int)⟩, ⟨.nightInterval, (3600 : Int)⟩] := by rfl
  rw [hwrites] at hw
  simp only [List.mem_cons, List.not_mem_nil, or_false] at hw
  obtain rfl | rfl | rfl | rfl := hw <;> rfl

/-- The quiet hours are turned round. Behind two of the five rows, the new start meets the old end:
the window is empty, and a process that lives on does not know. -/
theorem night_cut_in_half :
    (∃ s', step nights writeList readList unset (.dies (nightMsg 6 22 "pause") 2) = some s' ∧
      s'.memory .nightStartHour = s'.memory .nightEndHour ∧
      ¬ OldOrNew unset (nightMsg 6 22 "pause") s'.memory) ∧
    ∃ s', step nights writeList readList unset (.throws (nightMsg 6 22 "pause") 2) = some s' ∧
      s'.memory ≠ restore nights readList s'.rows := by
  refine ⟨⟨_, rfl, by decide +kernel, ?_⟩, _, rfl, fun h => ?_⟩
  · rintro (h | h)
    · exact absurd (congrFun h .nightStartHour) (by decide +kernel)
    · exact absurd (congrFun h .nightEndHour) (by decide +kernel)
  · exact absurd (congrFun h .nightEndHour) (by decide +kernel)

def orderMsg : IpcMessage where
  type := .updatePlaybackOrder
  data := .obj [("mode", .str "custom"), ("custom_order", .arr [.int 3, .int 1, .int 2])]

/-- The quiet hours and the order survive. -/
theorem settings_survive_order :
    ∃ s, (machine nights writeList readList).run unset
        [.update (nightMsg 6 22 "hold"), .update orderMsg] = some s ∧
      s.memory .customOrder = [3, 1, 2] ∧ restore nights readList s.rows .customOrder = [3, 1, 2] ∧
      restore nights readList s.rows .nightStartHour = s.memory .nightStartHour := by
  have hmeets : (machine nights writeList readList).Meets Finished unset
      [.update (nightMsg 6 22 "hold"), .update orderMsg] :=
    ⟨trivial, fun _ _ => ⟨trivial, fun _ _ => trivial⟩⟩
  have hrun := Machine.ReachableBy.run _ unset_reachable hmeets rfl
  have hsurvive := (settings_survive readsOrders_list hrun).1
  exact ⟨_, rfl, rfl, hsurvive .customOrder, hsurvive .nightStartHour⟩

end Runs

end ShareFrame.StoredSettings
