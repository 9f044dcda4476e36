import ShareFrame.Lib.Machine

/-!
# The operations on the panel

The five thunks of the dashboard that change what the panel shows or how. Each passes one
guard over the flags of all of them, raises its own flag and sends its request; a toggle asks
for the state, sends its request, asks again until the frame has changed over, and sends
a clear behind a stop. Between two awaits a thunk runs alone, so a step is what follows one
dispatch or one settled await: effects in the order of the source, and the next await.
Snackbars and the timer are other slices and left out.
-/

namespace ShareFrame.SlideshowOperation

open Transition

def MAX_OPERATION_WAIT_TIME : Nat := 10 * 60 * 1000

/-! ## The slice -/

structure SlideshowOperationState where
  isToggling : Bool := false
  isClearingDisplay : Bool := false
  isSkippingImage : Bool := false
  isShowingImage : Bool := false
  isUpdatingInterval : Bool := false
  displayImagesIntervalMins : Int := 15
  error : Option String := none
  startTime : Option Nat := none
  deriving DecidableEq, Repr

namespace SlideshowOperationState

def started (b : Bool) (now : Nat) : Option Nat := if b then some now else none

variable (b : Bool) (now : Nat) (s : SlideshowOperationState)

def setToggleStatus : SlideshowOperationState :=
  { s with isToggling := b, startTime := started b now }

def setClearDisplayStatus : SlideshowOperationState :=
  { s with isClearingDisplay := b, startTime := started b now }

def setSkipImageStatus : SlideshowOperationState :=
  { s with isSkippingImage := b, startTime := started b now }

def setShowImageStatus : SlideshowOperationState :=
  { s with isShowingImage := b, startTime := started b now }

def setUpdateIntervalStatus : SlideshowOperationState :=
  { s with isUpdatingInterval := b, startTime := started b now }

/-- The guard of all thunks. -/
def busy : Bool :=
  s.isToggling || s.isClearingDisplay || s.isSkippingImage || s.isShowingImage ||
    s.isUpdatingInterval

end SlideshowOperationState

/-! ## The thunks -/

inductive Thunk where
  | updateDisplayImagesLoopInterval (intervalMins : Int)
  | skipImageThunk
  | showImageThunk (id : Int)
  | clearDisplayThunk
  | toggleSlideshowThunk
  deriving DecidableEq, Repr

inductive Action where
  | stop
  | start
  deriving DecidableEq, Repr

/-- Requests to the frame, with their bodies. -/
inductive Request where
  | status
  | interval (interval_seconds : Int)
  | skip
  | show (id : Int)
  | clear
  | slideshow (action : Action)
  deriving DecidableEq, Repr

/-- What a thunk does between two awaits. -/
inductive Effect where
  /-- its own flag -/
  | setStatus (b : Bool)
  | setDisplayRefreshInterval (mins : Int)
  | setError (text : String)
  | send (request : Request)
  deriving DecidableEq, Repr

/-- What a thunk awaits, with the variables that it still needs. -/
inductive Pc where
  | response
  | payload (status : Nat)
  | status
  | statusData
  | toggle (wasActive : Option Bool)
  | toggleData (wasActive : Option Bool)
  | check (wasActive : Option Bool) (startTime : Nat)
  | checkData (wasActive : Option Bool) (startTime : Nat)
  | clear (wasActive : Option Bool) (startTime : Nat)
  | sleep (wasActive : Option Bool) (startTime since : Nat)
  | returned
  deriving DecidableEq, Repr

/-- How an await settles. A status without `data` throws as a rejected await does. -/
inductive Answer where
  | response (status : Nat)
  | payload (success : Bool) (message : Option String)
  | status (success : Bool) (active : Option Bool)
  | rejected (error : Option String)
  | timeout
  deriving DecidableEq, Repr

/-- `wasActive ? 'stop' : 'start'`. -/
def action (wasActive : Option Bool) : Action := if wasActive = some true then .stop else .start

def SKIP_WHILE_REFRESHING : String :=
  "Das Display wird gerade aktualisiert. Versuche es gleich noch einmal."

def SHOW_WHILE_PAUSED : String := "Die Diashow ist gestoppt. Starte sie zuerst."

namespace Thunk

/-- Behind the guard. -/
def start : Thunk → Pc × List Effect
  | updateDisplayImagesLoopInterval intervalMins =>
    (.response, [.setStatus true, .send (.interval (intervalMins * 60))])
  | skipImageThunk => (.response, [.setStatus true, .send .skip])
  | showImageThunk id => (.response, [.setStatus true, .send (.show id)])
  | clearDisplayThunk => (.response, [.setStatus true, .send .clear])
  | toggleSlideshowThunk => (.status, [.setStatus true, .send .status])

/-- The `catch` block, and the `finally` block of `showImageThunk`. -/
def caught : Thunk → String → Pc × List Effect
  | showImageThunk _, error => (.returned, [.setError error, .setStatus false])
  | _, error => (.returned, [.setStatus false, .setError error])

/-- Behind the response; only `skipImageThunk` looks at the status before the payload. -/
def responded : Thunk → Nat → Pc × List Effect
  | skipImageThunk, status =>
    if status = 409 then skipImageThunk.caught SKIP_WHILE_REFRESHING else (.payload status, [])
  | _, status => (.payload status, [])

/-- Behind the payload. -/
def parsed (t : Thunk) (status : Nat) (success : Bool) (message : Option String) :
    Pc × List Effect :=
  match t with
  | updateDisplayImagesLoopInterval intervalMins =>
    if success then (.returned, [.setDisplayRefreshInterval intervalMins, .setStatus false])
    else if message.getD "" = "" then t.caught "Failed to update display interval"
    else t.caught (message.getD "")
  | skipImageThunk =>
    if success then (.returned, [.setStatus false])
    else t.caught "Foto konnte nicht übersprungen werden"
  | showImageThunk _ =>
    if status = 409 then
      t.caught (if message = some "Slideshow is paused" then SHOW_WHILE_PAUSED
        else SKIP_WHILE_REFRESHING)
    else if success then (.returned, [.setStatus false])
    else t.caught "Foto konnte nicht angezeigt werden"
  | _ =>
    if success then (.returned, [.setStatus false])
    else t.caught "Bildschirm konnte nicht geleert werden"

end Thunk

/-- `while (Date.now() - startTime < MAX_OPERATION_WAIT_TIME)`. -/
def monitor (wasActive : Option Bool) (startTime now : Nat) : Pc × List Effect :=
  if now - startTime < MAX_OPERATION_WAIT_TIME then (.check wasActive startTime, [.send .status])
  else (.returned, [.setStatus false,
    .setError "Der Bilderrahmen hat die Diashow nicht rechtzeitig umgeschaltet"])

/-- Behind a status that shows whether the frame has changed over. -/
def checked (wasActive : Option Bool) (startTime : Nat) (success : Bool) (active : Option Bool)
    (now : Nat) : Pc × List Effect :=
  if success ∧ active ≠ wasActive then
    if action wasActive = .stop then
      (.clear wasActive startTime, [.setStatus false, .send .clear])
    else (.returned, [.setStatus false])
  else (.sleep wasActive startTime now, [])

/-- What a thunk does when what it awaits settles. -/
def resume (t : Thunk) : Pc → Answer → Nat → Option (Pc × List Effect)
  | .response, .response status, _ => some (t.responded status)
  | .payload status, .payload success message, _ => some (t.parsed status success message)
  | .status, .response _, _ => some (.statusData, [])
  | .statusData, .status success active, _ =>
    some (if success then (.toggle active, [.send (.slideshow (action active))])
      else t.caught "Status der Diashow konnte nicht geladen werden")
  | .toggle wasActive, .response _, _ => some (.toggleData wasActive, [])
  | .toggleData wasActive, .payload success _, now =>
    some (if success then monitor wasActive now now
      else t.caught "Diashow konnte nicht umgeschaltet werden")
  | .response, .rejected error, _ | .payload _, .rejected error, _ | .status, .rejected error, _
  | .statusData, .rejected error, _ | .toggle _, .rejected error, _
  | .toggleData _, .rejected error, _ => some (t.caught (error.getD "Unbekannter Fehler"))
  | .check wasActive startTime, .response _, _ => some (.checkData wasActive startTime, [])
  | .checkData wasActive startTime, .status success active, now =>
    some (checked wasActive startTime success active now)
  | .clear _ _, .response _, _ => some (.returned, [])
  -- the `catch` inside the loop
  | .check wasActive startTime, .rejected _, now | .checkData wasActive startTime, .rejected _, now
  | .clear wasActive startTime, .rejected _, now => some (.sleep wasActive startTime now, [])
  | .sleep wasActive startTime since, .timeout, now =>
    if since + 2000 ≤ now then some (monitor wasActive startTime now) else none
  | _, _, _ => none

/-! ## All of them -/

/-- A thunk that passed its guard, and *ghost* how many of its follow-up clears were rejected. -/
structure Flight where
  thunk : Thunk
  pc : Pc
  rejects : Nat
  deriving DecidableEq, Repr

/-- The slice, the thunks that passed their guard, and *ghost* what each of them did. -/
structure St where
  store : SlideshowOperationState := {}
  now : Nat := 0
  flights : List Flight := []
  log : List (Nat × Effect) := []
  deriving DecidableEq, Repr

open SlideshowOperationState in
def Thunk.setStatus : Thunk → Bool → Nat → SlideshowOperationState → SlideshowOperationState
  | updateDisplayImagesLoopInterval _ => setUpdateIntervalStatus
  | skipImageThunk => setSkipImageStatus
  | showImageThunk _ => setShowImageStatus
  | clearDisplayThunk => setClearDisplayStatus
  | toggleSlideshowThunk => setToggleStatus

def Thunk.apply (t : Thunk) (now : Nat) (store : SlideshowOperationState) :
    Effect → SlideshowOperationState
  | .setStatus b => t.setStatus b now store
  | .setDisplayRefreshInterval mins => { store with displayImagesIntervalMins := mins }
  | .setError text => { store with error := some text }
  | .send _ => store

/-- The effects of the `i`-th thunk. -/
def St.emit (s : St) (i : Nat) (t : Thunk) (now : Nat) (effects : List Effect) : St :=
  { s with
    store := effects.foldl (t.apply now) s.store
    now := now
    log := s.log ++ effects.map fun e => (i, e) }

/-- A dispatch, or an await of the `i`-th thunk that settles. -/
inductive Act where
  | dispatch (t : Thunk) (now : Nat)
  | settle (i : Nat) (answer : Answer) (now : Nat)
  deriving DecidableEq, Repr

/-- The follow-up clear of a toggle is rejected. -/
def followUpRejected : Pc → Answer → Bool
  | .clear _ _, .rejected _ => true
  | _, _ => false

def Flight.settled (f : Flight) (pc : Pc) (answer : Answer) : Flight :=
  { f with pc, rejects := f.rejects + (followUpRejected f.pc answer).toNat }

def step (s : St) : Act → Option St
  | .dispatch t now =>
    if now < s.now then none
    else if s.store.busy then some { s with now }
    else some (St.emit { s with flights := s.flights ++ [⟨t, t.start.1, 0⟩] } s.flights.length t now
      t.start.2)
  | .settle i answer now =>
    if now < s.now then none
    else do
      let f ← s.flights[i]?
      let (pc, effects) ← resume f.thunk f.pc answer now
      some (St.emit { s with flights := s.flights.set i (f.settled pc answer) } i f.thunk now
        effects)

def machine : Machine St Act where
  Init s := s = {}
  step := step

/-! ## One thunk -/

/-- The flag is up, as long as no follow-up clear was rejected. -/
def Pc.engaged : Pc → Bool
  | .clear _ _ | .returned => false
  | _ => true

/-- Requests, none of them a clear, and a further await. -/
def Goes (p : Pc × List Effect) : Prop :=
  p.1.engaged = true ∧ ∀ e ∈ p.2, ∃ r, e = .send r ∧ r ≠ .clear

/-- The flag is cleared once, and nothing is sent. -/
def Ends (p : Pc × List Effect) : Prop :=
  p.1 = .returned ∧ p.2.count (.setStatus false) = 1 ∧ .setStatus true ∉ p.2 ∧ ∀ r, .send r ∉ p.2

/-- The flag is cleared, and the clear behind a stop is sent. -/
def Follows (p : Pc × List Effect) : Prop :=
  (∃ wasActive startTime, p.1 = .clear wasActive startTime) ∧
    p.2 = [.setStatus false, .send .clear]

theorem ends_caught (t : Thunk) (error : String) : Ends (t.caught error) := by
  cases t <;> simp [Thunk.caught, Ends]

theorem responded_cases (t : Thunk) (status : Nat) :
    Goes (t.responded status) ∨ Ends (t.responded status) := by
  have hgoes : Goes (.payload status, []) := ⟨rfl, by rintro e ⟨⟩⟩
  unfold Thunk.responded
  split
  · split
    · exact .inr (ends_caught _ _)
    · exact .inl hgoes
  · exact .inl hgoes

theorem ends_parsed (t : Thunk) (status : Nat) (success : Bool) (message : Option String) :
    Ends (t.parsed status success message) := by
  have hdone : Ends (.returned, [.setStatus false]) := by simp [Ends]
  unfold Thunk.parsed
  split
  · split
    · simp [Ends]
    · split <;> exact ends_caught _ _
  · split
    · exact hdone
    · exact ends_caught _ _
  · split
    · exact ends_caught _ _
    · split
      · exact hdone
      · exact ends_caught _ _
  · split
    · exact hdone
    · exact ends_caught _ _

theorem monitor_cases (wasActive : Option Bool) (startTime now : Nat) :
    Goes (monitor wasActive startTime now) ∨ Ends (monitor wasActive startTime now) := by
  unfold monitor
  split
  · refine .inl ⟨rfl, fun e he => ⟨.status, List.mem_singleton.mp he, by decide⟩⟩
  · exact .inr (by simp [Ends])

theorem checked_cases (wasActive active : Option Bool) (startTime now : Nat) (success : Bool) :
    Goes (checked wasActive startTime success active now) ∨
      Ends (checked wasActive startTime success active now) ∨
      Follows (checked wasActive startTime success active now) := by
  unfold checked
  split
  · split
    · exact .inr (.inr ⟨⟨wasActive, startTime, rfl⟩, rfl⟩)
    · exact .inr (.inl (by simp [Ends]))
  · exact .inl ⟨rfl, by rintro e ⟨⟩⟩

/-- What a settled await leads to. -/
inductive Advance : Pc → Answer → Pc × List Effect → Prop where
  | goes {pc : Pc} {answer : Answer} {p : Pc × List Effect} : pc.engaged = true → Goes p →
    Advance pc answer p
  | ends {pc : Pc} {answer : Answer} {p : Pc × List Effect} : pc.engaged = true → Ends p →
    Advance pc answer p
  | follows {pc : Pc} {answer : Answer} {p : Pc × List Effect} : pc.engaged = true → Follows p →
    Advance pc answer p
  | followed (wasActive : Option Bool) (startTime status : Nat) :
    Advance (.clear wasActive startTime) (.response status) (.returned, [])
  | again (wasActive : Option Bool) (startTime since : Nat) (error : Option String) :
    Advance (.clear wasActive startTime) (.rejected error) (.sleep wasActive startTime since, [])

theorem Advance.of_cases {pc : Pc} {answer : Answer} {p : Pc × List Effect}
    (h : pc.engaged = true) (hp : Goes p ∨ Ends p) : Advance pc answer p :=
  hp.elim (.goes h) (.ends h)

theorem goes_nil {pc : Pc} (h : pc.engaged = true) : Goes (pc, []) := ⟨h, by rintro e ⟨⟩⟩

theorem advance_resume {t : Thunk} {pc : Pc} {answer : Answer} {now : Nat}
    {p : Pc × List Effect} (h : resume t pc answer now = some p) : Advance pc answer p := by
  unfold resume at h
  split at h
  -- the promises of the simple thunks
  · obtain rfl := Option.some.inj h
    exact .of_cases rfl (responded_cases _ _)
  · obtain rfl := Option.some.inj h
    exact .ends rfl (ends_parsed _ _ _ _)
  -- a toggle up to its request
  · obtain rfl := Option.some.inj h
    exact .goes rfl (goes_nil rfl)
  · obtain rfl := Option.some.inj h
    split
    · exact .goes rfl ⟨rfl, fun e he => ⟨_, List.mem_singleton.mp he, by rintro ⟨⟩⟩⟩
    · exact .ends rfl (ends_caught _ _)
  · obtain rfl := Option.some.inj h
    exact .goes rfl (goes_nil rfl)
  · obtain rfl := Option.some.inj h
    split
    · exact .of_cases rfl (monitor_cases _ _ _)
    · exact .ends rfl (ends_caught _ _)
  -- whatever is rejected before the loop
  iterate 6
    · obtain rfl := Option.some.inj h
      exact .ends rfl (ends_caught _ _)
  -- the loop
  · obtain rfl := Option.some.inj h
    exact .goes rfl (goes_nil rfl)
  · obtain rfl := Option.some.inj h
    obtain hgoes | hends | hfollows := checked_cases _ _ _ _ _
    · exact .goes rfl hgoes
    · exact .ends rfl hends
    · exact .follows rfl hfollows
  · obtain rfl := Option.some.inj h
    exact .followed _ _ _
  · obtain rfl := Option.some.inj h
    exact .goes rfl (goes_nil rfl)
  · obtain rfl := Option.some.inj h
    exact .goes rfl (goes_nil rfl)
  · obtain rfl := Option.some.inj h
    exact .again _ _ _ _
  · split at h
    · obtain rfl := Option.some.inj h
      exact .of_cases rfl (monitor_cases _ _ _)
    · cases h
  · cases h

theorem followUpRejected_of_engaged {pc : Pc} (answer : Answer) (h : pc.engaged = true) :
    followUpRejected pc answer = false := by
  cases pc with
  | clear wasActive startTime => cases h
  | _ => rfl

end ShareFrame.SlideshowOperation
