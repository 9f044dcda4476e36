import ShareFrame.Lib.Machine
import ShareFrame.Settings.RuntimeSettings
import ShareFrame.Settings.ShuffleBag
import ShareFrame.Util.Clock

/-!
# The slideshow loop

`DisplayImageLoop` paints the stored pictures one after the other, or the default
images while none is stored. `step` is one atomic step of the loop's thread, of
the bus thread that runs its handlers, of a process that changes the repository
or the files, or of time. Everything done under `mtx_` is one step; a wait is a
program point that is left once its predicate holds or its time is over. What a
paint does to the panel and whether a call throws is part of the label.

Fields marked *ghost* are never read by a step.
-/

namespace ShareFrame.DisplayImageLoop

open Playback

/-- What `_waitForNext` waits behind. -/
inductive Shown where
  | sample (images : List String) (path : String)
  | user (image : Image)
  deriving DecidableEq, Repr

/-- Where the loop's thread is. Times are ticks of the steady clock. -/
inductive Pc where
  /-- the head of the outer loop -/
  | top
  | inactiveWait (until_ : Int)
  | getAll
  -- no user images
  | loadDefaults
  | noImagesWait (until_ : Int)
  /-- the head of the inner loop and its repository check -/
  | defaults (images : List String)
  | defaultsReady (images : List String)
  | minRefreshWait (images : List String) (until_ : Int)
  | samplePainting (images : List String) (path : String)
  | samplePainted (images : List String) (path : String)
  /-- before the flag reset -/
  | sampleReset (images : List String) (path : String)
  -- user images
  | pick (all : List Image)
  | checkFile (image : Image)
  | userPainting (image : Image)
  | userPainted (image : Image)
  /-- before the flag reset -/
  | userReset (image : Image)
  -- `_waitForNext`
  | waitNext (shown : Shown) (due : Int)
  | waitReady (shown : Shown) (due readyAt : Int)
  | repainting (shown : Shown) (due : Int)
  /-- the wait behind an exception -/
  | errorWait (until_ : Int)
  | exited
  deriving DecidableEq, Repr

/-- How a `_paint` ends: the panel took the picture, the panel failed, or nothing was sent to it
(the picture cannot be rendered, a stop or a shutdown was requested). -/
inductive Paint where
  | shown
  | failed
  | refused
  deriving DecidableEq, Repr

structure Config where
  clock : Clock
  minRefreshSecs : Int

structure State (γ : Type) where
  now : Nat := 0
  settings : RuntimeSettings
  -- DisplayManager
  isCleared : Bool := false
  lastDisplayTime : Int := 0
  -- the repository, the files that exist, the sorted default images
  rows : List Image := []
  files : List String := []
  defaultImages : List String := []
  -- under mtx_
  skipCurrent_ : Bool := false
  pendingShowId_ : Int := 0
  newImage_ : Bool := false
  restoreCurrent_ : Bool := false
  -- the loop
  stopRequested : Bool := false
  pc : Pc := .top
  currentImageId_ : Int := 0
  shuffle_ : ShuffleBag γ
  defaultImageIdx_ : Nat := 0
  nextChangeAtMs_ : Int := 0
  ready_ : Bool := false
  refreshing_ : Bool := false
  /-- ghost: stored pictures whose `IMAGE_NEW` is still to be delivered -/
  unannounced : List Int := []
  /-- ghost: stored pictures whose `IMAGE_NEW` handler has run -/
  announced : List Int := []
  /-- ghost: the signal in `skipCurrent_` already ended a wait -/
  used : Bool := false

inductive Act where
  | tick (ticks : Nat)
  -- the loop's thread
  | loop
  | loopThrows
  | painted (outcome : Paint)
  -- the bus thread
  | imageNew (id : Int)
  | imageRemoved (ids : List Int)
  | skipImage
  | showImage (id : Int)
  | scheduledClear
  | setSlideshowActive (active : Bool)
  | updateInterval (secs : Int)
  | updateNightMode (night : StoredNight)
  | updatePlaybackOrder (mode : PlaybackMode) (customOrder : List Int)
  | updateCustomization (showSender : Bool)
  -- the image service and the file system
  | store (image : Image)
  | remove (ids : List Int)
  | setFiles (files : List String)
  | setDefaultImages (images : List String)
  -- another thread's refresh of the panel
  | panel (cleared : Bool)
  -- the display task manager
  | requestStop
  | start
  deriving DecidableEq

variable {γ : Type} (gen : Generator γ) (cfg : Config)

/-! ## Clocks -/

def isNightNow (s : State γ) : Bool := s.settings.night_.val.isNightNow (cfg.clock.localNow s.now)

def effectiveInterval (s : State γ) : Int :=
  s.settings.effectiveInterval (cfg.clock.localNow s.now)

/-- Where `wait_for` of so many seconds times out. -/
def inSecs (s : State γ) (secs : Int) : Int := s.now + secs * second

/-- Ticks of one millisecond. -/
abbrev milli : Nat := 1000000

/-- `_armNextChange`. -/
def armNextChange (s : State γ) : State γ :=
  { s with nextChangeAtMs_ := (s.now / milli : Nat) + effectiveInterval cfg s * 1000 }

/-- `DisplayManager::secondsUntilRefreshReady`: the rest of the refresh interval in whole seconds,
rounded up. -/
def secondsUntilRefreshReady (s : State γ) : Int :=
  let elapsed := (s.now : Int) - s.lastDisplayTime
  let minRefresh := cfg.minRefreshSecs * second
  if elapsed ≥ minRefresh then 0 else (minRefresh - elapsed + (second - 1)) / second

/-! ## Picking a picture -/

/-- `_pickNext`. -/
def pickNext (s : State γ) (images : List Image) : Int × State γ :=
  if s.settings.playbackMode_ ≠ .shuffle then
    (nextAfter (arrange images s.settings.playbackMode_ s.settings.customOrder_) s.currentImageId_,
      s)
  else
    let picked := (s.shuffle_.sync gen (images.map (·.id))).next gen
    (picked.1, { s with shuffle_ := picked.2 })

/-- `_takeNext`: the id asked for by show-now if it is still stored, else the regular next one. -/
def takeNext (s : State γ) (images : List Image) : Int × State γ :=
  let requested := s.pendingShowId_
  let s := { s with pendingShowId_ := 0 }
  if requested ≠ 0 ∧ requested ∈ images.map (·.id) then (requested, s) else pickNext gen s images

/-! ## The loop's thread -/

/-- The wake predicate passed to `_waitForNext`. -/
def wake (s : State γ) : Shown → Bool
  | .sample _ _ => (s.newImage_ && !isNightNow cfg s) || s.skipCurrent_
      || !s.settings.slideshowActive_
  | .user _ => s.skipCurrent_ || decide (s.pendingShowId_ ≠ 0) || !s.settings.slideshowActive_

/-- Behind the outer loop. -/
def leave (s : State γ) : State γ := { s with refreshing_ := false, nextChangeAtMs_ := 0, pc := .exited }

/-- `skipCurrent_ = false`. -/
def clearSkip (s : State γ) : State γ := { s with skipCurrent_ := false, used := false }

/-- `_waitForNext` from its first lines. -/
def enterWait (s : State γ) (shown : Shown) : State γ :=
  { s with pc := .waitNext shown (s.nextChangeAtMs_ * milli) }

/-- A wait that reads `skipCurrent_` is over. -/
def endWait (s : State γ) (pc : Pc) : State γ := { s with used := s.skipCurrent_, pc }

/-- `_waitForNext` returns. -/
def returnWait (s : State γ) : Shown → State γ
  | .sample images _ => endWait s (.defaults images)
  | .user _ => endWait s .top

/-- `_waitForNext` behind its first wait: return, wait again, or wait until a repaint is allowed. -/
def afterWait (s : State γ) (shown : Shown) (due : Int) : State γ :=
  let readyAt := inSecs s (secondsUntilRefreshReady cfg s)
  if !s.restoreCurrent_ ∨ s.stopRequested ∨ wake cfg s shown then
    returnWait { s with restoreCurrent_ := false } shown
  else if !s.isCleared ∨ readyAt ≥ due then { s with restoreCurrent_ := false }
  else { s with restoreCurrent_ := false, pc := .waitReady shown due readyAt }

/-- The next step of the loop's thread outside a paint; `none` while it waits. -/
def loop (s : State γ) : Option (State γ) :=
  match s.pc with
  | .top =>
    if s.stopRequested then some (leave s)
    else if !s.settings.slideshowActive_ then
      some { s with nextChangeAtMs_ := 0, pc := .inactiveWait (inSecs s (effectiveInterval cfg s)) }
    else some { s with pc := .getAll }
  | .inactiveWait t =>
    if s.stopRequested ∨ s.settings.slideshowActive_ ∨ t ≤ s.now then some { s with pc := .top }
    else none
  | .getAll =>
    if s.rows = [] then some { s with pc := .loadDefaults } else some { s with pc := .pick s.rows }
  | .loadDefaults =>
    if s.defaultImages = [] then
      some { armNextChange cfg s with pc := .noImagesWait (inSecs s (effectiveInterval cfg s)) }
    else some { s with pc := .defaults s.defaultImages }
  | .noImagesWait t =>
    if s.stopRequested ∨ s.skipCurrent_ ∨ !s.settings.slideshowActive_ ∨ t ≤ s.now then
      some (endWait s .top)
    else none
  | .defaults images =>
    if s.stopRequested ∨ !s.settings.slideshowActive_ then some { s with pc := .top }
    else if s.rows ≠ [] then some { s with defaultImageIdx_ := 0, pc := .top }
    else some { s with pc := .defaultsReady images }
  | .defaultsReady images =>
    if secondsUntilRefreshReady cfg s > 0 then
      some { clearSkip s with
        newImage_ := false
        pc := .minRefreshWait images (inSecs s (secondsUntilRefreshReady cfg s)) }
    else
      let idx := if s.defaultImageIdx_ ≥ images.length then 0 else s.defaultImageIdx_
      some { s with
        defaultImageIdx_ := idx, refreshing_ := true, pc := .samplePainting images (images.getD idx "") }
  | .minRefreshWait images t =>
    if s.stopRequested ∨ wake cfg s (.sample images "") ∨ t ≤ s.now then
      some (endWait s (.defaults images))
    else none
  | .samplePainting _ _ => none
  | .samplePainted images path =>
    some { armNextChange cfg s with
      defaultImageIdx_ := s.defaultImageIdx_ + 1, pc := .sampleReset images path }
  | .sampleReset images path =>
    some (enterWait { clearSkip s with newImage_ := false, refreshing_ := false } (.sample images path))
  | .pick all =>
    let picked := takeNext gen s all
    -- dereferencing the end iterator is undefined
    (all.find? (·.id = picked.1)).map fun image => { picked.2 with pc := .checkFile image }
  | .checkFile image =>
    if image.imagePath ∉ s.files then some { s with currentImageId_ := image.id, pc := .top }
    else some { s with refreshing_ := true, pc := .userPainting image }
  | .userPainting _ => none
  | .userPainted image =>
    some { armNextChange cfg s with currentImageId_ := image.id, pc := .userReset image }
  | .userReset image =>
    some (enterWait { clearSkip s with refreshing_ := false } (.user image))
  | .waitNext shown due =>
    if s.stopRequested ∨ wake cfg s shown ∨ s.restoreCurrent_ ∨ due ≤ s.now then
      some (afterWait cfg s shown due)
    else none
  | .waitReady shown due readyAt =>
    if s.stopRequested ∨ wake cfg s shown then some (returnWait s shown)
    else if readyAt ≤ s.now then some { s with refreshing_ := true, pc := .repainting shown due }
    else none
  | .repainting _ _ => none
  | .errorWait t => if s.stopRequested ∨ t ≤ s.now then some { s with pc := .top } else none
  | .exited => none

/-- The handlers behind the loop's body: reading the repository or the files or painting threw. -/
def loopThrows (s : State γ) : Option (State γ) :=
  let caught := some { s with refreshing_ := false, pc := .errorWait (inSecs s 5) }
  match s.pc with
  | .getAll => caught
  | .loadDefaults => caught
  | .defaults _ => if s.stopRequested ∨ !s.settings.slideshowActive_ then none else caught
  | .checkFile _ => caught
  | .samplePainting _ _ => caught
  | .userPainting _ => caught
  | .repainting _ _ => caught
  | _ => none

/-- What a paint leaves on the panel. -/
def panelAfter (s : State γ) : Paint → State γ
  | .shown => { s with lastDisplayTime := s.now, isCleared := false }
  | .failed => { s with lastDisplayTime := s.now }
  | .refused => s

/-- `_paint` returns. -/
def painted (s : State γ) (outcome : Paint) : Option (State γ) :=
  let p := panelAfter s outcome
  match s.pc with
  | .samplePainting images path =>
    if outcome = .shown then some { p with ready_ := true, pc := .samplePainted images path }
    else if s.stopRequested then some { p with pc := .top }
    else some { p with pc := .samplePainted images path }
  | .userPainting image =>
    if outcome = .shown then some { p with ready_ := true, pc := .userPainted image }
    else if s.stopRequested then some (leave p)
    else some { p with pc := .userPainted image }
  | .repainting shown due => some { p with refreshing_ := false, pc := .waitNext shown due }
  | _ => none

/-! ## The other threads -/

/-- `skipCurrent_ = true`: a new signal. -/
def signal (s : State γ) : State γ := { s with skipCurrent_ := true, used := false }

/-- One step. -/
def step (s : State γ) : Act → Option (State γ)
  | .tick d => some { s with now := s.now + d }
  | .loop => loop gen cfg s
  | .loopThrows => loopThrows s
  | .painted outcome => painted s outcome
  | .imageNew id =>
    -- the row is stored before its event is published
    if id ∈ s.unannounced then
      some { s with
        newImage_ := true
        unannounced := s.unannounced.erase id
        announced := if id ∈ s.rows.map (·.id) then id :: s.announced else s.announced }
    else none
  | .imageRemoved ids => if s.currentImageId_ ∈ ids then some (signal s) else some s
  | .skipImage => some (signal s)
  | .showImage id => some { signal s with pendingShowId_ := id }
  | .scheduledClear => some { s with restoreCurrent_ := true }
  | .setSlideshowActive active =>
    some { s with settings := { s.settings with slideshowActive_ := active } }
  | .updateInterval secs =>
    some { s with settings := { s.settings with displayIntervalSecs_ := secs } }
  | .updateNightMode night => some { s with settings := { s.settings with night_ := night } }
  | .updatePlaybackOrder mode customOrder =>
    some { s with
      settings := { s.settings with playbackMode_ := mode, customOrder_ := customOrder } }
  | .updateCustomization showSender =>
    some { s with settings := { s.settings with showSender_ := showSender } }
  | .store image =>
    some { s with
      rows := s.rows.filter (·.id ≠ image.id) ++ [image]
      unannounced := image.id :: s.unannounced
      announced := s.announced.filter (· ≠ image.id) }
  | .remove ids =>
    some { s with
      rows := s.rows.filter (·.id ∉ ids), announced := s.announced.filter (· ∉ ids) }
  | .setFiles files => some { s with files }
  | .setDefaultImages images => some { s with defaultImages := images }
  | .panel cleared => some { s with lastDisplayTime := s.now, isCleared := cleared }
  | .requestStop => some { s with stopRequested := true }
  | .start => if s.pc = .exited then some { s with stopRequested := false, pc := .top } else none

/-- The loop starts with any settings, repository and files, at any time, with a fresh bag. The id
is the primary key of a row. -/
def machine : Transition.Machine (State γ) Act where
  Init s := ∃ now settings lastDisplayTime rows files defaultImages unannounced seed,
    (rows.map (·.id)).Nodup ∧
      s = { now, settings, lastDisplayTime, rows, files, defaultImages, unannounced,
            shuffle_ := { rng_ := seed } }
  step := step gen cfg

end ShareFrame.DisplayImageLoop
