import Mathlib.Data.Int.Order.Basic
import ShareFrame.Lib.Cursor
import ShareFrame.Net.HTTPClient
import ShareFrame.Util.Text

/-!
# Heartbeats

`Heartbeat::execute` posts what the board has logged since the last acknowledged
heartbeat, at most 50 events, and then saves the number of the last of them. The log
grows between the beats, and the process may start again. A `Round` is what one beat
meets. A run of `machine` refines delivery behind a cursor (`refines`), from which
follows that the events arrive in order and none is skipped (`events_delivered`).
-/

namespace ShareFrame.Heartbeat

open HTTPClient Transition

/-- An event in the payload. -/
structure Event where
  seq : Int
  time : String
  source : String
  message : String
  deriving DecidableEq, Repr

/-! ## The list of events -/

/-- Replaced by a blank in messages. -/
def isUnsafe (c : Char) : Bool :=
  c.toNat < 0x20 || 0x7e < c.toNat || [0x22, 0x27, 0x5c].contains c.toNat

def sanitized (message : List Char) : List Char := message.map fun c => if isUnsafe c then ' ' else c

/-- A line `<seq> <time> [<source>] <message>`, a `Char` for every byte. -/
def readEvent (line : String) : Option Event :=
  match Text.integer 64 line with
  | none => none
  | some (seq, rest) =>
    let (time, rest) := Text.word rest
    let (source, rest) := Text.word rest
    if time = [] ∨ source.length < 2 then none
    else some
      { seq
        time := String.ofList time
        source := String.ofList ((source.drop 1).take (source.length - 2))
        message := String.ofList (sanitized (rest.dropWhile Text.isBlank)) }

def kMaxEventsPerBeat : Nat := 50

/-- `_getNewEvents`, behind the run of `shareframe-event`. -/
def getNewEvents (exitCode : Int) (stdOut : String) : List Event :=
  if exitCode ≠ 0 then [] else ((Text.lines stdOut).filterMap readEvent).take kMaxEventsPerBeat

/-! ## The cursor -/

/-- What is read from the file of the cursor: `0` where there is no number, and the closest one
where the number is too large. -/
def cursorOf : Option String → Int
  | none => 0
  | some text =>
    match Text.number text.toList with
    | none => 0
    | some (n, _) => max (-9223372036854775808) (min n 9223372036854775807)

/-- What `_saveEventCursor` writes. -/
def cursorText (seq : Int) : String := toString seq ++ "\n"

/-! ## A beat -/

/-- What a beat meets. -/
structure Round where
  localIp : String := "192.168.1.7"
  /-- the rest of the payload comes together: the picture store answers, and the text is valid -/
  payload : Bool := true
  /-- of `shareframe-event` -/
  exitCode : Int := 0
  /-- a token is there -/
  headers : Bool := true
  response : HttpResponse
  /-- the server took the heartbeat -/
  taken : Bool := true
  /-- the file of the cursor could be replaced -/
  saved : Bool := true
  deriving DecidableEq, Repr

structure Outcome where
  /-- the events of the heartbeat that was posted -/
  posted : Option (List Event) := none
  /-- the file of the cursor -/
  file : Option String
  backendReached : Bool
  deriving DecidableEq, Repr

/-- The end of `execute`, where the heartbeat was posted. -/
def answered (file : Option String) (backendReached : Bool) (r : Round) (events : List Event) : Outcome :=
  if r.response.statusCode = 401 then ⟨some events, file, backendReached⟩
  else if !r.response.ok then ⟨some events, file, backendReached⟩
  else match events.getLast? with
    | none => ⟨some events, file, true⟩
    | some last => ⟨some events, if r.saved then some (cursorText last.seq) else file, true⟩

/-- `stdOut` is what `shareframe-event` prints. -/
def execute (file : Option String) (backendReached : Bool) (stdOut : String) (r : Round) : Outcome :=
  if r.localIp = "" then { file, backendReached }
  else if !r.payload then { file, backendReached }
  else
    let events := getNewEvents r.exitCode stdOut
    if !r.headers then { file, backendReached } else answered file backendReached r events

/-! ## The board's log -/

/-- An entry of the log of the board. -/
structure Entry where
  seq : Nat
  time : List Char
  source : List Char
  message : List Char
  deriving DecidableEq, Repr

namespace Entry

structure WellFormed (e : Entry) : Prop where
  seq : e.seq < 9223372036854775808
  time : e.time ≠ [] ∧ ∀ c ∈ e.time, Text.isBlank c = false
  source : ∀ c ∈ e.source, Text.isBlank c = false
  message : '\n' ∉ e.message

instance (e : Entry) : Decidable e.WellFormed :=
  decidable_of_iff (e.seq < 9223372036854775808 ∧
    (e.time ≠ [] ∧ e.time.all (Text.isBlank · == false)) ∧
    e.source.all (Text.isBlank · == false) ∧ '\n' ∉ e.message)
    ⟨fun ⟨h₁, h₂, h₃, h₄⟩ => ⟨h₁, ⟨h₂.1, by simpa using h₂.2⟩, by simpa using h₃, h₄⟩,
      fun h => ⟨h.1, ⟨h.2.1, by simpa using h.2.2⟩, by simpa using h.3, h.4⟩⟩

/-- The source as it stands in the line. -/
def bracketed (e : Entry) : List Char := '[' :: (e.source ++ [']'])

def line (e : Entry) : List Char :=
  (toString (e.seq : Int)).toList ++ ' ' :: (e.time ++ ' ' :: (e.bracketed ++ ' ' :: e.message))

/-- The entry as it is sent. -/
def event (e : Entry) : Event where
  seq := e.seq
  time := String.ofList e.time
  source := String.ofList e.source
  message := String.ofList (sanitized (e.message.dropWhile Text.isBlank))

end Entry

/-- What `shareframe-event --since n` prints. -/
def since (n : Int) (log : List Entry) : String :=
  String.ofList ((log.filter (n < ·.seq)).flatMap fun e => e.line ++ ['\n'])

variable {e : Entry} {log : List Entry} {n : Int}

theorem Entry.WellFormed.bracketed (h : e.WellFormed) : ∀ c ∈ e.bracketed, Text.isBlank c = false := by
  intro c hc
  obtain rfl | hc := List.mem_cons.mp hc
  · rfl
  · obtain hc | hc := List.mem_append.mp hc
    · exact h.source c hc
    · cases List.mem_singleton.mp hc
      rfl

theorem Entry.source_of_bracketed : (e.bracketed.drop 1).take (e.bracketed.length - 2) = e.source := by
  have hlength : e.bracketed.length - 2 = e.source.length := by simp [Entry.bracketed]
  rw [hlength, Entry.bracketed, List.drop_one, List.tail_cons, List.take_left]

/-- A well-formed line is read as its entry. -/
theorem readEvent_line (h : e.WellFormed) : readEvent (String.ofList e.line) = some e.event := by
  have hseq : Text.integer 64 (String.ofList e.line) =
      some ((e.seq : Int), ' ' :: (e.time ++ ' ' :: (e.bracketed ++ ' ' :: e.message))) := by
    rw [Text.integer, String.toList_ofList, Entry.line,
      Text.number_append _ _ (by simp)]
    simp only
    have hlt := h.seq
    rw [show Int.pow 2 (64 - 1) = 9223372036854775808 from rfl, if_pos (by omega)]
  have htime : Text.word (' ' :: (e.time ++ ' ' :: (e.bracketed ++ ' ' :: e.message))) =
      (e.time, ' ' :: (e.bracketed ++ ' ' :: e.message)) :=
    Text.word_append h.time.2 h.time.1 (by simp; decide)
  have hsource : Text.word (' ' :: (e.bracketed ++ ' ' :: e.message)) =
      (e.bracketed, ' ' :: e.message) :=
    Text.word_append h.bracketed (List.cons_ne_nil _ _) (by simp; decide)
  have hlength : ¬ (e.time = [] ∨ e.bracketed.length < 2) := by simp [Entry.bracketed, h.time.1]
  rw [readEvent, hseq]
  simp only [htime, hsource, if_neg hlength, Entry.source_of_bracketed]
  rw [List.dropWhile_cons_of_pos rfl]
  rfl

theorem newline_notMem (h : e.WellFormed) : '\n' ∉ e.line := by
  have hblank : ∀ {cs : List Char}, (∀ c ∈ cs, Text.isBlank c = false) → '\n' ∉ cs :=
    fun hcs hmem => by cases hcs _ hmem
  have hseq : '\n' ∉ (toString (e.seq : Int)).toList :=
    fun hmem => absurd (Text.mem_toString hmem) (by decide)
  simp only [Entry.line, List.mem_append, List.mem_cons, not_or]
  exact ⟨hseq, by decide, hblank h.time.2, by decide, hblank h.bracketed, by decide, h.message⟩

/-- The lines of the log are read as its events. -/
theorem filterMap_readEvent (h : ∀ e ∈ log, e.WellFormed) :
    (Text.lines (String.ofList (log.flatMap fun e => e.line ++ ['\n']))).filterMap readEvent =
      log.map (·.event) := by
  simp only [Text.lines, Text.split, String.toList_ofList]
  induction log with
  | nil => rfl
  | cons e log ih =>
    have he := h e List.mem_cons_self
    rw [List.flatMap_cons, List.append_assoc, List.singleton_append, List.splitOn_append_cons_self,
      List.splitOn_eq_singleton (newline_notMem he), List.singleton_append, List.map_cons,
      List.filterMap_cons, readEvent_line he, ih fun e he => h e (List.mem_cons_of_mem _ he)]
    rfl

theorem getNewEvents_since (h : ∀ e ∈ log, e.WellFormed) :
    getNewEvents 0 (since n log) = (Cursor.after Event.seq n (log.map Entry.event)).take kMaxEventsPerBeat := by
  rw [getNewEvents, if_neg (by simp), since,
    filterMap_readEvent fun e he => h e ((List.mem_filter.mp he).1), Cursor.after, List.filter_map]
  rfl

theorem cursorOf_text (h : 0 ≤ n) (h' : n < 9223372036854775808) : cursorOf (some (cursorText n)) = n := by
  rw [cursorOf, cursorText, String.toList_append, Text.number_append _ _ (by simp)]
  simp only
  omega

/-! ## Runs -/

structure State where
  log : List Entry := []
  /-- the file of the cursor -/
  file : Option String
  backendReached : Bool := false
  /-- *ghost*: the cursor at the start -/
  first : Int
  /-- *ghost*: the events in heartbeats that the server took -/
  received : List Event := []
  /-- *ghost*: the events of the acknowledged heartbeats -/
  acknowledged : List (List Event) := []

inductive Act where
  | log (e : Entry)
  | beat (r : Round)
  /-- the process starts again -/
  | restart

/-- The server acknowledges no heartbeat that it did not take. -/
def step (s : State) : Act → Option State
  | .log e =>
    if e.WellFormed ∧ ∀ b ∈ s.log, b.seq < e.seq then some { s with log := s.log ++ [e] } else none
  | .beat r =>
    let o := execute s.file s.backendReached (since (cursorOf s.file) s.log) r
    if r.response.ok && !r.taken then none
    else some { s with
      file := o.file
      backendReached := o.backendReached
      received := if r.taken then s.received ++ o.posted.getD [] else s.received
      acknowledged := if r.response.ok then s.acknowledged ++ o.posted.toList else s.acknowledged }
  | .restart => some { s with backendReached := false }

def Init (s : State) : Prop :=
  s.log = [] ∧ s.first = cursorOf s.file ∧ s.received = [] ∧ s.acknowledged = []

def machine : Machine State Act := ⟨Init, step⟩

/-- The heartbeat is posted. -/
def Round.posts (r : Round) : Bool := r.localIp ≠ "" && r.payload && r.headers

/-- The cursor is saved, and the answer of a heartbeat that the server took is not lost. -/
def Lossless (_ : State) : Act → Bool
  | .beat r => r.saved && (!(r.posts && r.taken) || r.response.ok)
  | _ => true

/-- Beats that read the log and are acknowledged. -/
def Act.full : Act → Bool
  | .beat r => r.exitCode = 0 && (r.posts && r.response.ok)
  | _ => false

variable {file : Option String} {backendReached : Bool} {stdOut : String} {r : Round}

theorem execute_eq : execute file backendReached stdOut r =
    if r.posts then answered file backendReached r (getNewEvents r.exitCode stdOut)
    else { file, backendReached } := by
  by_cases hip : r.localIp = ""
  · simp [execute, Round.posts, hip]
  · cases hpayload : r.payload <;> cases hheaders : r.headers <;>
      simp [execute, Round.posts, hip, hpayload, hheaders]

theorem answered_posted {events : List Event} :
    (answered file backendReached r events).posted = some events := by
  unfold answered
  split
  · rfl
  · split
    · rfl
    · split <;> rfl

theorem ok_ne (h : r.response.ok = true) : r.response.statusCode ≠ 401 := by
  intro heq
  simp [HttpResponse.ok, heq] at h

/-- The cursor moves behind an acknowledged heartbeat with events. -/
theorem answered_file {events : List Event} : (answered file backendReached r events).file =
    if r.response.ok && r.saved then
      (events.getLast?.map fun last => some (cursorText last.seq)).getD file
    else file := by
  cases hok : r.response.ok with
  | false =>
    rw [answered, hok]
    split <;> rfl
  | true =>
    rw [answered, if_neg (ok_ne hok), hok]
    cases events.getLast? <;> cases r.saved <;> rfl

theorem execute_posted : (execute file backendReached stdOut r).posted =
    if r.posts then some (getNewEvents r.exitCode stdOut) else none := by
  rw [execute_eq]
  split
  exacts [answered_posted, rfl]

theorem execute_file : (execute file backendReached stdOut r).file =
    if r.posts && r.response.ok && r.saved then
      ((getNewEvents r.exitCode stdOut).getLast?.map fun last => some (cursorText last.seq)).getD file
    else file := by
  rw [execute_eq]
  cases hposts : r.posts with
  | false => rfl
  | true =>
    rw [if_pos rfl, answered_file, Bool.true_and]

/-! ## Delivery behind the cursor -/

def State.abs (s : State) : Cursor.State Event Int where
  log := s.log.map Entry.event
  cursor := cursorOf s.file
  first := s.first
  received := s.received
  acknowledged := s.acknowledged

def Round.abs (r : Round) : Cursor.Beat where
  listed := r.exitCode = 0
  taken := r.posts && r.taken
  acked := r.posts && r.response.ok
  saved := r.saved

/-- A restart is none of the steps there. -/
def Act.abs : Act → Option (Cursor.Act Event)
  | .log e => some (.grow e.event)
  | .beat r => some (.beat r.abs)
  | .restart => none

variable {s s' t : State} {a : Act} {x : Cursor.Act Event}

def Written (s : State) : Prop := ∀ e ∈ s.log, e.WellFormed

theorem Written.step (h : Written s) (hs : step s a = some s') : Written s' := by
  cases a with
  | log e =>
    obtain ⟨⟨he, -⟩, hs⟩ := Option.ite_none_right_eq_some.mp hs
    cases hs
    intro b hb
    obtain hb | hb := List.mem_append.mp hb
    · exact h b hb
    · cases List.mem_singleton.mp hb
      exact he
  | beat r =>
    obtain ⟨-, hs⟩ := Option.ite_none_left_eq_some.mp hs
    cases hs
    exact h
  | restart =>
    cases hs
    exact h

/-- The batch of a beat is what it posts. -/
theorem batch_abs (h : Written s) :
    Cursor.batch Event.seq kMaxEventsPerBeat s.abs r.abs =
      getNewEvents r.exitCode (since (cursorOf s.file) s.log) := by
  by_cases hcode : r.exitCode = 0
  · rw [hcode, getNewEvents_since h, Cursor.batch, if_pos (by simp [Round.abs, hcode])]
    rfl
  · rw [getNewEvents, if_pos hcode, Cursor.batch, if_neg (by simp [Round.abs, hcode])]

theorem seq_bounds (h : Written s) {last : Event}
    (hlast : last ∈ Cursor.batch Event.seq kMaxEventsPerBeat s.abs r.abs) :
    0 ≤ last.seq ∧ last.seq < 9223372036854775808 := by
  unfold Cursor.batch at hlast
  split at hlast
  · obtain ⟨hmem, -⟩ := Cursor.mem_after.mp (List.mem_of_mem_take hlast)
    obtain ⟨e, he, rfl⟩ := List.mem_map.mp hmem
    have hlt := (h e he).seq
    simp only [Entry.event]
    omega
  · cases hlast

/-- The cursor behind a beat. -/
theorem cursorOf_execute (h : Written s) :
    cursorOf (execute s.file backendReached (since (cursorOf s.file) s.log) r).file =
      if r.abs.acked && r.abs.saved then
        ((Cursor.batch Event.seq kMaxEventsPerBeat s.abs r.abs).getLast?.map Event.seq).getD
          (cursorOf s.file)
      else cursorOf s.file := by
  have hcond : (r.posts && r.response.ok && r.saved) = (r.abs.acked && r.abs.saved) := rfl
  rw [execute_file, ← batch_abs h, hcond]
  by_cases hsaved : (r.abs.acked && r.abs.saved) = true
  · rw [if_pos hsaved, if_pos hsaved]
    cases hlast : (Cursor.batch Event.seq kMaxEventsPerBeat s.abs r.abs).getLast? with
    | none => rfl
    | some last =>
      obtain ⟨hpos, hlt⟩ := seq_bounds h (List.mem_of_getLast? hlast)
      exact cursorOf_text hpos hlt
  · rw [if_neg hsaved, if_neg hsaved]

theorem refines (h : Written s) (hs : step s a = some s') :
    match a.abs with
    | some x => Cursor.step Event.seq kMaxEventsPerBeat s.abs x = some s'.abs
    | none => s'.abs = s.abs := by
  cases a with
  | restart =>
    cases hs
    rfl
  | log e =>
    obtain ⟨⟨-, hnew⟩, hs⟩ := Option.ite_none_right_eq_some.mp hs
    cases hs
    have hnew' : ∀ b ∈ s.abs.log, b.seq < e.event.seq := by
      intro b hb
      obtain ⟨b', hb', rfl⟩ := List.mem_map.mp hb
      exact Int.ofNat_lt.mpr (hnew b' hb')
    simp only [Act.abs, Cursor.step]
    rw [if_pos hnew']
    simp only [State.abs, List.map_append, List.map_singleton]
  | beat r =>
    obtain ⟨htaken, hs⟩ := Option.ite_none_left_eq_some.mp hs
    cases hs
    have hcursor := @cursorOf_execute s.backendReached r s h
    have hposted := @execute_posted s.file s.backendReached (since (cursorOf s.file) s.log) r
    rw [← batch_abs h] at hposted
    have htaken' : ¬ (r.abs.acked && !r.abs.taken) = true := by
      simp only [Round.abs]
      cases r.posts <;> simp_all
    simp only [Act.abs, Cursor.step, if_neg htaken', Option.some.injEq]
    refine (Cursor.State.mk.injEq ..).mpr ⟨rfl, hcursor.symm, rfl, ?_, ?_⟩
    · rw [hposted]
      cases hposts : r.posts <;> cases htake : r.taken <;> simp [Round.abs, State.abs, hposts, htake]
    · rw [hposted]
      cases hposts : r.posts <;> cases hok : r.response.ok <;>
        simp [Round.abs, State.abs, hposts, hok]

theorem written_of_reachable {G : State → Act → Prop} (h : machine.ReachableBy G s) : Written s := by
  have hind : machine.Inductive (fun _ _ => True) Written := by
    refine ⟨fun s hs => ?_, fun _ _ _ hI _ hs => hI.step hs⟩
    rw [Written, hs.1]
    nofun
  exact hind.of_reachable h.reachable

/-- Delivery behind a cursor, by steps that meet the guard there. -/
theorem reachable_abs {G : State → Act → Prop} {G' : Cursor.State Event Int → Cursor.Act Event → Prop}
    (hG : ∀ s a x, G s a → a.abs = some x → G' s.abs x) (h : machine.ReachableBy G s) :
    (Cursor.machine Event.seq kMaxEventsPerBeat).ReachableBy G' s.abs := by
  induction h with
  | @init s h0 =>
    obtain ⟨hlog, hfirst, hreceived, hacknowledged⟩ := h0
    exact .init ⟨by rw [State.abs, hlog]; rfl, hfirst, hreceived, hacknowledged⟩
  | @step s s' a hr hGa hs ih =>
    have href := refines (written_of_reachable hr) hs
    cases hx : a.abs with
    | none =>
      rw [hx] at href
      exact href ▸ ih
    | some x =>
      rw [hx] at href
      exact .step ih (hG s a x hGa hx) href

theorem lossless_abs (s : State) (a : Act) (x : Cursor.Act Event) (h : Lossless s a)
    (hx : a.abs = some x) : Cursor.Lossless s.abs x := by
  cases a with
  | restart => cases hx
  | log e =>
    cases hx
    rfl
  | beat r =>
    cases hx
    simp only [Lossless, Cursor.Lossless, Round.abs] at h ⊢
    cases hposts : r.posts <;> simp_all

theorem run_abs {as : List Act} (h : Written s) (hrun : machine.RunBy (fun s a => Lossless s a) s as t) :
    (Cursor.machine Event.seq kMaxEventsPerBeat).RunBy (fun s x => Cursor.Lossless s x) s.abs
      (as.filterMap Act.abs) t.abs := by
  induction as generalizing s with
  | nil =>
    obtain ⟨-, hrun⟩ := hrun
    cases hrun
    exact .nil
  | cons a as ih =>
    obtain ⟨s', hG, hs, hrun⟩ := hrun.uncons
    have href := refines h hs
    have hrest := ih (h.step hs) hrun
    cases hx : a.abs with
    | none =>
      rw [hx] at href
      rw [List.filterMap_cons_none hx, ← href]
      exact hrest
    | some x =>
      rw [hx] at href
      rw [List.filterMap_cons_some hx]
      exact .cons (lossless_abs s a x hG hx) href hrest

theorem countP_full (as : List Act) : (as.filterMap Act.abs).countP Cursor.Full = as.countP Act.full := by
  rw [List.countP_filterMap]
  refine List.countP_congr fun a _ => ?_
  cases a <;> simp [Act.abs, Act.full, Cursor.Full, Round.abs]

/-- The events that are left up to this one. -/
def left (s : State) (e : Entry) : Nat :=
  (s.log.filter fun b => cursorOf s.file < b.seq ∧ b.seq ≤ e.seq).length

theorem left_abs : Cursor.left Event.seq s.abs e.event = left s e := by
  rw [Cursor.left, Cursor.between, State.abs, List.filter_map, List.length_map, left]
  refine congrArg List.length (List.filter_congr fun b _ => ?_)
  simp [Entry.event]

/-! ## Main result -/

/-- The cursor never goes back and passes no event that was not acknowledged; the first
deliveries are the log, from the start on; and where neither a save nor an answer is lost every
event is in one acknowledged heartbeat, as soon as there were enough of them. -/
theorem events_delivered (h : machine.Reachable s) :
    (∀ a s', step s a = some s' → cursorOf s.file ≤ cursorOf s'.file) ∧
    (∀ e ∈ s.log, s.first < e.seq → e.seq ≤ cursorOf s.file →
      ∃ beat ∈ s.acknowledged, e.event ∈ beat) ∧
    s.received.eraseDups <+: (s.log.filter (s.first < ·.seq)).map Entry.event ∧
    (machine.ReachableBy (fun s a => Lossless s a) s → s.received = s.acknowledged.flatten ∧
      ∀ e ∈ s.log, s.first < e.seq →
        s.acknowledged.countP (e.event ∈ ·) = (if e.seq ≤ cursorOf s.file then 1 else 0) ∧
        ∀ as t, machine.RunBy (fun s a => Lossless s a) s as t →
          left s e ≤ kMaxEventsPerBeat * as.countP Act.full →
          t.acknowledged.countP (e.event ∈ ·) = 1) := by
  have hI : Cursor.Inv Event.seq s.abs :=
    Cursor.inv_of_reachable (reachable_abs (fun _ _ _ _ _ => trivial) h)
  refine ⟨fun a s' hs => ?_, fun e he hfirst hle => ?_, ?_, fun hlossless => ?_⟩
  · have href := refines (written_of_reachable h) hs
    cases hx : a.abs with
    | none =>
      rw [hx] at href
      exact (congrArg Cursor.State.cursor href).ge
    | some x =>
      rw [hx] at href
      exact Cursor.cursor_mono hI href
  · exact hI.acknowledged e.event (Cursor.mem_between.mpr ⟨List.mem_map_of_mem he, hfirst, hle⟩)
  · obtain ⟨m, hm, -, hfresh⟩ := hI.fresh
    have hpending : Cursor.after Event.seq s.first (s.log.map Entry.event) =
        (s.log.filter (s.first < ·.seq)).map Entry.event := by
      rw [Cursor.after, List.filter_map]
      rfl
    rw [← hpending]
    exact hfresh ▸ Cursor.between_prefix hI.ascending (hI.first_le.trans hm)
  · have hexact : Cursor.Exact Event.seq s.abs :=
      Cursor.exact_of_reachable (reachable_abs lossless_abs hlossless)
    refine ⟨hexact.received, fun e he hfirst => ⟨?_, fun as t hrun henough => ?_⟩⟩
    · split
      next hle => exact hexact.once (Cursor.mem_between.mpr ⟨List.mem_map_of_mem he, hfirst, hle⟩)
      next hlt =>
        refine List.countP_eq_zero.mpr fun beat hbeat => ?_
        have hnot : e.event ∉ s.abs.acknowledged.flatten := by
          rw [hexact.flatten]
          exact fun hmem => hlt (Cursor.mem_between.mp hmem).2.2
        simpa using fun hmem => hnot (List.mem_flatten_of_mem hbeat hmem)
    · have hrun' := run_abs (written_of_reachable h) hrun
      rw [← left_abs, ← countP_full] at henough
      have hpassed := Cursor.le_cursor hI (List.mem_map_of_mem he) hrun' henough
      obtain ⟨hmem, -⟩ := Cursor.left_run hI (List.mem_map_of_mem he) hrun'
      have hexact' : Cursor.Exact Event.seq t.abs :=
        hrun'.invariant (fun _ _ _ hI hG hs => hI.step hG hs) hexact
      have hfirst' : t.abs.first = s.abs.first :=
        hrun'.invariant (I := fun u => u.first = s.abs.first)
          (fun _ _ _ hI _ hs => (Cursor.first_eq hs).trans hI) rfl
      exact hexact'.once (Cursor.mem_between.mpr ⟨hmem, hfirst' ▸ hfirst, hpassed⟩)

/-- An event, a heartbeat whose answer is lost, another event, and a heartbeat that is
acknowledged. -/
def lostAnswer : List Act :=
  [.log ⟨7, ['t'], ['s'], ['m']⟩, .beat { response := {} }, .restart, .log ⟨8, ['t'], ['s'], ['m']⟩,
    .beat { response := { statusCode := 200 } }]

theorem events_delivered_lostAnswer : ∃ s, machine.run { file := none, first := 0 } lostAnswer = some s ∧
    s.received.map (·.seq) = [7, 7, 8] ∧ cursorOf s.file = 8 ∧
    s.received.eraseDups <+: (s.log.filter (s.first < ·.seq)).map Entry.event := by
  have hrun : ∃ s, machine.run { file := none, first := 0 } lostAnswer = some s ∧
      (s.received.map (·.seq) = [7, 7, 8] ∧ cursorOf s.file = 8 : Bool) = true :=
    (Option.any_eq_true _ _).mp (by decide +kernel)
  obtain ⟨s, hs, hends⟩ := hrun
  obtain ⟨hreceived, hcursor⟩ := of_decide_eq_true hends
  exact ⟨s, hs, hreceived, hcursor, (events_delivered (Machine.reachable_run lostAnswer
    ⟨rfl, rfl, rfl, rfl⟩ hs)).2.2.1⟩

end ShareFrame.Heartbeat
