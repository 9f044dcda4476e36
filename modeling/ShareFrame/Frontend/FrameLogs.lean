import Mathlib.Algebra.Order.Group.Int
import Mathlib.Data.List.Forall2
import ShareFrame.Lib.Machine
import ShareFrame.Util.Stringify
import ShareFrame.Util.Text

/-!
# The cache of the frame's logs

`fetchFrameLogs` answers from the store as long as the entry there is younger than
`CACHE_DURATION`. A dispatch looks at the store at once and is fulfilled or rejected later, in
any order; the reducer then stamps the entry with its own time, whether the data came from
the frame or from the cache. What the store holds is always what a request for its
`cachedParams` gave (`Inv.cache`). It is young enough in the runs whose dispatches come at safe
times: not between `CACHE_DURATION` behind the start of the request for the stored data and
`CACHE_DURATION` behind their storing (`logs_young_iff`).
-/

namespace ShareFrame.FrameLogs

open Transition JSON

/-! ## Parameters -/

/-- A property of the parameters, `none` for `undefined`. -/
inductive Property where
  | service_name (s : String)
  | since_timestamp (s : Option String)
  | lines (n : Option Int)
  | follow (b : Option Bool)
  deriving DecidableEq, Repr

def Property.key : Property → String
  | service_name _ => "service_name"
  | since_timestamp _ => "since_timestamp"
  | lines _ => "lines"
  | follow _ => "follow"

/-- The property as a member of an object, if it is not `undefined`. -/
def Property.member : Property → Option Member
  | service_name s => some ("service_name", .str s)
  | since_timestamp s => s.map fun s => ("since_timestamp", .str s)
  | lines n => n.map fun n => ("lines", .num n)
  | follow b => b.map fun b => ("follow", .bool b)

/-- An object with each key at most once, in the order of its making. -/
structure LogsRequestParams where
  properties : List Property
  nodup : (properties.map Property.key).Nodup
  deriving DecidableEq, Repr

namespace LogsRequestParams

def members (params : LogsRequestParams) : List Member :=
  params.properties.filterMap Property.member

def get (params : LogsRequestParams) (key : String) : Option Value := params.members.lookup key

/-- `JSON.stringify(params)`. -/
def text (params : LogsRequestParams) : List Char := stringify params.members

end LogsRequestParams

/-- `if (value) queryParams.append(key, value)`. -/
def append (key : String) : Option Value → List (String × String)
  | some (.str s) => if s = "" then [] else [(key, s)]
  | some (.num n) => if n = 0 then [] else [(key, String.ofList (decimal n))]
  | _ => []

def queryParams (params : LogsRequestParams) : List (String × String) :=
  append "service_name" (params.get "service_name") ++
    append "since_timestamp" (params.get "since_timestamp") ++ append "lines" (params.get "lines")

/-- The text of the parameters tells what is asked for. -/
theorem queryParams_congr {p q : LogsRequestParams} (h : p.text = q.text) :
    queryParams p = queryParams q := by
  have hmembers : p.members = q.members := stringify_inj h
  simp only [queryParams, LogsRequestParams.get, hmembers]

/-! ## The store -/

def CACHE_DURATION : Int := 30 * 1000

/-- A request to the frame and the time at which it was started. -/
structure Request where
  query : List (String × String)
  startedAt : Int
  deriving DecidableEq, Repr

structure LogsData where
  service : String
  period : String
  timestamp : String
  log_count : Nat
  logs : List String
  lastFetched : Int
  deriving DecidableEq, Repr

/-- Data, and *ghost* the request that it answers. -/
structure Fetched where
  data : LogsData
  request : Request
  lastFetched : data.lastFetched = request.startedAt
  deriving DecidableEq

structure LogsState where
  logsData : Option Fetched := none
  loading : Bool := false
  error : Option String := none
  lastFetchTimestamp : Option Int := none
  cachedParams : Option (List Char) := none
  deriving DecidableEq

/-- What the frame answers, or what is thrown on the way. -/
inductive Answer where
  | payload (success : Bool) (message service_name logs : Option String)
  | thrown (error : Option String)
  deriving DecidableEq, Repr

/-- Where a dispatched thunk is. -/
inductive Phase where
  | requested
  | returned (payload : Fetched)
  | failed (message : String)
  | fulfilled (payload : Fetched)
  | rejected
  deriving DecidableEq

structure Thunk where
  params : LogsRequestParams
  currentTime : Int
  phase : Phase
  deriving DecidableEq

/-- The store, and every dispatch so far. -/
structure St where
  logs : LogsState := {}
  thunks : List Thunk := []
  deriving DecidableEq

/-- What a dispatch finds in the cache. -/
def cached (logs : LogsState) (params : LogsRequestParams) (currentTime : Int) : Option Fetched :=
  match logs.logsData, logs.lastFetchTimestamp with
  | some entry, some stamp =>
    if stamp ≠ 0 ∧ logs.cachedParams = some params.text ∧ currentTime - stamp < CACHE_DURATION then
      some entry
    else none
  | _, _ => none

section

variable (toISOString : Int → String)

/-- What the thunk makes of the answer to its request. -/
def Thunk.answered (t : Thunk) : Answer → Phase
  | .payload true _ service_name logs =>
    let logLines := (Text.split '\n' (logs.getD "")).filter (· ≠ "")
    .returned
      { data := { service := service_name.getD "", period := "",
                  timestamp := toISOString t.currentTime, log_count := logLines.length,
                  logs := logLines, lastFetched := t.currentTime }
        request := ⟨queryParams t.params, t.currentTime⟩
        lastFetched := rfl }
  | .payload false message _ _ =>
    .failed (if message.getD "" = "" then "Failed to fetch logs" else message.getD "")
  | .thrown error => .failed (error.getD "Unknown error")

/-- Dispatches, answers, and what the store is told. -/
inductive Act where
  | dispatch (params : LogsRequestParams) (currentTime : Int)
  | answer (i : Nat) (answer : Answer)
  | fulfilled (i : Nat) (now : Int)
  | rejected (i : Nat)
  | clearLogs
  deriving DecidableEq, Repr

def St.setPhase (s : St) (i : Nat) (phase : Phase) : St :=
  { s with thunks := s.thunks.modify i fun t => { t with phase } }

def step (s : St) : Act → Option St
  | .dispatch params currentTime =>
    let phase := match cached s.logs params currentTime with
      | some entry => .returned entry
      | none => .requested
    some { logs := { s.logs with loading := true, error := none }
           thunks := s.thunks ++ [⟨params, currentTime, phase⟩] }
  | .answer i answer => do
    let t ← s.thunks[i]?
    match t.phase with
    | .requested => some (s.setPhase i (t.answered toISOString answer))
    | _ => none
  | .fulfilled i now => do
    let t ← s.thunks[i]?
    match t.phase with
    | .returned entry =>
      some { s.setPhase i (.fulfilled entry) with
        logs := { logsData := some entry, loading := false, error := none,
                  lastFetchTimestamp := some now, cachedParams := some t.params.text } }
    | _ => none
  | .rejected i => do
    let t ← s.thunks[i]?
    match t.phase with
    | .failed message =>
      some { s.setPhase i .rejected with
        logs := { s.logs with loading := false, error := some message } }
    | _ => none
  | .clearLogs =>
    some { s with logs := { s.logs with
      logsData := none, error := none, lastFetchTimestamp := none, cachedParams := none } }

def machine : Machine St Act where
  Init s := s = {}
  step := step toISOString

/-! ## One step -/

/-- What a dispatched thunk starts with. -/
def Thunk.start (logs : LogsState) (params : LogsRequestParams) (currentTime : Int) : Thunk :=
  ⟨params, currentTime, match cached logs params currentTime with
    | some entry => .returned entry
    | none => .requested⟩

/-- The store of a fulfilled thunk. -/
def LogsState.holding (entry : Fetched) (now : Int) (params : LogsRequestParams) : LogsState :=
  { logsData := some entry, loading := false, error := none, lastFetchTimestamp := some now,
    cachedParams := some params.text }

/-- What a step does. -/
inductive Step (s : St) : Act → St → Prop where
  | dispatch (params : LogsRequestParams) (currentTime : Int) :
    Step s (.dispatch params currentTime)
      { logs := { s.logs with loading := true, error := none }
        thunks := s.thunks ++ [Thunk.start s.logs params currentTime] }
  | answer (i : Nat) (answer : Answer) (t : Thunk) : s.thunks[i]? = some t → t.phase = .requested →
    Step s (.answer i answer) (s.setPhase i (t.answered toISOString answer))
  | fulfilled (i : Nat) (now : Int) (t : Thunk) (entry : Fetched) : s.thunks[i]? = some t →
    t.phase = .returned entry → Step s (.fulfilled i now)
      { s.setPhase i (.fulfilled entry) with logs := LogsState.holding entry now t.params }
  | rejected (i : Nat) (t : Thunk) (message : String) : s.thunks[i]? = some t →
    t.phase = .failed message → Step s (.rejected i)
      { s.setPhase i .rejected with
        logs := { s.logs with loading := false, error := some message } }
  | clearLogs : Step s .clearLogs
      { s with logs := { s.logs with
        logsData := none, error := none, lastFetchTimestamp := none, cachedParams := none } }

variable {toISOString} {s s' : St} {a : Act}

theorem Step.of_step (h : step toISOString s a = some s') : Step toISOString s a s' := by
  cases a with
  | dispatch params currentTime =>
    obtain rfl := Option.some.inj h
    exact .dispatch params currentTime
  | answer i answer =>
    obtain ⟨t, ht, h⟩ := Option.bind_eq_some_iff.mp h
    split at h
    · next hphase =>
      obtain rfl := Option.some.inj h
      exact .answer i answer t ht hphase
    · cases h
  | fulfilled i now =>
    obtain ⟨t, ht, h⟩ := Option.bind_eq_some_iff.mp h
    split at h
    · next entry hphase =>
      obtain rfl := Option.some.inj h
      exact .fulfilled i now t entry ht hphase
    · cases h
  | rejected i =>
    obtain ⟨t, ht, h⟩ := Option.bind_eq_some_iff.mp h
    split at h
    · next message hphase =>
      obtain rfl := Option.some.inj h
      exact .rejected i t message ht hphase
    · cases h
  | clearLogs =>
    obtain rfl := Option.some.inj h
    exact .clearLogs

theorem forall_setPhase {P : Thunk → Prop} {i : Nat} {t : Thunk} {phase : Phase}
    (ht : s.thunks[i]? = some t) (h : P { t with phase } ↔ P t) :
    (∀ u ∈ (s.setPhase i phase).thunks, P u) ↔ ∀ u ∈ s.thunks, P u := by
  obtain ⟨hi, rfl⟩ := List.getElem?_eq_some_iff.mp ht
  have hsplit : s.thunks = s.thunks.take i ++ s.thunks[i] :: s.thunks.drop (i + 1) := by
    rw [← List.drop_eq_getElem_cons hi, List.take_append_drop]
  rw [St.setPhase, List.modify_eq_take_cons_drop hi, List.forall_mem_append,
    List.forall_mem_cons, h, ← List.forall_mem_cons, ← List.forall_mem_append, ← hsplit]

/-! ## What belongs together -/

/-- What a thunk was fulfilled with, or will be. -/
def Thunk.payload (t : Thunk) : Option Fetched :=
  match t.phase with
  | .returned entry | .fulfilled entry => some entry
  | _ => none

/-- The data of the store and of a thunk were asked for with its parameters. -/
structure Inv (s : St) : Prop where
  cache : ∀ entry, s.logs.logsData = some entry →
    ∃ p : LogsRequestParams, s.logs.cachedParams = some p.text ∧
      entry.request.query = queryParams p
  empty : s.logs.logsData = none → s.logs.cachedParams = none
  asked : ∀ t ∈ s.thunks, ∀ entry, t.payload = some entry →
    entry.request.query = queryParams t.params

theorem eq_of_cached {logs : LogsState} {params : LogsRequestParams} {currentTime : Int}
    {entry : Fetched} (h : cached logs params currentTime = some entry) :
    logs.logsData = some entry ∧ logs.cachedParams = some params.text := by
  unfold cached at h
  split at h
  · next hdata hstamp =>
    split at h
    · next hhit => exact ⟨by rw [hdata, ← h], hhit.2.1⟩
    · cases h
  · cases h

theorem payload_start {logs : LogsState} {params : LogsRequestParams} {currentTime : Int} :
    (Thunk.start logs params currentTime).payload = cached logs params currentTime := by
  unfold Thunk.start Thunk.payload
  cases cached logs params currentTime with
  | none => rfl
  | some entry => rfl

/-- An answer is that to the thunk's own request. -/
theorem payload_answered {t : Thunk} {answer : Answer} {entry : Fetched}
    (h : ({ t with phase := t.answered toISOString answer } : Thunk).payload = some entry) :
    entry.request = ⟨queryParams t.params, t.currentTime⟩ := by
  unfold Thunk.payload Thunk.answered at h
  cases answer with
  | payload success message service_name logs =>
    cases success with
    | true => rw [← Option.some.inj h]
    | false => cases h
  | thrown error => cases h

theorem inv_step (hinv : Inv s) (h : Step toISOString s a s') : Inv s' := by
  cases h with
  | dispatch params currentTime =>
    refine ⟨hinv.cache, hinv.empty, List.forall_mem_append.mpr ⟨hinv.asked, ?_⟩⟩
    rw [List.forall_mem_singleton, payload_start]
    intro entry hentry
    obtain ⟨hdata, hparams⟩ := eq_of_cached hentry
    obtain ⟨p, hp, hquery⟩ := hinv.cache entry hdata
    rw [hquery, queryParams_congr (Option.some.inj (hp.symm.trans hparams))]
    rfl
  | answer i answer t ht hphase =>
    refine ⟨hinv.cache, hinv.empty, (forall_setPhase ht ?_).mpr hinv.asked⟩
    refine iff_of_true (fun entry hentry => ?_) (fun entry hentry => ?_)
    · rw [payload_answered hentry]
    · rw [Thunk.payload, hphase] at hentry
      cases hentry
  | fulfilled i now t entry ht hphase =>
    have hasked : entry.request.query = queryParams t.params :=
      hinv.asked t (List.mem_of_getElem? ht) entry (by rw [Thunk.payload, hphase])
    refine ⟨fun e he => ⟨t.params, rfl, ?_⟩, by rintro ⟨⟩, (forall_setPhase ht ?_).mpr hinv.asked⟩
    · rw [← Option.some.inj he, hasked]
    · rw [Thunk.payload, Thunk.payload, hphase]
  | rejected i t message ht hphase =>
    refine ⟨hinv.cache, hinv.empty, (forall_setPhase ht ?_).mpr hinv.asked⟩
    rw [Thunk.payload, Thunk.payload, hphase]
  | clearLogs => exact ⟨by rintro entry ⟨⟩, fun _ => rfl, hinv.asked⟩

/-! ## How old they are -/

/-- The data of a thunk were asked for within `CACHE_DURATION` before its dispatch. -/
def Thunk.Young (t : Thunk) : Prop :=
  ∀ entry, t.payload = some entry → t.currentTime - entry.request.startedAt ≤ CACHE_DURATION

/-- A dispatch finds no entry that only its stamp makes young. -/
def FindsYoung (s : St) : Act → Prop
  | .dispatch params currentTime => ∀ entry, cached s.logs params currentTime = some entry →
      currentTime - entry.data.lastFetched ≤ CACHE_DURATION
  | _ => True

theorem young_step (h : Step toISOString s a s') :
    (∀ t ∈ s'.thunks, t.Young) ↔ (∀ t ∈ s.thunks, t.Young) ∧ FindsYoung s a := by
  cases h with
  | dispatch params currentTime =>
    rw [List.forall_mem_append, List.forall_mem_singleton, Thunk.Young, payload_start]
    refine and_congr_right fun _ => forall₂_congr fun entry _ => ?_
    rw [entry.lastFetched]
    rfl
  | answer i answer t ht hphase =>
    refine (forall_setPhase ht ?_).trans (and_iff_left trivial).symm
    refine iff_of_true (fun entry hentry => ?_) (fun entry hentry => ?_)
    · rw [payload_answered hentry, Int.sub_self]
      decide
    · rw [Thunk.payload, hphase] at hentry
      cases hentry
  | fulfilled i now t entry ht hphase =>
    refine (forall_setPhase ht ?_).trans (and_iff_left trivial).symm
    rw [Thunk.Young, Thunk.Young, Thunk.payload, Thunk.payload, hphase]
  | rejected i t message ht hphase =>
    refine (forall_setPhase ht ?_).trans (and_iff_left trivial).symm
    rw [Thunk.Young, Thunk.Young, Thunk.payload, Thunk.payload, hphase]
  | clearLogs => exact (and_iff_left trivial).symm

theorem inductive_inv : (machine toISOString).Inductive (fun _ _ => True) Inv where
  init := by
    rintro s rfl
    exact ⟨by rintro entry ⟨⟩, fun _ => rfl, by rintro t ⟨⟩⟩
  step s a s' hinv _ h := inv_step hinv (Step.of_step h)

end

/-! ## When a dispatch is safe -/

/-- Logs that were stored: their parameters, when the request for them was started, and when they were
stored. -/
structure Stored where
  text : List Char
  startedAt : Int
  storedAt : Int
  deriving DecidableEq, Repr

/-- A dispatch at this time reads them from the cache. -/
def Stored.Serves (st : Stored) (text : List Char) (now : Int) : Prop :=
  st.text = text ∧ st.storedAt ≠ 0 ∧ now < st.storedAt + CACHE_DURATION

instance (st : Stored) (text : List Char) (now : Int) : Decidable (st.Serves text now) :=
  inferInstanceAs (Decidable (_ ∧ _))

/-- What the times of the actions so far tell: for each dispatch its parameters and the start of the
request that its logs come from, and the logs that were stored last. -/
structure Times where
  starts : List (List Char × Int) := []
  stored : Option Stored := none
  deriving DecidableEq, Repr

/-- Its own request, or the one behind the logs that were stored. -/
def Times.startOf (h : Times) (text : List Char) (now : Int) : Int :=
  match h.stored with
  | some st => if st.Serves text now then st.startedAt else now
  | none => now

def Times.after (h : Times) : Act → Times
  | .dispatch params now => { h with starts := h.starts ++ [(params.text, h.startOf params.text now)] }
  | .fulfilled i now => { h with stored := (h.starts[i]?).map fun s => ⟨s.1, s.2, now⟩ }
  | .clearLogs => { h with stored := none }
  | .answer _ _ | .rejected _ => h

/-- Where the logs that were stored last have the parameters of a dispatch, it comes
`CACHE_DURATION` behind the start of their request at the latest, or as long behind their storing at
the earliest. -/
def SafeAt (h : Times) : Act → Prop
  | .dispatch params now => ∀ st, h.stored = some st → st.text = params.text → st.storedAt ≠ 0 →
      now ≤ st.startedAt + CACHE_DURATION ∨ st.storedAt + CACHE_DURATION ≤ now
  | _ => True

/-- All dispatches come at such times. -/
def Safe : Times → List Act → Prop
  | _, [] => True
  | h, a :: as => SafeAt h a ∧ Safe (h.after a) as

instance (h : Times) : (a : Act) → Decidable (SafeAt h a)
  | .dispatch params now => inferInstanceAs (Decidable (∀ st ∈ h.stored, st.text = params.text →
      st.storedAt ≠ 0 → now ≤ st.startedAt + CACHE_DURATION ∨ st.storedAt + CACHE_DURATION ≤ now))
  | .answer _ _ | .fulfilled _ _ | .rejected _ | .clearLogs => .isTrue trivial

instance decidableSafe : (h : Times) → (as : List Act) → Decidable (Safe h as)
  | _, [] => .isTrue trivial
  | h, a :: as =>
    have := decidableSafe (h.after a) as
    inferInstanceAs (Decidable (_ ∧ _))

/-- What the times tell of a thunk. -/
structure Tells (start : List Char × Int) (t : Thunk) : Prop where
  text : start.1 = t.params.text
  payload : ∀ entry, t.payload = some entry → entry.request.startedAt = start.2
  requested : t.phase = .requested → t.currentTime = start.2

/-- What the times tell of the store. -/
structure Agrees (h : Times) (s : St) : Prop where
  thunks : List.Forall₂ Tells h.starts s.thunks
  empty : h.stored = none → s.logs.logsData = none
  stored : ∀ st, h.stored = some st → ∃ entry, s.logs.logsData = some entry ∧
    entry.request.startedAt = st.startedAt ∧ s.logs.lastFetchTimestamp = some st.storedAt ∧
    s.logs.cachedParams = some st.text

section

variable {toISOString : Int → String} {h : Times} {s s' : St} {a : Act}

/-- A dispatch finds what the times say that it finds. -/
theorem cached_iff (hag : Agrees h s) {params : LogsRequestParams} {now : Int} {entry : Fetched} :
    cached s.logs params now = some entry ↔
      ∃ st, h.stored = some st ∧ st.Serves params.text now ∧ s.logs.logsData = some entry ∧
        entry.request.startedAt = st.startedAt := by
  unfold cached
  cases hst : h.stored with
  | none =>
    rw [hag.empty hst]
    exact iff_of_false (by rintro ⟨⟩) (by rintro ⟨st, ⟨⟩, -⟩)
  | some st =>
    obtain ⟨entry', hdata, hstart, hstamp, hparams⟩ := hag.stored st hst
    rw [hdata, hstamp, hparams]
    dsimp only
    have hserves : (st.storedAt ≠ 0 ∧ some st.text = some params.text ∧
        now - st.storedAt < CACHE_DURATION) ↔ st.Serves params.text now := by
      rw [Stored.Serves, Option.some.injEq, and_left_comm]
      exact and_congr_right fun _ => and_congr_right fun _ => by omega
    simp only [hserves]
    constructor
    · intro hentry
      split at hentry
      next hs =>
        obtain rfl := Option.some.inj hentry
        exact ⟨st, rfl, hs, rfl, hstart⟩
      next => cases hentry
    · rintro ⟨st', hst', hs, hentry, -⟩
      obtain rfl := Option.some.inj hst'
      rw [if_pos hs, hentry]

theorem findsYoung_iff (hag : Agrees h s) : FindsYoung s a ↔ SafeAt h a := by
  cases a with
  | dispatch params now =>
    constructor
    · intro hyoung st hst htext hstamp
      by_cases hlt : now < st.storedAt + CACHE_DURATION
      · obtain ⟨entry, hdata, hstart, -, -⟩ := hag.stored st hst
        have hle := hyoung entry ((cached_iff hag).mpr ⟨st, hst, ⟨htext, hstamp, hlt⟩, hdata, hstart⟩)
        rw [entry.lastFetched, hstart] at hle
        exact .inl (by omega)
      · exact .inr (Int.not_lt.mp hlt)
    · intro hsafe entry hentry
      obtain ⟨st, hst, ⟨htext, hstamp, hlt⟩, -, hstart⟩ := (cached_iff hag).mp hentry
      have hle := (hsafe st hst htext hstamp).resolve_right (Int.not_le.mpr hlt)
      rw [entry.lastFetched, hstart]
      omega
  | answer | fulfilled | rejected | clearLogs => exact Iff.rfl

/-- A dispatch reads the logs that were stored, or starts a request. -/
theorem tells_start (hag : Agrees h s) (params : LogsRequestParams) (now : Int) :
    Tells (params.text, h.startOf params.text now) (Thunk.start s.logs params now) := by
  refine ⟨rfl, fun entry hentry => ?_, fun hphase => ?_⟩
  · rw [payload_start] at hentry
    obtain ⟨st, hst, hserves, -, hstart⟩ := (cached_iff hag).mp hentry
    rw [Times.startOf, hst]
    dsimp only
    rw [if_pos hserves, hstart]
  · show now = h.startOf params.text now
    unfold Times.startOf
    cases hst : h.stored with
    | none => rfl
    | some st =>
      refine (if_neg fun hserves => ?_).symm
      obtain ⟨entry, hdata, hstart, -, -⟩ := hag.stored st hst
      have hcached := (cached_iff hag).mpr ⟨st, hst, hserves, hdata, hstart⟩
      rw [Thunk.start, hcached] at hphase
      cases hphase

theorem forall₂_setPhase {i : Nat} {t : Thunk} {phase : Phase} (ht : s.thunks[i]? = some t)
    (hall : List.Forall₂ Tells h.starts s.thunks)
    (hkeep : ∀ start, Tells start t → Tells start { t with phase }) :
    List.Forall₂ Tells h.starts (s.setPhase i phase).thunks := by
  rw [List.forall₂_iff_get] at hall ⊢
  obtain ⟨hi, rfl⟩ := List.getElem?_eq_some_iff.mp ht
  refine ⟨by rw [hall.1, St.setPhase, List.length_modify], fun j hj hj' => ?_⟩
  have htells := hall.2 j hj (by rw [← hall.1]; exact hj)
  simp only [St.setPhase, List.get_eq_getElem, List.getElem_modify] at htells ⊢
  split
  next heq =>
    subst heq
    exact hkeep _ htells
  next => exact htells

/-- Each dispatch has its times. -/
theorem Agrees.start (hag : Agrees h s) {i : Nat} {t : Thunk} (ht : s.thunks[i]? = some t) :
    ∃ start, h.starts[i]? = some start ∧ Tells start t := by
  obtain ⟨hlen, hget⟩ := List.forall₂_iff_get.mp hag.thunks
  obtain ⟨hi, rfl⟩ := List.getElem?_eq_some_iff.mp ht
  have hi' : i < h.starts.length := by rw [hlen]; exact hi
  exact ⟨h.starts[i], List.getElem?_eq_getElem hi', hget i hi' hi⟩

theorem agrees_step (hag : Agrees h s) (hs : Step toISOString s a s') : Agrees (h.after a) s' := by
  cases hs with
  | dispatch params now =>
    refine ⟨?_, hag.empty, hag.stored⟩
    exact List.rel_append hag.thunks (.cons (tells_start hag params now) .nil)
  | answer i answer t ht hphase =>
    refine ⟨forall₂_setPhase ht hag.thunks fun start htells => ?_, hag.empty, hag.stored⟩
    refine ⟨htells.text, fun entry hentry => ?_, fun hrequested => ?_⟩
    · rw [payload_answered hentry]
      exact htells.requested hphase
    · exact htells.requested hphase
  | fulfilled i now t entry ht hphase =>
    have hkeep : ∀ start, Tells start t → Tells start { t with phase := .fulfilled entry } := by
      intro start htells
      refine ⟨htells.text, fun e he => htells.payload e ?_, by rintro ⟨⟩⟩
      rw [Thunk.payload, hphase]
      exact he
    obtain ⟨start, hstart, htells⟩ := hag.start ht
    refine ⟨forall₂_setPhase ht hag.thunks hkeep, fun hnone => ?_, fun st hst => ?_⟩
    · rw [Times.after, hstart] at hnone
      cases hnone
    · rw [Times.after, hstart] at hst
      obtain rfl := Option.some.inj hst
      refine ⟨entry, rfl, htells.payload entry (by rw [Thunk.payload, hphase]), rfl, ?_⟩
      exact congrArg some htells.text.symm
  | rejected i t message ht hphase =>
    refine ⟨forall₂_setPhase ht hag.thunks fun start htells => ?_, hag.empty, hag.stored⟩
    exact ⟨htells.text, by rintro entry ⟨⟩, by rintro ⟨⟩⟩
  | clearLogs => exact ⟨hag.thunks, fun _ => rfl, by rintro st ⟨⟩⟩

theorem meets_iff_safe (acts : List Act) {h : Times} {s s' : St} (hag : Agrees h s)
    (hrun : (machine toISOString).run s acts = some s') :
    (machine toISOString).Meets FindsYoung s acts ↔ Safe h acts := by
  induction acts generalizing h s with
  | nil => exact Iff.rfl
  | cons a acts ih =>
    obtain ⟨t, ht, hrest⟩ := Option.bind_eq_some_iff.mp hrun
    rw [Machine.meets_cons ht, Safe, findsYoung_iff hag, ih (agrees_step hag (Step.of_step ht)) hrest]

end

/-! ## Main results -/

/-- **Every dispatch is given data that are young enough if and only if all dispatches come at safe
times**; the data are those of a request for its parameters, and the store's are those of a request
for `cachedParams`, in any run. -/
theorem logs_young_iff (toISOString : Int → String) (acts : List Act) {s : St}
    (h : (machine toISOString).run {} acts = some s) :
    ((∀ t ∈ s.thunks, t.Young) ↔ Safe {} acts) ∧ Inv s := by
  refine ⟨?_, inductive_inv.of_reachable (Machine.reachable_run acts rfl h)⟩
  have hrun := Machine.meets_iff (M := machine toISOString) (P := fun s => ∀ t ∈ s.thunks, t.Young)
    (fun s a s' hs => young_step (Step.of_step hs)) acts h
  have hag : Agrees {} ({} : St) := ⟨.nil, fun _ => rfl, by rintro st ⟨⟩⟩
  rw [hrun, meets_iff_safe acts hag h]
  exact and_iff_right (by rintro t ⟨⟩)

def systemLogs : LogsRequestParams :=
  ⟨[.service_name "system", .since_timestamp none, .lines (some 1000)], by decide⟩

/-- One request, and two reads of the cache half a minute apart. -/
def rereads : List Act :=
  [.dispatch systemLogs 1000000, .answer 0 (.payload true none (some "system") (some "up")),
    .fulfilled 0 1000200, .dispatch systemLogs 1029000, .fulfilled 1 1029001,
    .dispatch systemLogs 1058000, .fulfilled 2 1058001]

/-- One read of the cache, as soon as the data are there. -/
theorem logs_young_once :
    ∃ s, (machine fun _ => "").run {} (rereads.take 5) = some s ∧ ∀ t ∈ s.thunks, t.Young :=
  ⟨_, rfl, (logs_young_iff (fun _ => "") (rereads.take 5) rfl).1.mpr (by decide +kernel)⟩

/-- The second read is given data of 58 seconds ago. -/
theorem logs_stale :
    ∃ s, (machine fun _ => "").run {} rereads = some s ∧
      ∃ t entry, t ∈ s.thunks ∧ t.phase = .fulfilled entry ∧
        CACHE_DURATION < t.currentTime - entry.request.startedAt :=
  ⟨_, rfl, ⟨systemLogs, 1058000, .fulfilled _⟩, _, List.mem_of_getElem? (i := 2) rfl, rfl,
    by decide⟩

end ShareFrame.FrameLogs
