import ShareFrame.Update.UpdateManager

/-!
# What a step of the update manager can do

Every step begins a `startUpdate` call, is a step of one (`CallEdge`), starts a
worker, is a step of a worker (`WorkEdge`), or leaves all of this alone
(`step_effect`). The invariants are proved from these cases.
-/

namespace ShareFrame.UpdateManager

open HTTPClient Update

/-- Between the lock and the return. -/
def Call.InLock : Call → Prop
  | .busyCheck | .slotCheck | .fetching | .comparing _ | .starting _ | .joining _ => True
  | _ => False

/-- Between the start of a worker and its final phase. -/
def WorkerPc.Active : WorkerPc → Prop
  | .rebooting | .history _ | .exited => False
  | _ => True

variable (sha256 : Bytes → Bytes) (cfg : Config)

/-- A step of a `startUpdate` call: where it goes, the lock and the slot it has read then. -/
inductive CallEdge (s : State) (c : Caller) : Call → Option Caller → Option String → Prop where
  | leave : ¬ (s.calls c).InLock → CallEdge s c .out s.lock s.slotSeen
  | lock : s.calls c = .locking → s.lock = none → CallEdge s c .busyCheck (some c) s.slotSeen
  | refuse {error : String} : (s.calls c).InLock → (∀ n, s.calls c ≠ .joining n) →
      CallEdge s c (.returned false error) none s.slotSeen
  | notBusy : s.calls c = .busyCheck → s.phase_.busy = false →
      CallEdge s c .slotCheck s.lock s.slotSeen
  | noSlot : s.calls c = .slotCheck → CallEdge s c .fetching s.lock (some "")
  | release {r : Release} : s.calls c = .fetching → CallEdge s c (.comparing r) s.lock s.slotSeen
  | newer {r : Release} : s.calls c = .comparing r → isVersionNewer r.version cfg.version = true →
      CallEdge s c (.starting r) s.lock s.slotSeen
  | throws : s.calls c = .fetching → CallEdge s c .threw none s.slotSeen
  | joined {n : Nat} : s.calls c = .joining n → CallEdge s c (.returned true "") none s.slotSeen

/-- Where a worker can fail. -/
def WorkerPc.CanFail : WorkerPc → Prop
  | .begin | .downloading | .hashing | .finalizing | .installRuns => True
  | _ => False

/-- A step of a worker, and the phase behind it. -/
inductive WorkEdge (lock : Option Caller) (phase : Phase) : WorkerPc → WorkerPc → Phase → Prop where
  | url : WorkEdge lock phase .begin .preparing phase
  | prepared : WorkEdge lock phase .preparing .toDownloading phase
  | download : lock = none → WorkEdge lock phase .toDownloading .downloading .downloading
  | downloaded : WorkEdge lock phase .downloading .hashing phase
  | hashed : WorkEdge lock phase .hashing .finalizing phase
  | renamed : WorkEdge lock phase .finalizing .toInstalling phase
  | install : lock = none → WorkEdge lock phase .toInstalling .installing .installing
  | runs : WorkEdge lock phase .installing .installRuns phase
  | ran : WorkEdge lock phase .installRuns .toAwaiting phase
  | await : lock = none → WorkEdge lock phase .toAwaiting .rebooting .awaitingReboot
  | rebooted : WorkEdge lock phase .rebooting .exited phase
  | fails {pc : WorkerPc} {error : String} : pc.CanFail → WorkEdge lock phase pc (.failing error) phase
  | failed {error : String} : lock = none → WorkEdge lock phase (.failing error) (.history error) .failed
  | recorded {error : String} : WorkEdge lock phase (.history error) .exited phase

/-- A named checksum is the hash of the bytes. -/
def HashOk (release : Release) (content : Option Bytes) : Prop :=
  ∀ checksum, release.checksum = .string checksum → checksum ≠ "" →
    ∃ bytes, content = some bytes ∧ FileHash.hex (sha256 bytes) = lower checksum

/-- What the worker has checked about the file it goes on with. -/
def Verified (cache : String → Option Bytes) (w : Worker) : Prop :=
  match w.pc with
  | .finalizing => HashOk sha256 w.release (cache (part w.release.version))
  | .toInstalling | .installing => HashOk sha256 w.release (cache (bundle w.release.version))
  | _ => True

/-- The fields of the update itself. -/
def State.update (s : State) : Phase × String × String := (s.phase_, s.error_, s.targetVersion_)

/-- What a step can do. -/
inductive Effect (s s' : State) : Prop where
  | still (calls : s'.calls = s.calls) (lock : s'.lock = s.lock) (slotSeen : s'.slotSeen = s.slotSeen)
      (touched : s'.touched = s.touched) (update : s'.update = s.update)
      (workers : s'.workers = s.workers) (cache : s'.cache = s.cache)
      (installs : s'.installs = s.installs)
  | begin {c : Caller} (outside : ¬ (s.calls c).InLock)
      (calls : s'.calls = Function.update s.calls c .locking) (lock : s'.lock = s.lock)
      (slotSeen : s'.slotSeen = s.slotSeen)
      (touched : s'.touched = Function.update s.touched c false) (update : s'.update = s.update)
      (workers : s'.workers = s.workers) (cache : s'.cache = s.cache)
      (installs : s'.installs = s.installs)
  | call {c : Caller} {call' : Call} (edge : CallEdge cfg s c call' s'.lock s'.slotSeen)
      (calls : s'.calls = Function.update s.calls c call') (touched : s'.touched = s.touched)
      (update : s'.update = s.update) (workers : s'.workers = s.workers)
      (cache : s'.cache = s.cache) (installs : s'.installs = s.installs)
  | start {c : Caller} {release : Release} (at_ : s.calls c = .starting release)
      (calls : s'.calls = Function.update s.calls c (.joining s.workers.length))
      (lock : s'.lock = s.lock) (slotSeen : s'.slotSeen = s.slotSeen)
      (touched : ∀ d ≠ c, s'.touched d = s.touched d)
      (phase : s'.phase_ = .checking)
      (workers : s'.workers = s.workers ++ [{ release, slotAtStart := s.slotSeen }])
      (cache : s'.cache = s.cache) (installs : s'.installs = s.installs)
  | startThrows {c : Caller} {release : Release} (at_ : s.calls c = .starting release)
      (calls : s'.calls = Function.update s.calls c .threw)
      (lock : s'.lock = none) (slotSeen : s'.slotSeen = s.slotSeen)
      (touched : ∀ d ≠ c, s'.touched d = s.touched d)
      (phase : s'.phase_ = .checking) (workers : s'.workers = s.workers)
      (cache : s'.cache = s.cache) (installs : s'.installs = s.installs)
  | work {i : Nat} {w : Worker} {pc' : WorkerPc} (at_ : s.workers[i]? = some w)
      (edge : WorkEdge s.lock s.phase_ w.pc pc' s'.phase_)
      (workers : s'.workers = s.workers.set i { w with pc := pc' })
      (calls : s'.calls = s.calls) (lock : s'.lock = s.lock) (slotSeen : s'.slotSeen = s.slotSeen)
      (touched : s'.touched = s.touched)
      (cache : s'.cache = s.cache ∨ w.pc.Active)
      (verified : Verified sha256 s.cache w → Verified sha256 s'.cache { w with pc := pc' })
      (installs : s'.installs = s.installs ∨ w.pc = .installing ∧ s'.installs =
        ⟨w.release, s.cache (bundle w.release.version), w.slotAtStart⟩ :: s.installs)

/-- The field that the worker reads next is no string: the read throws. -/
def Worker.Unreadable (w : Worker) : Prop :=
  w.pc = .begin ∧ w.release.downloadUrl.value = none ∨
    w.pc = .hashing ∧ w.release.checksum.value = none

/-- What a step of worker `i` can do: an exception ends the process, or it goes on and changes
nothing but the phase, the error, the files and the record of installs. -/
inductive Own (s : State) (i : Nat) (w : Worker) (s' : State) : Prop where
  | throws (why : w.Unreadable) (state : s' = { s with terminated := true })
  | moves {pc' : WorkerPc} (edge : WorkEdge s.lock s.phase_ w.pc pc' s'.phase_)
      (state : s' = { s with
        workers := s.workers.set i { w with pc := pc' }
        phase_ := s'.phase_
        error_ := s'.error_
        cache := s'.cache
        installs := s'.installs })
      (cache : s'.cache = s.cache ∨ w.pc.Active)
      (verified : Verified sha256 s.cache w → Verified sha256 s'.cache { w with pc := pc' })
      (installs : s'.installs = s.installs ∨ w.pc = .installing ∧ s'.installs =
        ⟨w.release, s.cache (bundle w.release.version), w.slotAtStart⟩ :: s.installs)
      (url : pc' = .preparing → w.release.downloadUrl.value ≠ some "")

variable {sha256 cfg}

/-! ## Calls -/

/-- `setCall`, and anything done to the other fields. -/
theorem calls_set {s t : State} {c : Caller} {call : Call}
    (hipc : t.ipc = if c = .ipc then call else s.ipc)
    (hchecker : t.checker_ = if c = .checker then .calling call else s.checker_) :
    t.calls = Function.update s.calls c call := by
  funext d
  cases c <;> cases d <;> simp [State.calls, hipc, hchecker, Checker.call]

theorem calls_same {s t : State} (hipc : t.ipc = s.ipc)
    (hchecker : t.checker_.call = s.checker_.call) : t.calls = s.calls := by
  funext d
  cases d
  · exact hipc
  · exact hchecker

/-- A step that leaves phase, error and target version alone is recorded as such. -/
theorem byCall_same {s t : State} {c : Caller} (h : t.update = s.update)
    (ht : t.touched = s.touched) : byCall s c (some t) = some t := by
  have hsame : decide (t.update ≠ s.update) = false := by simp [h]
  show some { t with
      touched := Function.update s.touched c (s.touched c || decide (t.update ≠ s.update)) } = some t
  rw [hsame, Bool.or_false, Function.update_eq_self, ← ht]

/-- A call goes on, and changes nothing but the lock and the slot it has read. -/
theorem call_effect {s t : State} {c : Caller} {call' : Call}
    (edge : CallEdge cfg s c call' t.lock t.slotSeen)
    (ht : t = { setCall s c call' with
      lock := t.lock
      slotSeen := t.slotSeen
      worker_ := t.worker_
      terminated := t.terminated }) :
    byCall s c (some t) = some t ∧ Effect sha256 cfg s t := by
  have hup : t.update = s.update := by rw [ht]; rfl
  have hto : t.touched = s.touched := by rw [ht]; rfl
  have hcalls : t.calls = Function.update s.calls c call' := by rw [ht]; exact calls_set rfl rfl
  exact ⟨byCall_same hup hto, .call edge hcalls hto hup (by rw [ht]; rfl) (by rw [ht]; rfl)
    (by rw [ht]; rfl)⟩

theorem callStep_effect {s t : State} {c : Caller} (ht : callStep cfg s c = some t) :
    ∃ s', byCall s c (some t) = some s' ∧ Effect sha256 cfg s s' := by
  refine ⟨t, ?_⟩
  unfold callStep at ht
  split at ht
  next hc =>
    split at ht <;> cases ht
    next hfree => exact call_effect (.lock hc hfree) rfl
  next hc =>
    have hin : (s.calls c).InLock := by rw [hc]; trivial
    split at ht <;> cases ht
    · exact call_effect (.refuse hin (by simp [hc])) rfl
    next hbusy => exact call_effect (.notBusy hc (by simpa using hbusy)) rfl
  next hc =>
    have hin : (s.calls c).InLock := by rw [hc]; trivial
    split at ht <;> cases ht
    · exact call_effect (.refuse hin (by simp [hc])) rfl
    next hslot =>
      have hslot : s.pendingSlot = "" := by simpa using hslot
      exact call_effect (hslot ▸ .noSlot hc) rfl
  next r hc =>
    have hin : (s.calls c).InLock := by rw [hc]; trivial
    split at ht <;> cases ht
    · exact call_effect (.refuse hin (by simp [hc])) rfl
    next hnewer => exact call_effect (.newer hc (by simpa [isNewerThanInstalled] using hnewer)) rfl
  next n hc =>
    split at ht
    · split at ht <;> cases ht
      exact call_effect (.joined hc) rfl
    · cases ht; exact call_effect (.joined hc) rfl
  next => cases ht

theorem fetched_effect {s t : State} {c : Caller} {resp : HttpResponse} {parsed : Option Json}
    (ht : fetched s c resp parsed = some t) :
    ∃ s', byCall s c (some t) = some s' ∧ Effect sha256 cfg s s' := by
  refine ⟨t, ?_⟩
  unfold fetched at ht
  split at ht
  next => cases ht
  next hc =>
    have hc : s.calls c = .fetching := by simpa using hc
    have hin : (s.calls c).InLock := by rw [hc]; trivial
    split at ht <;> cases ht
    · exact call_effect (.refuse hin (by simp [hc])) rfl
    · exact call_effect (.release hc) rfl

/-! ## Workers -/

theorem byWorker_some {s s' : State} {i : Nat} {f : Worker → Option State}
    (h : byWorker s i f = some s') : ∃ w, s.workers[i]? = some w ∧ f w = some s' :=
  Option.bind_eq_some_iff.mp h

theorem Own.effect {s s' : State} {i : Nat} {w : Worker} (hw : s.workers[i]? = some w)
    (h : Own sha256 s i w s') : Effect sha256 cfg s s' := by
  cases h with
  | throws _ state =>
    rw [state]
    exact .still (calls_same rfl rfl) rfl rfl rfl rfl rfl rfl rfl
  | moves edge state cache verified installs _ =>
    exact .work hw edge (by rw [state]) (calls_same (by rw [state]) (by rw [state])) (by rw [state])
      (by rw [state]) (by rw [state]) cache verified installs

theorem workStep_own {s s' : State} {i : Nat} {w : Worker}
    (hs : workStep s i w = some s') : Own sha256 s i w s' := by
  unfold workStep at hs
  split at hs
  next hpc =>
    split at hs
    next hurl => cases hs; exact .throws (.inl ⟨hpc, hurl⟩) rfl
    next url hurl =>
      split at hs <;> cases hs
      · exact .moves (.fails (by rw [hpc]; trivial)) rfl (.inl rfl) (fun _ => trivial) (.inl rfl) nofun
      next hne =>
        exact .moves (hpc ▸ .url) rfl (.inl rfl) (fun _ => trivial) (.inl rfl)
          fun _ => by rw [hurl]; simpa using hne
  next hpc =>
    split at hs <;> cases hs
    next hfree => exact .moves (hpc ▸ .download hfree) rfl (.inl rfl) (fun _ => trivial) (.inl rfl) nofun
  next hpc =>
    split at hs <;> cases hs
    next hfree =>
      refine .moves (hpc ▸ .install hfree) rfl (.inl rfl) (fun hv => ?_) (.inl rfl) nofun
      rw [Verified, hpc] at hv; exact hv
  next hpc =>
    cases hs
    exact .moves (hpc ▸ .runs) rfl (.inl rfl) (fun _ => trivial) (.inr ⟨hpc, rfl⟩) nofun
  next hpc =>
    split at hs <;> cases hs
    next hfree => exact .moves (hpc ▸ .await hfree) rfl (.inl rfl) (fun _ => trivial) (.inl rfl) nofun
  next hpc => cases hs; exact .moves (hpc ▸ .rebooted) rfl (.inl rfl) (fun _ => trivial) (.inl rfl) nofun
  next error hpc =>
    split at hs <;> cases hs
    next hfree => exact .moves (hpc ▸ .failed hfree) rfl (.inl rfl) (fun _ => trivial) (.inl rfl) nofun
  next error hpc => cases hs; exact .moves (hpc ▸ .recorded) rfl (.inl rfl) (fun _ => trivial) (.inl rfl) nofun
  next => cases hs

theorem lower_eq_empty {s : String} (h : lower s = "") : s = "" := by
  have hl := congrArg String.toList h
  simpa [lower] using hl

/-- A checksum that was compared and found is the hash of the file. -/
theorem hashOk_of_compared {release : Release} {checksum : String} {content : Option Bytes}
    (hc : release.checksum.value = some checksum)
    (h : lower checksum = "" ∨ FileHash.sha256File sha256 content = lower checksum) :
    HashOk sha256 release content := by
  intro named hnamed hne
  rw [hnamed] at hc
  obtain rfl : named = checksum := Option.some.inj hc
  rcases h with h | h
  · exact absurd (lower_eq_empty h) hne
  · cases content with
    | none => exact absurd (lower_eq_empty h.symm) hne
    | some bytes => exact ⟨bytes, rfl, h⟩

theorem prepared_own {s s' : State} {i : Nat} {w : Worker} {removed : List String}
    (hs : prepared s i w removed = some s') : Own sha256 s i w s' := by
  unfold prepared at hs
  split at hs <;> cases hs
  next h =>
    obtain ⟨hpc, -⟩ := h
    exact .moves (hpc ▸ .prepared) rfl (.inr (by rw [hpc]; trivial)) (fun _ => trivial) (.inl rfl) nofun

theorem downloaded_own {s s' : State} {i : Nat} {w : Worker} {rounds : List Round}
    (hs : downloaded s i w rounds = some s') : Own sha256 s i w s' := by
  unfold downloaded at hs
  split at hs
  next => cases hs
  next hpc =>
    have hpc : w.pc = .downloading := by simpa using hpc
    have hactive : w.pc.Active := by rw [hpc]; trivial
    simp only [Option.map_eq_some_iff] at hs
    obtain ⟨⟨dl, content⟩, -, rfl⟩ := hs
    split
    · exact .moves (hpc ▸ .downloaded) rfl (.inr hactive) (fun _ => trivial) (.inl rfl) nofun
    · exact .moves (.fails (by rw [hpc]; trivial)) rfl (.inr hactive) (fun _ => trivial) (.inl rfl) nofun

theorem hashed_own {s s' : State} {i : Nat} {w : Worker} {reads removed : Bool}
    (hs : hashed sha256 s i w reads removed = some s') : Own sha256 s i w s' := by
  unfold hashed at hs
  split at hs
  next => cases hs
  next hpc =>
    have hpc : w.pc = .hashing := by simpa using hpc
    have hactive : w.pc.Active := by rw [hpc]; trivial
    split at hs
    next hc => cases hs; exact .throws (.inr ⟨hpc, hc⟩) rfl
    next checksum hc =>
      simp only at hs
      generalize hread : (if reads then s.cache (part w.release.version) else none) = content at hs
      split at hs
      next hempty =>
        cases hs
        exact .moves (hpc ▸ .hashed) rfl (.inl rfl)
          (fun _ => hashOk_of_compared hc (.inl hempty)) (.inl rfl) nofun
      next =>
        by_cases heq : FileHash.sha256File sha256 content = lower checksum
        · rw [if_neg (not_not_intro heq)] at hs
          cases hs
          refine .moves (hpc ▸ .hashed) rfl (.inl rfl) (fun _ named hnamed hne => ?_) (.inl rfl) nofun
          obtain ⟨bytes, hbytes, hhash⟩ := hashOk_of_compared hc (.inr heq) named hnamed hne
          refine ⟨bytes, ?_, hhash⟩
          -- what was hashed is the file
          rw [← hread] at hbytes
          split at hbytes
          · exact hbytes
          · cases hbytes
        · rw [if_pos heq] at hs
          cases hs
          exact .moves (.fails (by rw [hpc]; trivial)) rfl (.inr hactive) (fun _ => trivial) (.inl rfl) nofun

theorem bundle_ne_part (version : String) : bundle version ≠ part version := by
  intro h
  have hl := congrArg String.length h
  rw [part, String.length_append] at hl
  have : ".part".length = 5 := by decide
  omega

theorem renamed_own {s s' : State} {i : Nat} {w : Worker} {error : Option String}
    (hs : renamed s i w error = some s') : Own sha256 s i w s' := by
  unfold renamed at hs
  split at hs
  next => cases hs
  next hpc =>
    have hpc : w.pc = .finalizing := by simpa using hpc
    have hactive : w.pc.Active := by rw [hpc]; trivial
    split at hs <;> cases hs
    · exact .moves (.fails (by rw [hpc]; trivial)) rfl (.inr hactive) (fun _ => trivial) (.inl rfl) nofun
    · refine .moves (hpc ▸ .renamed) rfl (.inr hactive) (fun hv => ?_) (.inl rfl) nofun
      rw [Verified, hpc] at hv
      show HashOk sha256 w.release (Function.update (Function.update s.cache _ _) _ _ _)
      rw [Function.update_of_ne (bundle_ne_part _), Function.update_self]
      exact hv

theorem installed_own {s s' : State} {i : Nat} {w : Worker} {exitCode : Int} {stdErr : String}
    {removed : Bool} (hs : installed s i w exitCode stdErr removed = some s') :
    Own sha256 s i w s' := by
  unfold installed at hs
  split at hs
  next => cases hs
  next hpc =>
    have hpc : w.pc = .installRuns := by simpa using hpc
    have hactive : w.pc.Active := by rw [hpc]; trivial
    simp only at hs
    split at hs <;> cases hs
    · exact .moves (.fails (by rw [hpc]; trivial)) rfl (.inr hactive) (fun _ => trivial) (.inl rfl) nofun
    · exact .moves (hpc ▸ .ran) rfl (.inr hactive) (fun _ => trivial) (.inl rfl) nofun

/-- Whose step it is, if it is a worker's. -/
def Act.worker : Act → Option Nat
  | .work i | .prepared i _ | .downloaded i _ | .hashed i _ _ | .renamed i _ | .installed i _ _ _
  | .workThrows i => some i
  | _ => none

theorem step_own {s s' : State} {a : Act} {i : Nat} (hs : step sha256 cfg s a = some s')
    (ha : a.worker = some i) : ∃ w, s.workers[i]? = some w ∧
      (Own sha256 s i w s' ∨ a = .workThrows i ∧ s' = { s with terminated := true }) := by
  unfold step at hs
  split at hs
  next => cases hs
  cases a with
  | work j =>
    obtain ⟨w, hw, h⟩ := byWorker_some hs
    cases ha; exact ⟨w, hw, .inl (workStep_own h)⟩
  | prepared j removed =>
    obtain ⟨w, hw, h⟩ := byWorker_some hs
    cases ha; exact ⟨w, hw, .inl (prepared_own h)⟩
  | downloaded j rounds =>
    obtain ⟨w, hw, h⟩ := byWorker_some hs
    cases ha; exact ⟨w, hw, .inl (downloaded_own h)⟩
  | hashed j reads removed =>
    obtain ⟨w, hw, h⟩ := byWorker_some hs
    cases ha; exact ⟨w, hw, .inl (hashed_own h)⟩
  | renamed j error =>
    obtain ⟨w, hw, h⟩ := byWorker_some hs
    cases ha; exact ⟨w, hw, .inl (renamed_own h)⟩
  | installed j exitCode stdErr removed =>
    obtain ⟨w, hw, h⟩ := byWorker_some hs
    cases ha; exact ⟨w, hw, .inl (installed_own h)⟩
  | workThrows j =>
    obtain ⟨w, hw, h⟩ := byWorker_some hs
    cases ha
    split at h <;> cases h
    exact ⟨w, hw, .inr ⟨rfl, rfl⟩⟩
  | _ => cases ha

/-! ## Steps -/

theorem threadStarted_effect {s s' : State} {c : Caller} {ok : Bool}
    (hs : byCall s c (threadStarted s c ok) = some s') : Effect sha256 cfg s s' := by
  obtain ⟨t, ht, rfl⟩ := Option.map_eq_some_iff.mp hs
  have htouched : ∀ (b : Bool), ∀ d ≠ c, Function.update s.touched c b d = s.touched d :=
    fun _ _ hd => Function.update_of_ne hd _ _
  unfold threadStarted at ht
  split at ht
  next release hc =>
    split at ht <;> cases ht
    · exact .start hc (calls_set rfl rfl) rfl rfl (htouched _) rfl rfl rfl rfl
    · exact .startThrows hc (calls_set rfl rfl) rfl rfl (htouched _) rfl rfl rfl rfl
  next => cases ht

/-- A new call, when the last one is over. -/
theorem beginCall_effect {s : State} {c : Caller} (h : ¬ (s.calls c).InLock) :
    Effect sha256 cfg s (beginCall s c) :=
  .begin h (calls_set rfl rfl) rfl rfl rfl rfl rfl rfl rfl

/-- The checker outside `startUpdate`. -/
theorem checker_effect {s : State} {checker' : Checker} (h : s.checker_.call = .out)
    (h' : checker'.call = .out) : Effect sha256 cfg s { s with checker_ := checker' } :=
  .still (calls_same rfl (h'.trans h.symm)) rfl rfl rfl rfl rfl rfl rfl

theorem checkStep_effect {s s' : State} (hs : checkStep cfg s = some s') :
    Effect sha256 cfg s s' := by
  have hout : ∀ {call : Call}, s.checker_.call = call → ¬ call.InLock →
      ¬ (s.calls .checker).InLock := by
    intro call h hno
    show ¬ s.checker_.call.InLock
    rwa [h]
  unfold checkStep at hs
  split at hs
  next hc =>
    cases hs
    exact checker_effect (by rw [hc]; rfl) (by split <;> rfl)
  next release hc =>
    have hcall : s.checker_.call = .out := by rw [hc]; rfl
    split at hs
    · cases hs; exact checker_effect hcall rfl
    · split at hs <;> cases hs
      · exact beginCall_effect (hout hcall id)
      · exact checker_effect hcall rfl
  next result error hc =>
    cases hs
    have hcall : s.checker_.call = .returned result error := by rw [hc]; rfl
    refine .call (.leave (hout hcall id)) ?_ rfl rfl rfl rfl rfl
    funext d
    cases d <;> rfl
  next => cases hs

theorem step_effect {s s' : State} {a : Act} (hs : step sha256 cfg s a = some s') :
    Effect sha256 cfg s s' := by
  cases ha : a.worker with
  | some i =>
    obtain ⟨w, hw, h | ⟨-, rfl⟩⟩ := step_own hs ha
    · exact h.effect hw
    · exact .still (calls_same rfl rfl) rfl rfl rfl rfl rfl rfl rfl
  | none =>
  unfold step at hs
  split at hs
  next => cases hs
  cases a with
  | ipcCall =>
    simp only at hs
    split at hs <;> cases hs
    all_goals
      rename_i hc
      exact beginCall_effect (by show ¬ s.ipc.InLock; rw [hc]; exact id)
  | call c =>
    cases ht : callStep cfg s c with
    | none => simp only [ht] at hs; cases hs
    | some t =>
      obtain ⟨s₁, h1, heff⟩ : ∃ s₁, byCall s c (some t) = some s₁ ∧ Effect sha256 cfg s s₁ :=
        callStep_effect ht
      simp only [ht] at hs
      rw [h1] at hs
      cases hs; exact heff
  | fetched c resp parsed =>
    cases ht : fetched s c resp parsed with
    | none => simp only [ht] at hs; cases hs
    | some t =>
      obtain ⟨s₁, h1, heff⟩ : ∃ s₁, byCall s c (some t) = some s₁ ∧ Effect sha256 cfg s s₁ :=
        fetched_effect ht
      simp only [ht] at hs
      rw [h1] at hs
      cases hs; exact heff
  | fetchThrows c =>
    simp only at hs
    split at hs
    next hc =>
      have heff : byCall s c (some (throwCall s c)) = some (throwCall s c) ∧
          Effect sha256 cfg s (throwCall s c) := call_effect (.throws hc) rfl
      rw [heff.1] at hs
      cases hs; exact heff.2
    next => cases hs
  | threadStarted c ok => exact threadStarted_effect hs
  | wake =>
    simp only at hs
    split at hs <;> cases hs
    next h => exact checker_effect (by rw [h.1]; rfl) rfl
  | check => exact checkStep_effect hs
  | checkFetched resp parsed =>
    simp only at hs
    split at hs
    next => cases hs
    next hc =>
      have hcall : s.checker_.call = .out := by
        rw [show s.checker_ = .fetching by simpa using hc]; rfl
      split at hs <;> cases hs <;> exact checker_effect hcall rfl
  | setPendingSlot slot => cases hs; exact .still (calls_same rfl rfl) rfl rfl rfl rfl rfl rfl rfl
  | _ => cases ha

end ShareFrame.UpdateManager
