import Mathlib.Data.List.Infix
import ShareFrame.Net.HTTPClient

/-!
# What a download leaves in the file

A round ends in one of five ways (`step_outcome`). It leaves the kept bytes with
what it appended, or an empty file, unless a local call fails before the bytes
of an answer that does not continue the file are cut off again. So the file is a
prefix of the resource exactly when no such round left foreign bytes that are
still there (`isPrefix_iff_cleanRun`), and a download that succeeds has the whole
resource (`ok_complete`).
-/

namespace ShareFrame.HTTPClient

open Transition

variable {destPath : String} {resource : Bytes}

theorem Round.not_appended_of_restart {offset : Nat} {r : Round} (h : r.restart offset = true) :
    r.appended offset = false := by
  simp only [restart, Bool.and_eq_true, decide_eq_true_eq, Bool.or_eq_true] at h
  obtain ⟨hpos, hserved⟩ := h
  rw [appended, if_pos hpos]
  rcases hserved with hserved | hserved <;> rw [hserved] <;> decide

theorem Round.landed_of_written {r : Round} (h : r.writeFailed = none) : r.landed = r.received := by
  rw [landed, h]

/-- The round empties the file. -/
def Round.empties (offset : Nat) (r : Round) : Prop :=
  r.opens = true ∧ r.writeFailed = none ∧ r.resizeFailed = none ∧ r.restart offset = true

instance (offset : Nat) (r : Round) : Decidable (r.empties offset) := by
  unfold Round.empties; infer_instance

theorem content_of_file {s : State} {bytes : Bytes} (h : s.file = some bytes) :
    s.content = bytes := by
  rw [State.content, h]; rfl

/-- The call returns the failure of a local call. -/
def Fails (s : State) : Prop := ∃ resp, s.result = some resp ∧ resp.ok = false

/-- How a round can go. -/
inductive Outcome (s : State) (r : Round) (s' : State) : Prop where
  | notOpened (opens : r.opens = false) (file : s'.file = s.file) (fails : Fails s')
  | notWritten (opens : r.opens = true) (failed : r.writeFailed.isSome)
      (file : s'.file = some (s.content ++ r.landed)) (fails : Fails s')
  | notTruncated (opens : r.opens = true) (written : r.writeFailed = none)
      (appended : r.appended s.offset = false) (failed : r.resizeFailed.isSome)
      (file : s'.file = some (s.content ++ r.landed)) (fails : Fails s')
  | restarted (empties : r.empties s.offset) (file : s'.file = some []) (result : s'.result = none)
  | kept (opens : r.opens = true) (written : r.writeFailed = none)
      (resized : r.appended s.offset = false → r.resizeFailed = none)
      (restart : r.restart s.offset = false)
      (file : s'.file = some (s.content ++ if r.appended s.offset then r.received else []))
      (result : s'.result = none ∨ s'.result = some (toResponse r.answer))

theorem step_outcome {s s' : State} {r : Round} (hs : step destPath s r = some s') :
    Outcome s r s' := by
  simp only [step] at hs
  by_cases hreturned : s.result.isSome = true
  · rw [if_pos hreturned] at hs
    cases hs
  have hresult : s.result = none := by simpa using hreturned
  rw [if_neg hreturned] at hs
  by_cases hopens : (!r.opens) = true
  · rw [if_pos hopens] at hs
    cases hs
    exact .notOpened (by simpa using hopens) rfl ⟨_, rfl, rfl⟩
  rw [if_neg hopens] at hs
  have hopens : r.opens = true := by simpa using hopens
  by_cases hfailed : r.writeFailed.isSome = true
  · rw [if_pos hfailed] at hs
    cases hs
    exact .notWritten hopens hfailed rfl ⟨_, rfl, rfl⟩
  rw [if_neg hfailed] at hs
  have hwritten : r.writeFailed = none := by simpa using hfailed
  split at hs
  next message hmessage =>
    cases hs
    split at hmessage
    next => cases hmessage
    next happended =>
      exact .notTruncated hopens hwritten (by simpa using happended) (by rw [hmessage]; rfl) rfl
        ⟨_, rfl, rfl⟩
  next hresize =>
    split at hs
    next hrestart =>
      have happended := r.not_appended_of_restart hrestart
      rw [happended, if_neg Bool.false_ne_true] at hresize
      cases hs
      exact .restarted ⟨hopens, hwritten, hresize, hrestart⟩ (by simp [happended]) hresult
    next hrestart =>
      have hkept : (if r.appended s.offset then s.content ++ r.landed
          else (s.content ++ r.landed).take s.offset) =
          s.content ++ if r.appended s.offset then r.received else [] := by
        rw [r.landed_of_written hwritten]
        split
        · rfl
        · rw [List.append_nil]; exact List.take_left
      have hrestart : r.restart s.offset = false := by simpa using hrestart
      have hresized : r.appended s.offset = false → r.resizeFailed = none := by
        intro happended
        rwa [happended, if_neg Bool.false_ne_true] at hresize
      rw [hkept] at hs
      split at hs
      · cases hs; exact .kept hopens hwritten hresized hrestart rfl (.inr rfl)
      · -- a lost connection: give up or go on, with the retry count up or down
        by_cases hstop : (if r.appended s.offset && decide (r.received.length > 0) then 0
            else s.failures + 1) > kMaxRetries ∨ s.attempt ≥ kMaxDownloadAttempts
        · rw [if_pos hstop] at hs
          cases hs; exact .kept hopens hwritten hresized hrestart rfl (.inr rfl)
        · rw [if_neg hstop] at hs
          cases hs
          exact .kept hopens hwritten hresized hrestart rfl (.inl hresult)

/-! ## Foreign bytes -/

/-- What the server sends for `resource`: some part of it from the start with a 200, from the
requested offset with a 206, and anything with another status. -/
def Serves (resource : Bytes) (s : State) (r : Round) : Prop :=
  (r.served = 200 → r.received <+: resource) ∧
    (r.served = 206 → r.received <+: resource.drop s.offset)

instance (resource : Bytes) (s : State) (r : Round) : Decidable (Serves resource s r) := by
  unfold Serves; infer_instance

/-- The answer continues the file. -/
def Continues (s : State) (r : Round) : Prop := r.served = 206 ∨ s.offset = 0 ∧ r.served = 200

instance (s : State) (r : Round) : Decidable (Continues s r) := by unfold Continues; infer_instance

/-- The bytes of the round stay in the file though its answer does not continue it: a write, the
close or the truncation fails, or a fresh request is answered with another 2xx. -/
def StaysForeign (s : State) (r : Round) : Prop :=
  r.opens = true ∧ ¬ Continues s r ∧
    (r.writeFailed.isSome ∨ r.resizeFailed.isSome ∨
      s.offset = 0 ∧ 200 ≤ r.served ∧ r.served < 300)

instance (s : State) (r : Round) : Decidable (StaysForeign s r) := by
  unfold StaysForeign; infer_instance

/-- Of such a round only bytes landed that the resource has there. -/
def Clean (resource : Bytes) (s : State) (r : Round) : Prop :=
  StaysForeign s r → r.landed <+: resource.drop s.offset

instance (resource : Bytes) (s : State) (r : Round) : Decidable (Clean resource s r) := by
  unfold Clean; infer_instance

theorem append_isPrefix_iff {kept : Bytes} (h : kept <+: resource) (t : Bytes) :
    kept ++ t <+: resource ↔ t <+: resource.drop kept.length := by
  conv_lhs => rw [List.prefix_append_drop h]
  exact List.prefix_append_right_inj kept

theorem Round.landed_isPrefix (r : Round) : r.landed <+: r.received := by
  unfold landed
  split
  · exact List.prefix_refl _
  · exact List.take_prefix _ _

theorem continues_landed {s : State} {r : Round} (hserves : Serves resource s r)
    (h : Continues s r) : r.landed <+: resource.drop s.offset := by
  refine r.landed_isPrefix.trans ?_
  rcases h with h | ⟨h0, h⟩
  · exact hserves.2 h
  · rw [h0]; exact hserves.1 h

theorem appended_continues {s : State} {r : Round} (h : r.appended s.offset = true) :
    Continues s r ∨ s.offset = 0 ∧ 200 ≤ r.served ∧ r.served < 300 := by
  unfold Round.appended at h
  split at h
  · exact .inl (.inl (by simpa using h))
  · exact .inr ⟨by omega, by simpa using h⟩

theorem continues_appended {s : State} {r : Round} (h : Continues s r) :
    r.appended s.offset = true := by
  unfold Round.appended
  rcases h with h | ⟨h0, h⟩
  · rw [h]; split <;> decide
  · rw [h0, h]; rfl

/-- A round leaves a prefix of the resource a prefix if and only if it is clean. -/
theorem step_isPrefix_iff {s s' : State} {r : Round} (h : s.content <+: resource)
    (hserves : Serves resource s r) (hs : step destPath s r = some s') :
    s'.content <+: resource ↔ Clean resource s r := by
  have hland : s.content ++ r.landed <+: resource ↔ r.landed <+: resource.drop s.offset :=
    append_isPrefix_iff h _
  have hboth : StaysForeign s r ∨ Continues s r →
      (s.content ++ r.landed <+: resource ↔ Clean resource s r) := by
    intro hor
    rw [hland]
    refine ⟨fun hl _ => hl, fun hclean => ?_⟩
    rcases hor with hf | hc
    · exact hclean hf
    · exact continues_landed hserves hc
  rcases step_outcome hs with
    ⟨hopens, hfile, -⟩ | ⟨hopens, hfailed, hfile, -⟩ | ⟨hopens, -, happended, hfailed, hfile, -⟩ |
    ⟨⟨-, hwritten, hresized, hrestart⟩, hfile, -⟩ | ⟨hopens, hwritten, hresized, hrestart, hfile, -⟩
  · -- the file could not be opened
    have hsame : s'.content = s.content := by rw [State.content, hfile]; rfl
    rw [hsame]
    exact ⟨fun _ hf => by simp [StaysForeign, hopens] at hf, fun _ => h⟩
  · rw [content_of_file hfile]
    refine hboth ?_
    by_cases hc : Continues s r
    · exact .inr hc
    · exact .inl ⟨hopens, hc, .inl hfailed⟩
  · rw [content_of_file hfile]
    refine hboth (.inl ⟨hopens, fun hc => ?_, .inr (.inl hfailed)⟩)
    rw [continues_appended hc] at happended; cases happended
  · -- a restart: nothing is left, and nothing failed
    rw [content_of_file hfile]
    refine ⟨fun _ ⟨_, _, hf⟩ => ?_, fun _ => List.nil_prefix⟩
    have hpos : 0 < s.offset := by
      simp only [Round.restart, Bool.and_eq_true, decide_eq_true_eq] at hrestart; exact hrestart.1
    simp only [hwritten, hresized, Option.isSome_none, Bool.false_eq_true, false_or] at hf
    omega
  · rw [content_of_file hfile]
    cases happended : r.appended s.offset with
    | true =>
      rw [if_pos rfl, ← r.landed_of_written hwritten]
      refine hboth ?_
      by_cases hc : Continues s r
      · exact .inr hc
      · have hsuccess := (appended_continues happended).resolve_left hc
        exact .inl ⟨hopens, hc, .inr (.inr hsuccess)⟩
    | false =>
      rw [if_neg Bool.false_ne_true, List.append_nil]
      refine ⟨fun _ ⟨_, _, hf⟩ => ?_, fun _ => h⟩
      simp only [hwritten, hresized happended, Option.isSome_none, Bool.false_eq_true, false_or] at hf
      simp [Round.appended, hf] at happended

/-! ## Runs -/

/-- One of the rounds empties the file. -/
def Emptied (destPath : String) : State → List Round → Prop
  | _, [] => False
  | s, r :: rs => r.empties s.offset ∨ ∃ s', step destPath s r = some s' ∧ Emptied destPath s' rs

/-- Every round is clean, or the file is emptied in it or behind it. -/
def CleanRun (destPath : String) (resource : Bytes) : State → List Round → Prop
  | _, [] => True
  | s, r :: rs => (Clean resource s r ∨ Emptied destPath s (r :: rs)) ∧
    ∀ s', step destPath s r = some s' → CleanRun destPath resource s' rs

/-- Until the file is emptied it only grows. -/
theorem step_grows {s s' : State} {r : Round} (hs : step destPath s r = some s')
    (h : ¬ r.empties s.offset) : s.content <+: s'.content := by
  rcases step_outcome hs with
    ⟨-, hfile, -⟩ | ⟨-, -, hfile, -⟩ | ⟨-, -, -, -, hfile, -⟩ | ⟨hempties, -, -⟩ |
    ⟨-, -, -, -, hfile, -⟩
  · have hsame : s'.content = s.content := by rw [State.content, hfile]; rfl
    rw [hsame]
  · rw [content_of_file hfile]; exact List.prefix_append _ _
  · rw [content_of_file hfile]; exact List.prefix_append _ _
  · exact absurd hempties h
  · rw [content_of_file hfile]; exact List.prefix_append _ _

theorem step_empties {s s' : State} {r : Round} (hs : step destPath s r = some s')
    (h : r.empties s.offset) : s'.content = [] := by
  obtain ⟨hopens, hwritten, hresized, hrestart⟩ := h
  rcases step_outcome hs with
    ⟨hno, -, -⟩ | ⟨-, hno, -, -⟩ | ⟨-, -, -, hno, -, -⟩ | ⟨-, hfile, -⟩ | ⟨-, -, -, hno, -, -⟩
  · rw [hopens] at hno; cases hno
  · rw [hwritten] at hno; cases hno
  · rw [hresized] at hno; cases hno
  · exact content_of_file hfile
  · rw [hrestart] at hno; cases hno

theorem run_grows {rs : List Round} {s s' : State}
    (hrun : (machine destPath resource).run s rs = some s') (h : ¬ Emptied destPath s rs) :
    s.content <+: s'.content := by
  induction rs generalizing s with
  | nil =>
    simp only [Machine.run, Option.some.injEq] at hrun
    rw [hrun]
  | cons r rs ih =>
    simp only [Machine.run, Option.bind_eq_some_iff] at hrun
    obtain ⟨t, ht, hrun⟩ := hrun
    have hnow : ¬ r.empties s.offset := fun he => h (.inl he)
    exact (step_grows ht hnow).trans (ih hrun fun he => h (.inr ⟨t, ht, he⟩))

/-- The file of a run that starts with a prefix of the resource, or empties the file. -/
theorem run_isPrefix_iff {rs : List Round} {s s' : State}
    (h : s.content <+: resource ∨ Emptied destPath s rs)
    (hserves : (machine destPath resource).Meets (Serves resource) s rs)
    (hrun : (machine destPath resource).run s rs = some s') :
    s'.content <+: resource ↔ CleanRun destPath resource s rs := by
  induction rs generalizing s with
  | nil =>
    simp only [Machine.run, Option.some.injEq] at hrun
    rw [← hrun]
    exact ⟨fun _ => trivial, fun _ => h.resolve_right id⟩
  | cons r rs ih =>
    simp only [Machine.run, Option.bind_eq_some_iff] at hrun
    obtain ⟨t, ht, hrun⟩ := hrun
    have hservesT := hserves.2 t ht
    replace ht : step destPath s r = some t := ht
    constructor
    · intro hfinal
      -- what is not thrown away later is a part of the final file
      have hkept : ¬ Emptied destPath t rs → t.content <+: resource :=
        fun he => (run_grows hrun he).trans hfinal
      have htail : CleanRun destPath resource t rs := by
        refine (ih ?_ hservesT hrun).mp hfinal
        by_cases he : Emptied destPath t rs
        · exact .inr he
        · exact .inl (hkept he)
      refine ⟨?_, fun t' ht' => by rw [ht] at ht'; cases ht'; exact htail⟩
      by_cases he : Emptied destPath s (r :: rs)
      · exact .inr he
      · have hlater : ¬ Emptied destPath t rs := fun hl => he (.inr ⟨t, ht, hl⟩)
        exact .inl ((step_isPrefix_iff (h.resolve_right he) hserves.1 ht).mp (hkept hlater))
    · rintro ⟨hround, htail⟩
      refine (ih ?_ hservesT hrun).mpr (htail t ht)
      by_cases he : Emptied destPath t rs
      · exact .inr he
      refine .inl ?_
      by_cases hnow : r.empties s.offset
      · rw [step_empties ht hnow]; exact List.nil_prefix
      · have hnone : ¬ Emptied destPath s (r :: rs) := by
          rintro (hl | ⟨t', ht', hl⟩)
          · exact hnow hl
          · rw [ht] at ht'; cases ht'; exact he hl
        exact (step_isPrefix_iff (h.resolve_right hnone) hserves.1 ht).mpr
          (hround.resolve_right hnone)

/-- When the call returns, the file is a prefix of the resource if and only if no round left foreign
bytes that no later round threw away. -/
theorem isPrefix_iff_cleanRun {rs : List Round} {s s' : State}
    (h0 : (machine destPath resource).Init s)
    (hserves : (machine destPath resource).Meets (Serves resource) s rs)
    (hrun : (machine destPath resource).run s rs = some s') :
    s'.content <+: resource ↔ CleanRun destPath resource s rs := by
  obtain ⟨file, hfile, rfl⟩ := h0
  exact run_isPrefix_iff (.inl hfile) hserves hrun

/-- A cut-off download that is resumed, refused with an error page and left there. -/
def refusedResume : List Round :=
  [{ answer := some { statusCode := 200, errorCode := .cannotReadBody }, received := [1, 2] },
    { answer := some { statusCode := 429 }, received := [7, 7, 7] }]

theorem isPrefix_iff_cleanRun_refused :
    ∃ s', (machine "a.part" [1, 2, 3]).run { file := none } refusedResume = some s' ∧
      s'.result = some ⟨429, "", ""⟩ ∧ s'.content <+: [1, 2, 3] := by
  refine ⟨_, rfl, rfl, ?_⟩
  have hinit : (machine "a.part" [1, 2, 3]).Init { file := none } := ⟨none, by decide, rfl⟩
  have hserves : (machine "a.part" [1, 2, 3]).Meets (Serves [1, 2, 3]) { file := none }
    refusedResume := by decide
  refine (isPrefix_iff_cleanRun hinit hserves rfl).mpr ?_
  refine ⟨.inl (by decide), fun t ht => ?_⟩
  obtain rfl := Option.some.inj ht
  exact ⟨.inl (by decide), fun _ _ => trivial⟩

/-- The error page of a refused resume is cut short by a full disk: a part of it stays behind the
kept bytes. -/
theorem error_page_stays :
    ∃ s s', (machine "a.part" [1, 2, 3]).Init s ∧
      (machine "a.part" [1, 2, 3]).run s
        [{ answer := some { statusCode := 503 }, received := [7, 7, 7], writeFailed := some 1 }] =
          some s' ∧
      (machine "a.part" [1, 2, 3]).Meets (Serves [1, 2, 3]) s
        [{ answer := some { statusCode := 503 }, received := [7, 7, 7], writeFailed := some 1 }] ∧
      s'.result.isSome ∧ ¬ s'.content <+: [1, 2, 3] :=
  ⟨{ file := some [1, 2] }, _, ⟨some [1, 2], by decide, rfl⟩, rfl, by decide, rfl, by decide⟩

/-! ## A download that succeeds -/

/-- What the server answers for `resource`: a 200 carries all of it and a 206 what is missing, or a
part from there when the connection is lost; no other answer is a 2xx. -/
def Answers (resource : Bytes) (s : State) (r : Round) : Prop :=
  ∀ a, r.answer = some a →
    (a.statusCode = 200 → r.received <+: resource ∧ (a.bodyLost = false → r.received = resource)) ∧
    (a.statusCode = 206 → r.received <+: resource.drop s.offset ∧
      (a.bodyLost = false → r.received = resource.drop s.offset)) ∧
    (200 ≤ a.statusCode → a.statusCode < 300 → a.statusCode = 200 ∨ a.statusCode = 206)

instance (resource : Bytes) (s : State) (r : Round) : Decidable (Answers resource s r) := by
  unfold Answers; infer_instance

/-- The file is a prefix of the resource while the call runs, and the resource when it succeeds. -/
structure OnTheWay (resource : Bytes) (s : State) : Prop where
  running : s.result = none → s.content <+: resource
  ok : ∀ resp, s.result = some resp → resp.ok = true → s.file = some resource

theorem OnTheWay.of_fails {s : State} (h : Fails s) : OnTheWay resource s := by
  obtain ⟨resp, hresp, hno⟩ := h
  refine ⟨fun hr => (by rw [hresp] at hr; cases hr), fun resp' hr hok => ?_⟩
  rw [hresp] at hr
  cases hr
  rw [hno] at hok; cases hok

/-- Of a 2xx answer, what the round appends continues the file, and is all of it when the body is
complete. -/
theorem answers_received {s : State} {r : Round} {a : Answer} (hans : Answers resource s r)
    (ha : r.answer = some a) (h2 : 200 ≤ a.statusCode) (h3 : a.statusCode < 300)
    (hrestart : r.restart s.offset = false) :
    r.appended s.offset = true ∧ r.received <+: resource.drop s.offset ∧
      (a.bodyLost = false → r.received = resource.drop s.offset) := by
  obtain ⟨h200, h206, hor⟩ := hans a ha
  have hserved : r.served = a.statusCode := by rw [Round.served, ha]
  rcases hor h2 h3 with h | h
  · -- a 200 is not a refused resume: the request was for the whole
    have h0 : s.offset = 0 := by
      simp [Round.restart, hserved, h] at hrestart; exact hrestart
    refine ⟨continues_appended (.inr ⟨h0, hserved.trans h⟩), ?_⟩
    rw [h0, List.drop_zero]
    exact h200 h
  · exact ⟨continues_appended (.inl (hserved.trans h)), h206 h⟩

/-- What the round appends continues the file. -/
theorem appended_received {s : State} {r : Round} (hans : Answers resource s r)
    (happended : r.appended s.offset = true) (hrestart : r.restart s.offset = false) :
    r.received <+: resource.drop s.offset := by
  have h2 : 200 ≤ r.served ∧ r.served < 300 := by
    unfold Round.appended at happended
    split at happended
    · have h206 : r.served = 206 := by simpa using happended
      omega
    · simpa using happended
  cases ha : r.answer with
  | none => simp [Round.served, ha] at h2
  | some a =>
    have hserved : r.served = a.statusCode := by rw [Round.served, ha]
    rw [hserved] at h2
    exact (answers_received hans ha h2.1 h2.2 hrestart).2.1

theorem onTheWay_inductive :
    (machine destPath resource).Inductive (Answers resource) (OnTheWay resource) where
  init := by
    rintro s ⟨file, hfile, rfl⟩
    exact ⟨fun _ => hfile, fun _ h => nomatch h⟩
  step s r s' h hans hs := by
    have hs : step destPath s r = some s' := hs
    have hnone : s.result = none := by
      unfold step at hs
      by_contra hres
      rw [if_pos (Option.isSome_iff_ne_none.mpr hres)] at hs; cases hs
    have hprefix := h.running hnone
    rcases step_outcome hs with
      ⟨-, -, hfails⟩ | ⟨-, -, -, hfails⟩ | ⟨-, -, -, -, -, hfails⟩ | ⟨-, hfile, hres⟩ |
      ⟨-, -, -, hrestart, hfile, hres⟩
    · exact .of_fails hfails
    · exact .of_fails hfails
    · exact .of_fails hfails
    · refine ⟨fun _ => ?_, fun resp hr => (by rw [hres] at hr; cases hr)⟩
      rw [content_of_file hfile]; exact List.nil_prefix
    · constructor
      · intro _
        rw [content_of_file hfile, append_isPrefix_iff hprefix]
        split
        next happended => exact appended_received hans happended hrestart
        next => exact List.nil_prefix
      · intro resp hresp hok
        have htake := hres.resolve_left (by rw [hresp]; exact Option.some_ne_none _)
        rw [hresp, Option.some.injEq] at htake
        cases ha : r.answer with
        | none => rw [htake, ha] at hok; cases hok
        | some a =>
          rw [htake, ha] at hok
          obtain ⟨hlost, h2, h3⟩ := (toResponse_ok a).mp hok
          obtain ⟨happended, -, hall⟩ := answers_received hans ha h2 h3 hrestart
          rw [hfile, happended, if_pos rfl, hall hlost]
          exact congrArg some (List.prefix_append_drop hprefix).symm

/-- A call that returns success has written the resource, whatever came before: refused resumes,
error pages, lost connections. -/
theorem ok_complete {s : State} {resp : HttpResponse}
    (hr : (machine destPath resource).ReachableBy (Answers resource) s)
    (hres : s.result = some resp) (hok : resp.ok = true) : s.file = some resource :=
  (onTheWay_inductive.of_reachable hr).ok resp hres hok

/-- A resume refused with a 416, a fresh start that is cut off, and the rest. -/
def refusedAndCut : List Round :=
  [{ answer := some { statusCode := 416 }, received := [7] },
    { answer := some { statusCode := 200, errorCode := .chunkReadError }, received := [1, 2] },
    { answer := none },
    { answer := some { statusCode := 206 }, received := [3] }]

theorem ok_complete_refused :
    ∃ s, (machine "a.part" [1, 2, 3]).run { file := some [1] } refusedAndCut = some s ∧
      s.result = some ⟨206, "", ""⟩ ∧ s.file = some [1, 2, 3] := by
  refine ⟨_, rfl, rfl, ?_⟩
  have hr := Machine.ReachableBy.run (G := Answers [1, 2, 3]) refusedAndCut
    (.init (M := machine "a.part" [1, 2, 3]) ⟨some [1], by decide, rfl⟩) (by decide) rfl
  exact ok_complete hr rfl rfl

/-! ## Every download ends -/

/-- A round that goes on: a lost connection before the last attempt, or a refused resume. -/
structure GoesOn (s : State) (r : Round) (s' : State) : Prop where
  opens : r.opens = true
  result : s'.result = none
  attempt : s'.attempt = s.attempt + 1
  early : s.attempt < kMaxDownloadAttempts ∨ r.empties s.offset
  emptied : r.empties s.offset → s'.offset = 0

/-- A call that has not returned takes its next round; it returns, or goes on. -/
theorem step_goesOn (destPath : String) {s : State} (hresult : s.result = none) (r : Round) :
    ∃ s', step destPath s r = some s' ∧ (s'.result.isSome ∨ GoesOn s r s') := by
  have hopen : ¬ s.result.isSome = true := by rw [hresult]; decide
  simp only [step, if_neg hopen]
  by_cases hopens : (!r.opens) = true
  · rw [if_pos hopens]
    exact ⟨_, rfl, .inl rfl⟩
  rw [if_neg hopens]
  have hopens : r.opens = true := by simpa using hopens
  by_cases hwritten : r.writeFailed.isSome = true
  · rw [if_pos hwritten]
    exact ⟨_, rfl, .inl rfl⟩
  rw [if_neg hwritten]
  split
  next => exact ⟨_, rfl, .inl rfl⟩
  next hresize =>
    split
    next hrestart =>
      have happended := r.not_appended_of_restart hrestart
      rw [happended, if_neg Bool.false_ne_true] at hresize
      have hempties : r.empties s.offset := ⟨hopens, by simpa using hwritten, hresize, hrestart⟩
      refine ⟨_, rfl, .inr ⟨hopens, hresult, rfl, .inr hempties, fun _ => ?_⟩⟩
      show (if r.appended s.offset then s.content ++ r.landed
        else (s.content ++ r.landed).take 0).length = 0
      rw [happended]
      rfl
    next hrestart =>
      have hno : ¬ r.empties s.offset := fun hempties => hrestart hempties.2.2.2
      split
      next => exact ⟨_, rfl, .inl rfl⟩
      next =>
        -- the limit is tested here only
        by_cases hlimit : (if r.appended s.offset && decide (r.received.length > 0) then 0
            else s.failures + 1) > kMaxRetries ∨ s.attempt ≥ kMaxDownloadAttempts
        · rw [if_pos hlimit]
          exact ⟨_, rfl, .inl rfl⟩
        · rw [if_neg hlimit]
          rw [not_or] at hlimit
          have hearly : s.attempt < kMaxDownloadAttempts := Nat.lt_of_not_le hlimit.2
          exact ⟨_, rfl,
            .inr ⟨hopens, hresult, rfl, .inl hearly, fun hempties => absurd hempties hno⟩⟩

/-- Passes left: a refused resume is not counted against the limit, but empties the file. -/
def State.left (s : State) : Nat :=
  2 * (kMaxDownloadAttempts - s.attempt) + if s.offset > 0 then 1 else 0

theorem State.left_lt_of_attempt {s t : State} (h : s.attempt < kMaxDownloadAttempts)
    (ht : t.attempt = s.attempt + 1) : t.left < s.left := by
  simp only [left, ht]
  split <;> split <;> omega

theorem left_lt {s s' : State} {r : Round} (h : GoesOn s r s') : s'.left < s.left := by
  obtain hearly | hempties := h.early
  · exact State.left_lt_of_attempt hearly h.attempt
  · -- the file held bytes, and is empty now
    obtain ⟨-, -, -, hrestart⟩ := id hempties
    simp only [Round.restart, Bool.and_eq_true, decide_eq_true_eq] at hrestart
    rw [State.left, State.left, h.emptied hempties, h.attempt, if_pos hrestart.1,
      if_neg (Nat.lt_irrefl 0)]
    omega

variable (destPath resource) in
/-- However its rounds go, a call of `downloadToFile` returns. -/
theorem exists_result (rounds : Nat → Round) {s : State} (h : s.result = none) :
    ∃ n s', (machine destPath resource).run s ((List.range n).map rounds) = some s' ∧
      s'.result.isSome := by
  induction hm : s.left using Nat.strong_induction_on generalizing s rounds with
  | _ m ih =>
    subst hm
    obtain ⟨t, ht, hends⟩ := step_goesOn destPath h (rounds 0)
    have hstep : ∀ n, (machine destPath resource).run s ((List.range (n + 1)).map rounds) =
        (machine destPath resource).run t ((List.range n).map fun k => rounds (k + 1)) := by
      intro n
      rw [List.range_succ_eq_map, List.map_cons, List.map_map]
      show ((machine destPath resource).step s (rounds 0)).bind _ = _
      rw [show (machine destPath resource).step s (rounds 0) = some t from ht]
      rfl
    obtain hreturns | hgoes := hends
    · exact ⟨1, t, by rw [hstep 0]; rfl, hreturns⟩
    · obtain ⟨n, s', hrun, hs'⟩ :=
        ih t.left (left_lt hgoes) (fun k => rounds (k + 1)) hgoes.result rfl
      exact ⟨n + 1, s', by rw [hstep n]; exact hrun, hs'⟩

end ShareFrame.HTTPClient
