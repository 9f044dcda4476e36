import ShareFrame.Task.Remote.Gates

/-!
# Which commands are answered

A command is answered once, and nothing leaves `_handle`, if and only if its fields
and every reply that it reads have the types that are read, and neither the token
database nor the file system throws (`handle_answered_iff`).
-/

namespace ShareFrame.RemoteCommand

open Interaction Prog DiagnosticsUploader

variable {timing : Timing} {cfg : Config} {c : Command}

/-! ## What can be read -/

/-- Every field is absent or has its type. -/
def FieldsReadable (msg : Json) : Prop :=
  msg.Reads Json.getInt64 "id" ∧ msg.Reads Json.getString "command" ∧
    msg.Reads Json.getString "arg" ∧ msg.Reads Json.getInt64 "expires_at"

instance (msg : Json) : Decidable (FieldsReadable msg) := by unfold FieldsReadable; infer_instance

/-- The reply of the update service about its status. -/
def StatusReadable (j : Json) : Prop :=
  ∃ status, j.find "status" = some status ∧ status.Reads Json.getString "phase"

/-- The reply of the update service about the latest release. -/
def LatestReadable (j : Json) : Prop :=
  j.Reads Json.getBool "ok" ∧ (j.find "ok" = some (.bool true) →
    ∃ release, j.find "release" = some release ∧ release.Reads Json.getBool "is_newer")

/-- The reply of the update service to the start of an update. -/
def PerformReadable (j : Json) : Prop :=
  j.Reads Json.getBool "ok" ∧ (j.find "ok" ≠ some (.bool true) → j.Reads Json.getString "error")

/-- An answer that makes the command throw. -/
def Spoils : Event → Prop
  | ⟨.sendAndReceive .update msg, res⟩ =>
    match msg.type with
    | .updateStatus => ∃ j ∈ res, ¬ StatusReadable j
    | .updateCheckLatest => ∃ j ∈ res, ¬ LatestReadable j
    | .updatePerform => ∃ j ∈ res, ¬ PerformReadable j
    | _ => False
  | ⟨.sendAndReceive .display _, res⟩ => ∃ j ∈ res, ¬ j.Reads Json.getBool "refreshing"
  | ⟨.authHeaders, res⟩ => res = none
  | ⟨.invalidate, res⟩ => res = none
  | ⟨.packageExists _, res⟩ => res = none
  | _ => False

theorem readCommand_isOk {msg : Json} : (readCommand msg).isOk = true ↔ FieldsReadable msg := by
  simp only [FieldsReadable, ← Json.value_isOk (0 : Int), ← Json.value_isOk ""]
  exact Json.isOk_bind fun _ _ => Json.isOk_bind fun _ _ => Json.isOk_bind fun _ _ =>
    (Json.isOk_bind (p := True) fun _ _ => iff_of_true rfl trivial).trans (and_iff_left trivial)

theorem phaseOf_isOk {j : Json} : (phaseOf j).isOk = true ↔ StatusReadable j := by
  rw [phaseOf, Json.isOk_at]
  simp only [Json.value_isOk, StatusReadable]

theorem isNewerOf_isOk {j : Json} : (isNewerOf j).isOk = true ↔
    ∃ release, j.find "release" = some release ∧ release.Reads Json.getBool "is_newer" := by
  rw [isNewerOf, Json.isOk_at]
  simp only [Json.value_isOk]

/-! ## Which answers make a part throw -/

/-- A read behind the call that it belongs to. -/
theorem exists_throw {α β : Type} {x : Except Json.Error α} {f : α → Remote β}
    (h : x.isOk = false) : ∃ e, (json x >>= f) = .throw e := by
  cases x with
  | error e => exact ⟨_, rfl⟩
  | ok a => cases h

theorem throwsOn_json {α β : Type} {x : Except Json.Error α} {f : α → Remote β} (h : x.isOk = true)
    (hf : ∀ a, x = .ok a → ThrowsOn Spoils (f a)) : ThrowsOn Spoils (json x >>= f) := by
  cases x with
  | error e => cases h
  | ok a => exact hf a rfl

theorem throwsOn_andThen {first second : Remote Gate} (h₁ : ThrowsOn Spoils first)
    (h₂ : ThrowsOn Spoils second) : ThrowsOn Spoils (andThen first second) :=
  .bind h₁ fun g => by split; exacts [h₂, .pure]

theorem throwsOn_onlyIf {condition : Bool} {gate : Remote Gate} (h : ThrowsOn Spoils gate) :
    ThrowsOn Spoils (onlyIf condition gate) := by
  unfold onlyIf
  split
  exacts [h, .pure]

/-- A call whose answers spoil nothing. -/
theorem throwsOn_ask {op : Op} (h : ∀ a, ¬ Spoils ⟨op, a⟩) : ThrowsOn Spoils (ask op) := .ask h

theorem throwsOn_updateIdle : ThrowsOn Spoils updateIdle := by
  refine .ask_bind (fun res hbad => ?_) fun res hgood => ?_
  · obtain ⟨j, rfl, hj⟩ := hbad
    exact exists_throw (Bool.eq_false_iff.mpr (mt phaseOf_isOk.mp hj))
  · cases res with
    | none => exact .pure
    | some j =>
      have hj : StatusReadable j := by_contra fun hj => hgood ⟨j, rfl, hj⟩
      exact throwsOn_json (phaseOf_isOk.mpr hj) fun _ _ => .pure

theorem throwsOn_newerAvailable : ThrowsOn Spoils newerAvailable := by
  refine .ask_bind (fun res hbad => ?_) fun res hgood => ?_
  · obtain ⟨j, rfl, hj⟩ := hbad
    rcases not_and_or.mp hj with hok | hrelease
    · exact exists_throw (Bool.eq_false_iff.mpr (mt (Json.value_isOk false).mp hok))
    · rw [Classical.not_imp] at hrelease
      obtain ⟨htrue, hno⟩ := hrelease
      obtain ⟨e, he⟩ := exists_throw (f := fun isNewer => .pure
        (if isNewer then {} else refused "No newer version available"))
        (Bool.eq_false_iff.mpr (mt isNewerOf_isOk.mp hno))
      exact ⟨e, by rw [← he, Prog.pure_eq]; simp only [Json.value_true_iff.mpr htrue]; rfl⟩
  · cases res with
    | none => exact .pure
    | some latest =>
      have hlatest : LatestReadable latest := by_contra fun hj => hgood ⟨latest, rfl, hj⟩
      refine throwsOn_json ((Json.value_isOk false).mpr hlatest.1) fun ok hok => ?_
      cases ok with
      | false => exact .pure
      | true =>
        exact throwsOn_json (isNewerOf_isOk.mpr (hlatest.2 (Json.value_true_iff.mp hok))) fun _ _ => .pure

theorem throwsOn_awaitDisplay {deadline : Int} {passes : Nat} :
    ThrowsOn Spoils (awaitDisplay timing deadline passes) := by
  induction passes with
  | zero => exact .pure
  | succ passes ih =>
    refine .bind (throwsOn_ask fun _ => id) fun stop => ?_
    split
    · exact .pure
    refine .ask_bind (fun res hbad => ?_) fun res hgood => ?_
    · obtain ⟨j, rfl, hj⟩ := hbad
      exact exists_throw (Bool.eq_false_iff.mpr (mt (Json.value_isOk false).mp hj))
    · cases res with
      | none => exact .pure
      | some j =>
        have hj : j.Reads Json.getBool "refreshing" := by_contra fun hj => hgood ⟨j, rfl, hj⟩
        refine throwsOn_json ((Json.value_isOk false).mpr hj) fun refreshing _ => ?_
        split
        · exact .pure
        · refine .bind (throwsOn_ask fun _ => id) fun now => ?_
          split
          exacts [.pure, .bind (throwsOn_ask fun _ => id) fun _ => ih]

theorem throwsOn_post {package trigger : String} {commandId : Option Int} :
    ThrowsOn Spoils (post cfg package trigger commandId) := by
  refine .ask_bind (fun headers hbad => ⟨.database, by rw [show headers = none from hbad]⟩)
    fun headers hgood => ?_
  match headers, hgood with
  | none, hgood => exact absurd rfl hgood
  | some none, _ => exact .pure
  | some (some _), _ =>
    refine .bind (throwsOn_ask fun _ => id) fun resp => ?_
    split
    · refine .ask_bind (fun done hbad => ⟨.database, by rw [show done = none from hbad]⟩)
        fun done hgood => ?_
      cases done with
      | none => exact absurd rfl hgood
      | some _ => exact .pure
    · split <;> exact .pure

theorem throwsOn_uploadPending {commandId : Option Int} :
    ThrowsOn Spoils (uploadPending cfg commandId) := by
  refine .bind (throwsOn_ask fun _ => id) fun package => .bind throwsOn_post fun result => ?_
  split
  exacts [.bind (throwsOn_ask fun _ => id) fun _ => .pure, .pure]

theorem throwsOn_collectAndUpload {trigger : String} {commandId : Option Int} :
    ThrowsOn Spoils (collectAndUpload cfg trigger commandId) := by
  have hcollect : ThrowsOn Spoils (collect cfg trigger commandId) :=
    .bind (throwsOn_ask fun _ => id) fun res => by split; exacts [.pure, throwsOn_post]
  refine .ask_bind (fun found hbad => ⟨.filesystem, by rw [show found = none from hbad]⟩)
    fun found hgood => ?_
  match found, hgood with
  | none, hgood => exact absurd rfl hgood
  | some true, _ => exact .bind throwsOn_uploadPending fun _ => hcollect
  | some false, _ => exact hcollect

theorem throwsOn_event {text : String} : ThrowsOn Spoils (event c text) :=
  .bind (throwsOn_ask fun _ => id) fun _ => .pure

theorem throwsOn_reply {id : Int} {status reason : String} :
    ThrowsOn Spoils (reply id status reason) := throwsOn_ask fun _ h => h

theorem throwsOn_gates : ThrowsOn Spoils (gates timing cfg c) := by
  have hsafe : ThrowsOn Spoils (safeToReboot timing (c.command ≠ "update_install")) :=
    throwsOn_andThen (.bind (throwsOn_ask fun _ => id) fun _ => .pure)
      (.bind (throwsOn_ask fun _ => id) fun _ => throwsOn_awaitDisplay)
  have hevidence : ThrowsOn Spoils (evidence cfg c) := by
    refine .bind (.bind (throwsOn_ask fun _ => id) fun res => ?_) fun result => ?_
    · split
      exacts [.pure, throwsOn_uploadPending]
    · split
      · exact .pure
      · split
        exacts [.pure, .bind throwsOn_event fun _ => .pure]
  exact throwsOn_andThen .pure <|
    throwsOn_andThen (.bind (throwsOn_ask fun _ => id) fun _ => .pure) <|
    throwsOn_andThen (throwsOn_onlyIf throwsOn_updateIdle) <|
    throwsOn_andThen (throwsOn_onlyIf throwsOn_newerAvailable) <|
    throwsOn_onlyIf (throwsOn_andThen hsafe hevidence)

theorem throwsOn_updateInstall : ThrowsOn Spoils (updateInstall c) := by
  have hfailed : ∀ error, ThrowsOn Spoils (updateFailed c error) := fun error =>
    .bind throwsOn_event fun _ => throwsOn_reply
  refine .ask_bind (fun res hbad => ?_) fun res hgood => ?_
  · obtain ⟨j, rfl, hj⟩ := hbad
    rcases not_and_or.mp hj with hok | herror
    · exact exists_throw (Bool.eq_false_iff.mpr (mt (Json.value_isOk false).mp hok))
    · rw [Classical.not_imp] at herror
      obtain ⟨hfalse, hno⟩ := herror
      obtain ⟨e, he⟩ := exists_throw (f := updateFailed c)
        (Bool.eq_false_iff.mpr (mt (Json.value_isOk "update did not start").mp hno))
      cases hok : j.value Json.getBool "ok" false with
      | error e' => exact ⟨.json e', by simp only [updateAnswered, hok]; rfl⟩
      | ok ok =>
        cases ok with
        | true => exact absurd (Json.value_true_iff.mp hok) hfalse
        | false => exact ⟨e, by rw [← he]; simp only [updateAnswered, hok]; rfl⟩
  · cases res with
    | none => exact hfailed _
    | some j =>
      have hj : PerformReadable j := by_contra fun hj => hgood ⟨j, rfl, hj⟩
      refine throwsOn_json ((Json.value_isOk false).mpr hj.1) fun ok hok => ?_
      cases ok with
      | true => exact .bind (throwsOn_ask fun _ => id) fun _ => .pure
      | false =>
        have hreads := hj.2 fun htrue => by
          rw [Json.value_true_iff.mpr htrue] at hok
          cases hok
        exact throwsOn_json ((Json.value_isOk _).mpr hreads) fun error _ => hfailed error

theorem throwsOn_act : ThrowsOn Spoils (act timing cfg c) := by
  have hrestart : ∀ screen args, ThrowsOn Spoils (restart screen args) := fun screen args =>
    .bind (throwsOn_ask fun _ => id) fun _ => .bind (throwsOn_ask fun _ => id) fun res => by
      split
      exacts [.bind (throwsOn_ask fun _ => id) fun _ => .pure, .pure]
  unfold act
  split
  · exact .bind throwsOn_collectAndUpload fun _ => throwsOn_reply
  split
  · exact .bind (by split; exacts [throwsOn_ask fun _ => id, .pure]) fun _ =>
      .bind (throwsOn_ask fun _ => id) fun _ => throwsOn_reply
  split
  · refine .bind (throwsOn_ask fun _ => id) fun res => ?_
    split
    exacts [throwsOn_reply, .bind throwsOn_event fun _ => throwsOn_reply]
  split
  · exact throwsOn_updateInstall
  · refine .bind (.bind (throwsOn_ask fun _ => id) fun _ => .pure) fun _ =>
      .bind (throwsOn_ask fun _ => id) fun _ => ?_
    split
    · exact .bind (throwsOn_ask fun _ => id) fun _ => .pure
    · split <;> exact hrestart _ _

/-! ## The passes of the wait are enough -/

/-- The steady clock from `now` on: it does not go back, and a sleep takes its time. -/
def Paced : Int → List Event → Prop
  | now, ⟨.steadyNow, (later : Int)⟩ :: t => now ≤ later ∧ Paced later t
  | now, ⟨.sleepFor millis, _⟩ :: t => Paced (now + millis) t
  | now, _ :: t => Paced now t
  | _, [] => True

theorem runs_ask_bind_congr {op : Op} {f g : Ans op → Remote Gate} {t : List Event}
    {r : Except Error Gate} (h : ∀ a t', t = ⟨op, a⟩ :: t' → (Runs (f a) t' r ↔ Runs (g a) t' r)) :
    Runs (ask op >>= f) t r ↔ Runs (ask op >>= g) t r := by
  constructor <;> intro hr <;> obtain ⟨a, t', ht, h'⟩ := runs_ask_bind.mp hr
  · exact runs_ask_bind.mpr ⟨a, t', ht, (h a t' ht).mp h'⟩
  · exact runs_ask_bind.mpr ⟨a, t', ht, (h a t' ht).mpr h'⟩

/-- Two waits that agree behind the first pass. -/
theorem awaitDisplay_congr {deadline now : Int} {m n : Nat} {t : List Event} {r : Except Error Gate}
    (ht : Paced now t) (h : ∀ later t', now ≤ later → later < deadline →
      Paced (later + timing.refreshPoll) t' →
        (Runs (awaitDisplay timing deadline m) t' r ↔ Runs (awaitDisplay timing deadline n) t' r)) :
    Runs (awaitDisplay timing deadline (m + 1)) t r ↔
      Runs (awaitDisplay timing deadline (n + 1)) t r := by
  refine runs_ask_bind_congr fun stop t₁ ht₁ => ?_
  subst ht₁
  split
  · rfl
  refine runs_ask_bind_congr fun res t₂ ht₂ => ?_
  subst ht₂
  cases res with
  | none => rfl
  | some j =>
    show Runs (json (j.value Json.getBool "refreshing" false) >>= _) t₂ r ↔
      Runs (json (j.value Json.getBool "refreshing" false) >>= _) t₂ r
    cases j.value Json.getBool "refreshing" false with
    | error e => rfl
    | ok refreshing =>
      cases refreshing with
      | false => rfl
      | true =>
        refine runs_ask_bind_congr fun later t₃ ht₃ => ?_
        subst ht₃
        obtain ⟨hlater, hpaced⟩ := ht
        by_cases hlate : (later : Int) ≥ deadline
        · rw [if_pos hlate, if_pos hlate]
        · rw [if_neg hlate, if_neg hlate]
          refine runs_ask_bind_congr fun slept t₄ ht₄ => ?_
          subst ht₄
          exact h later t₄ hlater (Int.not_le.mp hlate) hpaced

/-- Where the passes reach over the deadline, more of them change nothing. -/
theorem awaitDisplay_more {deadline now : Int} {passes : Nat} (more : Nat) {t : List Event}
    {r : Except Error Gate} (hpasses : deadline < now + passes * timing.refreshPoll)
    (ht : Paced now t) : Runs (awaitDisplay timing deadline (passes + 1)) t r ↔
      Runs (awaitDisplay timing deadline (passes + more + 1)) t r := by
  induction passes generalizing now t with
  | zero => exact awaitDisplay_congr ht fun later t' hnow hlater _ => by omega
  | succ passes ih =>
    rw [Nat.add_right_comm passes 1 more]
    refine awaitDisplay_congr ht fun later t' hnow hlater hpaced => ih ?_ hpaced
    have hmul : ((passes + 1 : Nat) : Int) * timing.refreshPoll =
        passes * timing.refreshPoll + timing.refreshPoll := by
      rw [Int.natCast_succ, Int.add_mul, Int.one_mul]
    omega

/-- The loop of `_safeToReboot` ends before its passes do. -/
theorem displayReady_more {now : Int} (hpoll : 0 < timing.refreshPoll) (more : Nat) {t : List Event}
    {r : Except Error Gate} (ht : Paced now t) :
    Runs (awaitDisplay timing (now + timing.refreshWait) timing.passes) t r ↔
      Runs (awaitDisplay timing (now + timing.refreshWait) (timing.passes + more)) t r := by
  have hwait := Nat.lt_mul_div_succ timing.refreshWait hpoll
  have hdeadline : now + timing.refreshWait <
      now + (timing.refreshWait / timing.refreshPoll + 1 : Nat) * timing.refreshPoll := by
    rw [Nat.mul_comm] at hwait
    exact Int.add_lt_add_left (by exact_mod_cast hwait) now
  have hmore := awaitDisplay_more more (r := r) hdeadline ht
  rwa [Nat.add_right_comm _ more 1] at hmore

/-! ## Answers -/

theorem countP_quiet {p : Remote Unit} {q : Remote Unit} {t : List Event}
    (hp : Uses (·.isAnswer = false) p) (h : Steps p t q) : t.countP (·.1.isAnswer) = 0 :=
  List.countP_eq_zero.mpr fun e he => by rw [hp.events h e he]; decide

/-- A command that is run to its end is answered once. -/
theorem perform_count {t : List Event} (h : Runs (perform timing cfg c) t (.ok ())) :
    t.countP (·.1.isAnswer) = 1 := by
  rcases runs_bind.mp h with ⟨e, he, -⟩ | ⟨gate, t₁, t₂, rfl, hgate, hrest⟩
  · cases he
  have hzero : t₁.countP (·.1.isAnswer) = 0 := List.countP_eq_zero.mpr fun e he => by
    rw [(looks_gates.events hgate e he).not_answer]
    decide
  rw [List.countP_append, hzero, Nat.zero_add]
  cases hok : gate.ok with
  | false =>
    rw [if_neg (by simp [hok])] at hrest
    obtain ⟨res, t₃, rfl, h₃⟩ := runs_ask_bind.mp
      (show Runs (ask _ >>= fun _ => reply c.id "rejected" gate.reason) t₂ _ from hrest)
    obtain ⟨_, rfl, -⟩ := runs_ask.mp h₃
    rw [List.countP_cons_of_neg (by simp [Op.isAnswer]), List.countP_cons_of_pos (by rw [isAnswer_reply]; decide)]
    rfl
  | true =>
    rw [if_pos hok] at hrest
    rcases runs_bind.mp hrest with ⟨e, he, -⟩ | ⟨_, t₃, t₄, rfl, haccept, hact⟩
    · cases he
    obtain ⟨res, rfl⟩ := runs_accept haccept
    have hwell := (passes_gates ⟨gate, hgate, hok⟩).1
    have hquiet := countP_quiet ((acts_act hwell).mono fun _ h => h.2) hact
    rw [List.countP_append, hquiet, acceptance, List.countP_cons_of_neg (by simp [Op.isAnswer]),
      List.countP_cons_of_pos (by rw [isAnswer_reply]; decide)]
    rfl

/-- A command is answered exactly once, and nothing leaves `_handle`, if and only if its fields and
the answers that it met can be read. -/
theorem handle_answered_iff {msg : Json} {t : List Event} {r : Except Error Unit}
    (h : Runs (handle timing cfg msg) t r) :
    r = .ok () ∧ t.countP (·.1.isAnswer) = 1 ↔ FieldsReadable msg ∧ ∀ e ∈ t, ¬ Spoils e := by
  rw [← readCommand_isOk]
  cases hread : readCommand msg with
  | error e =>
    rw [handle_of_error hread] at h
    obtain ⟨rfl, rfl⟩ := runs_throw.mp h
    exact ⟨fun hok => (nomatch hok.1), fun hok => (nomatch hok.1)⟩
  | ok c =>
    rw [handle_of_ok hread] at h
    have hthrows : ThrowsOn Spoils (perform timing cfg c) := .bind throwsOn_gates fun gate => by
      split
      · exact .bind (.bind throwsOn_event fun _ => throwsOn_reply) fun _ => throwsOn_act
      · exact .bind throwsOn_event fun _ => throwsOn_reply
    have hiff := hthrows t r h
    cases r with
    | error e =>
      refine ⟨fun hok => (nomatch hok.1), fun ⟨_, hno⟩ => ?_⟩
      obtain ⟨x, hx, hbad⟩ := hiff.mp ⟨e, rfl⟩
      exact absurd hbad (hno x hx)
    | ok _ =>
      refine iff_of_true ⟨rfl, perform_count h⟩ ⟨rfl, fun x hx hbad => ?_⟩
      obtain ⟨e, he⟩ := hiff.mpr ⟨x, hx, hbad⟩
      cases he

def rebootRun : List Event := rebootAnswers ++ [⟨.run ["reboot"] 5, { exitCode := 0 }⟩]

theorem handle_answered_iff_reboot : rebootRun.countP (·.1.isAnswer) = 1 := by
  have hrun : Runs (handle {} uploads rebootCommand) rebootRun (.ok ()) :=
    runs_iff_follow.mpr (by decide +kernel)
  have hstatus : StatusReadable (.obj [("ok", .bool true), ("status", .obj [("phase", .str "idle")])]) :=
    ⟨.obj [("phase", .str "idle")], by decide, by decide⟩
  have hsound : ∀ e ∈ rebootRun, ¬ Spoils e := ?_
  · exact ((handle_answered_iff hrun).mpr ⟨by decide +kernel, hsound⟩).2
  intro e he
  simp only [rebootRun, rebootAnswers, List.cons_append, List.nil_append, List.mem_cons, List.not_mem_nil,
    or_false] at he
  rcases he with rfl | rfl | rfl | rfl | rfl | rfl | rfl | rfl | rfl | rfl | rfl | rfl | rfl | rfl
  case inr.inl =>
    rintro ⟨j, hj, hbad⟩
    cases hj
    exact hbad hstatus
  case inr.inr.inr.inr.inr.inl => exact fun ⟨_, hj, _⟩ => (nomatch hj)
  all_goals exact id

/-- A command whose id is null is dropped without an answer. -/
theorem not_answered_null : ∃ r, Runs (handle {} uploads
      (.obj [("type", .str "command"), ("id", .null), ("command", .str "reboot")])) [] r ∧
    ¬ (r = .ok () ∧ ([] : List Event).countP (·.1.isAnswer) = 1) :=
  ⟨.error (.json .typeError), runs_iff_follow.mpr (by decide +kernel), nofun⟩

end ShareFrame.RemoteCommand
