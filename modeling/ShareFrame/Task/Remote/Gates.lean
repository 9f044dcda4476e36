import ShareFrame.Task.RemoteCommand

/-!
# No command acts without passing its gates

`Passes gate t`: answered as in `t`, the gate lets the command through. Behind the
gates of a command lies all that its action needs (`Passed`), and behind them only
its own action (`handle_gated`).
-/

namespace ShareFrame.RemoteCommand

open Interaction Prog DiagnosticsUploader

variable {timing : Timing} {cfg : Config} {c : Command}

/-! ## Actions -/

/-- Commands of the board and messages that act; everything else only looks or reports. -/
def Op.isAction : Op → Bool
  | .run (program :: _) _ =>
    ["s6-svc", "shareframe-safe-mode", "reboot", "shutdown", "shareframe-factory-reset"].contains
      program
  | .sendAndReceive .update msg => msg.type = .updatePerform
  | _ => false

/-- The action of a command; the diagnostics have none. -/
def action (c : Command) : Option Op :=
  if c.command = "restart_service" then
    some (.run ["s6-svc", "-r", "/run/service/shareframe-" ++ c.arg] 10)
  else if c.command = "enter_safe_mode" then some (.run ["shareframe-safe-mode", "enter"] 15)
  else if c.command = "exit_safe_mode" then some (.run ["shareframe-safe-mode", "exit"] 15)
  else if c.command = "update_install" then some (.sendAndReceive .update { type := .updatePerform })
  else if c.command = "reboot" then some (.run ["reboot"] 5)
  else if c.command = "factory_reset" then some (.run ["shareframe-factory-reset", "--yes"] 5)
  else if c.command = "shutdown" then some (.run ["shutdown"] 5)
  else none

/-! ## What a passed gate has seen -/

/-- The allow-list. -/
def commands : List String :=
  ["request_diagnostics", "restart_service", "reboot", "update_install", "factory_reset", "shutdown",
    "enter_safe_mode", "exit_safe_mode"]

structure WellFormed (c : Command) : Prop where
  id : 0 < c.id
  known : c.command ∈ commands
  arg : if c.command = "restart_service" then c.arg ∈ kServices else c.arg = ""

def InTime (c : Command) (t : List Event) : Prop :=
  ∃ now : Int, now ≤ c.expiresAt ∧ t = [⟨.systemNow, now⟩]

/-- The update service was not reached, or no update runs. -/
def Idle (res : Option Json) : Prop :=
  ∀ j, res = some j → phaseOf j = .ok "idle" ∨ phaseOf j = .ok "failed"

def IdleSeen (t : List Event) : Prop :=
  ∃ res, Idle res ∧ t = [⟨.sendAndReceive .update { type := .updateStatus }, res⟩]

def NewerSeen (t : List Event) : Prop :=
  ∃ latest : Json, latest.value Json.getBool "ok" false = .ok true ∧ isNewerOf latest = .ok true ∧
    t = [⟨.sendAndReceive .update { type := .updateCheckLatest }, some latest⟩]

def BoardPassed (rateLimited : Bool) (t : List Event) : Prop :=
  ∃ res : SubprocessResult, res.exitCode = 0 ∧ t = [⟨.run (gateCmd rateLimited) 5, res⟩]

/-- The last answer says that the display is at rest, or it was not reached. -/
def DisplaySeen (t : List Event) : Prop :=
  ∃ polls, ∃ res : Option Json,
    (∀ j, res = some j → j.value Json.getBool "refreshing" false = .ok false) ∧
    t = polls ++ [⟨.sendAndReceive .display { type := .getSlideshowActive }, res⟩]

/-- The package that was read behind its collection was uploaded. -/
def Uploaded (cfg : Config) (c : Command) (t : List Event) : Prop :=
  ∃ res : SubprocessResult, ∃ package resp, res.exitCode = 0 ∧ resp.ok = true ∧
    ⟨.run ["shareframe-diag", "--out", cfg.pendingPath] kCollectTimeoutSecs, res⟩ ∈ t ∧
    ⟨.readPackage cfg.pendingPath, package⟩ ∈ t ∧
    ⟨.post (address cfg "pre-reboot" (some c.id)) package, resp⟩ ∈ t

/-- Gates that not every command goes through. -/
def When (condition : Bool) (P : List Event → Prop) (t : List Event) : Prop :=
  if condition then P t else t = []

/-- What lies behind the gates of a command, one after another. -/
def Passed (cfg : Config) (c : Command) (t : List Event) : Prop :=
  WellFormed c ∧ ∃ clock idle newer board display saved,
    t = clock ++ (idle ++ (newer ++ (board ++ (display ++ saved)))) ∧
    InTime c clock ∧
    When (needsIdle c) IdleSeen idle ∧
    When (c.command = "update_install") NewerSeen newer ∧
    When (isRebootClass c.command) (BoardPassed (c.command ≠ "update_install")) board ∧
    When (isRebootClass c.command) DisplaySeen display ∧
    (c.command = "factory_reset" → Uploaded cfg c saved)

/-! ## Passing -/

def Passes (gate : Remote Gate) (t : List Event) : Prop :=
  ∃ g, Runs gate t (.ok g) ∧ g.ok = true

theorem passes_andThen {first second : Remote Gate} {t : List Event}
    (h : Passes (andThen first second) t) :
    ∃ t₁ t₂, t = t₁ ++ t₂ ∧ Passes first t₁ ∧ Passes second t₂ := by
  obtain ⟨g, hr, hg⟩ := h
  rcases runs_bind.mp hr with ⟨e, he, -⟩ | ⟨g₁, t₁, t₂, rfl, h₁, h₂⟩
  · cases he
  · cases hok : g₁.ok with
    | true =>
      rw [if_pos hok] at h₂
      exact ⟨t₁, t₂, rfl, ⟨g₁, h₁, hok⟩, g, h₂, hg⟩
    | false =>
      rw [if_neg (by simp [hok])] at h₂
      obtain ⟨-, he⟩ := runs_pure.mp h₂
      cases he
      rw [hok] at hg
      cases hg

theorem passes_onlyIf {condition : Bool} {gate : Remote Gate} {P : List Event → Prop} {t : List Event}
    (hgate : Passes gate t → P t) (h : Passes (onlyIf condition gate) t) : When condition P t := by
  unfold onlyIf at h
  unfold When
  split
  next hc => rw [if_pos hc] at h; exact hgate h
  next hc =>
    rw [if_neg hc] at h
    obtain ⟨g, hr, -⟩ := h
    exact (runs_pure.mp hr).1

theorem passes_notExpired {t : List Event} (h : Passes (notExpired c) t) : InTime c t := by
  obtain ⟨g, hr, hg⟩ := h
  obtain ⟨now, t', rfl, hk⟩ := runs_ask_bind.mp hr
  obtain ⟨rfl, he⟩ := runs_pure.mp hk
  cases he
  refine ⟨now, ?_, rfl⟩
  by_contra hlate
  rw [if_pos (Int.not_le.mp hlate)] at hg
  cases hg

/-- A read in a gate. -/
theorem runs_json_bind {α : Type} {x : Except Json.Error α} {f : α → Remote Gate} {t : List Event}
    {g : Gate} (h : Runs (json x >>= f) t (.ok g)) : ∃ a, x = .ok a ∧ Runs (f a) t (.ok g) := by
  cases x with
  | error e => cases (runs_throw.mp h).2
  | ok a => exact ⟨a, rfl, h⟩

/-- A gate that ends in a refusal is not passed. -/
theorem not_refused {reason : String} {t : List Event} {g : Gate} (hg : g.ok = true)
    (h : Runs (.pure (refused reason) : Remote Gate) t (.ok g)) : False := by
  obtain ⟨-, he⟩ := runs_pure.mp h
  cases he; cases hg

theorem passes_updateIdle {t : List Event} (h : Passes updateIdle t) : IdleSeen t := by
  obtain ⟨g, hr, hg⟩ := h
  obtain ⟨res, t', rfl, hk⟩ := runs_ask_bind.mp hr
  cases res with
  | none =>
    obtain ⟨rfl, -⟩ := runs_pure.mp hk
    exact ⟨none, nofun, rfl⟩
  | some j =>
    obtain ⟨phase, hphase, hend⟩ := runs_json_bind hk
    obtain ⟨rfl, he⟩ := runs_pure.mp hend
    cases he
    refine ⟨some j, fun j' hj => ?_, rfl⟩
    cases hj
    by_contra hbusy
    rw [hphase] at hbusy
    simp only [Except.ok.injEq, not_or] at hbusy
    rw [if_pos hbusy] at hg
    cases hg

theorem passes_newerAvailable {t : List Event} (h : Passes newerAvailable t) : NewerSeen t := by
  obtain ⟨g, hr, hg⟩ := h
  obtain ⟨res, t', rfl, hk⟩ := runs_ask_bind.mp hr
  cases res with
  | none => exact (not_refused hg hk).elim
  | some latest =>
    obtain ⟨ok, hok, hrest⟩ := runs_json_bind hk
    cases ok with
    | false => exact (not_refused hg hrest).elim
    | true =>
      obtain ⟨isNewer, hnewer, hend⟩ := runs_json_bind hrest
      cases isNewer with
      | false => exact (not_refused hg hend).elim
      | true =>
        obtain ⟨rfl, -⟩ := runs_pure.mp hend
        exact ⟨latest, hok, hnewer, rfl⟩

theorem passes_boardGate {rateLimited : Bool} {t : List Event} (h : Passes (boardGate rateLimited) t) :
    BoardPassed rateLimited t := by
  obtain ⟨g, hr, hg⟩ := h
  obtain ⟨res, t', rfl, hk⟩ := runs_ask_bind.mp hr
  obtain ⟨rfl, he⟩ := runs_pure.mp hk
  cases he
  refine ⟨res, ?_, rfl⟩
  by_contra hcode
  rw [if_pos hcode] at hg
  cases hg

theorem passes_awaitDisplay {deadline : Int} {passes : Nat} {t : List Event}
    (h : Passes (awaitDisplay timing deadline passes) t) : DisplaySeen t := by
  induction passes generalizing t with
  | zero =>
    obtain ⟨g, hr, hg⟩ := h
    exact (not_refused hg hr).elim
  | succ passes ih =>
    obtain ⟨g, hr, hg⟩ := h
    obtain ⟨stop, t₁, rfl, hstop⟩ := runs_ask_bind.mp hr
    cases stop with
    | true => exact (not_refused hg hstop).elim
    | false =>
      obtain ⟨res, t₂, rfl, hres⟩ := runs_ask_bind.mp hstop
      cases res with
      | none =>
        obtain ⟨rfl, -⟩ := runs_pure.mp hres
        exact ⟨[_], none, nofun, rfl⟩
      | some j =>
        obtain ⟨refreshing, hread, hrest⟩ := runs_json_bind hres
        cases refreshing with
        | false =>
          obtain ⟨rfl, -⟩ := runs_pure.mp hrest
          exact ⟨[_], some j, fun j' hj => by cases hj; exact hread, rfl⟩
        | true =>
          -- another pass, or the wait is over
          obtain ⟨now, t₃, rfl, hnow⟩ := runs_ask_bind.mp hrest
          by_cases hlate : (now : Int) ≥ deadline
          · rw [if_pos hlate] at hnow
            exact (not_refused hg hnow).elim
          · rw [if_neg hlate] at hnow
            obtain ⟨slept, t₄, rfl, hnext⟩ := runs_ask_bind.mp hnow
            obtain ⟨polls, last, hlast, rfl⟩ := ih ⟨g, hnext, hg⟩
            exact ⟨_ :: _ :: _ :: _ :: polls, last, hlast, rfl⟩

theorem passes_displayReady {t : List Event} (h : Passes (displayReady timing) t) : DisplaySeen t := by
  obtain ⟨g, hr, hg⟩ := h
  obtain ⟨now, t', rfl, hk⟩ := runs_ask_bind.mp hr
  obtain ⟨polls, last, hlast, rfl⟩ := passes_awaitDisplay ⟨g, hk, hg⟩
  exact ⟨_ :: polls, last, hlast, rfl⟩

/-- A package that was posted. -/
theorem runs_post {package trigger : String} {commandId : Option Int} {t : List Event} {r : Result}
    (h : Runs (post cfg package trigger commandId) t (.ok r)) (hok : r.ok = true) :
    ∃ resp, resp.ok = true ∧ ⟨.post (address cfg trigger commandId) package, resp⟩ ∈ t := by
  obtain ⟨headers, t₁, rfl, h₁⟩ := runs_ask_bind.mp h
  match headers, h₁ with
  | none, h₁ => cases (runs_throw.mp h₁).2
  | some none, h₁ =>
    obtain ⟨-, he⟩ := runs_pure.mp h₁
    cases he; cases hok
  | some (some _), h₁ =>
    obtain ⟨resp, t₂, rfl, h₂⟩ := runs_ask_bind.mp h₁
    refine ⟨resp, ?_, List.mem_cons_of_mem _ List.mem_cons_self⟩
    by_contra hbad
    split at h₂
    · obtain ⟨done, t₃, rfl, h₃⟩ := runs_ask_bind.mp h₂
      cases done with
      | none => cases (runs_throw.mp h₃).2
      | some _ =>
        obtain ⟨-, he⟩ := runs_pure.mp h₃
        cases he; cases hok
    · rw [if_pos (by simpa using hbad)] at h₂
      obtain ⟨-, he⟩ := runs_pure.mp h₂
      cases he; cases hok

theorem runs_captureBeforeReboot {t : List Event} {r : Result}
    (h : Runs (captureBeforeReboot cfg c.id) t (.ok r)) (hok : r.ok = true) : Uploaded cfg c t := by
  obtain ⟨res, t₁, rfl, h₁⟩ := runs_ask_bind.mp h
  by_cases hcode : res.exitCode ≠ 0
  · rw [if_pos hcode] at h₁
    obtain ⟨-, he⟩ := runs_pure.mp h₁
    cases he; cases hok
  · rw [if_neg hcode] at h₁
    obtain ⟨package, t₂, rfl, h₂⟩ := runs_ask_bind.mp h₁
    rcases runs_bind.mp h₂ with ⟨e, he, -⟩ | ⟨result, t₃, t₄, rfl, hpost, hrest⟩
    · cases he
    · have hresult : result.ok = true := by
        split at hrest
        · assumption
        · obtain ⟨-, he⟩ := runs_pure.mp hrest
          cases he; exact hok
      obtain ⟨resp, hresp, hmem⟩ := runs_post hpost hresult
      exact ⟨res, package, resp, not_not.mp hcode, hresp, List.mem_cons_self,
        List.mem_cons_of_mem _ List.mem_cons_self,
        List.mem_cons_of_mem _ (List.mem_cons_of_mem _ (List.mem_append_left _ hmem))⟩

theorem passes_evidence {t : List Event} (h : Passes (evidence cfg c) t)
    (hc : c.command = "factory_reset") : Uploaded cfg c t := by
  obtain ⟨g, hr, hg⟩ := h
  rcases runs_bind.mp hr with ⟨e, he, -⟩ | ⟨result, t₁, t₂, rfl, hcapture, hrest⟩
  · cases he
  · cases hok : result.ok with
    | true =>
      rw [if_pos hok] at hrest
      obtain ⟨rfl, -⟩ := runs_pure.mp hrest
      rw [List.append_nil]
      exact runs_captureBeforeReboot hcapture hok
    | false =>
      rw [if_neg (by simp [hok]), if_pos hc] at hrest
      exact (not_refused hg hrest).elim

theorem wellFormed_ok (h : (wellFormed c).ok = true) : WellFormed c := by
  simp only [wellFormed] at h
  by_cases hunknown : c.id ≤ 0 ∨ (decide (c.command = "request_diagnostics") ||
      decide (c.command = "restart_service") || isRebootClass c.command || isSafeMode c.command) = false
  · rw [if_pos hunknown] at h
    cases h
  rw [if_neg hunknown, not_or, Int.not_le] at *
  by_cases hinvalid : (if c.command = "restart_service" then !isKnownService c.arg
      else decide (c.arg ≠ "")) = true
  · rw [if_pos hinvalid] at h
    cases h
  refine ⟨hunknown.1, ?_, ?_⟩
  · have hknown := hunknown.2
    simp only [isRebootClass, isSafeMode, Bool.not_eq_false, Bool.or_eq_true, decide_eq_true_eq] at hknown
    simp only [commands, List.mem_cons, List.not_mem_nil, or_false]
    tauto
  · split
    next hrestart => simpa [hrestart, isKnownService] using hinvalid
    next hrestart => simpa [hrestart] using hinvalid

theorem passes_gates {t : List Event} (h : Passes (gates timing cfg c) t) : Passed cfg c t := by
  obtain ⟨t₀, rest, rfl, ⟨g, hr, hg⟩, hrest⟩ := passes_andThen h
  obtain ⟨rfl, he⟩ := runs_pure.mp hr
  cases he
  obtain ⟨clock, t₂, rfl, hclock, h₂⟩ := passes_andThen hrest
  obtain ⟨idle, t₃, rfl, hidle, h₃⟩ := passes_andThen h₂
  obtain ⟨newer, t₄, rfl, hnewer, h₄⟩ := passes_andThen h₃
  have hclass := passes_onlyIf (P := fun t => ∃ board display saved, t = board ++ (display ++ saved) ∧
    BoardPassed (c.command ≠ "update_install") board ∧ DisplaySeen display ∧
    (c.command = "factory_reset" → Uploaded cfg c saved)) (fun hpass => by
      obtain ⟨safe, saved, rfl, hsafe, hsaved⟩ := passes_andThen hpass
      obtain ⟨board, display, rfl, hboard, hdisplay⟩ := passes_andThen hsafe
      exact ⟨board, display, saved, List.append_assoc .., passes_boardGate hboard,
        passes_displayReady hdisplay, passes_evidence hsaved⟩) h₄
  refine ⟨wellFormed_ok hg, clock, idle, newer, ?_⟩
  cases hreboot : isRebootClass c.command with
  | true =>
    rw [hreboot] at hclass
    obtain ⟨board, display, saved, rfl, hboard, hdisplay, hsaved⟩ := hclass
    exact ⟨board, display, saved, rfl, passes_notExpired hclock,
      passes_onlyIf passes_updateIdle hidle, passes_onlyIf passes_newerAvailable hnewer, hboard,
      hdisplay, hsaved⟩
  | false =>
    rw [hreboot] at hclass
    obtain rfl : t₄ = [] := hclass
    refine ⟨[], [], [], rfl, passes_notExpired hclock,
      passes_onlyIf passes_updateIdle hidle, passes_onlyIf passes_newerAvailable hnewer, rfl, rfl,
      fun hc => ?_⟩
    rw [hc] at hreboot
    cases hreboot

/-! ## What the parts of a command do -/

/-- Neither acts nor answers. -/
def Op.Looks (op : Op) : Prop := op.isAction = false ∧ ∀ msg, op ≠ .publish msg

/-- Accepts or rejects a command. -/
def Op.isAnswer : Op → Bool
  | .publish msg =>
    msg.find "type" = some (.str "command_result") &&
      (msg.find "status" = some (.str "accepted") || msg.find "status" = some (.str "rejected"))
  | _ => false

theorem Op.Looks.not_answer {op : Op} (h : op.Looks) : op.isAnswer = false := by
  cases op with
  | publish msg => exact absurd rfl (h.2 msg)
  | _ => rfl

theorem uses_json {A : Op → Prop} {α : Type} {x : Except Json.Error α} : Uses A (json x) := .lift

theorem uses_andThen {A : Op → Prop} {first second : Remote Gate} (h₁ : Uses A first)
    (h₂ : Uses A second) : Uses A (andThen first second) :=
  .bind h₁ fun g => by split; exacts [h₂, .pure]

theorem uses_onlyIf {A : Op → Prop} {condition : Bool} {gate : Remote Gate} (h : Uses A gate) :
    Uses A (onlyIf condition gate) := by
  unfold onlyIf
  split
  exacts [h, .pure]

theorem looks_post {package trigger : String} {commandId : Option Int} :
    Uses Op.Looks (post cfg package trigger commandId) := by
  refine .bind (.ask ⟨rfl, nofun⟩) fun headers => ?_
  match headers with
  | none => exact .throw
  | some none => exact .pure
  | some (some _) =>
    refine .bind (.ask ⟨rfl, nofun⟩) fun resp => ?_
    split
    · refine .bind (.ask ⟨rfl, nofun⟩) fun done => ?_
      cases done
      exacts [.throw, .pure]
    · split <;> exact .pure

theorem looks_uploadPending {commandId : Option Int} :
    Uses Op.Looks (uploadPending cfg commandId) := by
  refine .bind (.ask ⟨rfl, nofun⟩) fun package => .bind looks_post fun result => ?_
  split
  exacts [.bind (.ask ⟨rfl, nofun⟩) fun _ => .pure, .pure]

theorem looks_event {text : String} : Uses Op.Looks (event c text) :=
  .bind (.ask ⟨rfl, nofun⟩) fun _ => .pure

theorem looks_awaitDisplay {deadline : Int} {passes : Nat} :
    Uses Op.Looks (awaitDisplay timing deadline passes) := by
  induction passes with
  | zero => exact .pure
  | succ passes ih =>
    refine .bind (.ask ⟨rfl, nofun⟩) fun stop => ?_
    split
    · exact .pure
    · refine .bind (.ask ⟨rfl, nofun⟩) fun res => ?_
      cases res with
      | none => exact .pure
      | some j =>
        refine .bind uses_json fun refreshing => ?_
        split
        · exact .pure
        · refine .bind (.ask ⟨rfl, nofun⟩) fun now => ?_
          split
          exacts [.pure, .bind (.ask ⟨rfl, nofun⟩) fun _ => ih]

theorem looks_gates : Uses Op.Looks (gates timing cfg c) := by
  have hidle : Uses Op.Looks updateIdle := .bind (.ask ⟨rfl, nofun⟩) fun res => by
    cases res
    exacts [.pure, .bind uses_json fun _ => .pure]
  have hnewer : Uses Op.Looks newerAvailable := .bind (.ask ⟨rfl, nofun⟩) fun res => by
    cases res with
    | none => exact .pure
    | some latest =>
      refine .bind uses_json fun ok => ?_
      split
      exacts [.pure, .bind uses_json fun _ => .pure]
  have hsafe : Uses Op.Looks (safeToReboot timing (c.command ≠ "update_install")) :=
    uses_andThen (.bind (.ask ⟨rfl, nofun⟩) fun _ => .pure)
      (.bind (.ask ⟨rfl, nofun⟩) fun _ => looks_awaitDisplay)
  have hevidence : Uses Op.Looks (evidence cfg c) := by
    refine .bind (.bind (.ask ⟨rfl, nofun⟩) fun res => ?_) fun result => ?_
    · split
      exacts [.pure, looks_uploadPending]
    · split
      · exact .pure
      · split
        exacts [.pure, .bind looks_event fun _ => .pure]
  exact uses_andThen .pure <| uses_andThen (.bind (.ask ⟨rfl, nofun⟩) fun _ => .pure) <|
    uses_andThen (uses_onlyIf hidle) <| uses_andThen (uses_onlyIf hnewer) <|
    uses_onlyIf (uses_andThen hsafe hevidence)

theorem isAnswer_reply (id : Int) (status reason : String) :
    (Op.publish (commandResult id status reason)).isAnswer =
      (status = "accepted" || status = "rejected") := by
  simp [Op.isAnswer, commandResult, wsMessageTypeToString, Json.find, List.lookup_cons]

/-- If it acts, it is the action of the command. -/
def Op.Owned (c : Command) (op : Op) : Prop := op.isAction = true → action c = some op

theorem Op.Owned.of_quiet {op : Op} (h : op.isAction = false) : op.Owned c := fun ha => by
  rw [h] at ha; cases ha

theorem looks_collectAndUpload {trigger : String} {commandId : Option Int} :
    Uses Op.Looks (collectAndUpload cfg trigger commandId) := by
  have hcollect : Uses Op.Looks (collect cfg trigger commandId) :=
    .bind (.ask ⟨rfl, nofun⟩) fun res => by split; exacts [.pure, looks_post]
  refine .bind (.ask ⟨rfl, nofun⟩) fun found => ?_
  match found with
  | none => exact .throw
  | some true => exact .bind looks_uploadPending fun _ => hcollect
  | some false => exact hcollect

/-- What a command does behind its acceptance. -/
def Op.Acts (c : Command) (op : Op) : Prop := op.Owned c ∧ op.isAnswer = false

theorem Op.Looks.acts {op : Op} (h : op.Looks) : op.Acts c := ⟨.of_quiet h.1, h.not_answer⟩

theorem acts_reply {id : Int} {status reason : String} (h : status = "done" ∨ status = "failed") :
    Uses (Op.Acts c) (reply id status reason) :=
  .ask ⟨.of_quiet rfl, by rw [isAnswer_reply]; rcases h with rfl | rfl <;> decide⟩

/-- A call that only looks. -/
theorem acts_ask {op : Op} (h : op.Looks) : Uses (Op.Acts c) (ask op) := .ask h.acts

theorem acts_event {text : String} : Uses (Op.Acts c) (event c text) :=
  looks_event.mono fun _ h => h.acts

theorem acts_act (h : WellFormed c) : Uses (Op.Acts c) (act timing cfg c) := by
  have hacts : ∀ {op : Op}, action c = some op → op.isAnswer = false → Uses (Op.Acts c) (ask op) :=
    fun hop hno => .ask ⟨fun _ => hop, hno⟩
  have hresult : ∀ {p : Prop} [Decidable p], (if p then "done" else "failed") = "done" ∨
      (if p then "done" else "failed") = "failed" := by
    intro p _; split <;> simp
  unfold act
  split
  · exact .bind (looks_collectAndUpload.mono fun _ hl => hl.acts) fun res => acts_reply hresult
  split
  next hc =>
    refine .bind (by split; exacts [acts_ask ⟨rfl, nofun⟩, .pure]) fun _ => .bind (hacts ?_ rfl) fun res =>
      acts_reply hresult
    rw [action, if_pos hc]
  split
  next hc =>
    refine .bind (hacts ?_ rfl) fun res => ?_
    · simp only [isSafeMode, Bool.or_eq_true, decide_eq_true_eq] at hc
      rcases hc with hc | hc <;> simp [action, hc]
    · split
      · exact acts_reply (by simp)
      · exact .bind acts_event fun _ => acts_reply (by simp)
  split
  next hc =>
    have hfailed : ∀ error, Uses (Op.Acts c) (updateFailed c error) := fun error =>
      .bind acts_event fun _ => acts_reply (by simp)
    refine .bind (hacts (by simp [action, hc]) rfl) fun res => ?_
    cases res with
    | none => exact hfailed _
    | some res =>
      refine .bind uses_json fun ok => ?_
      split
      · exact .bind (acts_ask ⟨rfl, nofun⟩) fun _ => .pure
      · exact .bind uses_json fun error => hfailed error
  next hrequest hservice hsafe hinstall =>
    have hrestart : ∀ screen args, action c = some (.run args 5) →
        Uses (Op.Acts c) (restart screen args) := fun screen args ha =>
      .bind (acts_ask ⟨rfl, nofun⟩) fun _ => .bind (hacts ha rfl) fun res => by
        split
        exacts [.bind (acts_ask ⟨rfl, nofun⟩) fun _ => .pure, .pure]
    refine .bind (.bind (acts_ask ⟨rfl, nofun⟩) fun _ => .pure) fun _ =>
      .bind (acts_ask ⟨rfl, nofun⟩) fun _ => ?_
    split
    next hc => exact .bind (hacts (by simp [action, hc]) rfl) fun _ => .pure
    next hshutdown =>
    split
    next hc => exact hrestart _ _ (by simp [action, hc])
    next hreboot =>
      -- only the factory reset is left of the allow-list
      have hc : c.command = "factory_reset" := by
        have hknown := h.known
        simp only [commands, List.mem_cons, List.not_mem_nil, or_false] at hknown
        simp only [isSafeMode, Bool.or_eq_true, decide_eq_true_eq, not_or] at hsafe
        tauto
      exact hrestart _ _ (by simp [action, hc])

/-! ## Behind the gates -/

/-- The log entry and the reply of an accepted command. -/
def acceptance (c : Command) (res : SubprocessResult) : List Event :=
  [⟨.run ["shareframe-event", "remote", eventLine c "accepted"] 5, res⟩,
    ⟨.publish (commandResult c.id "accepted" ""), ()⟩]

theorem runs_accept {t : List Event} {r : Except Error Unit} (h : Runs (accept c) t r) :
    ∃ res, t = acceptance c res := by
  obtain ⟨res, t₁, rfl, h₁⟩ := runs_ask_bind.mp (show Runs (ask _ >>= fun _ => reply c.id _ _) t r from h)
  obtain ⟨_, rfl, -⟩ := runs_ask.mp h₁
  exact ⟨res, rfl⟩

/-- Behind the gates and the acceptance of its own command an operation may act. -/
theorem passed_of_calls {msg : Json} {t : List Event} {op : Op} (hcall : Calls (handle timing cfg msg) t op)
    (hop : op.isAction = true) : ∃ c t₁ res t₂, readCommand msg = .ok c ∧ action c = some op ∧
      t = t₁ ++ acceptance c res ++ t₂ ∧ Passed cfg c t₁ := by
  cases hread : readCommand msg with
  | error e =>
    rw [handle_of_error hread] at hcall
    exact absurd hcall calls_throw
  | ok c =>
    rw [handle_of_ok hread] at hcall
    rcases calls_bind.mp hcall with
      hgate | ⟨gate, t₁, t₂, rfl, hgate, hrest⟩
    · rw [(looks_gates t op hgate).1] at hop
      cases hop
    cases hok : gate.ok with
    | false =>
      rw [if_neg (by simp [hok])] at hrest
      have hquiet : Uses (·.isAction = false) (reject c gate.reason) :=
        .bind (looks_event.mono fun _ h => h.1) fun _ => .ask rfl
      rw [hquiet _ _ hrest] at hop
      cases hop
    | true =>
      rw [if_pos hok] at hrest
      have hpassed := passes_gates ⟨gate, hgate, hok⟩
      rcases calls_bind.mp hrest with haccept | ⟨_, t₃, t₄, rfl, haccept, hact⟩
      · have hquiet : Uses (·.isAction = false) (accept c) :=
          .bind (looks_event.mono fun _ h => h.1) fun _ => .ask rfl
        rw [hquiet _ _ haccept] at hop
        cases hop
      · obtain ⟨res, rfl⟩ := runs_accept haccept
        exact ⟨c, t₁, res, t₄, rfl, (acts_act hpassed.1 _ _ hact).1 hop,
          (List.append_assoc ..).symm, hpassed⟩

/-- An operation that acts is called behind the gates and the acceptance of its own command, and a
rejected command calls none. -/
theorem handle_gated (timing : Timing) (cfg : Config) (msg : Json) :
    (∀ t op, Calls (handle timing cfg msg) t op → op.isAction = true →
      ∃ c t₁ res t₂, readCommand msg = .ok c ∧ action c = some op ∧
        t = t₁ ++ acceptance c res ++ t₂ ∧ Passed cfg c t₁) ∧
    ∀ t rest id reason, Steps (handle timing cfg msg) t rest →
      ⟨.publish (commandResult id "rejected" reason), ()⟩ ∈ t → ∀ e ∈ t, e.1.isAction = false := by
  refine ⟨fun t op hcall hop => passed_of_calls hcall hop, fun t rest id reason hsteps hmem => ?_⟩
  cases hread : readCommand msg with
  | error e =>
    rw [handle_of_error hread] at hsteps
    cases hsteps
    cases hmem
  | ok c =>
    rw [handle_of_ok hread] at hsteps
    rcases steps_bind hsteps with
      ⟨p', hgate⟩ | ⟨gate, t₁, t₂, rfl, hgate, hrest⟩
    · exact absurd rfl ((looks_gates.events hgate _ hmem).2 _)
    have hlooks := looks_gates.events hgate
    rcases List.mem_append.mp hmem with hmem | hmem
    · exact absurd rfl ((hlooks _ hmem).2 _)
    cases hok : gate.ok with
    | false =>
      rw [if_neg (by simp [hok])] at hrest
      have hquiet : Uses (·.isAction = false) (reject c gate.reason) :=
        .bind (looks_event.mono fun _ h => h.1) fun _ => .ask rfl
      intro e he
      rcases List.mem_append.mp he with he | he
      · exact (hlooks e he).1
      · exact hquiet.events hrest e he
    | true =>
      rw [if_pos hok] at hrest
      have hpassed := passes_gates ⟨gate, hgate, hok⟩
      have hkeeps : Uses (· ≠ .publish (commandResult id "rejected" reason))
          (accept c >>= fun _ => act timing cfg c) := by
        refine .bind (.bind (looks_event.mono fun _ h => h.2 _) fun _ => .ask ?_) fun _ =>
          (acts_act hpassed.1).mono fun op h he => ?_
        · simp [commandResult]
        · have hno := h.2
          rw [he, isAnswer_reply] at hno
          cases hno
      exact absurd rfl (hkeeps.events hrest _ hmem)

/-- The reboot of a frame without an update and with its display off, which cannot collect its
logs. -/
def rebootCommand : Json :=
  .obj [("type", .str "command"), ("id", .int 7), ("command", .str "reboot"), ("expires_at", .int 100)]

def rebootAnswers : List Event :=
  [⟨.systemNow, (50 : Int)⟩,
    ⟨.sendAndReceive .update { type := .updateStatus },
      some (.obj [("ok", .bool true), ("status", .obj [("phase", .str "idle")])])⟩,
    ⟨.run (gateCmd true) 5, { exitCode := 0 }⟩, ⟨.steadyNow, (0 : Int)⟩, ⟨.stopRequested, false⟩,
    ⟨.sendAndReceive .display { type := .getSlideshowActive }, none⟩,
    ⟨.run ["shareframe-diag", "--out", "/data/pending"] 60, { exitCode := 1, stdErr := "full" }⟩,
    ⟨.run ["shareframe-event", "remote",
        "#7 reboot diagnostics kept on device (Collecting diagnostics failed: full)"] 5,
      { exitCode := 0 }⟩,
    ⟨.run ["shareframe-event", "remote", "#7 reboot accepted"] 5, { exitCode := 0 }⟩,
    ⟨.publish (commandResult 7 "accepted" ""), ()⟩,
    ⟨.run ["shareframe-remote-gate", "mark"] 5, { exitCode := 0 }⟩, ⟨.sleepFor 2000, ()⟩,
    ⟨.send .display ⟨.showStatusScreen, .obj [("screen", .str "reboot")]⟩, true⟩]

def uploads : Config := { url := "https://frames/diagnostics", pendingPath := "/data/pending" }

theorem handle_gated_reboot :
    Calls (handle {} uploads rebootCommand) rebootAnswers (.run ["reboot"] 5) ∧
      ∃ c t₁ res t₂, readCommand rebootCommand = .ok c ∧ action c = some (.run ["reboot"] 5) ∧
        rebootAnswers = t₁ ++ acceptance c res ++ t₂ ∧ Passed uploads c t₁ := by
  have hcall : Calls (handle {} uploads rebootCommand) rebootAnswers (.run ["reboot"] 5) :=
    calls_iff_follow.mpr (by decide +kernel)
  exact ⟨hcall, (handle_gated {} uploads rebootCommand).1 _ _ hcall rfl⟩

end ShareFrame.RemoteCommand
