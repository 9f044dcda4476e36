import ShareFrame.Task.Remote.Updates

/-!
# Reboots and updates

A command that takes the frame down asks for the phase of the update, and acts much
later. It meets no update if none is started in between, and if the service was not
given up on during an update (`not_updating_of_undisturbed`).
-/

namespace ShareFrame.RemoteUpdate

open Interaction RemoteCommand Transition
open UpdateManager (Phase)

variable {f : Frame}

def Updating (u : UpdateManager.State) : Prop :=
  u.terminated = false ∧ (u.phase_ = .checking ∨ u.phase_ = .downloading ∨ u.phase_ = .installing)

instance (u : UpdateManager.State) : Decidable (Updating u) := by unfold Updating; infer_instance

/-- An update is under way only if it was before, or has just been started. -/
theorem updating_step {u u' : UpdateManager.State} {a : UpdateManager.Act}
    (hr : (UpdateManager.machine f.sha256 f.updates).Reachable u)
    (hs : UpdateManager.step f.sha256 f.updates u a = some u') (h : Updating u') :
    Updating u ∨ ∃ c ok, a = .threadStarted c ok := by
  have hlive : u.terminated = false := by
    cases hterm : u.terminated with
    | false => rfl
    | true => simp [UpdateManager.step, hterm] at hs
  have hx := (UpdateManager.safe_inductive.of_reachable hr).exclusive
  cases hworker : a.worker with
  | some i =>
    left
    obtain ⟨w, hw, hown | ⟨-, rfl⟩⟩ := UpdateManager.step_own hs hworker
    · cases hown with
      | throws _ state => exact ⟨hlive, by rw [state] at h; exact h.2⟩
      | moves edge state =>
        rcases edge.next (hx.phases i w hw) with hsame | ⟨-, hactive, hnext⟩
        · exact ⟨hlive, hsame ▸ h.2⟩
        · -- an active worker has its update under way
          have hbusy := UpdateManager.busy_of_active hactive (hx.phases i w hw hactive)
          refine ⟨hlive, ?_⟩
          cases hphase : u.phase_ with
          | checking | downloading | installing => simp
          | idle | failed => rw [hphase] at hbusy; cases hbusy
          | awaitingReboot =>
            rw [hphase] at hnext
            cases hp : u'.phase_ <;> rw [hp] at hnext <;> exact hnext.elim
    · exact ⟨hlive, h.2⟩
  | none =>
    by_cases hstart : ∃ c ok, a = .threadStarted c ok
    · exact .inr hstart
    · push Not at hstart
      obtain ⟨hphase, -⟩ := service_still hs hworker hstart
      exact .inl ⟨hlive, hphase ▸ h.2⟩

/-- The commands that take the frame down. -/
def Leaves (msg : Json) : Prop :=
  ∃ c, readCommand msg = .ok c ∧ c.command ∈ ["reboot", "shutdown", "factory_reset"]

def leaves : List Op :=
  [.run ["reboot"] 5, .run ["shutdown"] 5, .run ["shareframe-factory-reset", "--yes"] 5]

/-- The update service has said, or will have said, that no update is under way, or it was given
up. -/
def Cleared (s : State) : Prop :=
  (∃ msg res, msg.type = .updateStatus ∧ Idle res ∧ ⟨.sendAndReceive .update msg, res⟩ ∈ s.history) ∨
    s.waiting = true ∧ ∃ j, s.request = some ⟨.updateStatus, .replied j⟩ ∧ Idle (some j)

/-- Between the answer to the status request and the end of a command that takes the frame down. -/
def Watching (s : State) : Prop := Leaves s.msg ∧ s.rest.next.isSome ∧ Cleared s

/-- No update is started behind the status, and the status request is not given up during an
update. -/
def Undisturbed (s : State) : Act → Prop
  | .update (.threadStarted _ _) => ¬ Watching s
  | .giveUp _ => Leaves s.msg →
    (∃ msg, s.rest.next.bind ofUpdate = some msg ∧ msg.type = .updateStatus) → ¬ Updating s.updates
  | _ => True

theorem idle_statusReply {phase : Phase} (h : Idle (some (statusReply phase))) :
    phase = .idle ∨ phase = .failed := by
  have hread : phaseOf (statusReply phase) = .ok (phaseName phase) := rfl
  have hphase := h _ rfl
  rw [hread] at hphase
  cases phase with
  | idle => exact .inl rfl
  | failed => exact .inr rfl
  | _ => rcases hphase with hp | hp <;> exact absurd (Except.ok.inj hp) (by decide)

theorem watching_step {s s' : State} {a : Act} (hsound : Sound f s)
    (h : Watching s → ¬ Updating s.updates) (hG : Undisturbed s a) (hs : step f s a = some s') :
    Watching s' → ¬ Updating s'.updates := by
  intro ⟨hleaves, hnext', hcleared⟩ hupdating
  -- what was cleared before
  have hbefore : s.rest.next.isSome = true → Cleared s → ¬ Updating s.updates :=
    fun hnext hc => h ⟨by cases step_effect hs <;> exact hleaves, hnext, hc⟩
  cases step_effect hs with
  | @update a u hu hfree =>
    rcases updating_step hsound.updates hu hupdating with hold | ⟨c, ok, rfl⟩
    · exact hbefore hnext' hcleared hold
    · exact hG ⟨hleaves, hnext', hcleared⟩
  | @answer e rest hop hrest =>
    refine hbefore (by rw [hrest.next]; rfl) ?_ hupdating
    rcases hcleared with ⟨msg, res, htype, hidle, hmem⟩ | hreq
    · rcases List.mem_append.mp hmem with hmem | hmem
      · exact .inl ⟨msg, res, htype, hidle, hmem⟩
      · cases List.mem_singleton.mp hmem
        cases hop
    · exact .inr hreq
  | send =>
    refine hbefore hnext' ?_ hupdating
    rcases hcleared with hseen | ⟨-, j, hreq, -⟩
    · exact .inl hseen
    · have hposition := congrArg Request.position (Option.some.inj hreq)
      cases hposition
  | status =>
    rcases hcleared with hseen | ⟨-, j, hreq, hidle⟩
    · exact hbefore hnext' (.inl hseen) hupdating
    · cases hreq
      rcases idle_statusReply hidle with hp | hp <;> rcases hupdating.2 with hp' | hp' | hp' <;>
        exact absurd (hp.symm.trans hp') (by decide)
  | @perform _ u hreq hu =>
    rcases hcleared with hseen | ⟨-, j, hreq, -⟩
    · have hphase := (service_still hu rfl nofun).1
      refine hbefore hnext' (.inl hseen) ⟨?_, hphase ▸ hupdating.2⟩
      cases hterm : s.updates.terminated with
      | false => rfl
      | true => simp [UpdateManager.step, hterm] at hu
    · cases hreq
  | other _ hstatus =>
    rcases hcleared with hseen | ⟨-, j, hreq, -⟩
    · exact hbefore hnext' (.inl hseen) hupdating
    · cases hreq; exact hstatus rfl
  | throws =>
    rcases hcleared with hseen | ⟨-, j, hreq, hidle⟩
    · exact hbefore hnext' (.inl hseen) hupdating
    · cases hreq
      rcases hidle _ rfl with hp | hp <;> cases hp
  | returned | threw =>
    rcases hcleared with hseen | ⟨-, j, hreq, -⟩
    · exact hbefore hnext' (.inl hseen) hupdating
    · cases hreq
  | @receive msg j rest hreq hwaiting hrest =>
    refine hbefore (by rw [hrest.next]; rfl) ?_ hupdating
    rcases hcleared with ⟨msg', res, htype, hidle, hmem⟩ | ⟨hno, -⟩
    · rcases List.mem_append.mp hmem with hmem | hmem
      · exact .inl ⟨msg', res, htype, hidle, hmem⟩
      · cases List.mem_singleton.mp hmem
        exact .inr ⟨hwaiting, j, by rw [hreq, htype], hidle⟩
    · cases hno
  | @giveUp msg dropped request rest hnext hrequest hrest =>
    rcases hcleared with ⟨msg', res, htype, hidle, hmem⟩ | ⟨hno, -⟩
    · rcases List.mem_append.mp hmem with hmem | hmem
      · exact hbefore (by rw [hrest.next]; rfl) (.inl ⟨msg', res, htype, hidle, hmem⟩) hupdating
      · cases List.mem_singleton.mp hmem
        exact hG hleaves ⟨_, hnext, htype⟩ hupdating
    · cases hno

theorem watching_inductive : (machine f).Inductive Undisturbed fun s =>
    Sound f s ∧ (Watching s → ¬ Updating s.updates) where
  init := by
    rintro s ⟨msg, pendingSlot, cache, rfl⟩
    refine ⟨sound_inductive.init _ ⟨msg, pendingSlot, cache, rfl⟩, fun ⟨_, _, hcleared⟩ _ => ?_⟩
    rcases hcleared with ⟨_, _, _, _, hmem⟩ | ⟨hno, -⟩
    · cases hmem
    · cases hno
  step s a s' h hG hs := ⟨sound_inductive.step s a s' h.1 trivial hs, watching_step h.1 h.2 hG hs⟩

theorem command_of_leaves {c : Command} {op : Op} (h : action c = some op) (hop : op ∈ leaves) :
    c.command ∈ ["reboot", "shutdown", "factory_reset"] := by
  simp only [leaves, List.mem_cons, List.not_mem_nil, or_false] at hop
  unfold action at h
  split at h
  · cases h; simp at hop
  split at h
  · cases h; simp at hop
  split at h
  · cases h; simp at hop
  split at h
  · cases h; simp at hop
  split at h
  next hc => simp [hc]
  split at h
  next hc => simp [hc]
  split at h
  next hc => simp [hc]
  next => cases h

/-- In an undisturbed run no reboot, shutdown or factory reset is executed during an update. -/
theorem not_updating_of_undisturbed {s : State} (hr : (machine f).ReachableBy Undisturbed s) {op : Op}
    (hop : op ∈ leaves) (hnext : s.rest.next = some op) : ¬ Updating s.updates := by
  obtain ⟨hsound, hwatching⟩ := watching_inductive.of_reachable hr
  obtain ⟨k, hk⟩ := Prog.next_eq_some.mp hnext
  have hcall : Prog.Calls (handle f.timing f.uploads s.msg) s.history op :=
    ⟨k, hk ▸ hsound.steps⟩
  have hacts : op.isAction = true := by
    simp only [leaves, List.mem_cons, List.not_mem_nil, or_false] at hop
    rcases hop with rfl | rfl | rfl <;> rfl
  obtain ⟨c, t₁, res, t₂, hread, haction, hhistory, hpassed⟩ := (handle_gated ..).1 _ _ hcall hacts
  have hleaving := command_of_leaves haction hop
  refine hwatching ⟨⟨c, hread, hleaving⟩, by rw [hnext]; rfl, .inl ?_⟩
  obtain ⟨-, clock, idle, newer, board, display, saved, rfl, -, hidle, -⟩ := hpassed
  have hneeds : needsIdle c = true := by
    simp only [List.mem_cons, List.not_mem_nil, or_false] at hleaving
    rcases hleaving with hc | hc | hc <;> simp [needsIdle, isRebootClass, hc]
  rw [When, if_pos hneeds] at hidle
  obtain ⟨answer, hgood, rfl⟩ := hidle
  exact ⟨{ type := .updateStatus }, answer, rfl, hgood, by rw [hhistory]; simp⟩

/-- The frame is told to reboot. -/
def told : State :=
  { msg := rebootCommand, rest := handle frame.timing frame.uploads rebootCommand }

/-- The answers, with the requests to the update service served at once. -/
def replay (t : List Event) : List Act :=
  t.flatMap fun e => if (ofUpdate e.1).isSome then [.send, .serve .null, .receive] else [.answer e]

theorem not_updating_of_undisturbed_reboot :
    ∃ s, (machine frame).run told (replay rebootAnswers) = some s ∧
      s.rest.next = some (.run ["reboot"] 5) ∧ ¬ Updating s.updates := by
  have hrun : ∃ s ∈ (machine frame).run told (replay rebootAnswers),
      s.rest.next = some (.run ["reboot"] 5) := by decide +kernel
  obtain ⟨s, hs, hnext⟩ := hrun
  have hmeets : (machine frame).Meets Undisturbed told (replay rebootAnswers) :=
    Machine.meets_of_mem fun a ha t => by
      obtain ⟨e, -, ha⟩ := List.mem_flatMap.mp ha
      split at ha
      · simp only [List.mem_cons, List.not_mem_nil, or_false] at ha
        rcases ha with rfl | rfl | rfl <;> trivial
      · cases List.mem_singleton.mp ha
        trivial
  have hr : (machine frame).ReachableBy Undisturbed s :=
    Machine.ReachableBy.run _ (.init ⟨rebootCommand, "", fun _ => none, rfl⟩) hmeets hs
  exact ⟨s, hs, hnext, not_updating_of_undisturbed hr (by decide) hnext⟩

/-- An update from the dashboard, between the gates of the reboot and the pause before it. -/
def updateBehindGates : List Act :=
  replay (rebootAnswers.take 11) ++
    ([.ipcCall, .call .ipc, .call .ipc, .call .ipc,
        .fetched .ipc ⟨200, "", ""⟩ (some UpdateManager.nextRelease), .call .ipc,
        .threadStarted .ipc true] : List UpdateManager.Act).map .update ++
    replay (rebootAnswers.drop 11)

theorem updating_behind_gates :
    ∃ s, (machine frame).run told updateBehindGates = some s ∧
      s.rest.next = some (.run ["reboot"] 5) ∧ Updating s.updates := by
  have hrun : ∃ s ∈ (machine frame).run told updateBehindGates,
      s.rest.next = some (.run ["reboot"] 5) ∧ Updating s.updates := by decide +kernel
  obtain ⟨s, hs, hnext, hupdating⟩ := hrun
  exact ⟨s, hs, hnext, hupdating⟩

end ShareFrame.RemoteUpdate
