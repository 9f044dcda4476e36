import Mathlib.Data.List.Forall2
import Mathlib.Data.List.ReduceOption
import ShareFrame.Image.Expiry
import ShareFrame.Lib.Mailbox

/-!
# The picture tasks of the websocket service

The bus thread puts picture and clear messages into the queue of `ImageUpdate`, whose
worker takes the whole queue and handles one message behind the other;
`ExpiredImageCleanup` removes expired pictures beside it. Both announce on the bus what
they have stored and removed. Without the queue and the announcements this is
`ImageManager.Expiry` (`simulates`).

Each message is handled once and in order, and announces its own picture or ids or
nothing (`handled_in_order`). The announcements account for the table: what is stored was
there at the start or has been announced, and a picture that was announced more often
than removals of it is stored (`announced_accounts`).
-/

namespace ShareFrame.ImageUpdate

open Transition Mailbox ImageManager

/-- What `_enqueue` is called with. -/
inductive Message where
  | picture (msg : Json)
  | clearImages (msg : Json)
  deriving DecidableEq

/-- What the tasks publish. -/
inductive Event where
  | imageNew (id : Int)
  | imageRemoved (ids : List Int)
  deriving DecidableEq, Repr

inductive Task where
  | imageUpdate
  | expiredImageCleanup
  deriving DecidableEq, Repr

/-- Where a task is in an operation. -/
inductive Work where
  | done
  | statement (pc : Pc)
  | publish (e : Event)
  deriving DecidableEq

/-- Where the worker of `ImageUpdate` is. -/
inductive Loop where
  /-- `while (!st.stop_requested())` -/
  | head
  | waiting
  | batch
  | exited
  deriving DecidableEq, Repr

structure State where
  store : Store
  mailbox : Box Message := {}
  stopRequested : Bool := false
  loop : Loop := .head
  update : Work := .done
  cleanup : Work := .done
  /-- *ghost* -/
  published : List (Task × Event) := []

namespace State

def work (s : State) : Task → Work
  | .imageUpdate => s.update
  | .expiredImageCleanup => s.cleanup

def setWork (s : State) (w : Work) : Task → State
  | .imageUpdate => { s with update := w }
  | .expiredImageCleanup => { s with cleanup := w }

end State

inductive Act where
  | tick (now : Int)
  -- the bus thread
  | enqueue (msg : Message)
  | notify
  | requestStop
  -- the worker
  | head
  | spurious
  | wait
  | take
  | finish
  | leave
  /-- `execute` of the cleanup -/
  | execute
  | statement (t : Task) (ok : Bool)
  | publish (t : Task)
  deriving DecidableEq

variable (dir : String) (decode : String → List UInt8)

/-- `_onPicture` and `_onClearImages` up to the first query. -/
def handler : Message → Option Pc
  | .picture msg => onPicture msg
  | .clearImages msg => onClearImages msg

/-- What comes behind a statement: `_onPicture` publishes when `saveImage` has returned a picture,
`_onClearImages` behind `removeImages`, and `execute` when an id was removed. -/
def after (pc : Pc) (ok : Bool) (pc' : Pc) : Work :=
  match pc, ok, pc' with
  | .saving image, true, _ => .publish (.imageNew image.id)
  | .clearing ids [] _, true, _ => .publish (.imageRemoved ids)
  | _, _, .removed (id :: ids) => .publish (.imageRemoved (id :: ids))
  | _, _, .idle => .done
  | _, _, pc' => .statement pc'

def step (s : State) : Act → Option State
  | .tick now => some { s with store := ⟨now, s.store.rows, s.store.files⟩ }
  | .enqueue msg => some { s with mailbox := s.mailbox.post msg }
  | .notify => s.mailbox.notify.map fun mailbox => { s with mailbox }
  | .requestStop => some { s with stopRequested := true, mailbox := s.mailbox.wake }
  | .head =>
    if s.loop = .head then some { s with loop := if s.stopRequested then .exited else .waiting }
    else none
  | .spurious => if s.mailbox.blocked then some { s with mailbox := s.mailbox.wake } else none
  | .wait =>
    if s.loop = .waiting ∧ s.mailbox.blocked = false then
      if s.stopRequested then some { s with loop := .exited }
      else if s.mailbox.queue = [] then some { s with mailbox := s.mailbox.block }
      else some { s with loop := .batch, mailbox := s.mailbox.swap }
    else none
  | .take =>
    if s.loop = .batch ∧ s.mailbox.hand = [] then
      match s.mailbox.batch, s.mailbox.next with
      | msg :: _, some mailbox =>
        some { s with mailbox, update := (handler msg).elim .done .statement }
      | _, _ => none
    else none
  | .finish =>
    if s.mailbox.hand ≠ [] ∧ s.update = .done then some { s with mailbox := s.mailbox.finish }
    else none
  | .leave =>
    if s.loop = .batch ∧ s.mailbox.hand = [] ∧ s.mailbox.batch = [] then some { s with loop := .head }
    else none
  | .execute => if s.cleanup = .done then some { s with cleanup := .statement .expire } else none
  | .statement t ok =>
    match s.work t with
    | .statement pc => (next dir decode s.store pc ok).map fun (store, pc') =>
        { s with store }.setWork (after pc ok pc') t
    | _ => none
  | .publish t =>
    match s.work t with
    | .publish e => some ({ s with published := s.published ++ [(t, e)] }.setWork .done t)
    | _ => none

/-! ## The store and its two threads -/

/-- The operation as the store sees it: a clear has returned when its announcement comes, a pass of
the cleanup still holds the ids that it announces. -/
def Work.pc : Task → Work → Pc
  | _, .statement pc => pc
  | .expiredImageCleanup, .publish (.imageRemoved ids) => .removed ids
  | _, _ => .idle

def State.stored (s : State) : Expiry.State :=
  ⟨s.store, s.update.pc .imageUpdate, s.cleanup.pc .expiredImageCleanup⟩

/-- Any pictures, with their files, and nothing received yet. -/
def Init (s : State) : Prop :=
  Expiry.Init dir s.stored ∧ s.mailbox = {} ∧ s.loop = .head ∧ s.update = .done ∧ s.cleanup = .done ∧
    s.published = []

def machine : Machine State Act := ⟨Init dir, step dir decode⟩

/-! ## What a statement leads to -/

/-- What the task is about to publish. -/
def Work.event : Work → Option Event
  | .publish e => some e
  | _ => none

/-- What a message may announce: the picture that it carries, or the ids that it clears. -/
inductive Outcome : Message → Option Event → Prop where
  | nothing {msg : Message} : Outcome msg none
  | stored {msg : Json} {id : Int} {sender data : String} {expiresAt : Int}
    (hmsg : onPicture msg = some (.check id sender data expiresAt)) (hdata : decode data ≠ []) :
    Outcome (.picture msg) (some (.imageNew id))
  | cleared {msg : Json} {ids : List Int} (hmsg : onClearImages msg = some (.clear ids)) :
    Outcome (.clearImages msg) (some (.imageRemoved ids))

/-- The operation in which the worker handles this message. -/
inductive Serves : Message → Pc → Prop where
  | check {msg : Json} {id : Int} {sender data : String} {expiresAt : Int}
    (hmsg : onPicture msg = some (.check id sender data expiresAt)) :
    Serves (.picture msg) (.check id sender data expiresAt)
  | save {msg : Json} {id : Int} {sender data : String} {expiresAt : Int}
    (hmsg : onPicture msg = some (.check id sender data expiresAt)) :
    Serves (.picture msg) (.save id sender data expiresAt)
  | writing {msg : Json} {image : Image} {sender data : String} {expiresAt : Int}
    (hmsg : onPicture msg = some (.check image.id sender data expiresAt)) (hdata : decode data ≠ []) :
    Serves (.picture msg) (.writing image (decode data))
  | saving {msg : Json} {image : Image} {sender data : String} {expiresAt : Int}
    (hmsg : onPicture msg = some (.check image.id sender data expiresAt)) (hdata : decode data ≠ []) :
    Serves (.picture msg) (.saving image)
  | clear {msg : Json} {ids : List Int} (hmsg : onClearImages msg = some (.clear ids)) :
    Serves (.clearImages msg) (.clear ids)
  | clearing {msg : Json} {ids : List Int} {todo : List Image} {gone : List String}
    (hmsg : onClearImages msg = some (.clear ids)) : Serves (.clearImages msg) (.clearing ids todo gone)

/-- The message allows what the worker does. -/
def Allows (msg : Message) : Work → Prop
  | .done => True
  | .statement pc => Serves decode msg pc
  | .publish e => Outcome decode msg (some e)

variable {dir decode} {s s' : State} {a : Act} {st st' : Store} {pc pc' : Pc} {ok : Bool}
  {msg : Message} {t : Task} {w : Work}

theorem allows_handler (decode : String → List UInt8) (msg : Message) :
    Allows decode msg ((handler msg).elim .done .statement) := by
  cases hpc : handler msg with
  | none => trivial
  | some pc =>
    cases msg with
    | picture msg =>
      obtain ⟨id, sender, data, expiresAt, rfl⟩ := Expiry.onPicture_eq hpc
      exact .check hpc
    | clearImages msg =>
      obtain ⟨ids, rfl⟩ := Expiry.onClearImages_eq hpc
      exact .clear hpc

theorem Serves.next (h : Serves decode msg pc) (hnext : next dir decode st pc ok = some (st', pc')) :
    Allows decode msg (after pc ok pc') := by
  cases h with
  | check hmsg =>
    simp only [ImageManager.next] at hnext
    split at hnext <;> cases hnext
    · exact .save hmsg
    · trivial
  | save hmsg =>
    simp only [ImageManager.next] at hnext
    split at hnext <;> cases hnext
    · trivial
    next hdata => exact .writing hmsg hdata
  | writing hmsg hdata =>
    cases ok <;> cases hnext
    · trivial
    · exact .saving hmsg hdata
  | saving hmsg hdata =>
    cases ok <;> cases hnext
    · trivial
    · exact .stored hmsg hdata
  | clear hmsg =>
    cases ok <;> cases hnext
    · trivial
    · exact .clearing hmsg
  | @clearing _ ids todo gone hmsg =>
    cases todo with
    | nil =>
      cases ok <;> cases hnext
      · trivial
      · exact .cleared hmsg
    | cons image todo =>
      cases hnext
      exact .clearing hmsg

/-- The rows behind a statement, and the announcement that belongs to the difference. -/
theorem rows_of_next (h : next dir decode st pc ok = some (st', pc'))
    (hpc : Expiry.Updates pc ∨ Expiry.Expires pc) :
    st'.rows = st.rows ∧ (after pc ok pc').event = none ∨
    (∃ image, pc = .saving image ∧ st'.rows = (st.save image).rows ∧
      after pc ok pc' = .publish (.imageNew image.id)) ∨
    ∃ ids, st'.rows = (st.removeByIds ids).rows ∧ after pc ok pc' = .publish (.imageRemoved ids) := by
  cases pc with
  | idle | ready => cases h
  | expire | removed => cases h; exact .inl ⟨rfl, rfl⟩
  | check | save =>
    simp only [next] at h
    split at h <;> cases h <;> exact .inl ⟨rfl, rfl⟩
  | writing => cases ok <;> cases h <;> exact .inl ⟨rfl, rfl⟩
  | saving image =>
    cases ok <;> cases h
    · exact .inl ⟨rfl, rfl⟩
    · exact .inr (.inl ⟨image, rfl, rfl, rfl⟩)
  | clear | expireAll => cases ok <;> cases h <;> exact .inl ⟨rfl, rfl⟩
  | clearing ids todo gone =>
    cases todo with
    | nil =>
      cases ok <;> cases h
      · exact .inl ⟨rfl, rfl⟩
      · exact .inr (.inr ⟨ids, rfl, rfl⟩)
    | cons image todo =>
      cases h
      exact .inl ⟨Store.rows_removeIf, rfl⟩
  | expiring now todo expired gone =>
    cases todo with
    | nil =>
      simp only [next] at h
      split at h
      next hnil =>
        cases h
        subst hnil
        exact .inl ⟨rfl, rfl⟩
      next hne =>
        cases ok <;> cases h
        · exact .inl ⟨rfl, rfl⟩
        · obtain ⟨id, ids, rfl⟩ := List.exists_cons_of_ne_nil hne
          exact .inr (.inr ⟨id :: ids, rfl, rfl⟩)
    | cons image todo =>
      simp only [next] at h
      split at h <;> cases h
      · exact .inl ⟨Store.rows_removeIf, rfl⟩
      · exact .inl ⟨rfl, rfl⟩
  | starting | orphans => exact hpc.elim (fun h => by cases h) fun h => by cases h

/-! ## The two threads of the store -/

theorem after_update (h : next dir decode st pc ok = some (st', pc')) (hpc : Expiry.Updates pc) :
    (after pc ok pc').pc .imageUpdate = pc' := by
  have hpc' := (Expiry.thread_next h).1 hpc
  unfold after
  split
  next => cases h; rfl
  next => cases h; rfl
  next => cases hpc'
  next => rfl
  next => rfl

theorem after_cleanup (h : next dir decode st pc ok = some (st', pc')) (hpc : Expiry.Expires pc) :
    (after pc ok pc').pc .expiredImageCleanup = pc' := by
  unfold after
  split
  next => cases hpc
  next => cases hpc
  next => rfl
  next => rfl
  next => rfl

@[simp] theorem work_setWork_self (s : State) (w : Work) (t : Task) : (s.setWork w t).work t = w := by
  cases t <;> rfl

variable (decode) in
/-- Where the worker is, and what it has in hand. -/
structure Placed (s : State) : Prop where
  box : s.mailbox.Ok
  free : s.loop ≠ .batch → s.mailbox.Free
  blocked : s.mailbox.blocked = true → s.loop = .waiting
  one : s.mailbox.hand = [] ∧ s.update = .done ∨ ∃ msg, s.mailbox.hand = [msg] ∧ Allows decode msg s.update
  cleanup : ∀ id, s.cleanup ≠ .publish (.imageNew id)

theorem Placed.update_of_hand (h : Placed decode s) (hhand : s.mailbox.hand = []) :
    s.update = .done := by
  obtain ⟨-, hdone⟩ | ⟨msg, hmsg, -⟩ := h.one
  · exact hdone
  · rw [hhand] at hmsg
    cases hmsg

/-- The worker takes the next message of its batch. -/
theorem exists_of_take (hs : step dir decode s .take = some s') :
    ∃ msg batch, s.loop = .batch ∧ s.mailbox.hand = [] ∧ s.mailbox.batch = msg :: batch ∧
      s' = { s with
        mailbox := { s.mailbox with batch, hand := [msg] }
        update := (handler msg).elim .done .statement } := by
  obtain ⟨⟨hloop, hhand⟩, hs⟩ := Option.ite_none_right_eq_some.mp hs
  cases hbatch : s.mailbox.batch with
  | nil =>
    rw [hbatch] at hs
    cases hs
  | cons msg batch =>
    simp only [hbatch, Box.next] at hs
    exact ⟨msg, batch, hloop, hhand, rfl, (Option.some.inj hs).symm⟩

theorem exists_of_statement (hs : step dir decode s (.statement t ok) = some s') :
    ∃ pc st pc', s.work t = .statement pc ∧ next dir decode s.store pc ok = some (st, pc') ∧
      s' = State.setWork { s with store := st } (after pc ok pc') t := by
  simp only [step] at hs
  split at hs
  next pc hpc =>
    obtain ⟨⟨st, pc'⟩, hnext, rfl⟩ := Option.map_eq_some_iff.mp hs
    exact ⟨pc, st, pc', hpc, hnext, rfl⟩
  next => cases hs

theorem exists_of_publish (hs : step dir decode s (.publish t) = some s') :
    ∃ e, s.work t = .publish e ∧
      s' = State.setWork { s with published := s.published ++ [(t, e)] } .done t := by
  simp only [step] at hs
  split at hs
  next e he => exact ⟨e, he, (Option.some.inj hs).symm⟩
  next => cases hs

/-- A step of the tasks is a step of the two threads of the store, or none. -/
theorem simulates (h : Placed decode s) (hpc : Expiry.Updates s.stored.update)
    (hexp : Expiry.Expires s.stored.expiry) (hs : step dir decode s a = some s') :
    s'.stored = s.stored ∨ ∃ b, Expiry.step dir decode s.stored b = some s'.stored := by
  cases a with
  | tick now =>
    cases hs
    exact .inr ⟨.tick now, rfl⟩
  | enqueue | requestStop =>
    cases hs
    exact .inl rfl
  | notify =>
    obtain ⟨mailbox, -, rfl⟩ := Option.map_eq_some_iff.mp hs
    exact .inl rfl
  | head | spurious | finish | leave =>
    obtain ⟨-, hs⟩ := Option.ite_none_right_eq_some.mp hs
    cases hs
    exact .inl rfl
  | wait =>
    obtain ⟨-, hs⟩ := Option.ite_none_right_eq_some.mp hs
    split at hs
    · cases hs
      exact .inl rfl
    · split at hs <;> cases hs <;> exact .inl rfl
  | take =>
    obtain ⟨msg, batch, -, hhand, -, rfl⟩ := exists_of_take hs
    have hidle : s.stored.update = .idle := by
      rw [State.stored, h.update_of_hand hhand]
      rfl
    cases msg with
    | picture msg =>
      refine .inr ⟨.picture msg, ?_⟩
      rw [Expiry.step, Expiry.receive, if_pos hidle, State.stored, State.stored, handler]
      cases onPicture msg <;> rfl
    | clearImages msg =>
      refine .inr ⟨.clearImages msg, ?_⟩
      rw [Expiry.step, Expiry.receive, if_pos hidle, State.stored, State.stored, handler]
      cases onClearImages msg <;> rfl
  | execute =>
    obtain ⟨hdone, hs⟩ := Option.ite_none_right_eq_some.mp hs
    cases hs
    refine .inr ⟨.expire, ?_⟩
    rw [Expiry.step, State.stored, State.stored, hdone]
    rfl
  | statement t ok =>
    obtain ⟨pc, st, pc', hwork, hnext, rfl⟩ := exists_of_statement hs
    cases t with
    | imageUpdate =>
      have hupdate : s.update = .statement pc := hwork
      refine .inr ⟨.update ok, ?_⟩
      rw [State.stored, hupdate] at hpc ⊢
      rw [Expiry.step, Work.pc, hnext, Option.map_some, State.stored, State.setWork,
        after_update hnext hpc]
    | expiredImageCleanup =>
      have hcleanup : s.cleanup = .statement pc := hwork
      refine .inr ⟨.expiry ok, ?_⟩
      rw [State.stored, hcleanup] at hexp ⊢
      rw [Expiry.step, Work.pc, hnext, Option.map_some, State.stored, State.setWork,
        after_cleanup hnext hexp]
  | publish t =>
    obtain ⟨e, hwork, rfl⟩ := exists_of_publish hs
    cases t with
    | imageUpdate =>
      have hupdate : s.update = .publish e := hwork
      refine .inl ?_
      rw [State.stored, State.stored, hupdate]
      cases e <;> rfl
    | expiredImageCleanup =>
      have hcleanup : s.cleanup = .publish e := hwork
      cases e with
      | imageNew id => exact absurd hcleanup (h.cleanup id)
      | imageRemoved ids =>
        refine .inr ⟨.expiry true, ?_⟩
        rw [State.stored, State.stored, hcleanup]
        rfl

theorem after_ne_imageNew (h : next dir decode st pc ok = some (st', pc')) (hpc : Expiry.Expires pc)
    (id : Int) : after pc ok pc' ≠ .publish (.imageNew id) := by
  unfold after
  split
  next => cases hpc
  next => exact nofun
  next => exact nofun
  next => exact nofun
  next => exact nofun

theorem Placed.step (h : Placed decode s) (hexp : Expiry.Expires s.stored.expiry)
    (hs : step dir decode s a = some s') : Placed decode s' := by
  cases a with
  | tick now =>
    cases hs
    exact { h with }
  | enqueue msg =>
    cases hs
    exact { h with box := h.box.post msg }
  | requestStop =>
    cases hs
    exact { h with box := h.box.wake, blocked := fun hb => absurd hb Bool.false_ne_true }
  | notify =>
    obtain ⟨mailbox, hnotify, rfl⟩ := Option.map_eq_some_iff.mp hs
    have hbox := h.box.notify hnotify
    unfold Box.notify at hnotify
    split at hnotify <;> cases hnotify
    exact { h with box := hbox, blocked := fun hb => absurd hb Bool.false_ne_true }
  | head =>
    obtain ⟨hhead, hs⟩ := Option.ite_none_right_eq_some.mp hs
    cases hs
    have hfree : s.mailbox.Free := h.free (by rw [hhead]; exact nofun)
    refine { h with free := fun _ => hfree, blocked := fun hb => ?_ }
    have hwaiting := h.blocked hb
    rw [hhead] at hwaiting
    cases hwaiting
  | spurious =>
    obtain ⟨-, hs⟩ := Option.ite_none_right_eq_some.mp hs
    cases hs
    exact { h with box := h.box.wake, blocked := fun hb => absurd hb Bool.false_ne_true }
  | wait =>
    obtain ⟨⟨hwaiting, hawake⟩, hs⟩ := Option.ite_none_right_eq_some.mp hs
    have hfree : s.mailbox.Free := h.free (by rw [hwaiting]; exact nofun)
    split at hs
    · cases hs
      exact { h with
        free := fun _ => hfree, blocked := fun hb => absurd (hawake.symm.trans hb) Bool.false_ne_true }
    · split at hs
      next hqueue =>
        cases hs
        exact { h with
          box := h.box.block hfree hqueue, free := fun _ => hfree, blocked := fun _ => hwaiting }
      next =>
        cases hs
        exact { h with
          box := h.box.swap hfree hawake
          free := fun hne => absurd rfl hne
          blocked := fun hb => absurd (hawake.symm.trans hb) Bool.false_ne_true }
  | take =>
    obtain ⟨msg, batch, hloop, hhand, hbatch, rfl⟩ := exists_of_take hs
    have hnext : s.mailbox.next = some { s.mailbox with batch, hand := [msg] } := by
      rw [Box.next, hbatch]
    refine { h with
      box := h.box.next hhand hnext
      free := fun hne => absurd hloop hne
      one := .inr ⟨msg, rfl, allows_handler decode msg⟩ }
  | finish =>
    obtain ⟨⟨-, hdone⟩, hs⟩ := Option.ite_none_right_eq_some.mp hs
    cases hs
    exact { h with
      box := h.box.finish
      free := fun hne => ⟨rfl, (h.free hne).2⟩
      one := .inl ⟨rfl, hdone⟩ }
  | leave =>
    obtain ⟨⟨hloop, hhand, hbatch⟩, hs⟩ := Option.ite_none_right_eq_some.mp hs
    cases hs
    refine { h with free := fun _ => ⟨hhand, hbatch⟩, blocked := fun hb => ?_ }
    have hwaiting := h.blocked hb
    rw [hloop] at hwaiting
    cases hwaiting
  | execute =>
    obtain ⟨-, hs⟩ := Option.ite_none_right_eq_some.mp hs
    cases hs
    exact { h with cleanup := fun _ => nofun }
  | statement t ok =>
    obtain ⟨pc, st, pc', hwork, hnext, rfl⟩ := exists_of_statement hs
    cases t with
    | imageUpdate =>
      have hupdate : s.update = .statement pc := hwork
      refine { h with one := ?_ }
      obtain ⟨-, hdone⟩ | ⟨msg, hhand, hallows⟩ := h.one
      · rw [hdone] at hupdate
        cases hupdate
      · rw [hupdate] at hallows
        exact .inr ⟨msg, hhand, Serves.next hallows hnext⟩
    | expiredImageCleanup =>
      have hcleanup : s.cleanup = .statement pc := hwork
      rw [State.stored, hcleanup] at hexp
      exact { h with cleanup := after_ne_imageNew hnext hexp }
  | publish t =>
    obtain ⟨e, hwork, rfl⟩ := exists_of_publish hs
    cases t with
    | imageUpdate =>
      have hupdate : s.update = .publish e := hwork
      refine { h with one := ?_ }
      obtain ⟨-, hdone⟩ | ⟨msg, hhand, -⟩ := h.one
      · rw [hdone] at hupdate
        cases hupdate
      · exact .inr ⟨msg, hhand, trivial⟩
    | expiredImageCleanup => exact { h with cleanup := fun _ => nofun }

theorem inv_inductive : (machine dir decode).Inductive (fun _ _ => True) fun s =>
    Placed decode s ∧ Expiry.Inv dir s.stored where
  init s h := by
    obtain ⟨hstored, hbox, hloop, hupdate, hcleanup, -⟩ := h
    refine ⟨⟨hbox ▸ Box.ok_empty, fun _ => hbox ▸ ⟨rfl, rfl⟩, fun hb => ?_, .inl ⟨hbox ▸ rfl, hupdate⟩,
      hcleanup ▸ fun _ => nofun⟩, (Expiry.inv_inductive : (Expiry.machine dir decode).Inductive _ _).init _ hstored⟩
    rw [hbox] at hb
    cases hb
  step s a s' h _ hs := by
    obtain ⟨hplaced, hinv⟩ := h
    refine ⟨hplaced.step hinv.expires hs, ?_⟩
    rcases simulates hplaced hinv.updates hinv.expires hs with heq | ⟨b, hb⟩
    · rwa [heq]
    · exact Expiry.inv_inductive.step _ b _ hinv trivial hb

/-! ## One message behind the other -/

def State.publishedBy (s : State) (t : Task) : List Event :=
  (s.published.filter (·.1 = t)).map (·.2)

variable (decode) in
/-- What the handled messages have announced, and the one in hand, which announces at the end of
its operation. -/
def Answered (s : State) : Prop :=
  ∃ outcomes current, List.Forall₂ (Outcome decode) s.mailbox.handled outcomes ∧
    (∀ msg ∈ s.mailbox.hand, Outcome decode msg current) ∧
    (s.mailbox.hand = [] ∨ s.update ≠ .done → current = none) ∧
    s.publishedBy .imageUpdate = outcomes.reduceOption ++ current.toList

theorem Answered.of_eq (h : Answered decode s)
    (hhandled : s'.mailbox.handled = s.mailbox.handled) (hhand : s'.mailbox.hand = s.mailbox.hand)
    (hupdate : s'.update ≠ .done → s.update ≠ .done)
    (hpublished : s'.publishedBy .imageUpdate = s.publishedBy .imageUpdate) :
    Answered decode s' := by
  obtain ⟨outcomes, current, houtcomes, hcurrent, hnone, heq⟩ := h
  refine ⟨outcomes, current, hhandled ▸ houtcomes, hhand ▸ hcurrent, fun hor => ?_, hpublished ▸ heq⟩
  exact hnone (hor.imp (fun hnil => hhand ▸ hnil) hupdate)

theorem Answered.step (hplaced : Placed decode s) (h : Answered decode s)
    (hs : step dir decode s a = some s') : Answered decode s' := by
  cases a with
  | tick | enqueue | requestStop =>
    cases hs
    exact h.of_eq rfl rfl id rfl
  | notify =>
    obtain ⟨mailbox, hnotify, rfl⟩ := Option.map_eq_some_iff.mp hs
    unfold Box.notify at hnotify
    split at hnotify <;> cases hnotify
    exact h.of_eq rfl rfl id rfl
  | head | spurious | leave | execute =>
    obtain ⟨-, hs⟩ := Option.ite_none_right_eq_some.mp hs
    cases hs
    exact h.of_eq rfl rfl id rfl
  | wait =>
    obtain ⟨-, hs⟩ := Option.ite_none_right_eq_some.mp hs
    split at hs
    · cases hs
      exact h.of_eq rfl rfl id rfl
    · split at hs <;> cases hs <;> exact h.of_eq rfl rfl id rfl
  | take =>
    obtain ⟨msg, batch, -, hhand, -, rfl⟩ := exists_of_take hs
    obtain ⟨outcomes, current, houtcomes, -, hnone, heq⟩ := h
    obtain rfl := hnone (.inl hhand)
    refine ⟨outcomes, none, houtcomes, fun msg' _ => .nothing, fun _ => rfl, heq⟩
  | finish =>
    obtain ⟨⟨hne, hdone⟩, hs⟩ := Option.ite_none_right_eq_some.mp hs
    cases hs
    obtain ⟨outcomes, current, houtcomes, hcurrent, -, heq⟩ := h
    obtain ⟨hnil, -⟩ | ⟨msg, hhand, -⟩ := hplaced.one
    · exact absurd hnil hne
    · refine ⟨outcomes ++ [current], none, ?_, List.forall_mem_nil _, fun _ => rfl, ?_⟩
      · rw [Box.finish, hhand]
        exact List.rel_append houtcomes (.cons (hcurrent msg (hhand ▸ List.mem_cons_self)) .nil)
      · refine heq.trans ?_
        rw [List.reduceOption_append]
        cases current <;> simp [List.reduceOption]
  | statement t ok =>
    obtain ⟨pc, st, pc', hwork, -, rfl⟩ := exists_of_statement hs
    cases t with
    | imageUpdate =>
      have hupdate : s.update = .statement pc := hwork
      exact h.of_eq rfl rfl (fun _ => hupdate ▸ fun hidle => by cases hidle) rfl
    | expiredImageCleanup => exact h.of_eq rfl rfl id rfl
  | publish t =>
    obtain ⟨e, hwork, rfl⟩ := exists_of_publish hs
    cases t with
    | expiredImageCleanup =>
      refine h.of_eq rfl rfl id ?_
      simp [State.publishedBy, State.setWork]
    | imageUpdate =>
      have hupdate : s.update = .publish e := hwork
      obtain ⟨outcomes, current, houtcomes, -, hnone, heq⟩ := h
      obtain rfl := hnone (.inr (hupdate ▸ fun hidle => by cases hidle))
      obtain ⟨-, hdone⟩ | ⟨msg, hhand, hallows⟩ := hplaced.one
      · rw [hdone] at hupdate
        cases hupdate
      · rw [hupdate] at hallows
        refine ⟨outcomes, some e, houtcomes, fun msg' hmsg' => ?_, fun hor => ?_, ?_⟩
        · obtain rfl := List.mem_singleton.mp (hhand ▸ hmsg')
          exact hallows
        · exact hor.elim (fun hnil => absurd (hhand.symm.trans hnil) (List.cons_ne_nil _ _))
            fun hne => absurd rfl hne
        · simp only [State.publishedBy, State.setWork, List.filter_append, List.map_append] at heq ⊢
          rw [heq]
          simp

theorem answered_inductive : (machine dir decode).Inductive (fun _ _ => True) fun s =>
    (Placed decode s ∧ Expiry.Inv dir s.stored) ∧ Answered decode s :=
  inv_inductive.strengthen
    (fun s h => by
      obtain ⟨-, hbox, -, -, -, hpublished⟩ := h
      refine ⟨[], none, hbox ▸ .nil, hbox ▸ List.forall_mem_nil _, fun _ => rfl, ?_⟩
      rw [State.publishedBy, hpublished]
      rfl)
    fun s a s' h _ hanswered _ hs => hanswered.step h.1 hs

/-- Messages are handled once and in order of their arrival. Each announces its picture or its ids or
nothing, in this order; and when the worker is blocked with no notification under way, all of them
have been handled. -/
theorem handled_in_order (hr : (machine dir decode).Reachable s) :
    s.mailbox.handled ++ s.mailbox.hand <+: s.mailbox.posted ∧
      (∃ outcomes, List.Forall₂ (Outcome decode) (s.mailbox.handled ++ s.mailbox.hand) outcomes ∧
        s.publishedBy .imageUpdate = outcomes.reduceOption) ∧
      (s.mailbox.blocked = true → s.mailbox.owed = 0 → s.mailbox.handled = s.mailbox.posted) := by
  obtain ⟨⟨hplaced, -⟩, outcomes, current, houtcomes, hcurrent, hnone, heq⟩ :=
    answered_inductive.of_reachable hr
  refine ⟨?_, ?_, hplaced.box.handled_of_blocked⟩
  · rw [hplaced.box.fifo, ← List.append_assoc]
    exact List.prefix_append _ _
  · obtain ⟨hnil, -⟩ | ⟨msg, hhand, -⟩ := hplaced.one
    · obtain rfl := hnone (.inl hnil)
      refine ⟨outcomes, ?_, by simpa using heq⟩
      rwa [hnil, List.append_nil]
    · refine ⟨outcomes ++ [current], ?_, ?_⟩
      · rw [hhand] at hcurrent ⊢
        exact List.rel_append houtcomes (.cons (hcurrent msg List.mem_cons_self) .nil)
      · rw [heq, List.reduceOption_append]
        cases current <;> rfl

/-- A picture, and the run in which it is stored and announced. -/
def photo : Json :=
  .obj [("sent_image_id", .int 5), ("sender", .str "Ann"), ("data", .str "/9j/"),
    ("expiry_unix_timestamp", .int 100)]

def storing : List Act :=
  [.enqueue (.picture photo), .head, .wait, .take, .statement .imageUpdate true,
    .statement .imageUpdate true, .statement .imageUpdate true, .statement .imageUpdate true,
    .publish .imageUpdate, .finish, .leave, .notify, .head, .wait]

theorem init_empty (dir : String) : Init dir { store := {} } :=
  ⟨⟨List.forall_mem_nil _, .nil, rfl, rfl⟩, rfl, rfl, rfl, rfl, rfl⟩

theorem handled_in_order_storing :
    ∃ s, (machine "images" fun _ => [0xff]).run { store := {} } storing = some s ∧
      s.mailbox.blocked = true ∧ s.publishedBy .imageUpdate = [.imageNew 5] ∧
      s.mailbox.handled ++ s.mailbox.hand <+: s.mailbox.posted := by
  have hrun : (machine "images" fun _ => [0xff]).run { store := {} } storing = some _ := rfl
  exact ⟨_, hrun, rfl, rfl, (handled_in_order (Machine.reachable_run _ (init_empty _) hrun)).1⟩

/-! ## Announcements -/

def State.ids (s : State) : List Int := s.store.rows.map (·.id)

def Event.removes (id : Int) : Event → Bool
  | .imageRemoved ids => decide (id ∈ ids)
  | .imageNew _ => false

/-- What has been published, and what the tasks are about to publish. -/
def State.announced (s : State) : List Event :=
  s.published.map (·.2) ++ (s.update.event.toList ++ s.cleanup.event.toList)

/-- The announcements since `start` account for the table. -/
structure Accounts (start : List Int) (s : State) : Prop where
  /-- what is stored was there or has been announced -/
  stored : ∀ id ∈ s.ids, id ∈ start ∨ .imageNew id ∈ s.announced
  /-- what was there or has been announced is stored, except for the announced removals of it -/
  kept : ∀ id, s.announced.count (.imageNew id) + (if id ∈ start then 1 else 0) ≤
    s.announced.countP (·.removes id) + (if id ∈ s.ids then 1 else 0)

variable {start : List Int} {e : Event}

theorem Accounts.of_perm (h : Accounts start s) (hids : s'.ids = s.ids)
    (hperm : s'.announced.Perm s.announced) : Accounts start s' where
  stored id hid := (h.stored id (hids ▸ hid)).imp_right hperm.mem_iff.mpr
  kept id := by
    rw [hperm.count_eq, hperm.countP_eq, hids]
    exact h.kept id

/-- A row was inserted, and its picture is about to be announced. -/
theorem Accounts.insert {image : Image} (h : Accounts start s) (hfresh : image.id ∉ s.ids)
    (hids : ∀ id, id ∈ s'.ids ↔ id = image.id ∨ id ∈ s.ids)
    (hperm : s'.announced.Perm (.imageNew image.id :: s.announced)) : Accounts start s' where
  stored id hid := by
    rw [hperm.mem_iff, List.mem_cons]
    obtain rfl | hid := (hids id).mp hid
    · exact .inr (.inl rfl)
    · exact (h.stored id hid).imp_right .inr
  kept id := by
    have hkept := h.kept id
    rw [hperm.count_eq, hperm.countP_eq, List.count_cons,
      List.countP_cons_of_neg Bool.false_ne_true]
    by_cases hid : id = image.id
    · subst hid
      rw [if_neg hfresh] at hkept
      rw [if_pos ((hids _).mpr (.inl rfl)), beq_self_eq_true, if_pos rfl]
      omega
    · have hsame : id ∈ s'.ids ↔ id ∈ s.ids := (hids id).trans (or_iff_right hid)
      have hne : (Event.imageNew image.id == Event.imageNew id) = false := by
        simpa using Ne.symm hid
      rw [hne, if_neg Bool.false_ne_true, if_congr hsame rfl rfl]
      omega

/-- Rows were deleted, and their ids are about to be announced. -/
theorem Accounts.delete {ids : List Int} (h : Accounts start s)
    (hids : ∀ id, id ∈ s'.ids ↔ id ∈ s.ids ∧ id ∉ ids)
    (hperm : s'.announced.Perm (.imageRemoved ids :: s.announced)) : Accounts start s' where
  stored id hid := by
    rw [hperm.mem_iff, List.mem_cons]
    exact (h.stored id ((hids id).mp hid).1).imp_right .inr
  kept id := by
    have hkept := h.kept id
    have hnew : Event.imageRemoved ids ≠ .imageNew id := by simp
    rw [hperm.count_eq, hperm.countP_eq, List.count_cons_of_ne hnew, List.countP_cons]
    by_cases hid : id ∈ ids
    · have hnot : id ∉ s'.ids := fun hmem => ((hids id).mp hmem).2 hid
      have hremoves : Event.removes id (.imageRemoved ids) = true := decide_eq_true hid
      have hone : (if id ∈ s.ids then 1 else 0) ≤ 1 := by split <;> omega
      rw [if_neg hnot, if_pos hremoves]
      omega
    · have hsame : id ∈ s'.ids ↔ id ∈ s.ids := (hids id).trans (and_iff_left hid)
      have hremoves : Event.removes id (.imageRemoved ids) ≠ true := by
        simpa [Event.removes] using hid
      rw [if_congr hsame rfl rfl, if_neg hremoves]
      omega

theorem mem_ids_save {st : Store} {image : Image} {id : Int} :
    id ∈ (st.save image).rows.map (·.id) ↔ id = image.id ∨ id ∈ st.rows.map (·.id) := by
  simp only [List.mem_map, Store.mem_save]
  constructor
  · rintro ⟨row, rfl | ⟨hrow, -⟩, rfl⟩
    · exact .inl rfl
    · exact .inr ⟨row, hrow, rfl⟩
  · rintro (rfl | ⟨row, hrow, rfl⟩)
    · exact ⟨image, .inl rfl, rfl⟩
    · by_cases hid : row.id = image.id
      · exact ⟨image, .inl rfl, hid.symm⟩
      · exact ⟨row, .inr ⟨hrow, hid⟩, rfl⟩

theorem mem_ids_removeByIds {st : Store} {ids : List Int} {id : Int} :
    id ∈ (st.removeByIds ids).rows.map (·.id) ↔ id ∈ st.rows.map (·.id) ∧ id ∉ ids := by
  simp only [List.mem_map, Store.mem_removeByIds]
  constructor
  · rintro ⟨row, ⟨hrow, hid⟩, rfl⟩
    exact ⟨⟨row, hrow, rfl⟩, hid⟩
  · rintro ⟨⟨row, hrow, rfl⟩, hid⟩
    exact ⟨row, ⟨hrow, hid⟩, rfl⟩

/-- The announcements of a task that had none under way. -/
theorem announced_setWork (h : (s.work t).event = none) :
    (State.setWork { s with store := st } w t).announced.Perm (w.event.toList ++ s.announced) := by
  cases t with
  | imageUpdate =>
    replace h : s.update.event = none := h
    simp only [State.announced, State.setWork, h, Option.toList_none, List.nil_append]
    exact List.perm_append_comm_assoc _ _ _
  | expiredImageCleanup =>
    replace h : s.cleanup.event = none := h
    simp only [State.announced, State.setWork, h, Option.toList_none, List.append_nil]
    rw [← List.append_assoc]
    exact List.perm_append_comm

theorem Accounts.statement (h : Accounts start s) (hinv : Expiry.Inv dir s.stored)
    (hs : ImageUpdate.step dir decode s (.statement t ok) = some s') : Accounts start s' := by
  obtain ⟨pc, st, pc', hwork, hnext, rfl⟩ := exists_of_statement hs
  have hperm : (State.setWork { s with store := st } (after pc ok pc') t).announced.Perm _ :=
    announced_setWork (hwork ▸ rfl)
  have hids : (State.setWork { s with store := st } (after pc ok pc') t).ids = st.rows.map (·.id) := by
    cases t <;> rfl
  have hpc : Expiry.Updates pc ∨ Expiry.Expires pc := by
    cases t with
    | imageUpdate =>
      have hupdates := hinv.updates
      rw [State.stored, show s.update = .statement pc from hwork] at hupdates
      exact .inl hupdates
    | expiredImageCleanup =>
      have hexpires := hinv.expires
      rw [State.stored, show s.cleanup = .statement pc from hwork] at hexpires
      exact .inr hexpires
  rcases rows_of_next hnext hpc with ⟨hrows, hevent⟩ | ⟨image, rfl, hrows, hafter⟩ | ⟨ids, hrows, hafter⟩
  · refine h.of_perm (hids.trans (by rw [hrows]; rfl)) ?_
    rwa [hevent] at hperm
  · have hfresh : image.id ∉ s.ids := by
      intro hmem
      obtain ⟨row, hrow, hid⟩ := List.mem_map.mp hmem
      cases t with
      | imageUpdate =>
        have hsaves : Expiry.Saves s.stored.update image.id := by
          rw [State.stored, show s.update = .statement (.saving image) from hwork]
          rfl
        exact hinv.fresh image.id hsaves row hrow hid
      | expiredImageCleanup =>
        have hexpires := hinv.expires
        rw [State.stored, show s.cleanup = .statement (.saving image) from hwork] at hexpires
        cases hexpires
    rw [hafter] at hperm hids ⊢
    refine h.insert hfresh (fun id => ?_) hperm
    rw [hids, hrows]
    exact mem_ids_save
  · rw [hafter] at hperm hids ⊢
    refine h.delete (fun id => ?_) hperm
    rw [hids, hrows]
    exact mem_ids_removeByIds

theorem handler_event (msg : Message) :
    Work.event ((handler msg).elim .done .statement) = none := by
  cases handler msg <;> rfl

theorem Accounts.step (h : Accounts start s) (hplaced : Placed decode s)
    (hinv : Expiry.Inv dir s.stored) (hs : ImageUpdate.step dir decode s a = some s') :
    Accounts start s' := by
  cases a with
  | statement t ok => exact h.statement hinv hs
  | tick | enqueue | requestStop =>
    cases hs
    exact h.of_perm rfl (.refl _)
  | notify =>
    obtain ⟨mailbox, -, rfl⟩ := Option.map_eq_some_iff.mp hs
    exact h.of_perm rfl (.refl _)
  | head | spurious | finish | leave =>
    obtain ⟨-, hs⟩ := Option.ite_none_right_eq_some.mp hs
    cases hs
    exact h.of_perm rfl (.refl _)
  | wait =>
    obtain ⟨-, hs⟩ := Option.ite_none_right_eq_some.mp hs
    split at hs
    · cases hs
      exact h.of_perm rfl (.refl _)
    · split at hs <;> cases hs <;> exact h.of_perm rfl (.refl _)
  | take =>
    obtain ⟨msg, batch, -, hhand, -, rfl⟩ := exists_of_take hs
    refine h.of_perm rfl (.of_eq ?_)
    simp only [State.announced, handler_event, hplaced.update_of_hand hhand]
    rfl
  | execute =>
    obtain ⟨hdone, hs⟩ := Option.ite_none_right_eq_some.mp hs
    cases hs
    refine h.of_perm rfl (.of_eq ?_)
    simp only [State.announced, hdone, Work.event]
  | publish t =>
    obtain ⟨e, hwork, rfl⟩ := exists_of_publish hs
    cases t with
    | imageUpdate =>
      have hupdate : s.update = .publish e := hwork
      refine h.of_perm rfl (.of_eq ?_)
      simp [State.announced, State.setWork, hupdate, Work.event]
    | expiredImageCleanup =>
      have hcleanup : s.cleanup = .publish e := hwork
      refine h.of_perm rfl ?_
      simp only [State.announced, State.setWork, hcleanup, Work.event, List.map_append, List.map_cons,
        List.map_nil, Option.toList_some, Option.toList_none, List.append_nil, List.append_assoc]
      exact List.perm_append_comm.append_left _

/-- Whatever arrives, fails and expires: a stored picture was stored at the start or its
`IMAGE_NEW` is out or about to go out, and a picture stored at the start or announced more often
than removals of it is stored. -/
theorem announced_accounts {s₀ : State} {as : List Act} (h0 : Init dir s₀)
    (h : (machine dir decode).run s₀ as = some s) : Accounts s₀.ids s := by
  have hinit : Accounts s₀.ids s₀ := by
    obtain ⟨-, -, -, hupdate, hcleanup, hpublished⟩ := h0
    refine ⟨fun id hid => .inl hid, fun id => ?_⟩
    simp [State.announced, hupdate, hcleanup, hpublished, Work.event]
  have hrun : (machine dir decode).RunBy (fun _ _ => True) s₀ as s := ⟨Machine.meets_true, h⟩
  refine (hrun.invariant (I := fun s => (Placed decode s ∧ Expiry.Inv dir s.stored) ∧
    Accounts s₀.ids s) (fun s a s' hI _ hs => ?_) ⟨inv_inductive.init s₀ h0, hinit⟩).2
  exact ⟨inv_inductive.step s a s' hI.1 trivial hs, hI.2.step hI.1.1 hI.1.2 hs⟩

theorem announced_accounts_storing :
    ∃ s, (machine "images" fun _ => [0xff]).run { store := {} } storing = some s ∧ s.ids = [5] ∧
      Accounts [] s := by
  have hrun : (machine "images" fun _ => [0xff]).run { store := {} } storing = some _ := rfl
  exact ⟨_, hrun, rfl, announced_accounts (init_empty _) hrun⟩

end ShareFrame.ImageUpdate
