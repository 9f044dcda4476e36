import ShareFrame.Dashboard.FrameHandlers

/-!
# Numbers as they are written

A handler that reads an `int` has converted the number before it checks the range:
a boolean, a fraction or an integer of more bits can land in it (`Converts`,
`getInt_eq_ok_iff`). The two that take picture ids look at the type first. For each
field it is shown which values are validated as written.
-/

namespace ShareFrame.Dashboard.Numbers

open Interaction Prog
open Dashboard.FrameHandlers (NightArgs)

/-- `nlohmann::json` holds an integer in 64 bits, with a sign or without. -/
def Held : Json → Prop
  | .int n => -9223372036854775808 ≤ n ∧ n < 18446744073709551616
  | _ => True

/-- What `get<int>` makes of a value that is not that integer. -/
inductive Converts : Json → Int → Prop where
  | bool (b : Bool) : Converts (.bool b) (if b then 1 else 0)
  | fraction (x : Rat) : Converts (.float x) (x.num.tdiv x.den)
  | wrapped (n k : Int) : k ≠ 0 → Converts (.int (n + k * 4294967296)) n

/-- It only falls into the range by the conversion. -/
def Lands (low high : Int) (v : Json) : Prop := ∃ n, low ≤ n ∧ n ≤ high ∧ Converts v n

variable {v : Json} {n : Int}

theorem bmod_eq_iff {m : Int} (hlow : -2147483648 ≤ n) (hhigh : n < 2147483647) :
    m.bmod (Nat.pow 2 32) = n ↔ ∃ k, m = n + k * 4294967296 := by
  rw [show Nat.pow 2 32 = 4294967296 from rfl]
  constructor
  · rintro rfl
    exact ⟨m.bdiv 4294967296, (Int.bmod_add_bdiv' m 4294967296).symm⟩
  · rintro ⟨k, rfl⟩
    rw [show (4294967296 : Int) = ((4294967296 : Nat) : Int) from rfl, Int.add_mul_bmod_self_right]
    exact Int.bmod_eq_of_le (by omega) (by omega)

/-- A value that reads as a number from the range is that integer, or lands there. -/
theorem getInt_eq_ok_iff (hlow : -2147483648 < n) (hhigh : n < 2147483647) :
    v.getInt = .ok n ↔ v = .int n ∨ Converts v n := by
  cases v with
  | null | str | arr | obj =>
    constructor
    · rintro ⟨⟩
    · rintro (⟨⟨⟩⟩ | ⟨⟨⟩⟩)
  | bool b =>
    constructor
    · rintro ⟨⟩
      exact .inr (.bool b)
    · rintro (⟨⟨⟩⟩ | ⟨⟨⟩⟩)
      rfl
  | float x =>
    have htrunc : Json.truncate 32 x = n ↔ x.num.tdiv x.den = n := by
      unfold Json.truncate
      rw [show Int.pow 2 (32 - 1) = 2147483648 from rfl]
      omega
    constructor
    · intro h
      obtain rfl := htrunc.mp (Except.ok.inj h)
      exact .inr (.fraction x)
    · rintro (⟨⟨⟩⟩ | hconv)
      cases hconv
      exact congrArg Except.ok (htrunc.mpr rfl)
  | int m =>
    constructor
    · intro h
      obtain ⟨k, rfl⟩ := (bmod_eq_iff hlow.le hhigh).mp (Except.ok.inj h)
      by_cases hk : k = 0
      · rw [hk, Int.zero_mul, Int.add_zero]
        exact .inl rfl
      · exact .inr (.wrapped n k hk)
    · rintro (heq | hconv)
      · cases heq
        exact congrArg Except.ok ((bmod_eq_iff hlow.le hhigh).mpr ⟨0, by omega⟩)
      · cases hconv with
        | wrapped _ k => exact congrArg Except.ok ((bmod_eq_iff hlow.le hhigh).mpr ⟨k, rfl⟩)

theorem Converts.ne (h : Converts v n) : v ≠ .int n := by
  rintro rfl
  generalize hv : Json.int n = v at h
  cases h with
  | bool | fraction => cases hv
  | wrapped _ k hk =>
    have heq := Json.int.inj hv
    omega

/-- The body is an object with these members. -/
def Gives (body : Json) (members : List (String × Json)) : Prop :=
  ∀ m ∈ members, body.find m.1 = some m.2

theorem value_of_find {α : Type} {get : Json → Except Json.Error α} {body : Json} {key : String}
    {dflt : α} (h : body.find key = some v) : body.value get key dflt = get v := by
  cases body with
  | obj members => simp only [Json.value, show members.lookup key = some v from h]
  | _ => cases h

/-- The conversion fails with a `type_error` only. -/
theorem getInt_error {e : Json.Error} (h : v.getInt = .error e) : e = .typeError := by
  cases v <;> cases h <;> rfl

/-- Behind the parse. -/
theorem bodyHandler_eq {Args : Type} {parse : HTTPClient.Bytes → Option Json}
    {read : Json → Except Json.Error (Checked Args)} {act : Args → Service Response} {req : Request}
    {body : Json} (hparse : parse req.body = some body) :
    bodyHandler parse read act req = match read body with
      | .error e => .throw (.json e)
      | .ok (.refused message) => .pure (badRequest message)
      | .ok (.accepted args) => act args := by
  rw [bodyHandler, hparse]
  show answerBody read act body = _
  unfold answerBody json
  cases read body with
  | error e => rfl
  | ok checked => cases checked <;> rfl

/-! ## Accepted and rejected -/

/-- The program makes this call, and no other one. -/
def CallsOnly (p : Service Response) (op : Outside) : Prop :=
  ∀ t op', Calls p t op' ↔ t = [] ∧ op' = op

/-- The program sends this message to the display service, does nothing else, and answers with what
was sent. -/
structure Sends (p : Service Response) (type : IpcMessageType) (data echo : Json) : Prop where
  calls : CallsOnly p (.send .display { type, data })
  answers : ∀ sent, Runs p [⟨.send .display { type, data }, sent⟩]
    (.ok (if sent then jsonResponse 200 "OK" echo else internalError "IPC error"))

/-- The program calls nothing and answers 400, or a `type_error` of a read leaves it. -/
def Rejects (p : Service Response) (message : String) : Prop :=
  p = .pure (badRequest message) ∨ p = .throw (.json .typeError)

theorem sends_forward (type : IpcMessageType) (data echo : Json) :
    Sends (FrameHandlers.forward type data echo) type data echo := by
  refine ⟨fun t op => ?_, fun sent => ?_⟩
  · rw [FrameHandlers.forward, Service.send, Service.call, calls_ask_bind]
    refine or_iff_left ?_
    rintro ⟨sent, t', -, h⟩
    exact calls_pure h
  · exact runs_ask_bind.mpr ⟨sent, [], rfl, runs_pure.mpr ⟨rfl, rfl⟩⟩

/-- Who calls something does not reject. -/
theorem CallsOnly.not_pure {p : Service Response} {op : Outside} (h : CallsOnly p op) (resp : Response) :
    p ≠ .pure resp := by
  rintro rfl
  exact calls_pure ((h [] op).mpr ⟨rfl, rfl⟩)

theorem CallsOnly.not_rejects {p : Service Response} {op : Outside} {message : String}
    (h : CallsOnly p op) : ¬ Rejects p message := by
  rintro (hpure | rfl)
  · exact h.not_pure _ hpure
  · exact calls_throw ((h [] op).mpr ⟨rfl, rfl⟩)

/-! ## The interval of the slideshow -/

/-- An integer from the range is sent as that integer, and every other value is rejected. -/
def IntervalAsWritten (v : Json) : Prop :=
  ∀ parse (req : Request) body, parse req.body = some body → body.find "interval_seconds" = some v →
    (∀ n, v = .int n → 180 ≤ n → n ≤ 86400 →
      Sends (FrameHandlers.handleUpdateInterval parse req) .updateDisplayInterval
        (.obj [("interval_secs", .int n)]) (.obj [("interval_seconds", .int n)])) ∧
    ((¬ ∃ n, v = .int n ∧ 180 ≤ n ∧ n ≤ 86400) →
      Rejects (FrameHandlers.handleUpdateInterval parse req)
        "interval_seconds must be between 180 and 86400")

theorem isValidIntervalSecs_iff :
    Validation.isValidIntervalSecs n = true ↔ 180 ≤ n ∧ n ≤ 86400 := by
  rw [Validation.isValidIntervalSecs, Bool.and_eq_true, decide_eq_true_eq, decide_eq_true_eq]
  exact Iff.rfl

theorem isValidHour_iff : Validation.isValidHour n = true ↔ 0 ≤ n ∧ n ≤ 23 := by
  simp [Validation.isValidHour]

theorem handleUpdateInterval_eq {parse : HTTPClient.Bytes → Option Json} {req : Request} {body : Json}
    (hparse : parse req.body = some body) (h : body.find "interval_seconds" = some v) :
    FrameHandlers.handleUpdateInterval parse req = match v.getInt with
      | .error e => .throw (.json e)
      | .ok n =>
        if Validation.isValidIntervalSecs n then
          FrameHandlers.forward .updateDisplayInterval (.obj [("interval_secs", .int n)])
            (.obj [("interval_seconds", .int n)])
        else .pure (badRequest "interval_seconds must be between 180 and 86400") := by
  have hread : FrameHandlers.readInterval body = v.getInt.map fun n =>
      require (Validation.isValidIntervalSecs n) "interval_seconds must be between 180 and 86400" n := by
    rw [FrameHandlers.readInterval, value_of_find h]
    cases v.getInt <;> rfl
  rw [FrameHandlers.handleUpdateInterval, bodyHandler_eq hparse, hread]
  cases v.getInt with
  | error e => rfl
  | ok n =>
    dsimp only [Except.map, require]
    cases Validation.isValidIntervalSecs n <;> rfl

/-- Any request with a body. -/
def request : Request := { method := "POST", uri := "/", body := [] }

theorem intervalAsWritten_iff : IntervalAsWritten v ↔ ¬ Lands 180 86400 v := by
  constructor
  · rintro h ⟨n, hlow, hhigh, hconv⟩
    have hfind : (Json.obj [("interval_seconds", v)]).find "interval_seconds" = some v := rfl
    have hread : v.getInt = .ok n := (getInt_eq_ok_iff (by omega) (by omega)).mpr (.inr hconv)
    have hnot : ¬ ∃ m, v = .int m ∧ 180 ≤ m ∧ m ≤ 86400 := by
      rintro ⟨m, rfl, hlow', hhigh'⟩
      have hread' : Json.getInt (.int m) = .ok m :=
        (getInt_eq_ok_iff (by omega) (by omega)).mpr (.inl rfl)
      obtain rfl := Except.ok.inj (hread'.symm.trans hread)
      exact hconv.ne rfl
    have hrejects := (h (fun _ => some _) request _ rfl hfind).2 hnot
    rw [handleUpdateInterval_eq rfl hfind, hread] at hrejects
    dsimp only at hrejects
    rw [if_pos (isValidIntervalSecs_iff.mpr ⟨hlow, hhigh⟩)] at hrejects
    exact (sends_forward _ _ _).calls.not_rejects hrejects
  · intro hno parse req body hparse hfind
    rw [handleUpdateInterval_eq hparse hfind]
    constructor
    · rintro n rfl hlow hhigh
      rw [(getInt_eq_ok_iff (by omega) (by omega)).mpr (.inl rfl)]
      dsimp only
      rw [if_pos (isValidIntervalSecs_iff.mpr ⟨hlow, hhigh⟩)]
      exact sends_forward _ _ _
    · intro hnot
      cases hread : v.getInt with
      | error e => exact .inr (by rw [getInt_error hread])
      | ok n =>
        dsimp only
        split
        next hvalid =>
          obtain ⟨hlow, hhigh⟩ := isValidIntervalSecs_iff.mp hvalid
          obtain hint | hconv := (getInt_eq_ok_iff (by omega) (by omega)).mp hread
          · exact absurd ⟨n, hint, hlow, hhigh⟩ hnot
          · exact absurd ⟨n, hlow, hhigh, hconv⟩ hno
        next => exact .inl rfl

/-! ## The night mode -/

/-- The numbers of the night mode. -/
inductive NightNumber where
  | startHour
  | endHour
  | intervalSeconds
  deriving DecidableEq, Repr

namespace NightNumber

/-- The documented range. -/
def low : NightNumber → Int
  | startHour | endHour => 0
  | intervalSeconds => 180

def high : NightNumber → Int
  | startHour | endHour => 23
  | intervalSeconds => 86400

def set (args : NightArgs) (n : Int) : NightNumber → NightArgs
  | startHour => { args with startHour := n }
  | endHour => { args with endHour := n }
  | intervalSeconds => { args with secs := n }

/-- The members of a body, with the value in one place. -/
def members (args : NightArgs) (v : Json) (field : NightNumber) : List (String × Json) :=
  [("enabled", .bool args.enabled),
    ("start_hour", if field = startHour then v else .int args.startHour),
    ("end_hour", if field = endHour then v else .int args.endHour),
    ("interval_seconds", if field = intervalSeconds then v else .int args.secs),
    ("style", .str args.style)]

end NightNumber

/-- What the handler asks for. -/
structure ValidNight (args : NightArgs) : Prop where
  start : 0 ≤ args.startHour ∧ args.startHour ≤ 23
  endHour : 0 ≤ args.endHour ∧ args.endHour ≤ 23
  differ : args.startHour ≠ args.endHour
  secs : 180 ≤ args.secs ∧ args.secs ≤ 86400
  style : (nightStyleFromString args.style).isSome = true

/-- What is sent and, with another name of the seconds, echoed. -/
def nightData (secsKey : String) (args : NightArgs) : Json :=
  .obj [("enabled", .bool args.enabled), ("start_hour", .int args.startHour),
    ("end_hour", .int args.endHour), (secsKey, .int args.secs), ("style", .str args.style)]

/-- What the handler says of a number. -/
def NightNumber.messages : NightNumber → List String
  | startHour | endHour =>
    ["start_hour and end_hour must be between 0 and 23", "start_hour and end_hour must differ"]
  | intervalSeconds => ["interval_seconds must be between 180 and 86400"]

/-- Among members that are otherwise in order an integer that is in order, too, is sent as that
integer, and every other value is rejected. -/
def NightAsWritten (field : NightNumber) (v : Json) : Prop :=
  ∀ parse (req : Request) body args, parse req.body = some body →
    Gives body (field.members args v) → (∃ n, ValidNight (field.set args n)) →
    (∀ n, v = .int n → ValidNight (field.set args n) →
      Sends (FrameHandlers.handleUpdateNightMode parse req) .updateNightMode
        (nightData "interval_secs" (field.set args n))
        (nightData "interval_seconds" (field.set args n))) ∧
    ((¬ ∃ n, v = .int n ∧ ValidNight (field.set args n)) →
      ∃ message ∈ field.messages, Rejects (FrameHandlers.handleUpdateNightMode parse req) message)

theorem checkNightMode_iff {args args' : NightArgs} :
    FrameHandlers.checkNightMode args = .accepted args' ↔ args = args' ∧ ValidNight args := by
  constructor
  · intro h
    unfold FrameHandlers.checkNightMode at h
    repeat' split at h
    all_goals cases h
    next hhours hne hsecs hstyle =>
      simp only [Bool.or_eq_true, Bool.not_eq_true', not_or, Bool.not_eq_false] at hhours hsecs
      have hstyle : nightStyleFromString args.style ≠ none := by simpa using hstyle
      exact ⟨rfl, isValidHour_iff.mp hhours.1, isValidHour_iff.mp hhours.2, hne,
        isValidIntervalSecs_iff.mp hsecs, Option.isSome_iff_ne_none.mpr hstyle⟩
  · rintro ⟨rfl, hstart, hend, hne, hsecs, hstyle⟩
    unfold FrameHandlers.checkNightMode
    rw [isValidHour_iff.mpr hstart, isValidHour_iff.mpr hend, isValidIntervalSecs_iff.mpr hsecs,
      if_neg (by decide), if_neg hne, if_neg (by decide),
      if_neg (by simpa [Option.isSome_iff_ne_none] using hstyle)]

theorem getInt_hour (h : 0 ≤ n ∧ n ≤ 23) : Json.getInt (.int n) = .ok n :=
  Json.getInt_int (by omega) (by omega)

theorem getInt_secs (h : 180 ≤ n ∧ n ≤ 86400) : Json.getInt (.int n) = .ok n :=
  Json.getInt_int (by omega) (by omega)

/-- The members that are in order are read as they are. -/
theorem readNightMode_eq {field : NightNumber} {args : NightArgs} {body : Json}
    (h : Gives body (field.members args v)) (hothers : ∃ n, ValidNight (field.set args n)) :
    FrameHandlers.readNightMode body =
      v.getInt.map fun n => FrameHandlers.checkNightMode (field.set args n) := by
  obtain ⟨k, hvalid⟩ := hothers
  simp only [Gives, NightNumber.members, List.forall_mem_cons] at h
  obtain ⟨henabled, hstart, hend, hsecs, hstyle, -⟩ := h
  rw [FrameHandlers.readNightMode, value_of_find henabled, value_of_find hstart, value_of_find hend,
    value_of_find hsecs, value_of_find hstyle]
  cases field with
  | startHour =>
    have hend := getInt_hour (n := args.endHour) hvalid.endHour
    have hsecs := getInt_secs (n := args.secs) hvalid.secs
    simp only [reduceIte, reduceCtorEq, hend, hsecs]
    cases v.getInt <;> rfl
  | endHour =>
    have hstart := getInt_hour (n := args.startHour) hvalid.start
    have hsecs := getInt_secs (n := args.secs) hvalid.secs
    simp only [reduceIte, reduceCtorEq, hstart, hsecs]
    cases v.getInt <;> rfl
  | intervalSeconds =>
    have hstart := getInt_hour (n := args.startHour) hvalid.start
    have hend := getInt_hour (n := args.endHour) hvalid.endHour
    simp only [reduceIte, reduceCtorEq, hstart, hend]
    cases v.getInt <;> rfl

theorem NightNumber.range {field : NightNumber} {args : NightArgs}
    (h : ValidNight (field.set args n)) :
    field.low ≤ n ∧ n ≤ field.high := by
  cases field with
  | startHour => exact h.start
  | endHour => exact h.endHour
  | intervalSeconds => exact h.secs

theorem NightNumber.fits {field : NightNumber} (hlow : field.low ≤ n) (hhigh : n ≤ field.high) :
    -2147483648 < n ∧ n < 2147483647 := by
  cases field <;> simp only [NightNumber.low, NightNumber.high] at hlow hhigh <;> omega

theorem handleUpdateNightMode_eq {field : NightNumber} {args : NightArgs}
    {parse : HTTPClient.Bytes → Option Json} {req : Request} {body : Json}
    (hparse : parse req.body = some body) (h : Gives body (field.members args v))
    (hothers : ∃ n, ValidNight (field.set args n)) :
    FrameHandlers.handleUpdateNightMode parse req = match v.getInt with
      | .error e => .throw (.json e)
      | .ok n =>
        match FrameHandlers.checkNightMode (field.set args n) with
        | .refused message => .pure (badRequest message)
        | .accepted args => FrameHandlers.forward .updateNightMode (nightData "interval_secs" args)
            (nightData "interval_seconds" args) := by
  rw [FrameHandlers.handleUpdateNightMode, bodyHandler_eq hparse, readNightMode_eq h hothers]
  cases v.getInt with
  | error e => rfl
  | ok n =>
    dsimp only [Except.map]
    cases FrameHandlers.checkNightMode (field.set args n) <;> rfl

/-- Each message of the check, with what is wrong. -/
theorem checkNightMode_refused {args : NightArgs} {message : String}
    (h : FrameHandlers.checkNightMode args = .refused message) :
    (message = "start_hour and end_hour must be between 0 and 23" ∧
      ¬ ((0 ≤ args.startHour ∧ args.startHour ≤ 23) ∧ 0 ≤ args.endHour ∧ args.endHour ≤ 23)) ∨
    (message = "start_hour and end_hour must differ" ∧ args.startHour = args.endHour) ∨
    (message = "interval_seconds must be between 180 and 86400" ∧
      ¬ (180 ≤ args.secs ∧ args.secs ≤ 86400)) ∨
    (message = "style must be one of slower, hold, pause" ∧ nightStyleFromString args.style = none) := by
  unfold FrameHandlers.checkNightMode at h
  split at h
  next hhours =>
    cases h
    refine .inl ⟨rfl, fun hboth => ?_⟩
    rw [isValidHour_iff.mpr hboth.1, isValidHour_iff.mpr hboth.2] at hhours
    cases hhours
  split at h
  next heq =>
    cases h
    exact .inr (.inl ⟨rfl, heq⟩)
  split at h
  next hsecs =>
    cases h
    refine .inr (.inr (.inl ⟨rfl, fun hvalid => ?_⟩))
    rw [isValidIntervalSecs_iff.mpr hvalid] at hsecs
    cases hsecs
  split at h
  next hstyle =>
    cases h
    exact .inr (.inr (.inr ⟨rfl, Option.isNone_iff_eq_none.mp hstyle⟩))
  cases h

/-- A number is turned down with one of its own messages, where the others are in order. -/
theorem NightNumber.refused_message {field : NightNumber} {args : NightArgs} {message : String}
    (hothers : ∃ k, ValidNight (field.set args k))
    (h : FrameHandlers.checkNightMode (field.set args n) = .refused message) :
    message ∈ field.messages := by
  obtain ⟨k, hstart, hend, hne, hsecs, hstyle⟩ := hothers
  have hstyle := Option.isSome_iff_ne_none.mp hstyle
  obtain ⟨rfl, hhours⟩ | ⟨rfl, heq⟩ | ⟨rfl, hsecs'⟩ | ⟨rfl, hstyle'⟩ := checkNightMode_refused h
  · cases field with
    | startHour | endHour => exact List.mem_cons_self
    | intervalSeconds => exact absurd ⟨hstart, hend⟩ hhours
  · cases field with
    | startHour | endHour => exact List.mem_cons_of_mem _ List.mem_cons_self
    | intervalSeconds => exact absurd heq hne
  · cases field with
    | startHour | endHour => exact absurd hsecs hsecs'
    | intervalSeconds => exact List.mem_cons_self
  · cases field <;> exact absurd hstyle' hstyle

/-- For every number of the range there are others that go with it. -/
theorem NightNumber.exists_valid {field : NightNumber} (hlow : field.low ≤ n)
    (hhigh : n ≤ field.high) :
    ∃ args, ValidNight (field.set args n) := by
  obtain ⟨other, hother, hne⟩ : ∃ m : Int, (0 ≤ m ∧ m ≤ 23) ∧ m ≠ n := by
    by_cases hn : n = 0
    · exact ⟨1, by decide, by omega⟩
    · exact ⟨0, by decide, by omega⟩
  have hsecs : (180 : Int) ≤ 180 ∧ (180 : Int) ≤ 86400 := by decide
  have hzero : (0 : Int) ≤ 0 ∧ (0 : Int) ≤ 23 := by decide
  have hone : (0 : Int) ≤ 1 ∧ (1 : Int) ≤ 23 := by decide
  cases field with
  | startHour =>
    exact ⟨⟨true, other, other, 180, "hold"⟩, ⟨hlow, hhigh⟩, hother, hne.symm, hsecs, rfl⟩
  | endHour => exact ⟨⟨true, other, other, 180, "hold"⟩, hother, ⟨hlow, hhigh⟩, hne, hsecs, rfl⟩
  | intervalSeconds =>
    exact ⟨⟨true, 0, 1, 180, "hold"⟩, hzero, hone, Int.zero_ne_one, ⟨hlow, hhigh⟩, rfl⟩

theorem gives_members {field : NightNumber} {args : NightArgs} :
    Gives (.obj (field.members args v)) (field.members args v) := by
  simp only [Gives, NightNumber.members, List.forall_mem_cons]
  exact ⟨rfl, rfl, rfl, rfl, rfl, List.forall_mem_nil _⟩

theorem nightAsWritten_iff {field : NightNumber} :
    NightAsWritten field v ↔ ¬ Lands field.low field.high v := by
  constructor
  · rintro h ⟨n, hlow, hhigh, hconv⟩
    obtain ⟨args, hvalid⟩ := NightNumber.exists_valid hlow hhigh
    have hfits := NightNumber.fits hlow hhigh
    have hread : v.getInt = .ok n := (getInt_eq_ok_iff hfits.1 hfits.2).mpr (.inr hconv)
    have hnot : ¬ ∃ m, v = .int m ∧ ValidNight (field.set args m) := by
      rintro ⟨m, rfl, hvalid'⟩
      obtain ⟨hlow', hhigh'⟩ := NightNumber.range hvalid'
      have hfits' := NightNumber.fits hlow' hhigh'
      have hread' : Json.getInt (.int m) = .ok m :=
        (getInt_eq_ok_iff hfits'.1 hfits'.2).mpr (.inl rfl)
      obtain rfl := Except.ok.inj (hread'.symm.trans hread)
      exact hconv.ne rfl
    obtain ⟨message, -, hrejects⟩ :=
      (h (fun _ => some _) request _ args rfl gives_members ⟨n, hvalid⟩).2 hnot
    rw [handleUpdateNightMode_eq rfl gives_members ⟨n, hvalid⟩, hread] at hrejects
    dsimp only at hrejects
    rw [checkNightMode_iff.mpr ⟨rfl, hvalid⟩] at hrejects
    exact (sends_forward _ _ _).calls.not_rejects hrejects
  · intro hno parse req body args hparse hgives hothers
    rw [handleUpdateNightMode_eq hparse hgives hothers]
    constructor
    · rintro n rfl hvalid
      obtain ⟨hlow, hhigh⟩ := NightNumber.range hvalid
      have hfits := NightNumber.fits hlow hhigh
      rw [(getInt_eq_ok_iff hfits.1 hfits.2).mpr (.inl rfl)]
      dsimp only
      rw [checkNightMode_iff.mpr ⟨rfl, hvalid⟩]
      exact sends_forward _ _ _
    · intro hnot
      cases hread : v.getInt with
      | error e =>
        obtain rfl := getInt_error hread
        exact ⟨field.messages.head (by cases field <;> decide), List.head_mem _, .inr rfl⟩
      | ok n =>
        dsimp only
        cases hcheck : FrameHandlers.checkNightMode (field.set args n) with
        | refused message => exact ⟨message, NightNumber.refused_message hothers hcheck, .inl rfl⟩
        | accepted args' =>
          obtain ⟨-, hvalid⟩ := checkNightMode_iff.mp hcheck
          obtain ⟨hlow, hhigh⟩ := NightNumber.range hvalid
          have hfits := NightNumber.fits hlow hhigh
          obtain hint | hconv := (getInt_eq_ok_iff hfits.1 hfits.2).mp hread
          · exact absurd ⟨n, hint, hvalid⟩ hnot
          · exact absurd ⟨n, hlow, hhigh, hconv⟩ hno

/-! ## Pictures -/

/-- A positive integer of 64 bits is sent as that integer, and every other value is rejected. -/
def IdAsWritten (v : Json) : Prop :=
  ∀ parse (req : Request) body, parse req.body = some body → body.find "id" = some v →
    (∀ n, v = .int n → 1 ≤ n → n ≤ 9223372036854775807 →
      CallsOnly (FrameHandlers.handleShow parse req)
        (.sendAndReceive .display { type := .showImage, data := .obj [("id", .int n)] })) ∧
    ((¬ ∃ n, v = .int n ∧ 1 ≤ n ∧ n ≤ 9223372036854775807) →
      FrameHandlers.handleShow parse req = .pure (badRequest "id must be a positive integer"))

theorem int64_of_le (hlow : -9223372036854775808 ≤ n) (hhigh : n ≤ 9223372036854775807) :
    Validation.int64 n = n := Json.IsInt64.bmod ⟨hlow, hhigh⟩

/-- An unsigned integer that needs the sixty-fourth bit becomes negative. -/
theorem int64_of_gt (hlow : 9223372036854775807 < n) (hhigh : n < 18446744073709551616) :
    Validation.int64 n = n - 18446744073709551616 := by
  have hshift : n = n - 18446744073709551616 + 1 * ((Nat.pow 2 64 : Nat) : Int) := by
    rw [show ((Nat.pow 2 64 : Nat) : Int) = 18446744073709551616 from rfl]
    omega
  rw [Validation.int64]
  conv_lhs => rw [hshift, Int.add_mul_bmod_self_right]
  exact Json.IsInt64.bmod ⟨by omega, by omega⟩

theorem parseImageId_iff (hheld : Held v) :
    Validation.parseImageId v = some n ↔ v = .int n ∧ 1 ≤ n ∧ n ≤ 9223372036854775807 := by
  cases v with
  | int m =>
    obtain ⟨hlow, hhigh⟩ := hheld
    rw [Validation.parseImageId]
    by_cases hm : m ≤ 9223372036854775807
    · rw [int64_of_le hlow hm]
      split
      next hpos =>
        constructor
        · rintro ⟨⟩
          exact ⟨rfl, by omega, hm⟩
        · rintro ⟨⟨⟩, -⟩
          rfl
      next hpos =>
        refine iff_of_false (by rintro ⟨⟩) ?_
        rintro ⟨⟨⟩, hone, -⟩
        omega
    · rw [int64_of_gt (by omega) hhigh, if_neg (by omega)]
      refine iff_of_false (by rintro ⟨⟩) ?_
      rintro ⟨⟨⟩, -, hmax⟩
      omega
  | _ => exact iff_of_false (by rintro ⟨⟩) (by rintro ⟨⟨⟩, -⟩)

theorem handleShow_eq {parse : HTTPClient.Bytes → Option Json} {req : Request} {body : Json}
    (hparse : parse req.body = some body) (h : body.find "id" = some v) :
    FrameHandlers.handleShow parse req = match Validation.parseImageId v with
      | none => .pure (badRequest "id must be a positive integer")
      | some id => FrameHandlers.showImage id := by
  have hread : FrameHandlers.readShow body = .ok (match Validation.parseImageId v with
      | none => Checked.refused "id must be a positive integer"
      | some id => .accepted id) := by
    rw [FrameHandlers.readShow, value_of_find h]
    rfl
  rw [FrameHandlers.handleShow, bodyHandler_eq hparse, hread]
  cases Validation.parseImageId v <;> rfl

theorem callsOnly_showImage (id : Int) : CallsOnly (FrameHandlers.showImage id)
    (.sendAndReceive .display { type := .showImage, data := .obj [("id", .int id)] }) := by
  intro t op
  rw [FrameHandlers.showImage, Service.sendAndReceive, Service.call, calls_ask_bind]
  refine or_iff_left ?_
  rintro ⟨reply, t', -, h⟩
  cases reply with
  | none => exact calls_pure h
  | some result => exact calls_lift h

theorem idAsWritten (hheld : Held v) : IdAsWritten v := by
  intro parse req body hparse hfind
  rw [handleShow_eq hparse hfind]
  constructor
  · intro n hint hlow hhigh
    rw [(parseImageId_iff hheld).mpr ⟨hint, hlow, hhigh⟩]
    exact callsOnly_showImage n
  · intro hnot
    cases hid : Validation.parseImageId v with
    | none => rfl
    | some n => exact absurd ⟨n, (parseImageId_iff hheld).mp hid⟩ hnot

/-- Integers of 64 bits, not too many, are sent as these integers without repetitions, and every other
list is rejected. -/
def OrderAsWritten (items : List Json) : Prop :=
  ∀ parse (req : Request) body (mode : PlaybackMode), parse req.body = some body →
    Gives body [("mode", .str mode.toString), ("custom_order", .arr items)] →
    (∀ ns : List Int, items = ns.map .int → items.length ≤ 1000 → (∀ n ∈ ns, Json.IsInt64 n) →
      Sends (SlideshowImageHandlers.handleUpdateOrder parse req) .updatePlaybackOrder
        (.obj [("mode", .str mode.toString), ("custom_order", .arr (ns.eraseDups.map .int))])
        (.obj [("mode", .str mode.toString), ("custom_order", .arr (ns.eraseDups.map .int))])) ∧
    ((¬ (items.length ≤ 1000 ∧ ∃ ns : List Int, items = ns.map .int ∧ ∀ n ∈ ns, Json.IsInt64 n)) →
      SlideshowImageHandlers.handleUpdateOrder parse req =
        .pure (badRequest "custom_order must be a list of picture ids"))

theorem eraseDups_concat (done : List Int) (id : Int) :
    (done ++ [id]).eraseDups =
      if id ∈ done.eraseDups then done.eraseDups else done.eraseDups ++ [id] := by
  by_cases hid : id ∈ done
  · rw [if_pos (List.mem_eraseDups.mpr hid), List.eraseDups_append]
    simp [List.removeAll, hid]
  · rw [if_neg (mt List.mem_eraseDups.mp hid), List.eraseDups_append]
    simp [List.removeAll, hid, List.eraseDups_cons]

/-- The loop converts each integer and drops the repetitions. -/
theorem parseIds_ints (done ns : List Int) :
    Validation.parseIds done.eraseDups (ns.map .int) =
      some (done ++ ns.map Validation.int64).eraseDups := by
  induction ns generalizing done with
  | nil => rw [List.map_nil, List.map_nil, List.append_nil, Validation.parseIds]
  | cons n ns ih =>
    rw [List.map_cons, List.map_cons, Validation.parseIds, ← eraseDups_concat, ih,
      List.append_assoc]
    rfl

/-- It takes integers only. -/
theorem ints_of_parseIds {done ids : List Int} {items : List Json}
    (h : Validation.parseIds done items = some ids) : ∃ ns : List Int, items = ns.map .int := by
  induction items generalizing done with
  | nil => exact ⟨[], rfl⟩
  | cons item items ih =>
    cases item with
    | int n =>
      obtain ⟨ns, rfl⟩ := ih h
      exact ⟨n :: ns, rfl⟩
    | _ => cases h

theorem parseCustomOrder_iff {items : List Json} {ids : List Int} :
    Validation.parseCustomOrder (.arr items) = some ids ↔
      items.length ≤ 1000 ∧
        ∃ ns : List Int, items = ns.map .int ∧ ids = (ns.map Validation.int64).eraseDups := by
  rw [Validation.parseCustomOrder, Validation.MAX_CUSTOM_ORDER_LENGTH]
  split
  next hlong => exact iff_of_false (by rintro ⟨⟩) fun h => absurd h.1 (Nat.not_le_of_lt hlong)
  next hlong =>
    rw [and_iff_right (Nat.le_of_not_lt hlong)]
    constructor
    · intro h
      obtain ⟨ns, rfl⟩ := ints_of_parseIds h
      have hparsed : Validation.parseIds [] (ns.map .int) =
          some (ns.map Validation.int64).eraseDups := parseIds_ints [] ns
      rw [hparsed] at h
      exact ⟨ns, rfl, (Option.some.inj h).symm⟩
    · rintro ⟨ns, rfl, rfl⟩
      exact parseIds_ints [] ns

theorem handleUpdateOrder_eq {items : List Json} {parse : HTTPClient.Bytes → Option Json}
    {req : Request} {body : Json} {mode : PlaybackMode} (hparse : parse req.body = some body)
    (h : Gives body [("mode", .str mode.toString), ("custom_order", .arr items)]) :
    SlideshowImageHandlers.handleUpdateOrder parse req =
      match Validation.parseCustomOrder (.arr items) with
      | none => .pure (badRequest "custom_order must be a list of picture ids")
      | some ids => FrameHandlers.forward .updatePlaybackOrder
          (.obj [("mode", .str mode.toString), ("custom_order", .arr (ids.map .int))])
          (.obj [("mode", .str mode.toString), ("custom_order", .arr (ids.map .int))]) := by
  simp only [Gives, List.forall_mem_cons] at h
  obtain ⟨hmode, horder, -⟩ := h
  have hvalid : Validation.isValidPlaybackMode mode.toString = true := by cases mode <;> rfl
  have hread : SlideshowImageHandlers.readOrder body =
      .ok (match Validation.parseCustomOrder (.arr items) with
        | none => .refused "custom_order must be a list of picture ids"
        | some ids => .accepted { mode := mode.toString, customOrder := some ids }) := by
    unfold SlideshowImageHandlers.readOrder
    rw [value_of_find hmode, horder]
    show (if (!Validation.isValidPlaybackMode mode.toString) = true then _ else _) = _
    rw [hvalid, if_neg (by decide)]
    rfl
  rw [SlideshowImageHandlers.handleUpdateOrder, bodyHandler_eq hparse, hread]
  cases Validation.parseCustomOrder (.arr items) <;> rfl

/-- The integers are sent as they are unless one needs the sixty-fourth bit. -/
theorem orderAsWritten_iff {items : List Json} (hheld : ∀ v ∈ items, Held v) :
    OrderAsWritten items ↔
      ¬ (items.length ≤ 1000 ∧
        ∃ ns : List Int, items = ns.map .int ∧ ∃ n ∈ ns, 9223372036854775807 < n) := by
  have hinj : Function.Injective (List.map Json.int) := List.map_injective_iff.mpr fun _ _ => Json.int.inj
  constructor
  · rintro h ⟨hlen, ns, rfl, n, hn, hlarge⟩
    have hgives : Gives
        (.obj [("mode", .str (PlaybackMode.custom).toString), ("custom_order", .arr (ns.map .int))])
        [("mode", .str (PlaybackMode.custom).toString), ("custom_order", .arr (ns.map .int))] := by
      simp only [Gives, List.forall_mem_cons]
      exact ⟨rfl, rfl, List.forall_mem_nil _⟩
    have hparsed := parseCustomOrder_iff.mpr ⟨hlen, ns, rfl, rfl⟩
    have hpure := (h (fun _ => some _) request _ .custom rfl hgives).2 ?_
    · rw [handleUpdateOrder_eq rfl hgives, hparsed] at hpure
      exact (sends_forward _ _ _).calls.not_pure _ hpure
    · rintro ⟨-, ns', heq, hall⟩
      obtain rfl := hinj heq
      have hmax := (hall n hn).2
      omega
  · intro hno parse req body mode hparse hgives
    rw [handleUpdateOrder_eq hparse hgives]
    constructor
    · rintro ns rfl hlen hall
      have hsame : ns.map Validation.int64 = ns :=
        (List.map_congr_left fun n hn => int64_of_le (hall n hn).1 (hall n hn).2).trans
          (List.map_id' ns)
      rw [parseCustomOrder_iff.mpr ⟨hlen, ns, rfl, rfl⟩, hsame]
      exact sends_forward _ _ _
    · intro hnot
      cases hparsed : Validation.parseCustomOrder (.arr items) with
      | none => rfl
      | some ids =>
        obtain ⟨hlen, ns, rfl, -⟩ := parseCustomOrder_iff.mp hparsed
        refine absurd ⟨hlen, ns, rfl, fun n hn => ?_⟩ hnot
        refine ⟨(hheld (.int n) (List.mem_map_of_mem hn)).1, not_lt.mp fun hlarge => ?_⟩
        exact hno ⟨hlen, ns, rfl, n, hn, hlarge⟩

/-- The interval and the numbers of the night mode are validated as written unless the
conversion makes them fall into the range; a picture id always is; a custom order unless
one of its integers needs the sixty-fourth bit. -/
theorem as_written_iff (v : Json) (field : NightNumber) (items : List Json) :
    (IntervalAsWritten v ↔ ¬ Lands 180 86400 v) ∧
    (NightAsWritten field v ↔ ¬ Lands field.low field.high v) ∧
    (Held v → IdAsWritten v) ∧
    ((∀ item ∈ items, Held item) → (OrderAsWritten items ↔
      ¬ (items.length ≤ 1000 ∧
        ∃ ns : List Int, items = ns.map .int ∧ ∃ n ∈ ns, 9223372036854775807 < n))) :=
  ⟨intervalAsWritten_iff, nightAsWritten_iff, idAsWritten, orderAsWritten_iff⟩

theorem as_written_seven : IdAsWritten (.int 7) ∧ OrderAsWritten [.int 7] := by
  have hheld : Held (.int 7) := ⟨by decide, by decide⟩
  obtain ⟨-, -, hid, horder⟩ := as_written_iff (.int 7) .startHour [.int 7]
  refine ⟨hid hheld, (horder (by simpa using hheld)).mpr ?_⟩
  rintro ⟨-, ns, heq, n, hn, hlarge⟩
  have hmem : Json.int n ∈ [Json.int 7] := heq ▸ List.mem_map_of_mem hn
  obtain rfl : n = 7 := by simpa using hmem
  omega

/-- 2³² + 300 seconds, an hour that is a flag, one with a fraction, and 2⁶⁴ - 5. -/
theorem not_as_written :
    ¬ IntervalAsWritten (.int 4294967596) ∧ ¬ NightAsWritten .startHour (.bool true) ∧
      ¬ NightAsWritten .endHour (.float (57 / 10)) ∧
      ¬ OrderAsWritten [.int 18446744073709551611] := by
  rw [intervalAsWritten_iff, nightAsWritten_iff, nightAsWritten_iff,
    orderAsWritten_iff (by simp [Held])]
  simp only [not_not]
  refine ⟨⟨300, by decide, by decide, .wrapped 300 1 (by decide)⟩,
    ⟨1, by decide, by decide, .bool true⟩, ⟨_, ?_, ?_, .fraction _⟩, by decide,
    [18446744073709551611], rfl, _, List.mem_singleton_self _, by decide⟩
  · decide +kernel
  · decide +kernel

end ShareFrame.Dashboard.Numbers
