import Mathlib.Tactic.Common

/-!
# Programs that ask the outside world

A `Prog` calls operations; the answer to a call decides how it goes on. It ends
with a value or throws. `Steps p t q`: answered as in `t`, `p` becomes `q`.
`Runs p t r` is a complete run, `Calls p t op` a run up to a call of `op`; for a
sequence of two programs they split at the end of the first (`runs_bind`,
`calls_bind`). Two rules carry facts about all runs along a program: `Uses` (which
operations occur) and `ThrowsOn` (which answers make it throw). `follow` replays answers.
-/

namespace Interaction

universe u v

/-- Programs over the operations `Op`; a call of `op` is answered by an `Ans op`. -/
inductive Prog {Op : Type u} (Ans : Op → Type v) (ε α : Type v) : Type (max u v) where
  | pure (a : α)
  | throw (e : ε)
  | call (op : Op) (k : Ans op → Prog Ans ε α)

/-- A call and its answer. -/
abbrev Event {Op : Type u} (Ans : Op → Type v) := (op : Op) × Ans op

namespace Prog

variable {Op : Type u} {Ans : Op → Type v} {ε α β : Type v}

protected def bind : Prog Ans ε α → (α → Prog Ans ε β) → Prog Ans ε β
  | .pure a, f => f a
  | .throw e, _ => .throw e
  | .call op k, f => .call op fun a => (k a).bind f

instance : Monad (Prog Ans ε) where
  pure := .pure
  bind := .bind

/-- One call. -/
def ask (op : Op) : Prog Ans ε (Ans op) := .call op .pure

/-- A computation without calls. -/
def lift : Except ε α → Prog Ans ε α
  | .ok a => .pure a
  | .error e => .throw e

/-! ## Runs -/

/-- Answered as in the list, the first program becomes the second. -/
inductive Steps : Prog Ans ε α → List (Event Ans) → Prog Ans ε α → Prop where
  | nil (p : Prog Ans ε α) : Steps p [] p
  | cons {op : Op} {k : Ans op → Prog Ans ε α} {a : Ans op} {t : List (Event Ans)}
      {q : Prog Ans ε α} : Steps (k a) t q → Steps (.call op k) (⟨op, a⟩ :: t) q

/-- A complete run. -/
def Runs (p : Prog Ans ε α) (t : List (Event Ans)) (r : Except ε α) : Prop := Steps p t (lift r)

/-- After the events the next call is `op`. -/
def Calls (p : Prog Ans ε α) (t : List (Event Ans)) (op : Op) : Prop :=
  ∃ k, Steps p t (.call op k)

theorem Steps.append {p q r : Prog Ans ε α} {t t' : List (Event Ans)} (h : Steps p t q)
    (h' : Steps q t' r) : Steps p (t ++ t') r := by
  induction h with
  | nil => exact h'
  | cons _ ih => exact .cons (ih h')

theorem Steps.split {p r : Prog Ans ε α} {t t' : List (Event Ans)} (h : Steps p (t ++ t') r) :
    ∃ q, Steps p t q ∧ Steps q t' r := by
  induction t generalizing p with
  | nil => exact ⟨p, .nil p, h⟩
  | cons e t ih =>
    obtain ⟨op, a⟩ := e
    cases h with
    | cons h =>
      obtain ⟨q, hq, hr⟩ := ih h
      exact ⟨q, .cons hq, hr⟩

@[simp] theorem steps_nil {p q : Prog Ans ε α} : Steps p [] q ↔ q = p := by
  constructor
  · intro h
    cases h; rfl
  · rintro rfl
    exact .nil _

@[simp] theorem steps_call {op : Op} {k : Ans op → Prog Ans ε α} {t : List (Event Ans)}
    {q : Prog Ans ε α} : Steps (.call op k) t q ↔
      t = [] ∧ q = .call op k ∨ ∃ a t', t = ⟨op, a⟩ :: t' ∧ Steps (k a) t' q := by
  constructor
  · intro h
    cases h with
    | nil => exact .inl ⟨rfl, rfl⟩
    | cons h => exact .inr ⟨_, _, rfl, h⟩
  · rintro (⟨rfl, rfl⟩ | ⟨a, t', rfl, h⟩)
    · exact .nil _
    · exact .cons h

/-- A finished program makes no more steps. -/
theorem steps_lift {x : Except ε α} {t : List (Event Ans)} {q : Prog Ans ε α} :
    Steps (lift x) t q ↔ t = [] ∧ q = lift x := by
  constructor
  · intro h
    cases x <;> cases h <;> exact ⟨rfl, rfl⟩
  · rintro ⟨rfl, rfl⟩
    exact .nil _

@[simp] theorem steps_pure {a : α} {t : List (Event Ans)} {q : Prog Ans ε α} :
    Steps (.pure a) t q ↔ t = [] ∧ q = .pure a := by
  have h := @steps_lift _ _ _ _ (.ok a : Except ε α) t q
  exact h

@[simp] theorem steps_throw {e : ε} {t : List (Event Ans)} {q : Prog Ans ε α} :
    Steps (.throw e) t q ↔ t = [] ∧ q = .throw e := by
  have h := @steps_lift _ _ _ _ (.error e : Except ε α) t q
  exact h

theorem lift_inj {x y : Except ε α} (h : (lift x : Prog Ans ε α) = lift y) : x = y := by
  cases x <;> cases y <;> cases h <;> rfl

@[simp] theorem runs_lift {x r : Except ε α} {t : List (Event Ans)} :
    Runs (lift x) t r ↔ t = [] ∧ r = x := by
  rw [Runs, steps_lift]
  exact and_congr_right fun _ => ⟨lift_inj, congrArg lift⟩

/-- `pure` of the monad is the constructor. -/
@[simp] theorem pure_eq (a : α) : (Pure.pure a : Prog Ans ε α) = .pure a := rfl

@[simp] theorem runs_pure {a : α} {t : List (Event Ans)} {r : Except ε α} :
    Runs (.pure a) t r ↔ t = [] ∧ r = .ok a := by
  have h := @runs_lift _ _ _ _ (.ok a : Except ε α) r t
  exact h

@[simp] theorem runs_throw {e : ε} {t : List (Event Ans)} {r : Except ε α} :
    Runs (.throw e) t r ↔ t = [] ∧ r = .error e := by
  have h := @runs_lift _ _ _ _ (.error e : Except ε α) r t
  exact h

@[simp] theorem runs_call {op : Op} {k : Ans op → Prog Ans ε α} {t : List (Event Ans)}
    {r : Except ε α} : Runs (.call op k) t r ↔ ∃ a t', t = ⟨op, a⟩ :: t' ∧ Runs (k a) t' r := by
  rw [Runs, steps_call]
  constructor
  · rintro (⟨-, h⟩ | h)
    · cases r <;> cases h
    · exact h
  · exact .inr

@[simp] theorem calls_lift {x : Except ε α} {t : List (Event Ans)} {op : Op} :
    ¬ Calls (lift x) t op := by
  rintro ⟨k, h⟩
  cases x <;> cases h

@[simp] theorem calls_pure {a : α} {t : List (Event Ans)} {op : Op} :
    ¬ Calls (.pure a : Prog Ans ε α) t op := by
  rintro ⟨k, h⟩
  cases h

@[simp] theorem calls_throw {e : ε} {t : List (Event Ans)} {op : Op} :
    ¬ Calls (.throw e : Prog Ans ε α) t op := by
  rintro ⟨k, h⟩
  cases h

@[simp] theorem calls_call {op op' : Op} {k : Ans op → Prog Ans ε α} {t : List (Event Ans)} :
    Calls (.call op k) t op' ↔
      t = [] ∧ op' = op ∨ ∃ a t', t = ⟨op, a⟩ :: t' ∧ Calls (k a) t' op' := by
  constructor
  · rintro ⟨k', hk⟩
    rcases steps_call.mp hk with ⟨rfl, h⟩ | ⟨a, t', rfl, h⟩
    · cases h; exact .inl ⟨rfl, rfl⟩
    · exact .inr ⟨a, t', rfl, k', h⟩
  · rintro (⟨rfl, rfl⟩ | ⟨a, t', rfl, k', h⟩)
    · exact ⟨k, .nil _⟩
    · exact ⟨k', .cons h⟩

@[simp] theorem runs_ask {op : Op} {t : List (Event Ans)} {r : Except ε (Ans op)} :
    Runs (ask op) t r ↔ ∃ a, t = [⟨op, a⟩] ∧ r = .ok a := by
  rw [ask, runs_call]
  constructor
  · rintro ⟨a, t', rfl, h⟩
    obtain ⟨rfl, rfl⟩ := runs_pure.mp h
    exact ⟨a, rfl, rfl⟩
  · rintro ⟨a, rfl, rfl⟩
    exact ⟨a, [], rfl, runs_pure.mpr ⟨rfl, rfl⟩⟩

@[simp] theorem calls_ask {op op' : Op} {t : List (Event Ans)} :
    Calls (ask op : Prog Ans ε _) t op' ↔ t = [] ∧ op' = op := by
  rw [ask, calls_call]
  constructor
  · rintro (h | ⟨a, t', -, h⟩)
    · exact h
    · exact absurd h calls_pure
  · exact .inl

/-! ## Sequences -/

@[simp] theorem pure_bind_eq (a : α) (f : α → Prog Ans ε β) : (.pure a >>= f) = f a := rfl

@[simp] theorem throw_bind (e : ε) (f : α → Prog Ans ε β) : (.throw e >>= f) = .throw e := rfl

@[simp] theorem call_bind (op : Op) (k : Ans op → Prog Ans ε α) (f : α → Prog Ans ε β) :
    (.call op k >>= f) = .call op fun a => k a >>= f := rfl

theorem runs_bind {p : Prog Ans ε α} {f : α → Prog Ans ε β} {t : List (Event Ans)}
    {r : Except ε β} : Runs (p >>= f) t r ↔
      (∃ e, r = .error e ∧ Runs p t (.error e)) ∨
      ∃ a t₁ t₂, t = t₁ ++ t₂ ∧ Runs p t₁ (.ok a) ∧ Runs (f a) t₂ r := by
  induction p generalizing t with
  | pure a =>
    show Runs (f a) t r ↔ _
    constructor
    · exact fun h => .inr ⟨a, [], t, rfl, runs_pure.mpr ⟨rfl, rfl⟩, h⟩
    · rintro (⟨e, -, h⟩ | ⟨b, t₁, t₂, rfl, h, h'⟩)
      · cases (runs_pure.mp h).2
      · obtain ⟨rfl, h⟩ := runs_pure.mp h
        cases h; exact h'
  | throw e =>
    rw [throw_bind, runs_throw]
    constructor
    · rintro ⟨rfl, rfl⟩
      exact .inl ⟨e, rfl, runs_throw.mpr ⟨rfl, rfl⟩⟩
    · rintro (⟨e', rfl, h⟩ | ⟨b, t₁, t₂, -, h, -⟩)
      · obtain ⟨rfl, h⟩ := runs_throw.mp h
        cases h; exact ⟨rfl, rfl⟩
      · cases (runs_throw.mp h).2
  | call op k ih =>
    rw [call_bind, runs_call]
    constructor
    · rintro ⟨a, t', rfl, hr⟩
      rcases (ih a).mp hr with ⟨e, rfl, h⟩ | ⟨b, t₁, t₂, rfl, h, h'⟩
      · exact .inl ⟨e, rfl, runs_call.mpr ⟨a, t', rfl, h⟩⟩
      · exact .inr ⟨b, ⟨op, a⟩ :: t₁, t₂, rfl, runs_call.mpr ⟨a, t₁, rfl, h⟩, h'⟩
    · rintro (⟨e, rfl, h⟩ | ⟨b, t₁, t₂, rfl, h, h'⟩)
      · obtain ⟨a, t', rfl, hk⟩ := runs_call.mp h
        exact ⟨a, t', rfl, (ih a).mpr (.inl ⟨e, rfl, hk⟩)⟩
      · obtain ⟨a, t', rfl, hk⟩ := runs_call.mp h
        exact ⟨a, t' ++ t₂, rfl, (ih a).mpr (.inr ⟨b, t', t₂, rfl, hk, h'⟩)⟩

/-- A run to a value goes through both programs. -/
theorem runs_bind_ok {p : Prog Ans ε α} {f : α → Prog Ans ε β} {t : List (Event Ans)} {b : β} :
    Runs (p >>= f) t (.ok b) ↔
      ∃ a t₁ t₂, t = t₁ ++ t₂ ∧ Runs p t₁ (.ok a) ∧ Runs (f a) t₂ (.ok b) := by
  rw [runs_bind]
  constructor
  · rintro (⟨e, he, -⟩ | h)
    · cases he
    · exact h
  · exact .inr

theorem calls_bind {p : Prog Ans ε α} {f : α → Prog Ans ε β} {t : List (Event Ans)} {op : Op} :
    Calls (p >>= f) t op ↔
      Calls p t op ∨ ∃ a t₁ t₂, t = t₁ ++ t₂ ∧ Runs p t₁ (.ok a) ∧ Calls (f a) t₂ op := by
  induction p generalizing t with
  | pure a =>
    show Calls (f a) t op ↔ _
    constructor
    · exact fun h => .inr ⟨a, [], t, rfl, runs_pure.mpr ⟨rfl, rfl⟩, h⟩
    · rintro (h | ⟨b, t₁, t₂, rfl, h, h'⟩)
      · exact absurd h calls_pure
      · obtain ⟨rfl, h⟩ := runs_pure.mp h
        cases h; exact h'
  | throw e =>
    rw [throw_bind]
    constructor
    · exact fun h => absurd h calls_throw
    · rintro (h | ⟨b, t₁, t₂, -, h, -⟩)
      · exact absurd h calls_throw
      · cases (runs_throw.mp h).2
  | call o k ih =>
    rw [call_bind, calls_call, calls_call]
    constructor
    · rintro (h | ⟨a, t', rfl, h⟩)
      · exact .inl (.inl h)
      · rcases (ih a).mp h with hk | ⟨b, t₁, t₂, rfl, hk, h'⟩
        · exact .inl (.inr ⟨a, t', rfl, hk⟩)
        · exact .inr ⟨b, ⟨o, a⟩ :: t₁, t₂, rfl, runs_call.mpr ⟨a, t₁, rfl, hk⟩, h'⟩
    · rintro ((h | ⟨a, t', rfl, h⟩) | ⟨b, t₁, t₂, rfl, h, h'⟩)
      · exact .inl h
      · exact .inr ⟨a, t', rfl, (ih a).mpr (.inl h)⟩
      · obtain ⟨a, t', rfl, hk⟩ := runs_call.mp h
        exact .inr ⟨a, t' ++ t₂, rfl, (ih a).mpr (.inr ⟨b, t', t₂, rfl, hk, h'⟩)⟩

/-- A computation that fails ends the program. -/
theorem lift_eq_throw {x : Except ε α} (h : x.isOk = false) : ∃ e, (lift x : Prog Ans ε α) = .throw e := by
  cases x with
  | error e => exact ⟨e, rfl⟩
  | ok a => cases h

theorem lift_bind_eq_throw {x : Except ε α} {f : α → Prog Ans ε β} (h : x.isOk = false) :
    ∃ e, (lift x >>= f) = .throw e := by
  obtain ⟨e, he⟩ := @lift_eq_throw _ Ans _ _ x h
  exact ⟨e, by rw [he]; rfl⟩

/-- A call at the head of a sequence. -/
theorem runs_ask_bind {op : Op} {f : Ans op → Prog Ans ε β} {t : List (Event Ans)} {r : Except ε β} :
    Runs (ask op >>= f) t r ↔ ∃ a t', t = ⟨op, a⟩ :: t' ∧ Runs (f a) t' r := runs_call

theorem calls_ask_bind {op op' : Op} {f : Ans op → Prog Ans ε β} {t : List (Event Ans)} :
    Calls (ask op >>= f) t op' ↔
      t = [] ∧ op' = op ∨ ∃ a t', t = ⟨op, a⟩ :: t' ∧ Calls (f a) t' op' := calls_call

theorem steps_bind {p : Prog Ans ε α} {f : α → Prog Ans ε β} {t : List (Event Ans)}
    {q : Prog Ans ε β} (h : Steps (p >>= f) t q) :
    (∃ p', Steps p t p') ∨
      ∃ a t₁ t₂, t = t₁ ++ t₂ ∧ Runs p t₁ (.ok a) ∧ Steps (f a) t₂ q := by
  induction p generalizing t with
  | pure a => exact .inr ⟨a, [], t, rfl, runs_pure.mpr ⟨rfl, rfl⟩, h⟩
  | throw e =>
    cases h
    exact .inl ⟨_, .nil _⟩
  | call op k ih =>
    rcases steps_call.mp h with ⟨rfl, -⟩ | ⟨a, t', rfl, hk⟩
    · exact .inl ⟨_, .nil _⟩
    · rcases ih a hk with ⟨p', h'⟩ | ⟨b, t₁, t₂, rfl, hr, hs⟩
      · exact .inl ⟨p', .cons h'⟩
      · exact .inr ⟨b, ⟨op, a⟩ :: t₁, t₂, rfl, runs_call.mpr ⟨a, t₁, rfl, hr⟩, hs⟩

/-- Every event was a call. -/
theorem Steps.calls {p q : Prog Ans ε α} {t t' : List (Event Ans)} {e : Event Ans}
    (h : Steps p (t ++ e :: t') q) : Calls p t e.1 := by
  obtain ⟨p', hp', h⟩ := h.split
  cases h
  exact ⟨_, hp'⟩

/-! ## Which operations occur -/

/-- All calls are of operations that `A` allows. -/
def Uses (A : Op → Prop) (p : Prog Ans ε α) : Prop := ∀ t op, Calls p t op → A op

namespace Uses

variable {A B : Op → Prop} {p : Prog Ans ε α} {f : α → Prog Ans ε β}

theorem mono (h : Uses A p) (hAB : ∀ op, A op → B op) : Uses B p :=
  fun t op hc => hAB op (h t op hc)

theorem lift {x : Except ε α} : Uses A (lift x : Prog Ans ε α) := fun _ _ h => absurd h calls_lift

theorem pure {a : α} : Uses A (.pure a : Prog Ans ε α) := fun _ _ h => absurd h calls_pure

theorem throw {e : ε} : Uses A (.throw e : Prog Ans ε α) := fun _ _ h => absurd h calls_throw

theorem ask {op : Op} (h : A op) : Uses A (ask op : Prog Ans ε _) := fun _ _ hc =>
  (calls_ask.mp hc).2 ▸ h

theorem bind (hp : Uses A p) (hf : ∀ a, Uses A (f a)) : Uses A (p >>= f) := by
  intro t op hc
  rcases calls_bind.mp hc with hc | ⟨a, t₁, t₂, -, -, hc⟩
  · exact hp t op hc
  · exact hf a t₂ op hc

theorem events {t : List (Event Ans)} {q : Prog Ans ε α} (h : Uses A p) (hs : Steps p t q) :
    ∀ e ∈ t, A e.1 := by
  induction hs with
  | nil => exact fun e he => absurd he List.not_mem_nil
  | @cons op k a t q _ ih =>
    intro e he
    rcases List.mem_cons.mp he with rfl | he
    · exact h [] op (calls_call.mpr (.inl ⟨rfl, rfl⟩))
    · exact ih (fun t' op' hc => h _ op' (calls_call.mpr (.inr ⟨a, t', rfl, hc⟩))) e he

end Uses

/-! ## Which answers make it throw -/

/-- A complete run throws if and only if one of its answers is bad. -/
def ThrowsOn (bad : Event Ans → Prop) (p : Prog Ans ε α) : Prop :=
  ∀ t r, Runs p t r → ((∃ e, r = .error e) ↔ ∃ x ∈ t, bad x)

namespace ThrowsOn

variable {bad : Event Ans → Prop}

theorem pure {a : α} : ThrowsOn bad (.pure a : Prog Ans ε α) := by
  intro t r h
  obtain ⟨rfl, rfl⟩ := runs_pure.mp h
  simp

/-- A bad answer makes it throw at once. -/
theorem call {op : Op} {k : Ans op → Prog Ans ε α} (hbad : ∀ a, bad ⟨op, a⟩ → ∃ e, k a = .throw e)
    (hgood : ∀ a, ¬ bad ⟨op, a⟩ → ThrowsOn bad (k a)) : ThrowsOn bad (.call op k) := by
  intro t r hr
  obtain ⟨a, t', rfl, h⟩ := runs_call.mp hr
  by_cases ha : bad ⟨op, a⟩
  · obtain ⟨e, he⟩ := hbad a ha
    rw [he] at h
    obtain ⟨rfl, rfl⟩ := runs_throw.mp h
    exact ⟨fun _ => ⟨_, List.mem_cons_self, ha⟩, fun _ => ⟨e, rfl⟩⟩
  · rw [hgood a ha t' r h]
    constructor
    · rintro ⟨x, hx, hb⟩
      exact ⟨x, List.mem_cons_of_mem _ hx, hb⟩
    · rintro ⟨x, hx, hb⟩
      rcases List.mem_cons.mp hx with rfl | hx
      · exact absurd hb ha
      · exact ⟨x, hx, hb⟩

theorem ask_bind {op : Op} {f : Ans op → Prog Ans ε α} (hbad : ∀ a, bad ⟨op, a⟩ → ∃ e, f a = .throw e)
    (hgood : ∀ a, ¬ bad ⟨op, a⟩ → ThrowsOn bad (f a)) : ThrowsOn bad (Prog.ask op >>= f) :=
  call hbad hgood

theorem ask {op : Op} (h : ∀ a, ¬ bad ⟨op, a⟩) : ThrowsOn bad (ask op : Prog Ans ε _) :=
  call (fun a ha => absurd ha (h a)) fun _ _ => pure

/-- A computation that does not fail. -/
theorem lift {x : Except ε α} (h : x.isOk = true) : ThrowsOn bad (lift x) := by
  cases x with
  | error e => cases h
  | ok a => exact pure

theorem lift_bind {x : Except ε α} {f : α → Prog Ans ε β} (h : x.isOk = true)
    (hf : ∀ a, x = .ok a → ThrowsOn bad (f a)) : ThrowsOn bad (Prog.lift x >>= f) := by
  cases x with
  | error e => cases h
  | ok a => exact hf a rfl

/-- A sequence, where the second program only follows values with `P`. -/
theorem bind_of {P : α → Prop} {p : Prog Ans ε α} {f : α → Prog Ans ε β} (hp : ThrowsOn bad p)
    (hP : ∀ t a, Runs p t (.ok a) → P a) (hf : ∀ a, P a → ThrowsOn bad (f a)) :
    ThrowsOn bad (p >>= f) := by
  intro t r hr
  rcases runs_bind.mp hr with ⟨e, rfl, h⟩ | ⟨a, t₁, t₂, rfl, h, h'⟩
  · have hb := (hp t _ h).mp ⟨e, rfl⟩
    exact ⟨fun _ => hb, fun _ => ⟨e, rfl⟩⟩
  · have hno : ¬ ∃ x ∈ t₁, bad x := fun hb => by
      obtain ⟨e, he⟩ := (hp t₁ _ h).mpr hb
      cases he
    rw [hf a (hP t₁ a h) t₂ r h']
    constructor
    · rintro ⟨x, hx, hb⟩
      exact ⟨x, List.mem_append_right t₁ hx, hb⟩
    · rintro ⟨x, hx, hb⟩
      rcases List.mem_append.mp hx with hx | hx
      · exact absurd ⟨x, hx, hb⟩ hno
      · exact ⟨x, hx, hb⟩

theorem bind {p : Prog Ans ε α} {f : α → Prog Ans ε β} (hp : ThrowsOn bad p)
    (hf : ∀ a, ThrowsOn bad (f a)) : ThrowsOn bad (p >>= f) :=
  bind_of (P := fun _ => True) hp (fun _ _ _ => trivial) fun a _ => hf a

end ThrowsOn

/-! ## Replaying answers -/

/-- The operation that is called next. -/
def next : Prog Ans ε α → Option Op
  | .call op _ => some op
  | _ => none

theorem next_eq_some {p : Prog Ans ε α} {op : Op} : next p = some op ↔ ∃ k, p = .call op k := by
  cases p with
  | call op' k =>
    constructor
    · intro h; cases h; exact ⟨k, rfl⟩
    · rintro ⟨k', h⟩; cases h; rfl
  | _ => exact ⟨nofun, fun ⟨k, h⟩ => nomatch h⟩

theorem Steps.next {p q : Prog Ans ε α} {e : Event Ans} (h : Steps p [e] q) :
    Prog.next p = some e.1 := by
  obtain ⟨op, a⟩ := e
  cases h
  rfl

/-- The result of a finished program. -/
def outcome : Prog Ans ε α → Option (Except ε α)
  | .pure a => some (.ok a)
  | .throw e => some (.error e)
  | .call _ _ => none

theorem outcome_eq_some {p : Prog Ans ε α} {r : Except ε α} : outcome p = some r ↔ p = lift r := by
  cases p with
  | call op k => exact ⟨nofun, fun h => by cases r <;> cases h⟩
  | _ =>
    constructor
    · intro h; cases h; rfl
    · intro h
      cases r <;> cases h
      rfl

variable [DecidableEq Op]

/-- One answered call. -/
def answer : Prog Ans ε α → Event Ans → Option (Prog Ans ε α)
  | .call op k, e => if h : e.1 = op then some (k (h ▸ e.2)) else none
  | _, _ => none

theorem answer_call {op : Op} {k : Ans op → Prog Ans ε α} (a : Ans op) :
    answer (.call op k) ⟨op, a⟩ = some (k a) := by
  simp [answer]

theorem answer_eq_some {p q : Prog Ans ε α} {e : Event Ans} :
    answer p e = some q ↔ Steps p [e] q := by
  obtain ⟨op', a⟩ := e
  cases p with
  | pure => exact ⟨nofun, nofun⟩
  | throw => exact ⟨nofun, nofun⟩
  | call op k =>
    constructor
    · intro h
      by_cases hop : op' = op
      · subst hop
        rw [answer_call] at h
        cases h
        exact .cons (.nil _)
      · simp [answer, hop] at h
    · intro hs
      rcases steps_call.mp hs with ⟨h, -⟩ | ⟨b, t', h, hk⟩
      · cases h
      · cases h
        rw [steps_nil.mp hk, answer_call]

def follow : Prog Ans ε α → List (Event Ans) → Option (Prog Ans ε α)
  | p, [] => some p
  | p, e :: t => (p.answer e).bind (follow · t)

theorem follow_eq_some {p q : Prog Ans ε α} {t : List (Event Ans)} :
    follow p t = some q ↔ Steps p t q := by
  induction t generalizing p with
  | nil =>
    constructor
    · intro h; cases h; exact .nil _
    · intro h; cases h; rfl
  | cons e t ih =>
    rw [follow, Option.bind_eq_some_iff]
    constructor
    · rintro ⟨p', hp, h⟩
      exact (answer_eq_some.mp hp).append (ih.mp h)
    · intro h
      obtain ⟨p', hp, h⟩ := Steps.split (t := [e]) h
      exact ⟨p', answer_eq_some.mpr hp, ih.mpr h⟩

theorem calls_iff_follow {p : Prog Ans ε α} {t : List (Event Ans)} {op : Op} :
    Calls p t op ↔ (follow p t).bind next = some op := by
  simp only [Calls, ← follow_eq_some, Option.bind_eq_some_iff, next_eq_some]
  constructor
  · rintro ⟨k, h⟩
    exact ⟨_, h, k, rfl⟩
  · rintro ⟨q, h, k, rfl⟩
    exact ⟨k, h⟩

theorem runs_iff_follow {p : Prog Ans ε α} {t : List (Event Ans)} {r : Except ε α} :
    Runs p t r ↔ (follow p t).bind outcome = some r := by
  simp only [Runs, ← follow_eq_some, Option.bind_eq_some_iff, outcome_eq_some, exists_eq_right]

end Prog

end Interaction
