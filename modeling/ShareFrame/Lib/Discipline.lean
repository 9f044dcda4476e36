import ShareFrame.Lib.Interaction

/-!
# Disciplines on the calls of a program

A `Discipline` has modes. A mode permits some operations, and an answered call
leads to the next mode. `Keeps D p Q s`: started in the mode `s`, the program `p`
calls only what the modes permit, and a value that it ends with meets `Q`. A
sequence keeps a discipline if and only if the first program does, with the second
behind it (`keeps_bind`); what is left of a program keeps it from the mode that its
events lead to (`Keeps.steps`).
-/

namespace Interaction

universe u v w

structure Discipline {Op : Type u} (Ans : Op → Type v) (σ : Type w) where
  permits : σ → Op → Prop
  next : σ → Event Ans → σ

namespace Discipline

variable {Op : Type u} {Ans : Op → Type v} {σ : Type w} {ε α β : Type v}

variable (D : Discipline Ans σ)

/-- The mode behind these events. -/
def mode (s : σ) (t : List (Event Ans)) : σ := t.foldl D.next s

@[simp] theorem mode_cons (s : σ) (e : Event Ans) (t : List (Event Ans)) :
    D.mode s (e :: t) = D.mode (D.next s e) t := rfl

theorem mode_append (s : σ) (t t' : List (Event Ans)) :
    D.mode s (t ++ t') = D.mode (D.mode s t) t' := List.foldl_append

theorem mode_concat (s : σ) (t : List (Event Ans)) (e : Event Ans) :
    D.mode s (t ++ [e]) = D.next (D.mode s t) e := D.mode_append s t [e]

/-- A mode that was entered was entered by an event. -/
theorem exists_entry {s m : σ} {t : List (Event Ans)} (h : D.mode s t = m) (hs : s ≠ m) :
    ∃ t₁ e t₂, t = t₁ ++ e :: t₂ ∧ D.mode s t₁ ≠ m ∧ D.next (D.mode s t₁) e = m := by
  induction t generalizing s with
  | nil => exact absurd h hs
  | cons e t ih =>
    by_cases hnext : D.next s e = m
    · exact ⟨[], e, t, rfl, hs, hnext⟩
    · obtain ⟨t₁, x, t₂, rfl, h₁, h₂⟩ := ih h hnext
      exact ⟨e :: t₁, x, t₂, rfl, h₁, h₂⟩

def Keeps : Prog Ans ε α → (α → σ → Prop) → σ → Prop
  | .pure a, Q, s => Q a s
  | .throw _, _, _ => True
  | .call op k, Q, s => D.permits s op ∧ ∀ a, Keeps (k a) Q (D.next s ⟨op, a⟩)

variable {D} {p : Prog Ans ε α} {Q R : α → σ → Prop} {s : σ}

@[simp] theorem keeps_pure {a : α} : D.Keeps (.pure a : Prog Ans ε α) Q s ↔ Q a s := .rfl

@[simp] theorem keeps_throw {e : ε} : D.Keeps (.throw e : Prog Ans ε α) Q s := trivial

@[simp] theorem keeps_call {op : Op} {k : Ans op → Prog Ans ε α} :
    D.Keeps (.call op k) Q s ↔ D.permits s op ∧ ∀ a, D.Keeps (k a) Q (D.next s ⟨op, a⟩) := .rfl

@[simp] theorem keeps_ask {op : Op} {Q : Ans op → σ → Prop} :
    D.Keeps (Prog.ask op : Prog Ans ε _) Q s ↔
      D.permits s op ∧ ∀ a, Q a (D.next s ⟨op, a⟩) := .rfl

@[simp] theorem keeps_lift {x : Except ε α} :
    D.Keeps (Prog.lift x) Q s ↔ ∀ a, x = .ok a → Q a s := by
  cases x with
  | ok a => simp [Prog.lift]
  | error e => simp [Prog.lift]

theorem keeps_bind {f : α → Prog Ans ε β} {Q : β → σ → Prop} :
    D.Keeps (p >>= f) Q s ↔ D.Keeps p (fun a => D.Keeps (f a) Q) s := by
  induction p generalizing s with
  | pure a => rfl
  | throw e => rfl
  | call op k ih =>
    rw [Prog.call_bind, keeps_call, keeps_call]
    exact and_congr_right fun _ => forall_congr' fun a => ih a

/-- A call at the head of a sequence. -/
theorem keeps_ask_bind {op : Op} {f : Ans op → Prog Ans ε β} {Q : β → σ → Prop} :
    D.Keeps (Prog.ask op >>= f) Q s ↔
      D.permits s op ∧ ∀ a, D.Keeps (f a) Q (D.next s ⟨op, a⟩) := .rfl

theorem Keeps.mono (h : D.Keeps p Q s) (hQ : ∀ a s, Q a s → R a s) : D.Keeps p R s := by
  induction p generalizing s with
  | pure a => exact hQ a s h
  | throw e => trivial
  | call op k ih => exact ⟨h.1, fun a => ih a (h.2 a)⟩

/-- A program and what follows it. -/
theorem Keeps.bind {f : α → Prog Ans ε β} {Q : β → σ → Prop} (h : D.Keeps p R s)
    (hf : ∀ a s, R a s → D.Keeps (f a) Q s) : D.Keeps (p >>= f) Q s :=
  keeps_bind.mpr (h.mono hf)

theorem Keeps.steps {q : Prog Ans ε α} {t : List (Event Ans)} (h : D.Keeps p Q s)
    (hs : Prog.Steps p t q) : D.Keeps q Q (D.mode s t) := by
  induction hs generalizing s with
  | nil => exact h
  | cons _ ih => exact ih (h.2 _)

/-- The next call is permitted. -/
theorem Keeps.calls {op : Op} {t : List (Event Ans)} (h : D.Keeps p Q s)
    (hc : Prog.Calls p t op) : D.permits (D.mode s t) op := by
  obtain ⟨k, hk⟩ := hc
  exact (h.steps hk).1

/-- A value meets the postcondition. -/
theorem Keeps.runs {a : α} {t : List (Event Ans)} (h : D.Keeps p Q s)
    (hr : Prog.Runs p t (.ok a)) : Q a (D.mode s t) :=
  h.steps hr

/-- A program of operations that a mode permits and that do not lead out of it. -/
theorem keeps_of_uses {A : Op → Prop} (h : Prog.Uses A p)
    (hA : ∀ op, A op → D.permits s op ∧ ∀ a, D.next s ⟨op, a⟩ = s) :
    D.Keeps p (fun _ s' => s' = s) s := by
  induction p with
  | pure a => rfl
  | throw e => trivial
  | call op k ih =>
    obtain ⟨hpermits, hnext⟩ := hA op (h [] op (Prog.calls_call.mpr (.inl ⟨rfl, rfl⟩)))
    refine ⟨hpermits, fun a => ?_⟩
    rw [hnext a]
    exact ih a fun t op' hc => h _ op' (Prog.calls_call.mpr (.inr ⟨a, t, rfl, hc⟩))

/-- A program of operations that every mode permits. -/
theorem keeps_of_permitted {A : Op → Prop} (h : Prog.Uses A p)
    (hA : ∀ s op, A op → D.permits s op) : D.Keeps p (fun _ _ => True) s := by
  induction p generalizing s with
  | pure a => trivial
  | throw e => trivial
  | call op k ih =>
    refine ⟨hA s op (h [] op (Prog.calls_call.mpr (.inl ⟨rfl, rfl⟩))), fun a => ih a ?_⟩
    exact fun t op' hc => h _ op' (Prog.calls_call.mpr (.inr ⟨a, t, rfl, hc⟩))

/-- A sequence, where the second program only follows the values of the first. -/
theorem keeps_bind_of_runs {f : α → Prog Ans ε β} {Q : β → σ → Prop} (h : D.Keeps p R s)
    (hf : ∀ t a, Prog.Runs p t (.ok a) → R a (D.mode s t) → D.Keeps (f a) Q (D.mode s t)) :
    D.Keeps (p >>= f) Q s := by
  induction p generalizing s with
  | pure a => exact hf [] a (Prog.runs_pure.mpr ⟨rfl, rfl⟩) h
  | throw e => trivial
  | call op k ih =>
    refine ⟨h.1, fun a => ih a (h.2 a) fun t b hr hR => ?_⟩
    exact hf (⟨op, a⟩ :: t) b (Prog.runs_call.mpr ⟨a, t, rfl, hr⟩) hR

/-- What permitted calls keep of the mode. -/
theorem Keeps.mode_of {I : σ → Prop} {q : Prog Ans ε α} {t : List (Event Ans)}
    (h : D.Keeps p Q s) (hI : ∀ s e, I s → D.permits s e.1 → I (D.next s e))
    (hs : Prog.Steps p t q) (h0 : I s) : I (D.mode s t) := by
  induction hs generalizing s with
  | nil => exact h0
  | cons _ ih => exact ih (h.2 _) (hI _ _ h0 h.1)

/-- What is permitted depends on everything that happened. -/
def tracing (A : List (Event Ans) → Op → Prop) : Discipline Ans (List (Event Ans)) where
  permits := A
  next t e := t ++ [e]

@[simp] theorem mode_tracing {A : List (Event Ans) → Op → Prop} (t t' : List (Event Ans)) :
    (tracing A).mode t t' = t ++ t' := by
  induction t' generalizing t with
  | nil => exact (List.append_nil t).symm
  | cons e t' ih => exact (ih (t ++ [e])).trans (List.append_assoc t [e] t')

end Discipline

/-! ## Programs over some of the operations -/

namespace Prog

variable {Op : Type u} {Op' : Type u} {Ans : Op → Type v} {ε ε' α : Type v}

/-- A program over the operations that `f` names, as a program over all of them. -/
def embed (f : Op' → Op) (g : ε' → ε) : Prog (fun op => Ans (f op)) ε' α → Prog Ans ε α
  | .pure a => .pure a
  | .throw e => .throw (g e)
  | .call op k => .call (f op) fun a => embed f g (k a)

variable {f : Op' → Op} {g : ε' → ε} {p : Prog (fun op => Ans (f op)) ε' α}

theorem uses_embed : Uses (fun op => ∃ op', op = f op') (embed f g p) := by
  induction p with
  | pure a => exact .pure
  | throw e => exact .throw
  | call op k ih =>
    intro t op' hc
    rcases calls_call.mp hc with ⟨-, rfl⟩ | ⟨a, t', -, hc⟩
    · exact ⟨op, rfl⟩
    · exact ih a t' op' hc

theorem Uses.embed {A : Op → Prop} (h : Uses (fun op => A (f op)) p) : Uses A (Prog.embed f g p) := by
  induction p with
  | pure a => exact .pure
  | throw e => exact .throw
  | call op k ih =>
    intro t op' hc
    rcases calls_call.mp hc with ⟨-, rfl⟩ | ⟨a, t', -, hc⟩
    · exact h [] op (calls_call.mpr (.inl ⟨rfl, rfl⟩))
    · exact ih a (fun t op hc => h (⟨_, a⟩ :: t) op (calls_call.mpr (.inr ⟨a, t, rfl, hc⟩))) t' op' hc

/-- The events of the program, as events of the whole. -/
def embedEvent (f : Op' → Op) (e : Event fun op => Ans (f op)) : Event Ans := ⟨f e.1, e.2⟩

theorem runs_embed {t : List (Event Ans)} {r : Except ε α} :
    Runs (embed f g p) t r ↔
      ∃ t' r', t = t'.map (embedEvent f) ∧ r = r'.mapError g ∧ Runs p t' r' := by
  induction p generalizing t with
  | pure a =>
    rw [embed, runs_pure]
    constructor
    · rintro ⟨rfl, rfl⟩
      exact ⟨[], .ok a, rfl, rfl, runs_pure.mpr ⟨rfl, rfl⟩⟩
    · rintro ⟨t', r', rfl, rfl, h⟩
      obtain ⟨rfl, rfl⟩ := runs_pure.mp h
      exact ⟨rfl, rfl⟩
  | throw e =>
    rw [embed, runs_throw]
    constructor
    · rintro ⟨rfl, rfl⟩
      exact ⟨[], .error e, rfl, rfl, runs_throw.mpr ⟨rfl, rfl⟩⟩
    · rintro ⟨t', r', rfl, rfl, h⟩
      obtain ⟨rfl, rfl⟩ := runs_throw.mp h
      exact ⟨rfl, rfl⟩
  | call op k ih =>
    rw [embed, runs_call]
    constructor
    · rintro ⟨a, t₁, rfl, h⟩
      obtain ⟨t', r', rfl, rfl, hk⟩ := (ih a).mp h
      exact ⟨⟨op, a⟩ :: t', r', rfl, rfl, runs_call.mpr ⟨a, t', rfl, hk⟩⟩
    · rintro ⟨t', r', rfl, rfl, h⟩
      obtain ⟨a, t₁, rfl, hk⟩ := runs_call.mp h
      exact ⟨a, t₁.map (embedEvent f), rfl, (ih a).mpr ⟨t₁, r', rfl, rfl, hk⟩⟩

theorem ThrowsOn.embed {bad : Event Ans → Prop} (h : ThrowsOn (fun e => bad (embedEvent f e)) p) :
    ThrowsOn bad (Prog.embed f g p) := by
  intro t r hr
  obtain ⟨t', r', rfl, rfl, hp⟩ := runs_embed.mp hr
  have hiff := h t' r' hp
  constructor
  · rintro ⟨e, he⟩
    cases r' with
    | ok a => cases he
    | error e' =>
      obtain ⟨x, hx, hbad⟩ := hiff.mp ⟨e', rfl⟩
      exact ⟨embedEvent f x, List.mem_map_of_mem hx, hbad⟩
  · rintro ⟨x, hx, hbad⟩
    obtain ⟨y, hy, rfl⟩ := List.mem_map.mp hx
    obtain ⟨e', rfl⟩ := hiff.mpr ⟨y, hy, hbad⟩
    exact ⟨g e', rfl⟩

end Prog

namespace Discipline

variable {Op : Type u} {Op' : Type u} {Ans : Op → Type v} {σ : Type w} {ε ε' α : Type v}

/-- A discipline, as a program over the operations that `f` names meets it. -/
def comap (f : Op' → Op) (D : Discipline Ans σ) : Discipline (fun op => Ans (f op)) σ where
  permits s op := D.permits s (f op)
  next s e := D.next s (Prog.embedEvent f e)

theorem Keeps.embed {D : Discipline Ans σ} {f : Op' → Op} {g : ε' → ε}
    {p : Prog (fun op => Ans (f op)) ε' α} {Q : α → σ → Prop} {s : σ}
    (h : (D.comap f).Keeps p Q s) : D.Keeps (Prog.embed f g p) Q s := by
  induction p generalizing s with
  | pure a => exact h
  | throw e => trivial
  | call op k ih => exact ⟨h.1, fun a => ih a (h.2 a)⟩

end Discipline

end Interaction
