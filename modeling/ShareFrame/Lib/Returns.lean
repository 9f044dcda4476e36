import ShareFrame.Lib.Discipline

/-!
# Programs under good answers

`Returns good p Q`: as long as all its calls get good answers, the program `p` does
not throw, and a value that it ends with meets `Q`. This is so of a sequence if and
only if it is of the first program, with the second behind it (`returns_bind`), and it
says the same as all runs do (`returns_iff`).
-/

namespace Interaction.Prog

universe u v w

variable {Op : Type u} {Ans : Op → Type v} {ε α β : Type v}

def Returns (good : Event Ans → Prop) : Prog Ans ε α → (α → Prop) → Prop
  | .pure a, Q => Q a
  | .throw _, _ => False
  | .call op k, Q => ∀ a, good ⟨op, a⟩ → Returns good (k a) Q

variable {good : Event Ans → Prop} {p : Prog Ans ε α} {Q R : α → Prop}

@[simp] theorem returns_pure {a : α} : Returns good (.pure a : Prog Ans ε α) Q ↔ Q a := .rfl

@[simp] theorem returns_throw {e : ε} : ¬ Returns good (.throw e : Prog Ans ε α) Q := id

@[simp] theorem returns_call {op : Op} {k : Ans op → Prog Ans ε α} :
    Returns good (.call op k) Q ↔ ∀ a, good ⟨op, a⟩ → Returns good (k a) Q := .rfl

@[simp] theorem returns_ask {op : Op} {Q : Ans op → Prop} :
    Returns good (ask op : Prog Ans ε _) Q ↔ ∀ a, good ⟨op, a⟩ → Q a := .rfl

/-- A computation that does not fail. -/
@[simp] theorem returns_lift {x : Except ε α} :
    Returns good (lift x) Q ↔ ∃ a, x = .ok a ∧ Q a := by
  cases x with
  | ok a => simp [lift]
  | error e => simp [lift]

theorem returns_bind {f : α → Prog Ans ε β} {Q : β → Prop} :
    Returns good (p >>= f) Q ↔ Returns good p fun a => Returns good (f a) Q := by
  induction p with
  | pure a => rfl
  | throw e => rfl
  | call op k ih =>
    rw [call_bind, returns_call, returns_call]
    exact forall_congr' fun a => imp_congr_right fun _ => ih a

/-- A call at the head of a sequence. -/
theorem returns_ask_bind {op : Op} {f : Ans op → Prog Ans ε β} {Q : β → Prop} :
    Returns good (ask op >>= f) Q ↔ ∀ a, good ⟨op, a⟩ → Returns good (f a) Q := .rfl

theorem Returns.mono (h : Returns good p Q) (hQ : ∀ a, Q a → R a) : Returns good p R := by
  induction p with
  | pure a => exact hQ a h
  | throw e => exact h
  | call op k ih => exact fun a ha => ih a (h a ha)

/-- A program and what follows it. -/
theorem Returns.bind {f : α → Prog Ans ε β} {Q : β → Prop} (h : Returns good p R)
    (hf : ∀ a, R a → Returns good (f a) Q) : Returns good (p >>= f) Q :=
  returns_bind.mpr (h.mono hf)

theorem returns_iff : Returns good p Q ↔
    ∀ t r, Runs p t r → (∀ e ∈ t, good e) → ∃ a, r = .ok a ∧ Q a := by
  induction p with
  | pure a =>
    constructor
    · intro h t r hr _
      exact ⟨a, (runs_pure.mp hr).2, h⟩
    · intro h
      obtain ⟨b, hb, hQ⟩ := h [] (.ok a) (runs_pure.mpr ⟨rfl, rfl⟩) (List.forall_mem_nil _)
      cases hb
      exact hQ
  | throw e =>
    constructor
    · exact fun h => h.elim
    · intro h
      obtain ⟨b, hb, -⟩ := h [] (.error e) (runs_throw.mpr ⟨rfl, rfl⟩) (List.forall_mem_nil _)
      cases hb
  | call op k ih =>
    rw [returns_call]
    constructor
    · intro h t r hr hgood
      obtain ⟨a, t', rfl, hk⟩ := runs_call.mp hr
      rw [List.forall_mem_cons] at hgood
      exact (ih a).mp (h a hgood.1) t' r hk hgood.2
    · refine fun h a ha => (ih a).mpr fun t r hr hgood => ?_
      exact h _ r (runs_call.mpr ⟨a, t, rfl, hr⟩) (List.forall_mem_cons.mpr ⟨ha, hgood⟩)

theorem Returns.embed {Op' : Type u} {ε' : Type v} {f : Op' → Op} {g : ε' → ε}
    {p : Prog (fun op => Ans (f op)) ε' α} (h : Returns (fun e => good (embedEvent f e)) p Q) :
    Returns good (Prog.embed f g p) Q := by
  induction p with
  | pure a => exact h
  | throw e => exact h
  | call op k ih => exact fun a ha => ih a (h a ha)

end Interaction.Prog
