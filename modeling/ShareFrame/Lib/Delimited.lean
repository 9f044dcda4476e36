import Mathlib.Tactic.Common

/-!
# Texts that can be told apart

A writer is *instant* if its texts end where they end whatever is written behind them, and
*stopped* if they do as long as a stop symbol is written there. A closing symbol makes a
sequence of instant texts instant (`Instant.quoted`), and a list of stopped texts with a comma
between them and a closing symbol can be read back (`listed_inj`).
-/

namespace Delimited

universe u v w

variable {α : Type u} {β : Type v} {γ : Type w}

/-- The text determines the value and where the rest starts. -/
def Instant (enc : α → List γ) : Prop := ∀ a b s t, enc a ++ s = enc b ++ t → a = b ∧ s = t

/-- The same as long as a stop symbol is behind it. -/
def Stopped (stop : γ → Prop) (enc : α → List γ) : Prop :=
  ∀ a b c d s t, stop c → stop d → enc a ++ c :: s = enc b ++ d :: t → a = b ∧ c :: s = d :: t

variable {enc : α → List γ} {stop : γ → Prop} {a b : α} {s t u v : List γ}

/-- Texts without a stop symbol in them. -/
theorem Stopped.of_notMem (hinj : ∀ a b, enc a = enc b → a = b)
    (hnot : ∀ a, ∀ c ∈ enc a, ¬stop c) : Stopped stop enc := by
  have key : ∀ (u v : List γ) (c d : γ) (s t : List γ), (∀ x ∈ u, ¬stop x) → (∀ x ∈ v, ¬stop x) →
      stop c → stop d → u ++ c :: s = v ++ d :: t → u = v ∧ c :: s = d :: t := by
    intro u
    induction u with
    | nil =>
      intro v c d s t _ hv hc _ heq
      cases v with
      | nil => exact ⟨rfl, heq⟩
      | cons y v =>
        rw [List.nil_append, List.cons_append, List.cons.injEq] at heq
        exact absurd (heq.1 ▸ hc) (hv y List.mem_cons_self)
    | cons x u ih =>
      intro v c d s t hu hv hc hd heq
      cases v with
      | nil =>
        rw [List.nil_append, List.cons_append, List.cons.injEq] at heq
        exact absurd (heq.1 ▸ hd) (hu x List.mem_cons_self)
      | cons y v =>
        rw [List.cons_append, List.cons_append, List.cons.injEq] at heq
        obtain ⟨rfl, heq⟩ := heq
        obtain ⟨rfl, hrest⟩ := ih v c d s t (fun z hz => hu z (List.mem_cons_of_mem _ hz))
          (fun z hz => hv z (List.mem_cons_of_mem _ hz)) hc hd heq
        exact ⟨rfl, hrest⟩
  intro a b c d s t hc hd heq
  obtain ⟨henc, hrest⟩ := key _ _ c d s t (hnot a) (hnot b) hc hd heq
  exact ⟨hinj a b henc, hrest⟩

/-- Texts up to a closing symbol that starts none of them. -/
theorem Instant.quoted {close : γ} (h : Instant enc) (hclose : ∀ a s t, enc a ++ s ≠ close :: t) :
    Instant fun l : List α => l.flatMap enc ++ [close] := by
  intro l
  induction l with
  | nil =>
    intro m s t heq
    cases m with
    | nil => exact ⟨rfl, by simpa using heq⟩
    | cons b m =>
      simp only [List.flatMap_nil, List.flatMap_cons, List.append_assoc, List.nil_append,
        List.singleton_append] at heq
      exact absurd heq.symm (hclose b _ _)
  | cons a l ih =>
    intro m s t heq
    cases m with
    | nil =>
      simp only [List.flatMap_nil, List.flatMap_cons, List.append_assoc, List.nil_append,
        List.singleton_append] at heq
      exact absurd heq (hclose a _ _)
    | cons b m =>
      simp only [List.flatMap_cons, List.append_assoc] at heq
      obtain ⟨rfl, hl⟩ := h _ _ _ _ heq
      obtain ⟨rfl, hrest⟩ := ih m s t (by simpa only [List.append_assoc] using hl)
      exact ⟨rfl, hrest⟩

/-- One text and a second one behind it. -/
theorem Instant.pair {enc' : β → List γ} (h : Instant enc) (h' : Stopped stop enc') :
    Stopped stop fun p : α × β => enc p.1 ++ enc' p.2 := by
  rintro ⟨a, a'⟩ ⟨b, b'⟩ c d s t hc hd heq
  simp only [List.append_assoc] at heq
  obtain ⟨rfl, hsecond⟩ := h _ _ _ _ heq
  obtain ⟨rfl, hrest⟩ := h' _ _ _ _ _ _ hc hd hsecond
  exact ⟨rfl, hrest⟩

variable (comma close : γ) (enc)

/-- The texts behind the first one, and the closing symbol. -/
def further : List α → List γ
  | [] => [close]
  | a :: l => comma :: (enc a ++ further l)

/-- Texts with a comma between them. -/
def listed : List α → List γ
  | [] => [close]
  | a :: l => enc a ++ further enc comma close l

variable {comma close enc}

theorem exists_further (enc : α → List γ) (l : List α) :
    ∃ c s, further enc comma close l = c :: s ∧ (c = comma ∨ c = close) := by
  cases l with
  | nil => exact ⟨close, [], rfl, .inr rfl⟩
  | cons a l => exact ⟨comma, _, rfl, .inl rfl⟩

section

variable (h : Stopped (fun c => c = comma ∨ c = close) enc) (hne : comma ≠ close)
include h hne

theorem further_inj {l m : List α}
    (heq : further enc comma close l = further enc comma close m) : l = m := by
  induction l generalizing m with
  | nil =>
    cases m with
    | nil => rfl
    | cons b m => exact absurd (List.cons.inj heq).1.symm hne
  | cons a l ih =>
    cases m with
    | nil => exact absurd (List.cons.inj heq).1 hne
    | cons b m =>
      obtain ⟨c, s, hl, hc⟩ := exists_further enc l
      obtain ⟨d, t, hm, hd⟩ := exists_further enc m
      have htail := (List.cons.inj heq).2
      rw [hl, hm] at htail
      obtain ⟨rfl, hrest⟩ := h _ _ _ _ _ _ hc hd htail
      have hlm : l = m := ih (by rw [hl, hm, hrest])
      rw [hlm]

/-- **A list can be read back.** -/
theorem listed_inj (hclose : ∀ a s, enc a ++ s ≠ [close]) {l m : List α}
    (heq : listed enc comma close l = listed enc comma close m) : l = m := by
  cases l with
  | nil =>
    cases m with
    | nil => rfl
    | cons b m => exact absurd heq.symm (hclose b _)
  | cons a l =>
    cases m with
    | nil => exact absurd heq (hclose a _)
    | cons b m =>
      obtain ⟨c, s, hl, hc⟩ := exists_further enc l
      obtain ⟨d, t, hm, hd⟩ := exists_further enc m
      rw [listed, listed, hl, hm] at heq
      obtain ⟨rfl, hrest⟩ := h _ _ _ _ _ _ hc hd heq
      have hlm : l = m := further_inj h hne (by rw [hl, hm, hrest])
      rw [hlm]

end

end Delimited
