import Mathlib.Data.List.NodupEquivFin

/-!
# When the Wi-Fi setup screen is required

`update` is told the Wi-Fi daemon's mode and the uptime. Its two latches and the
clock have a closed form over the calls so far (`Says`): there was an access point,
there was no connection, and the boot window is not over. The uptime never goes back,
so the verdict never returns (`no_flap`).
-/

namespace ShareFrame

structure ApSetupDebounce where
  bootWindowSecs_ : Int
  seenConnected_ : Bool := false
  required_ : Bool := false
  deriving DecidableEq, Repr

namespace ApSetupDebounce

def update (d : ApSetupDebounce) (mode : String) (uptimeSecs : Int) : ApSetupDebounce × Bool :=
  let allowed := !d.seenConnected_ && decide (uptimeSecs < d.bootWindowSecs_)
  let d :=
    if mode = "connected" then { d with seenConnected_ := true, required_ := false }
    else if mode = "ap" then { d with required_ := allowed }
    else { d with required_ := d.required_ && allowed }
  (d, d.required_)

/-- The mode and the uptime of a call. -/
abbrev Call := String × Int

/-- The debounce after some calls. -/
def after : ApSetupDebounce → List Call → ApSetupDebounce
  | d, [] => d
  | d, (mode, uptimeSecs) :: calls => (d.update mode uptimeSecs).1.after calls

/-- The verdicts, call by call. -/
def answers : ApSetupDebounce → List Call → List Bool
  | _, [] => []
  | d, (mode, uptimeSecs) :: calls =>
    (d.update mode uptimeSecs).2 :: (d.update mode uptimeSecs).1.answers calls

/-- The uptime never goes back. -/
def Ordered (calls : List Call) : Prop := calls.Pairwise (·.2 ≤ ·.2)

/-- Some call reported the mode. -/
def Seen (mode : String) (calls : List Call) : Prop := ∃ c ∈ calls, c.1 = mode

/-- There was an access point and no connection, and the last call is in the boot window. -/
def Requires (bootWindowSecs : Int) (calls : List Call) : Prop :=
  Seen "ap" calls ∧ ¬ Seen "connected" calls ∧ ∀ c ∈ calls.getLast?, c.2 < bootWindowSecs

/-- The latches in terms of the calls so far. -/
structure Says (bootWindowSecs : Int) (calls : List Call) (d : ApSetupDebounce) : Prop where
  window : d.bootWindowSecs_ = bootWindowSecs
  connected : d.seenConnected_ = true ↔ Seen "connected" calls
  required : d.required_ = true ↔ Requires bootWindowSecs calls

variable {w uptimeSecs : Int} {calls later : List Call} {d : ApSetupDebounce} {mode m : String}

theorem answers_append (d : ApSetupDebounce) (calls later : List Call) :
    d.answers (calls ++ later) = d.answers calls ++ (d.after calls).answers later := by
  induction calls generalizing d with
  | nil => rfl
  | cons c calls ih => simp only [List.cons_append, answers, after, ih]

theorem after_append (d : ApSetupDebounce) (calls later : List Call) :
    d.after (calls ++ later) = (d.after calls).after later := by
  induction calls generalizing d with
  | nil => rfl
  | cons c calls ih => exact ih _

theorem length_answers (d : ApSetupDebounce) (calls : List Call) :
    (d.answers calls).length = calls.length := by
  induction calls generalizing d with
  | nil => rfl
  | cons c calls ih => simp only [answers, List.length_cons, ih]

theorem seen_append : Seen m (calls ++ [(mode, uptimeSecs)]) ↔ Seen m calls ∨ mode = m := by
  simp [Seen, or_and_right, exists_or]

theorem Ordered.of_append (h : Ordered (calls ++ later)) : Ordered calls :=
  (List.pairwise_append.mp h).1

theorem Ordered.le_of_getLast? {c : Call} (h : Ordered (calls ++ [(mode, uptimeSecs)]))
    (hc : c ∈ calls.getLast?) : c.2 ≤ uptimeSecs :=
  (List.pairwise_append.mp h).2.2 c (List.mem_of_getLast? hc) _ List.mem_cons_self

theorem requires_append :
    Requires w (calls ++ [(mode, uptimeSecs)]) ↔
      (Seen "ap" calls ∨ mode = "ap") ∧ ¬ (Seen "connected" calls ∨ mode = "connected") ∧
        uptimeSecs < w := by
  simp [Requires, seen_append]

/-- Modes other than the two keep what was required while the window lasts. -/
theorem requires_append_other (hc : mode ≠ "connected") (ha : mode ≠ "ap")
    (hord : Ordered (calls ++ [(mode, uptimeSecs)])) :
    Requires w (calls ++ [(mode, uptimeSecs)]) ↔ Requires w calls ∧ uptimeSecs < w := by
  simp only [requires_append, hc, ha, or_false]
  constructor
  · rintro ⟨hap, hconn, hlt⟩
    exact ⟨⟨hap, hconn, fun c hlast => lt_of_le_of_lt (hord.le_of_getLast? hlast) hlt⟩, hlt⟩
  · rintro ⟨⟨hap, hconn, -⟩, hlt⟩
    exact ⟨hap, hconn, hlt⟩

theorem says_nil : Says w [] ⟨w, false, false⟩ := by
  constructor <;> simp [Seen, Requires]

/-- Every call keeps the closed form. -/
theorem Says.update (h : Says w calls d) (hord : Ordered (calls ++ [(mode, uptimeSecs)])) :
    Says w (calls ++ [(mode, uptimeSecs)]) (d.update mode uptimeSecs).1 := by
  obtain ⟨rfl, hconnected, hrequired⟩ := h
  by_cases hc : mode = "connected"
  · constructor
    · simp [ApSetupDebounce.update, hc]
    · simp [ApSetupDebounce.update, hc, seen_append]
    · simp [ApSetupDebounce.update, hc, requires_append]
  · by_cases ha : mode = "ap"
    · constructor
      · simp [ApSetupDebounce.update, ha]
      · simp [ApSetupDebounce.update, ha, seen_append, hconnected]
      · simp [ApSetupDebounce.update, ha, requires_append, ← hconnected]
    · constructor
      · simp [ApSetupDebounce.update, hc, ha]
      · simp [ApSetupDebounce.update, hc, ha, seen_append, hconnected]
      · rw [requires_append_other hc ha hord, ← hrequired]
        simp only [ApSetupDebounce.update, hc, ha, if_false, Bool.and_eq_true, Bool.not_eq_true',
          decide_eq_true_eq]
        -- a latched connection has switched the screen off already
        refine and_congr_right fun hreq => and_iff_right ?_
        exact Bool.eq_false_iff.mpr fun hseen => (hrequired.mp hreq).2.1 (hconnected.mp hseen)

theorem Says.after (h : Says w calls d) (hord : Ordered (calls ++ later)) :
    Says w (calls ++ later) (d.after later) := by
  induction later generalizing calls d with
  | nil => rwa [List.append_nil]
  | cons c later ih =>
    rw [List.append_cons] at hord ⊢
    exact ih (h.update hord.of_append) hord

/-- The verdict in closed form. -/
theorem getElem?_answers {i : Nat} {c : Call} (hord : Ordered calls) (hi : calls[i]? = some c) :
    (answers ⟨w, false, false⟩ calls)[i]? = some true ↔
      Seen "ap" (calls.take (i + 1)) ∧ ¬ Seen "connected" (calls.take (i + 1)) ∧ c.2 < w := by
  obtain ⟨hlt, rfl⟩ := List.getElem?_eq_some_iff.mp hi
  have htake : calls.take (i + 1) = calls.take i ++ [calls[i]] :=
    List.take_succ_eq_append_getElem hlt
  have hsplit : calls = calls.take i ++ calls[i] :: calls.drop (i + 1) := by
    rw [List.append_cons, ← htake, List.take_append_drop]
  have hlen : (answers ⟨w, false, false⟩ (calls.take i)).length = i := by
    rw [length_answers, List.length_take, Nat.min_eq_left hlt.le]
  have hanswer : (answers ⟨w, false, false⟩ calls)[i]? =
      some (after ⟨w, false, false⟩ (calls.take (i + 1))).required_ := by
    conv_lhs => rw [hsplit, answers_append]
    rw [List.getElem?_append_right hlen.le, hlen, Nat.sub_self, htake, after_append]
    rfl
  have hbefore : Ordered ([] ++ calls.take (i + 1)) := hord.sublist (List.take_sublist _ _)
  have hsays : Says w (calls.take (i + 1)) _ := says_nil.after hbefore
  have hlast : (calls.take (i + 1)).getLast? = some calls[i] := by rw [htake, List.getLast?_concat]
  rw [hanswer, Option.some_inj, hsays.required, Requires, hlast]
  simp

theorem Seen.mono {i j : Nat} (h : Seen m (calls.take i)) (hij : i ≤ j) :
    Seen m (calls.take j) := by
  obtain ⟨c, hc, hmode⟩ := h
  exact ⟨c, (List.take_subset_take_left calls hij) hc, hmode⟩

/-- Once the verdict has gone back to false, there is a reason that stays. -/
theorem answers_stay_false {i j k : Nat} (hord : Ordered calls) (hij : i < j) (hjk : j < k)
    (hi : (answers ⟨w, false, false⟩ calls)[i]? = some true)
    (hj : (answers ⟨w, false, false⟩ calls)[j]? = some false) :
    (answers ⟨w, false, false⟩ calls)[k]? ≠ some true := by
  intro hk
  have hlen := length_answers ⟨w, false, false⟩ calls
  have hklt : k < calls.length := by
    rw [← hlen]
    exact (List.getElem?_eq_some_iff.mp hk).1
  have hjlt : j < calls.length := hjk.trans hklt
  have hilt : i < calls.length := hij.trans hjlt
  obtain ⟨hap, -, -⟩ := (getElem?_answers hord (List.getElem?_eq_getElem hilt)).mp hi
  obtain ⟨-, hconn, hwindow⟩ := (getElem?_answers hord (List.getElem?_eq_getElem hklt)).mp hk
  -- the uptime at `j` was no later, and no connection had been reported
  have htime : (calls[j]).2 ≤ (calls[k]).2 := List.pairwise_iff_getElem.mp hord j k hjlt hklt hjk
  have hjtrue := (getElem?_answers (w := w) hord (List.getElem?_eq_getElem hjlt)).mpr
    ⟨hap.mono (by omega), fun h => hconn (h.mono (by omega)), htime.trans_lt hwindow⟩
  rw [hj] at hjtrue
  cases hjtrue

theorem not_sublist_answers (hord : Ordered calls) :
    ¬ [true, false, true].Sublist (answers ⟨w, false, false⟩ calls) := by
  rw [List.sublist_iff_exists_orderEmbedding_getElem?_eq]
  rintro ⟨f, hf⟩
  have hij : f 0 < f 1 := f.strictMono (by decide)
  have hjk : f 1 < f 2 := f.strictMono (by decide)
  exact answers_stay_false hord hij hjk (hf 0).symm (hf 1).symm (hf 2).symm

/-- The setup screen does not flap. A verdict is true just when an access point was
reported, no connection was, and the boot window is not over. Back at false it stays
there, and only the access point turns it on. -/
theorem no_flap (w : Int) (calls : List Call) (hord : Ordered calls) :
    (∀ i c, calls[i]? = some c →
      ((answers ⟨w, false, false⟩ calls)[i]? = some true ↔
        (∃ c ∈ calls.take (i + 1), c.1 = "ap") ∧ (∀ c ∈ calls.take (i + 1), c.1 ≠ "connected") ∧
          c.2 < w)) ∧
    (∀ i j k : Nat, i < j → j < k → (answers ⟨w, false, false⟩ calls)[i]? = some true →
      (answers ⟨w, false, false⟩ calls)[j]? = some false →
      (answers ⟨w, false, false⟩ calls)[k]? ≠ some true) ∧
    ∀ i c, calls[i]? = some c → c.1 ≠ "ap" → c.1 ≠ "connected" →
      (answers ⟨w, false, false⟩ calls)[i]? = some true →
      ∃ j, i = j + 1 ∧ (answers ⟨w, false, false⟩ calls)[j]? = some true := by
  refine ⟨fun i c hi => ?_, fun i j k hij hjk => answers_stay_false hord hij hjk,
    fun i c hi ha hc htrue => ?_⟩
  · rw [getElem?_answers hord hi]
    simp only [Seen, not_exists, not_and, ne_eq]
  · obtain ⟨hap, hconn, hwindow⟩ := (getElem?_answers hord hi).mp htrue
    obtain ⟨hlt, rfl⟩ := List.getElem?_eq_some_iff.mp hi
    cases i with
    | zero =>
      obtain ⟨d, hd, hmode⟩ := hap
      rw [List.take_succ_eq_append_getElem hlt, List.take_zero, List.nil_append,
        List.mem_singleton] at hd
      exact absurd (hd ▸ hmode) ha
    | succ j =>
      have hjlt : j < calls.length := by omega
      refine ⟨j, rfl, (getElem?_answers hord (List.getElem?_eq_getElem hjlt)).mpr ⟨?_, ?_, ?_⟩⟩
      · -- the access point was an earlier call's
        rw [List.take_succ_eq_append_getElem hlt] at hap
        exact (seen_append.mp hap).resolve_right ha
      · exact fun h => hconn (h.mono (by omega))
      · exact (List.pairwise_iff_getElem.mp hord j (j + 1) hjlt hlt (by omega)).trans_lt hwindow

theorem no_flap_retry :
    (answers ⟨600, false, false⟩
      [("connecting", 10), ("ap", 60), ("connecting", 240), ("ap", 600), ("connecting", 780),
        ("ap", 840)])[5]? ≠ some true :=
  (no_flap 600 _ (by simp [Ordered])).2.1 2 3 5 (by decide) (by decide) rfl rfl

end ApSetupDebounce

end ShareFrame
