import ShareFrame.Dashboard.DashboardServer

/-!
# The session among other cookies

A browser puts the cookies of every service on the host into one header.
`_extractSessionId` takes what stands behind the first `session=` in it, so the first
cookie in whose text that occurs decides (`extract_header_cons`). A cookie whose name
ends in `session`, or whose value contains `session=`, hides the session behind it
(`found_iff`, `occurs_iff`).
-/

namespace ShareFrame.Dashboard.Cookies

/-- A cookie of a browser, a `Char` for every byte. -/
structure Cookie where
  name : List Char
  value : List Char
  name_free : ';' ∉ name ∧ '=' ∉ name
  value_free : ';' ∉ value

/-- As it stands in the header. -/
def Cookie.text (c : Cookie) : List Char := c.name ++ '=' :: c.value

/-- The header of these cookies. -/
def header : List Cookie → List Char
  | [] => []
  | [c] => c.text
  | c :: d :: cs => c.text ++ ';' :: ' ' :: header (d :: cs)

def session : List Char := "session".toList

/-- The value of the first cookie that is named `session`. -/
def sessionOf : List Cookie → String
  | [] => ""
  | c :: cs => if c.name = session then String.ofList c.value else sessionOf cs

/-- `session=` -/
def pattern : List Char := "session=".toList

/-- The first cookie in which `session=` occurs is the session, or has the same behind it. -/
def Visible (cs : List Cookie) : Prop :=
  ∀ before c after rest, cs = before ++ c :: after → (∀ b ∈ before, ¬ pattern <:+: b.text) →
    Text.First pattern c.text rest → c.name = session ∨ String.ofList rest = sessionOf after

variable {c : Cookie} {cs : List Cookie}

theorem Cookie.semicolon_notMem (c : Cookie) : ';' ∉ c.text := by
  simp [text, c.name_free.1, c.value_free]

theorem pattern_ne : pattern ≠ [] := by decide

theorem semicolon_notMem : ';' ∉ pattern := by decide

/-! ## What is found -/

/-- The session that is found in a header. -/
def extract (cookies : List Char) : String :=
  ((Text.behind pattern cookies).map fun rest => String.ofList (rest.takeWhile (· ≠ ';'))).getD ""

theorem extractSessionId_header (req : Request) (cs : List Cookie) :
    extractSessionId { req with cookie := some (String.ofList (header cs)) } =
      extract (header cs) := by
  unfold extractSessionId extract
  simp only [String.toList_ofList]
  rw [show "session=".toList = pattern from rfl]
  cases Text.behind pattern (header cs) <;> rfl

/-- A text in which `session=` occurs, and what follows it. -/
theorem takeWhile_rest {rest : List Char} (more : List Char)
    (h : Text.behind pattern c.text = some rest) :
    (rest ++ ';' :: more).takeWhile (· ≠ ';') = rest ∧ rest.takeWhile (· ≠ ';') = rest := by
  obtain ⟨before, heq, -⟩ := Text.behind_eq_some_iff.mp h
  have hall : ∀ d ∈ rest, decide (d ≠ ';') = true := by
    intro d hd
    rw [decide_eq_true_eq]
    rintro rfl
    refine c.semicolon_notMem ?_
    rw [heq]
    exact List.mem_append_right _ (List.mem_append_right _ hd)
  refine ⟨?_, List.takeWhile_eq_self_iff.mpr hall⟩
  rw [List.takeWhile_append_of_pos hall, List.takeWhile_cons_of_neg (by simp), List.append_nil]

/-- The first cookie in which `session=` occurs decides. -/
theorem extract_header_cons (c : Cookie) (cs : List Cookie) :
    extract (header (c :: cs)) =
      ((Text.behind pattern c.text).map String.ofList).getD (extract (header cs)) := by
  cases cs with
  | nil =>
    rw [show header [c] = c.text from rfl, extract]
    cases hc : Text.behind pattern c.text with
    | none => rfl
    | some rest => exact congrArg String.ofList (takeWhile_rest [] hc).2
  | cons d cs =>
    have hblank : Text.behind pattern (' ' :: header (d :: cs)) =
        Text.behind pattern (header (d :: cs)) := by
      have hnot : ¬ pattern <+: ' ' :: header (d :: cs) := by
        rw [show pattern = 's' :: "ession=".toList from rfl, List.cons_prefix_cons]
        rintro ⟨⟨⟩, -⟩
      rw [Text.behind_cons, if_neg hnot]
    rw [header, extract, Text.behind_append_cons semicolon_notMem pattern_ne, hblank]
    cases hc : Text.behind pattern c.text with
    | none => rfl
    | some rest => exact congrArg String.ofList (takeWhile_rest _ hc).1

/-! ## When it is the session -/

theorem behind_session (h : c.name = session) : Text.behind pattern c.text = some c.value := by
  refine Text.behind_eq_some_iff.mpr ⟨[], ?_, fun _ _ _ => Nat.zero_le _⟩
  rw [Cookie.text, h]
  rfl

/-- Behind a cookie without `session=`. -/
theorem visible_of_none (h : Text.behind pattern c.text = none) :
    Visible (c :: cs) ↔ Visible cs := by
  have hnot := Text.behind_eq_none_iff.mp h
  constructor
  · intro hvisible before d after rest heq hbefore
    refine hvisible (c :: before) d after rest (congrArg (c :: ·) heq) ?_
    exact List.forall_mem_cons.mpr ⟨hnot, hbefore⟩
  · intro hvisible before d after rest heq hbefore hfirst
    cases before with
    | nil =>
      obtain ⟨rfl, rfl⟩ := List.cons.inj heq
      rw [Text.behind_eq_some_iff.mpr hfirst] at h
      cases h
    | cons b before =>
      obtain ⟨rfl, rfl⟩ := List.cons.inj heq
      exact hvisible before d after rest rfl (List.forall_mem_cons.mp hbefore).2 hfirst

/-- A cookie with `session=`. -/
theorem visible_of_some {rest : List Char} (h : Text.behind pattern c.text = some rest) :
    Visible (c :: cs) ↔ c.name = session ∨ String.ofList rest = sessionOf cs := by
  have hfirst := Text.behind_eq_some_iff.mp h
  constructor
  · intro hvisible
    exact hvisible [] c cs rest rfl (List.forall_mem_nil _) hfirst
  · intro hc before d after rest' heq hbefore hfirst'
    cases before with
    | nil =>
      obtain ⟨rfl, rfl⟩ := List.cons.inj heq
      obtain rfl := Option.some.inj (h.symm.trans (Text.behind_eq_some_iff.mpr hfirst'))
      exact hc
    | cons b before =>
      obtain ⟨rfl, rfl⟩ := List.cons.inj heq
      have hnone := Text.behind_eq_none_iff.mpr (hbefore c List.mem_cons_self)
      rw [h] at hnone
      cases hnone

/-- The session is found if and only if no other cookie in front of it mentions `session=`, or the
first that does has the same behind it. -/
theorem found_iff (req : Request) (cs : List Cookie) :
    extractSessionId { req with cookie := some (String.ofList (header cs)) } = sessionOf cs ↔
      Visible cs := by
  rw [extractSessionId_header]
  induction cs with
  | nil =>
    refine iff_of_true rfl ?_
    intro before c after rest heq
    simp at heq
  | cons c cs ih =>
    rw [extract_header_cons, sessionOf]
    by_cases hc : c.name = session
    · have hbehind := behind_session hc
      rw [hbehind, if_pos hc]
      exact iff_of_true rfl ((visible_of_some hbehind).mpr (.inl hc))
    · rw [if_neg hc]
      cases hbehind : Text.behind pattern c.text with
      | none =>
        rw [visible_of_none hbehind, ← ih]
        rfl
      | some rest =>
        rw [visible_of_some hbehind, or_iff_right hc]
        rfl

/-! ## Which cookies hide it -/

theorem occurs_iff (c : Cookie) :
    pattern <:+: c.text ↔ session <:+ c.name ∨ pattern <:+: c.value := by
  have hequals : '=' ∉ session := by decide
  constructor
  · intro h
    obtain hname | hvalue | ⟨front, back, -, hback, heq, hfront, hprefix⟩ :=
      List.infix_append_iff_ne_nil.mp h
    · exact absurd (hname.subset (show '=' ∈ pattern by decide)) c.name_free.2
    · obtain hprefix | hvalue := List.infix_cons_iff.mp hvalue
      · rw [show pattern = 's' :: "ession=".toList from rfl, List.cons_prefix_cons] at hprefix
        cases hprefix.1
      · exact .inr hvalue
    · -- the name ends in front of the first `=`
      obtain ⟨d, back, rfl⟩ := List.exists_cons_of_ne_nil hback
      obtain ⟨rfl, -⟩ := List.cons_prefix_cons.mp hprefix
      rw [show pattern = session ++ '=' :: [] from rfl] at heq
      obtain ⟨rfl, -⟩ := (List.append_cons_inj_of_notMem hequals List.not_mem_nil).mp heq
      exact .inl hfront
  · rintro (⟨before, hname⟩ | hvalue)
    · refine ⟨before, c.value, ?_⟩
      rw [Cookie.text, ← hname, List.append_assoc, List.append_assoc]
      rfl
    · exact hvalue.trans ⟨c.name ++ ['='], [], by simp [Cookie.text]⟩

/-- Among cookies whose names do not end in `session` and whose values do not contain `session=`
it is visible. -/
theorem visible_of_plain
    (h : ∀ c ∈ cs, c.name = session ∨ ¬ session <:+ c.name ∧ ¬ pattern <:+: c.value) :
    Visible cs := by
  intro before c after rest heq _ hfirst
  have hc := h c (heq ▸ List.mem_append_right before List.mem_cons_self)
  rw [← not_or, ← occurs_iff] at hc
  refine hc.imp_right fun hnot => absurd ?_ hnot
  obtain ⟨front, htext, -⟩ := hfirst
  exact ⟨front, rest, by rw [htext, List.append_assoc]⟩

/-- The session behind a cookie of another service. -/
theorem session_hidden :
    extractSessionId
      { method := "GET", uri := "/", cookie := some (String.ofList (header
        [⟨"mysession".toList, "abc".toList, by decide, by decide⟩,
          ⟨"session".toList, "7f".toList, by decide, by decide⟩])) } = "abc" ∧
    sessionOf [⟨"mysession".toList, "abc".toList, by decide, by decide⟩,
      ⟨"session".toList, "7f".toList, by decide, by decide⟩] = "7f" := by
  decide

end ShareFrame.Dashboard.Cookies
