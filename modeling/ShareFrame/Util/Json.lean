import ShareFrame.Util.Text

/-!
# JSON documents

Documents as `nlohmann::json` holds them, its typed reads and what it dumps. `value` reads a
member of an object or takes the default; a document that is not an object, and a
member of another type, make it throw.
-/

namespace ShareFrame

inductive Json where
  | null
  | bool (b : Bool)
  /-- `number_integer` or `number_unsigned` -/
  | int (n : Int)
  | float (x : Rat)
  | str (s : String)
  | arr (items : List Json)
  | obj (members : List (String × Json))
  deriving Repr

namespace Json

/-! ## Equality is decidable -/

mutual

def decEq : (a b : Json) → Decidable (a = b)
  | .null, .null => .isTrue rfl
  | .bool a, .bool b => decidable_of_iff (a = b) (by simp)
  | .int a, .int b => decidable_of_iff (a = b) (by simp)
  | .float a, .float b => decidable_of_iff (a = b) (by simp)
  | .str a, .str b => decidable_of_iff (a = b) (by simp)
  | .arr a, .arr b => have := decEqItems a b; decidable_of_iff (a = b) (by simp)
  | .obj a, .obj b => have := decEqMembers a b; decidable_of_iff (a = b) (by simp)
  | .null, .bool _ | .null, .int _ | .null, .float _ | .null, .str _ | .null, .arr _ | .null, .obj _
  | .bool _, .null | .bool _, .int _ | .bool _, .float _ | .bool _, .str _ | .bool _, .arr _
  | .bool _, .obj _ | .int _, .null | .int _, .bool _ | .int _, .float _ | .int _, .str _
  | .int _, .arr _ | .int _, .obj _ | .float _, .null | .float _, .bool _ | .float _, .int _
  | .float _, .str _ | .float _, .arr _ | .float _, .obj _ | .str _, .null | .str _, .bool _
  | .str _, .int _ | .str _, .float _ | .str _, .arr _ | .str _, .obj _ | .arr _, .null
  | .arr _, .bool _ | .arr _, .int _ | .arr _, .float _ | .arr _, .str _ | .arr _, .obj _
  | .obj _, .null | .obj _, .bool _ | .obj _, .int _ | .obj _, .float _ | .obj _, .str _
  | .obj _, .arr _ => .isFalse (by simp)

def decEqItems : (a b : List Json) → Decidable (a = b)
  | [], [] => .isTrue rfl
  | x :: xs, y :: ys =>
    have := decEq x y
    have := decEqItems xs ys
    decidable_of_iff (x = y ∧ xs = ys) (by simp)
  | [], _ :: _ | _ :: _, [] => .isFalse (by simp)

def decEqMembers : (a b : List (String × Json)) → Decidable (a = b)
  | [], [] => .isTrue rfl
  | (k, x) :: xs, (l, y) :: ys =>
    have := decEq x y
    have := decEqMembers xs ys
    decidable_of_iff (k = l ∧ x = y ∧ xs = ys) (by simp [and_assoc])
  | [], _ :: _ | _ :: _, [] => .isFalse (by simp)

end

instance : DecidableEq Json := decEq

/-! ## Reads -/

/-- What a read throws. -/
inductive Error where
  /-- `type_error`: the wrong type for the read -/
  | typeError
  /-- `operator[]` of a constant document asserts that the member exists -/
  | missingKey
  deriving DecidableEq, Repr

/-- `find`, and `end()` for a document that is not an object. -/
def find (j : Json) (key : String) : Option Json :=
  match j with
  | .obj members => members.lookup key
  | _ => none

def contains (j : Json) (key : String) : Bool := (j.find key).isSome

def isObject : Json → Bool
  | .obj _ => true
  | _ => false

/-- `erase(key)` of an object. -/
def erase (j : Json) (key : String) : Json :=
  match j with
  | .obj members => .obj (members.filter (·.1 ≠ key))
  | _ => j

/-- `j[key] = member` of an object. -/
def set (j : Json) (key : String) (member : Json) : Json :=
  match j with
  | .obj members => .obj ((key, member) :: members.filter (·.1 ≠ key))
  | _ => j

/-- `operator[]` of a constant document. -/
def at_ (j : Json) (key : String) : Except Error Json :=
  match j with
  | .obj members =>
    match members.lookup key with
    | some member => .ok member
    | none => .error .missingKey
  | _ => .error .typeError

/-- `value(key, dflt)`, where `get` is the conversion to the type of the default. -/
def value {α : Type} (get : Json → Except Error α) (j : Json) (key : String) (dflt : α) :
    Except Error α :=
  match j with
  | .obj members =>
    match members.lookup key with
    | some member => get member
    | none => .ok dflt
  | _ => .error .typeError

def getString : Json → Except Error String
  | .str s => .ok s
  | _ => .error .typeError

def getBool : Json → Except Error Bool
  | .bool b => .ok b
  | _ => .error .typeError

/-- The conversion of a double to a signed integer of so many bits. Out of range C++ leaves it
undefined; the board's processor takes the nearest value. -/
def truncate (bits : Nat) (x : Rat) : Int :=
  max (-Int.pow 2 (bits - 1)) (min (Int.pow 2 (bits - 1) - 1) (x.num.tdiv x.den))

/-- `get<int64_t>` -/
def getInt64 : Json → Except Error Int
  | .int n => .ok (n.bmod (Nat.pow 2 64))
  | .float x => .ok (truncate 64 x)
  | _ => .error .typeError

/-- `get<int>`, which takes a boolean as well -/
def getInt : Json → Except Error Int
  | .int n => .ok (n.bmod (Nat.pow 2 32))
  | .float x => .ok (truncate 32 x)
  | .bool b => .ok (if b then 1 else 0)
  | _ => .error .typeError

/-- `get<std::vector<int64_t>>` -/
def getInt64s : Json → Except Error (List Int)
  | .arr items => items.mapM getInt64
  | _ => .error .typeError

/-! ## When a read succeeds -/

/-- The document is an object whose member, if there is one, has the type that `get` reads. -/
def Reads {α : Type} (get : Json → Except Error α) (j : Json) (key : String) : Prop :=
  j.isObject = true ∧ ∀ member, j.find key = some member → (get member).isOk = true

instance {α : Type} (get : Json → Except Error α) (j : Json) (key : String) :
    Decidable (Reads get j key) :=
  match h : j.find key with
  | none => decidable_of_iff (j.isObject = true) (by simp [Reads, h])
  | some member =>
    decidable_of_iff (j.isObject = true ∧ (get member).isOk = true) (by simp [Reads, h])

theorem value_isOk {α : Type} {get : Json → Except Error α} {j : Json} {key : String}
    (dflt : α) : (value get j key dflt).isOk = true ↔ Reads get j key := by
  cases j <;> simp only [value, Reads, isObject, find, Except.isOk, Except.toBool, Bool.false_eq_true,
    false_and, true_and]
  next members => cases members.lookup key <;> simp

theorem at_eq_ok {j : Json} {key : String} {member : Json} :
    j.at_ key = .ok member ↔ j.find key = some member := by
  cases j with
  | obj members =>
    simp only [at_, find]
    cases members.lookup key <;> simp
  | _ => simp [at_, find]

/-- A flag that is absent by default reads as true if and only if it is there and set. -/
theorem value_true_iff {j : Json} {key : String} :
    value getBool j key false = .ok true ↔ j.find key = some (.bool true) := by
  cases j with
  | obj members =>
    simp only [value, find]
    cases members.lookup key with
    | none => simp
    | some member => cases member <;> simp [getBool]
  | _ => simp [value, find]

/-! ## Members -/

theorem lookup_filter_ne {members : List (String × Json)} {key k : String} (h : key ≠ k) :
    (members.filter (·.1 ≠ k)).lookup key = members.lookup key := by
  induction members with
  | nil => rfl
  | cons member members ih =>
    obtain ⟨l, v⟩ := member
    by_cases hl : l = k
    · subst hl
      rw [List.filter_cons_of_neg (by simp), List.lookup_cons, beq_false_of_ne h, ih]
    · rw [List.filter_cons_of_pos (by simpa using hl), List.lookup_cons, List.lookup_cons, ih]

theorem mem_of_lookup {members : List (String × Json)} {key : String} {member : Json}
    (h : members.lookup key = some member) : (key, member) ∈ members := by
  obtain ⟨before, after, rfl, -⟩ := List.lookup_eq_some_iff.mp h
  exact List.mem_append_right before List.mem_cons_self

/-- An object that lost a member, read at another one. -/
@[simp] theorem value_erase {α : Type} {get : Json → Except Error α} {j : Json} {key k : String}
    {dflt : α} (h : key ≠ k) : value get (j.erase k) key dflt = value get j key dflt := by
  cases j with
  | obj members => simp only [erase, value, lookup_filter_ne h]
  | _ => rfl

@[simp] theorem value_set {α : Type} {get : Json → Except Error α} {j member : Json} {key k : String}
    {dflt : α} (h : key ≠ k) : value get (j.set k member) key dflt = value get j key dflt := by
  cases j with
  | obj members => simp only [set, value, List.lookup_cons, beq_false_of_ne h, lookup_filter_ne h]
  | _ => rfl

/-- A member that was set is what it was set to. -/
theorem find_set {j member member' : Json} {key : String}
    (h : (j.set key member).find key = some member') : member' = member := by
  cases j with
  | obj members =>
    simp only [set, find, List.lookup_cons, beq_self_eq_true, Option.some.injEq] at h
    exact h.symm
  | _ => cases h

/-! ## Several reads -/

/-- One more field. -/
theorem isOk_bind {α β : Type} {x : Except Error α} {f : α → Except Error β} {p : Prop}
    (h : ∀ a, x = .ok a → ((f a).isOk = true ↔ p)) : (x >>= f).isOk = true ↔ x.isOk = true ∧ p := by
  cases x with
  | error e => exact ⟨nofun, fun h => nomatch h.1⟩
  | ok a => exact ⟨fun hf => ⟨rfl, (h a rfl).mp hf⟩, fun hf => (h a rfl).mpr hf.2⟩

theorem isOk_read {α β : Type} {get : Json → Except Error α} {j : Json} {key : String} {dflt : α}
    {f : α → Except Error β} {p : Prop} (h : ∀ a, (f a).isOk = true ↔ p) :
    (value get j key dflt >>= f).isOk = true ↔ Reads get j key ∧ p :=
  (isOk_bind fun a _ => h a).trans (and_congr_left' (value_isOk dflt))

/-- The first of two computations that succeed. -/
theorem eq_ok_of_bind {α β : Type} {x : Except Error α} {f : α → Except Error β} {b : β}
    (h : (x >>= f) = .ok b) : ∃ a, x = .ok a ∧ f a = .ok b := by
  cases x with
  | error e => cases h
  | ok a => exact ⟨a, rfl, h⟩

/-- A member that must be there. -/
theorem isOk_at {β : Type} {j : Json} {key : String} {f : Json → Except Error β} :
    (j.at_ key >>= f).isOk = true ↔ ∃ member, j.find key = some member ∧ (f member).isOk = true := by
  constructor
  · intro h
    cases hm : j.at_ key with
    | error e => rw [hm] at h; cases h
    | ok member => rw [hm] at h; exact ⟨member, at_eq_ok.mp hm, h⟩
  · rintro ⟨member, hm, h⟩
    rw [at_eq_ok.mpr hm]
    exact h

/-! ## Lists of integers -/

/-- The integers that an `int64_t` holds. -/
def IsInt64 (n : Int) : Prop := -9223372036854775808 ≤ n ∧ n ≤ 9223372036854775807

instance : DecidablePred IsInt64 := fun n => by unfold IsInt64; infer_instance

theorem isInt64_bmod (n : Int) : IsInt64 (n.bmod (Nat.pow 2 64)) := by
  have h1 := Int.le_bmod (x := n) (m := 2 ^ 64) (by decide)
  have h2 := Int.bmod_lt (x := n) (m := 2 ^ 64) (by decide)
  rw [show Nat.pow 2 64 = 2 ^ 64 from rfl]
  unfold IsInt64
  omega

theorem IsInt64.bmod {n : Int} (h : IsInt64 n) : n.bmod (Nat.pow 2 64) = n := by
  obtain ⟨h1, h2⟩ := h
  rw [show Nat.pow 2 64 = 2 ^ 64 from rfl]
  exact Int.bmod_eq_of_le (by omega) (by omega)

theorem isInt64_truncate (x : Rat) : IsInt64 (truncate 64 x) := by
  unfold truncate IsInt64
  rw [show Int.pow 2 (64 - 1) = 9223372036854775808 from rfl]
  omega

theorem isInt64_getInt64 {j : Json} {n : Int} (h : j.getInt64 = .ok n) : IsInt64 n := by
  cases j with
  | int m => cases h; exact isInt64_bmod m
  | float x => cases h; exact isInt64_truncate x
  | _ => cases h

theorem isInt64_getInt64s {j : Json} {ids : List Int} (h : j.getInt64s = .ok ids) :
    ∀ id ∈ ids, IsInt64 id := by
  cases j with
  | arr items =>
    simp only [getInt64s] at h
    induction items generalizing ids with
    | nil => cases h; simp
    | cons item items ih =>
      rw [List.mapM_cons] at h
      obtain ⟨n, hn, h⟩ := eq_ok_of_bind h
      obtain ⟨rest, hrest, h⟩ := eq_ok_of_bind h
      cases h
      rintro id (_ | ⟨_, hid⟩)
      · exact isInt64_getInt64 hn
      · exact ih hrest id hid
  | _ => cases h

theorem isInt64_value {j : Json} {key : String} {ids : List Int}
    (h : j.value getInt64s key [] = .ok ids) : ∀ id ∈ ids, IsInt64 id := by
  cases j with
  | obj members =>
    simp only [value] at h
    split at h
    · exact isInt64_getInt64s h
    · cases h
      exact nofun
  | _ => cases h

/-- An integer that an `int` holds is read back. -/
theorem getInt_int {n : Int} (h : -2147483648 ≤ n) (h' : n ≤ 2147483647) :
    getInt (.int n) = .ok n := by
  simp only [getInt]
  rw [show Nat.pow 2 32 = 2 ^ 32 from rfl, Int.bmod_eq_of_le (by omega) (by omega)]

/-- A list that was written is read back. -/
theorem getInt64s_map_int {ids : List Int} (h : ∀ id ∈ ids, IsInt64 id) :
    getInt64s (.arr (ids.map .int)) = .ok ids := by
  simp only [getInt64s]
  induction ids with
  | nil => rfl
  | cons id ids ih =>
    rw [List.map_cons, List.mapM_cons, ih fun x hx => h x (List.mem_cons_of_mem _ hx)]
    simp only [getInt64, (h id List.mem_cons_self).bmod]
    rfl

/-! ## Documents without floating-point numbers -/

mutual

def floatFree : Json → Bool
  | .float _ => false
  | .arr items => floatFreeItems items
  | .obj members => floatFreeMembers members
  | .null | .bool _ | .int _ | .str _ => true

def floatFreeItems : List Json → Bool
  | [] => true
  | item :: items => item.floatFree && floatFreeItems items

def floatFreeMembers : List (String × Json) → Bool
  | [] => true
  | (_, member) :: members => member.floatFree && floatFreeMembers members

end

theorem floatFreeItems_int (ids : List Int) : floatFreeItems (ids.map .int) = true := by
  induction ids with
  | nil => rfl
  | cons id ids ih => exact ih

/-! ## What `dump` accepts -/

mutual

/-- Its texts are UTF-8; `dump` throws on any other document. -/
def isUtf8 : Json → Bool
  | .str s => Text.isUtf8 s
  | .arr items => isUtf8Items items
  | .obj members => isUtf8Members members
  | .null | .bool _ | .int _ | .float _ => true

def isUtf8Items : List Json → Bool
  | [] => true
  | item :: items => item.isUtf8 && isUtf8Items items

def isUtf8Members : List (String × Json) → Bool
  | [] => true
  | (key, member) :: members => Text.isUtf8 key && member.isUtf8 && isUtf8Members members

end

@[simp] theorem isUtf8_arr {items : List Json} :
    (Json.arr items).isUtf8 = true ↔ ∀ item ∈ items, item.isUtf8 = true := by
  rw [isUtf8]
  induction items with
  | nil => simp [isUtf8Items]
  | cons item items ih => rw [isUtf8Items, Bool.and_eq_true, ih, List.forall_mem_cons]

@[simp] theorem isUtf8_obj {members : List (String × Json)} : (Json.obj members).isUtf8 = true ↔
    ∀ m ∈ members, Text.isUtf8 m.1 = true ∧ m.2.isUtf8 = true := by
  rw [isUtf8]
  induction members with
  | nil => simp [isUtf8Members]
  | cons m members ih =>
    rw [isUtf8Members, Bool.and_eq_true, Bool.and_eq_true, ih, List.forall_mem_cons]

theorem isUtf8_find {j member : Json} {key : String} (hj : j.isUtf8 = true)
    (h : j.find key = some member) : member.isUtf8 = true := by
  cases j with
  | obj members =>
    rw [isUtf8_obj] at hj
    exact (hj _ (mem_of_lookup h)).2
  | _ => cases h

theorem isUtf8_value {j : Json} {key dflt s : String} (hj : j.isUtf8 = true) (hdflt : Text.isUtf8 dflt = true)
    (h : j.value getString key dflt = .ok s) : Text.isUtf8 s = true := by
  cases j with
  | obj members =>
    simp only [value] at h
    split at h
    next member hmember =>
      have hmember := isUtf8_find hj hmember
      cases member with
      | str text =>
        cases h
        exact hmember
      | _ => cases h
    next =>
      cases h
      exact hdflt
  | _ => cases h

theorem isUtf8_set {j member : Json} {key : String} (hj : j.isUtf8 = true) (hkey : Text.isUtf8 key = true)
    (hmember : member.isUtf8 = true) : (j.set key member).isUtf8 = true := by
  cases j with
  | obj members =>
    rw [isUtf8_obj] at hj
    rw [set, isUtf8_obj, List.forall_mem_cons]
    exact ⟨⟨hkey, hmember⟩, fun m hm => hj m (List.mem_filter.mp hm).1⟩
  | _ => exact hj

/-! ## The same value -/

/-- Equal as `nlohmann::json`: the order of an object's members does not matter. -/
inductive Same : Json → Json → Prop
  | null : Same .null .null
  | bool (b : Bool) : Same (.bool b) (.bool b)
  | int (n : Int) : Same (.int n) (.int n)
  | float (x : Rat) : Same (.float x) (.float x)
  | str (s : String) : Same (.str s) (.str s)
  | arr {items items' : List Json} : List.Forall₂ Same items items' → Same (.arr items) (.arr items')
  | obj {members members' : List (String × Json)} :
      (∀ key, (members.lookup key).isSome = (members'.lookup key).isSome) →
      (∀ key a a', members.lookup key = some a → members'.lookup key = some a' → Same a a') →
      Same (.obj members) (.obj members')

theorem Same.find_some {j j' a : Json} {key : String} (h : Same j j') (ha : j.find key = some a) :
    ∃ a', j'.find key = some a' ∧ Same a a' := by
  cases h with
  | @obj members members' hkeys hsame =>
    have hsome := hkeys key
    rw [show members.lookup key = some a from ha] at hsome
    obtain ⟨a', ha'⟩ := Option.isSome_iff_exists.mp hsome.symm
    exact ⟨a', ha', hsame key a a' ha ha'⟩
  | _ => cases ha

theorem Same.find_none {j j' : Json} {key : String} (h : Same j j') (ha : j.find key = none) :
    j'.find key = none := by
  cases h with
  | @obj members members' hkeys hsame =>
    have hsome := hkeys key
    rw [show members.lookup key = none from ha] at hsome
    show members'.lookup key = none
    simpa using hsome.symm
  | _ => rfl

theorem Same.value {α : Type} {get : Json → Except Error α}
    (hget : ∀ {a a' : Json}, Same a a' → get a' = get a) {j j' : Json} (h : Same j j') (key : String)
    (dflt : α) : j'.value get key dflt = j.value get key dflt := by
  cases hfind : j.find key with
  | none =>
    have hfind' := h.find_none hfind
    cases h with
    | @obj members members' =>
      simp only [Json.value]
      rw [show members.lookup key = none from hfind, show members'.lookup key = none from hfind']
    | _ => rfl
  | some a =>
    obtain ⟨a', hfind', hsame⟩ := h.find_some hfind
    cases h with
    | @obj members members' =>
      simp only [Json.value]
      rw [show members.lookup key = some a from hfind, show members'.lookup key = some a' from hfind']
      exact hget hsame
    | _ => cases hfind

theorem Same.getString {j j' : Json} (h : Same j j') : j'.getString = j.getString := by
  cases h <;> rfl

theorem Same.getBool {j j' : Json} (h : Same j j') : j'.getBool = j.getBool := by
  cases h <;> rfl

theorem Same.getInt {j j' : Json} (h : Same j j') : j'.getInt = j.getInt := by
  cases h <;> rfl

theorem Same.getInt64 {j j' : Json} (h : Same j j') : j'.getInt64 = j.getInt64 := by
  cases h <;> rfl

theorem Same.getInt64s {j j' : Json} (h : Same j j') : j'.getInt64s = j.getInt64s := by
  cases h with
  | @arr items items' h =>
    simp only [Json.getInt64s]
    induction h with
    | nil => rfl
    | cons h _ ih => rw [List.mapM_cons, List.mapM_cons, h.getInt64, ih]
  | _ => rfl

end Json

end ShareFrame
