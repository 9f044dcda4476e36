import ShareFrame.Util.Text

/-!
# Stored password hashes

`pbkdf2-sha256$<iterations>$<salt_b64>$<hash_b64>`, as `PasswordHash` reads and writes
it. The Base64 decoder is a parameter, `none` where it throws; so are the encoder and
the key derivation of OpenSSL (`Crypto`).

A password is accepted by its own hash, and another one only where the two derive the
same key (`verify_hash`).
-/

namespace ShareFrame.PasswordHash

structure Parsed where
  iterations : Nat
  salt : List UInt8
  hash : List UInt8
  deriving DecidableEq, Repr

def kAlgo : String := "pbkdf2-sha256"

/-- Digits only, at least one. -/
def decimal (s : String) : Option Nat :=
  match Text.digits 0 s.toList with
  | (n, []) => if s = "" then none else some n
  | _ => none

variable (decode : String → Option (List UInt8))

/-- Bounded, so that a corrupted row can neither skip work nor stall the board. -/
def parse (stored : String) : Option Parsed := do
  let (algo, rest) ← Text.cut '$' stored
  let (iters, rest) ← Text.cut '$' rest
  let (salt, hash) ← Text.cut '$' rest
  if algo ≠ kAlgo then none
  else
    let iterations ← decimal iters
    if iterations < 1000 ∨ iterations > 10000000 then none
    else
      let salt ← decode salt
      let hash ← decode hash
      if salt = [] ∨ hash = [] then none else some { iterations, salt, hash }

def isWellFormed (stored : String) : Bool := (parse decode stored).isSome

/-! ## Hashing and verifying -/

structure Crypto where
  /-- `Base64::encode` -/
  encode : List UInt8 → String
  /-- PBKDF2 of a password, with a salt, a number of iterations and the length of the key; `none` where
  the call fails -/
  derive : String → List UInt8 → Nat → Nat → Option (List UInt8)

def kIterations : Nat := 100000

def kSaltLen : Nat := 16

def kHashLen : Nat := 32

variable (crypto : Crypto)

/-- With this salt from `RAND_bytes`; `none` where OpenSSL fails. -/
def hash (salt : List UInt8) (password : String) : Option String := do
  let digest ← crypto.derive password salt kIterations kHashLen
  some (kAlgo ++ "$" ++ (toString kIterations ++ "$" ++ (crypto.encode salt ++ "$" ++ crypto.encode digest)))

/-- `none` where OpenSSL fails. -/
def verify (password stored : String) : Option Bool :=
  match parse decode stored with
  | none => some false
  | some p => do
    let digest ← crypto.derive password p.salt p.iterations p.hash.length
    some (digest = p.hash)

/-- What the code relies on where it stores a hash: Base64 is read back, without the separator in it, and
the key has the length that was asked for. -/
structure Crypto.Works (salt : List UInt8) (password : String) : Prop where
  decode_salt : decode (crypto.encode salt) = some salt
  plain : '$' ∉ (crypto.encode salt).toList
  decode_key : ∀ digest, crypto.derive password salt kIterations kHashLen = some digest →
    decode (crypto.encode digest) = some digest ∧ digest.length = kHashLen

variable {decode crypto} {password stored : String} {salt : List UInt8}

/-- What was hashed is read back. -/
theorem parse_hash (hw : crypto.Works decode salt password) (hsalt : salt.length = kSaltLen)
    (h : hash crypto salt password = some stored) :
    ∃ digest, crypto.derive password salt kIterations kHashLen = some digest ∧ digest.length = kHashLen ∧
      parse decode stored = some { iterations := kIterations, salt, hash := digest } := by
  obtain ⟨digest, hdigest, hstored⟩ := Option.bind_eq_some_iff.mp h
  cases hstored
  obtain ⟨hdecode, hlength⟩ := hw.decode_key digest hdigest
  have hsalt : salt ≠ [] := List.ne_nil_of_length_pos (hsalt ▸ by decide)
  have hne : digest ≠ [] := List.ne_nil_of_length_pos (hlength ▸ by decide)
  refine ⟨digest, hdigest, hlength, ?_⟩
  have halgo : Text.cut '$' (kAlgo ++ "$" ++ (toString kIterations ++ "$" ++
      (crypto.encode salt ++ "$" ++ crypto.encode digest))) = some (kAlgo, toString kIterations ++ "$" ++
      (crypto.encode salt ++ "$" ++ crypto.encode digest)) := Text.cut_append (by decide)
  have hiters : Text.cut '$' (toString kIterations ++ "$" ++ (crypto.encode salt ++ "$" ++
      crypto.encode digest)) = some (toString kIterations, crypto.encode salt ++ "$" ++
      crypto.encode digest) := Text.cut_append (by decide)
  have hparts : Text.cut '$' (crypto.encode salt ++ "$" ++ crypto.encode digest) =
      some (crypto.encode salt, crypto.encode digest) := Text.cut_append hw.plain
  have hdecimal : decimal (toString kIterations) = some kIterations := by decide
  have hbounds : ¬ (kIterations < 1000 ∨ kIterations > 10000000) := by decide
  simp only [parse, Option.bind_eq_bind, halgo, hiters, hparts, Option.bind_some, ne_eq, not_true_eq_false,
    if_false, hdecimal, if_neg hbounds, hw.decode_salt, hdecode, hsalt,
    hne, or_self]

theorem isWellFormed_hash (hw : crypto.Works decode salt password) (hsalt : salt.length = kSaltLen)
    (h : hash crypto salt password = some stored) : isWellFormed decode stored = true := by
  obtain ⟨digest, -, -, hparse⟩ := parse_hash hw hsalt h
  rw [isWellFormed, hparse]
  rfl

/-- A hash accepts its own password, and another one if and only if both derive the same key. -/
theorem verify_hash (hw : crypto.Works decode salt password) (hsalt : salt.length = kSaltLen)
    (h : hash crypto salt password = some stored) (other : String) :
    verify decode crypto other stored = (crypto.derive other salt kIterations kHashLen).map fun digest =>
      decide (some digest = crypto.derive password salt kIterations kHashLen) := by
  obtain ⟨digest, hdigest, hlength, hparse⟩ := parse_hash hw hsalt h
  simp only [verify, hparse, hlength, hdigest, Option.some.injEq]
  cases crypto.derive other salt kIterations kHashLen <;> rfl

theorem verify_hash_self (hw : crypto.Works decode salt password) (hsalt : salt.length = kSaltLen)
    (h : hash crypto salt password = some stored) :
    verify decode crypto password stored = some true := by
  obtain ⟨digest, hdigest, -⟩ := parse_hash hw hsalt h
  rw [verify_hash hw hsalt h, hdigest]
  simp

end ShareFrame.PasswordHash
