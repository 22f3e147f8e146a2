import AtomicSwap.Library.Decimal.Text
import AtomicSwap.Library.Except

-- How the members of a JSON object are decoded into the fields of a record. The values are those of
-- the members with the keys of the fields, and `none` for a missing one.
namespace Json

inductive Value
  | null
  | string (s : List Char)
  | number (s : List Char)
  | other
  deriving DecidableEq

inductive Error
  | invalid (key : String)
  | required (key : String)
  deriving DecidableEq, Repr

variable {α : Type} {key : String} {decode : Value → Option α} {v : Option Value} {a : α}

def text (decode : List Char → Option α) : Value → Option α
  | .string s => decode s
  | _         => none

def uint64 : Value → Option UInt64
  | .number s => (Decimal.parseUint 64 s).map .ofNat
  | _         => none

def field (key : String) (decode : Value → Option α) : Option Value → Except Error (Option α)
  | none   => .ok none
  | some v =>
    match decode v with
    | none   => .error (.invalid key)
    | some a => .ok (some a)

-- A field that a null leaves unset.
def nullable (key : String) (decode : Value → Option α) : Option Value → Except Error (Option α)
  | some .null => .ok none
  | v          => field key decode v

def required (key : String) : Option α → Except Error α
  | none   => .error (.required key)
  | some a => .ok a

theorem field_eq_some :
    field key decode v = .ok (some a) ↔ ∃ v', v = some v' ∧ decode v' = some a := by
  cases v
  case none   => simp [field]
  case some v => cases h : decode v <;> simp [field, h]

theorem nullable_eq_some (h : nullable key decode v = .ok (some a)) :
    ∃ v', v = some v' ∧ decode v' = some a := by
  simp only [nullable] at h
  split at h
  · simp at h
  · exact field_eq_some.mp h

theorem field_ok {v : Value} (h : decode v = some a) : field key decode (some v) = .ok (some a) :=
  field_eq_some.mpr ⟨v, rfl, h⟩

section Text

variable {decode : List Char → Option α} {s : List Char}

theorem field_text (h : decode s = some a) :
    field key (text decode) (some <| .string s) = .ok (some a) :=
  field_ok h

theorem nullable_text (h : decode s = some a) :
    nullable key (text decode) (some <| .string s) = .ok (some a) :=
  field_text h

theorem text_eq_some {v : Value} (h : text decode v = some a) : ∃ s, decode s = some a := by
  cases v
  case string s => exact ⟨s, h⟩
  all_goals contradiction

end Text

theorem nullable_uint64 (n : UInt64) :
    nullable key uint64 (some <| .number <| Nat.toDigits 10 n.toNat) = .ok (some n) :=
  field_ok <| by simp [uint64, Decimal.parseUint_toDigits n.toNat_lt]

theorem required_eq_ok {x : Option α} : required key x = .ok a ↔ x = some a := by
  cases x <;> simp [required]

end Json
