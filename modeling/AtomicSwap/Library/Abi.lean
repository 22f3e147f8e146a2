import AtomicSwap.Library.Bytes
import Mathlib.Data.BitVec

-- Arguments that are encoded in one word each.
namespace Abi

inductive Ty
  | address
  | bytes32
  | uint256
  deriving DecidableEq

inductive Value
  | address (a : BitVec 160)
  | bytes32 (b : BitVec 256)
  | integer (n : ℤ)
  deriving DecidableEq

-- An integer is not bounded. It is reduced to a word, and an address is padded to one.
def packElement : Ty → Value → Option (List UInt8)
  | .address, .address a => some (Bytes.be 32 a.toNat)
  | .bytes32, .bytes32 b => some (Bytes.be 32 b.toNat)
  | .uint256, .integer n => some (Bytes.be 32 (BitVec.ofInt 256 n).toNat)
  | _,        _          => none

def pack : List Ty → List Value → Option (List UInt8)
  | [],      []      => some []
  | t :: ts, v :: vs => do
    let word ← packElement t v
    let rest ← pack ts vs
    return word ++ rest
  | _,       _       => none

-- A function of a contract. An argument that is a tuple has several words.
structure Method where
  name     : String
  selector : List UInt8
  inputs   : List (List Ty)
  deriving DecidableEq

inductive Error
  | methodNotFound (name : String)
  | argumentCount (found expected : ℕ)
  | typeMismatch
  deriving DecidableEq

-- The data of a call: the selector of the method with the given name, and the arguments.
def packCall (methods : List Method) (name : String) (args : List (List Value)) :
    Except Error (List UInt8) :=
  match methods.find? (·.name = name) with
  | none   => .error (.methodNotFound name)
  | some m =>
    if args.length ≠ m.inputs.length then .error (.argumentCount args.length m.inputs.length)
    else
      match (m.inputs.zip args).mapM fun (ts, vs) => pack ts vs with
      | none       => .error .typeMismatch
      | some words => .ok (m.selector ++ words.flatten)

-- A value that is not changed by its encoding.
def Value.InRange : Value → Prop
  | integer n => 0 ≤ n ∧ n < 2 ^ 256
  | _         => True

variable {t : Ty} {ts : List Ty} {v v' : Value} {vs vs' : List Value} {bs : List UInt8}

theorem toNat_ofInt {n : ℤ} (h : 0 ≤ n ∧ n < 2 ^ 256) : ((BitVec.ofInt 256 n).toNat : ℤ) = n := by
  rw [BitVec.toNat_ofInt, Int.toNat_of_nonneg (Int.emod_nonneg _ (by decide))]
  exact Int.emod_eq_of_lt h.left h.right

theorem be_injective {w : ℕ} {x y : BitVec w} (hw : w ≤ 256)
    (h : Bytes.be 32 x.toNat = Bytes.be 32 y.toNat) : x = y := by
  apply BitVec.eq_of_toNat_eq
  rw [← Bytes.beValue_be_toNat x hw, h, Bytes.beValue_be_toNat y hw]

theorem packElement_length (h : packElement t v = some bs) : bs.length = 32 := by
  cases t <;> cases v <;> simp only [packElement, Option.some.injEq, reduceCtorEq] at h
  all_goals exact h ▸ Bytes.length_be ..

theorem packElement_injective (hv : v.InRange) (hv' : v'.InRange)
    (h : packElement t v = some bs) (h' : packElement t v' = some bs) : v = v' := by
  cases t <;> cases v <;> cases v' <;>
    simp only [packElement, Option.some.injEq, reduceCtorEq] at h h'
  case address.address.address => rw [be_injective (by decide) (h.trans h'.symm)]
  case bytes32.bytes32.bytes32 => rw [be_injective le_rfl (h.trans h'.symm)]
  case uint256.integer.integer n n' =>
    have hn := be_injective le_rfl (h.trans h'.symm)
    rw [← toNat_ofInt hv, hn, toNat_ofInt hv']

theorem pack_length (h : pack ts vs = some bs) : bs.length = 32 * ts.length := by
  induction ts generalizing vs bs
  case nil =>
    cases vs <;> simp only [pack, Option.some.injEq, reduceCtorEq] at h
    simp [← h]
  case cons t ts hi =>
    cases vs
    case nil       => simp [pack] at h
    case cons v vs =>
      simp only [pack, Option.bind_eq_bind, Option.bind_eq_some_iff, Option.pure_def,
        Option.some.injEq] at h
      obtain ⟨word, hw, rest, hr, rfl⟩ := h
      rw [List.length_append, packElement_length hw, hi hr, List.length_cons]
      omega

-- Every word has its own place, so the arguments can be read off.
theorem pack_injective (hv : ∀ v ∈ vs, v.InRange) (hv' : ∀ v ∈ vs', v.InRange)
    (h : pack ts vs = some bs) (h' : pack ts vs' = some bs) : vs = vs' := by
  induction ts generalizing vs vs' bs
  case nil =>
    cases vs <;> cases vs' <;> simp only [pack, reduceCtorEq] at h h'
    rfl
  case cons t ts hi =>
    cases vs
    case nil => simp [pack] at h
    case cons v vs =>
      cases vs'
      case nil => simp [pack] at h'
      case cons v' vs' =>
        simp only [pack, Option.bind_eq_bind, Option.bind_eq_some_iff, Option.pure_def,
          Option.some.injEq] at h h'
        obtain ⟨word, hw, rest, hr, rfl⟩ := h
        obtain ⟨word', hw', rest', hr', he⟩ := h'
        have hl : word'.length = word.length :=
          (packElement_length hw').trans (packElement_length hw).symm
        obtain ⟨rfl, rfl⟩ := List.append_inj he hl
        have hh : v = v' := packElement_injective (hv v (by simp)) (hv' v' (by simp)) hw hw'
        have ht : vs = vs' :=
          hi (fun x hx => hv x (by simp [hx])) (fun x hx => hv' x (by simp [hx])) hr hr'
        rw [hh, ht]

end Abi
