import Mathlib.Algebra.BigOperators.Group.Finset.Basic
import Mathlib.Algebra.Order.BigOperators.Group.Finset

open Function

section Sum

variable {ι : Type} [Fintype ι] [DecidableEq ι]

-- Two sums that differ in one summand.
theorem sum_exchange {f g : ι → ℕ} (k : ι) (h : ∀ i, i ≠ k → g i = f i) :
    ∑ i, g i + f k = ∑ i, f i + g k := by
  have he : ∑ i ∈ Finset.univ.erase k, g i = ∑ i ∈ Finset.univ.erase k, f i :=
    Finset.sum_congr rfl fun i hi => h i <| Finset.ne_of_mem_erase hi
  have hf := Finset.sum_erase_add Finset.univ f (Finset.mem_univ k)
  have hg := Finset.sum_erase_add Finset.univ g (Finset.mem_univ k)
  omega

omit [DecidableEq ι] in
theorem le_sum (g : ι → ℕ) (k : ι) : g k ≤ ∑ i, g i :=
  Finset.single_le_sum (fun _ _ => Nat.zero_le _) (Finset.mem_univ k)

end Sum

-- Who holds how much of which asset.
abbrev Ledger (ι κ : Type) := ι → κ → ℕ

namespace Ledger

variable {ι κ : Type} [DecidableEq ι] [DecidableEq κ]

def put (l : Ledger ι κ) (a : ι) (h : κ) (v : ℕ) : Ledger ι κ :=
  update l a <| update (l a) h v

def move (l : Ledger ι κ) (a : ι) (src dst : κ) (v : ℕ) : Ledger ι κ :=
  let l' := l.put a src (l a src - v)
  l'.put a dst (l' a dst + v)

variable {l : Ledger ι κ} {a b : ι} {h src dst : κ} {v : ℕ}

@[simp]
theorem put_self : (l.put a h v) a h = v := by
  simp [put]

theorem put_of_asset_ne (hn : b ≠ a) : (l.put a h v) b = l b :=
  update_of_ne hn ..

theorem put_of_holder_ne {k : κ} (hn : k ≠ h) : (l.put a h v) b k = l b k := by
  by_cases hb : b = a
  case pos => subst hb; simp [put, hn]
  case neg => rw [put_of_asset_ne hb]

theorem le_put {k : κ} (hv : b = a → k = h → l b k ≤ v) : l b k ≤ (l.put a h v) b k := by
  by_cases hk : k = h
  case neg => rw [put_of_holder_ne hk]
  case pos =>
    by_cases hb : b = a
    case neg => rw [put_of_asset_ne hb]
    case pos =>
      subst hb hk
      simpa using hv rfl rfl

theorem move_of_asset_ne (hn : b ≠ a) : (l.move a src dst v) b = l b := by
  simp [move, put_of_asset_ne hn]

theorem move_to (hn : src ≠ h) : (l.move a src h v) a h = l a h + v := by
  simp [move, put_of_holder_ne hn.symm]

theorem move_from (hn : dst ≠ src) : (l.move a src dst v) a src = l a src - v := by
  simp [move, put_of_holder_ne hn.symm]

-- A transfer to oneself changes nothing, so in general only a bound holds for the sender.
theorem le_move_src (dst : κ) (hv : v ≤ l a src) : l a src ≤ (l.move a src dst v) a src + v := by
  by_cases hd : dst = src
  case pos => subst hd; simp [move]; omega
  case neg =>
    simp only [move]
    rw [put_of_holder_ne (Ne.symm hd), put_self]
    omega

end Ledger
