import AtomicSwap.Protocol.Swap.Manager

open Ethereum Handler

-- What the functions of the swap manager do.
namespace Swap

namespace Table

variable {t : Table} {s s' : Record} {id : Bytes32}

theorem getSwap_offerID (h : t.getSwap id = some s) : s.offerID = id :=
  t.keyed id s h

theorem mem_getAllSwaps : s ∈ t.getAllSwaps ↔ t.getSwap s.offerID = some s := by
  constructor
  · intro h
    obtain ⟨⟨id, _⟩, he, rfl⟩ := List.mem_map.mp h
    have hs : t.getSwap id = some _ := AList.mem_lookup_iff.mpr he
    rwa [getSwap_offerID hs]
  · intro h
    exact List.mem_map.mpr ⟨⟨s.offerID, s⟩, AList.mem_lookup_iff.mp h, rfl⟩

@[simp]
theorem getSwap_putSwap_self : (t.putSwap s).getSwap s.offerID = some s :=
  AList.lookup_insert _

theorem getSwap_putSwap_of_ne (h : id ≠ s.offerID) : (t.putSwap s).getSwap id = t.getSwap id :=
  AList.lookup_insert_ne h

theorem getSwap_putSwap (h : (t.putSwap s).getSwap id = some s') :
    s' = s ∨ id ≠ s.offerID ∧ t.getSwap id = some s' := by
  by_cases hi : id = s.offerID
  · subst hi
    simp only [getSwap_putSwap_self, Option.some.injEq] at h
    exact .inl h.symm
  · exact .inr ⟨hi, getSwap_putSwap_of_ne hi ▸ h⟩

end Table

namespace Manager

variable {m : Manager} {s : Record} {p : ℕ} {id : Bytes32} {l : List Record}

section Load

@[simp]
theorem foldl_load_db : (l.foldl load m).db = m.db := by
  induction l generalizing m
  case nil         => rfl
  case cons s l hi => exact hi

@[simp]
theorem foldl_load_past : (l.foldl load m).past = m.past := by
  induction l generalizing m
  case nil         => rfl
  case cons s l hi => exact hi

@[simp]
theorem foldl_load_infos : (l.foldl load m).infos = m.infos ++ l := by
  induction l generalizing m
  case nil         => simp
  case cons s l hi => simp [hi, load]

@[simp]
theorem mem_foldl_load :
    id ∈ (l.foldl load m).ongoing ↔ id ∈ m.ongoing ∨ ∃ s ∈ l, s.offerID = id := by
  induction l generalizing m
  case nil         => simp
  case cons s l hi => simp [hi, load, or_assoc, or_left_comm, eq_comm]

end Load

section Post

variable {α : Type} {put : Bool} {now : Time} {Q : Except Error Unit → Manager → Prop}

theorem post_info_bind {Q : Except Error α → Manager → Prop} {f : Record → M α} :
    (info p >>= f).Post m Q ↔
      (m.infos[p]? = none → Q (.error .panicked) m) ∧
      ∀ s, m.infos[p]? = some s → (f s).Post m Q := by
  simp only [info, post_bind_bind, post_get_bind, post_ofOption_bind]

theorem post_putSwap :
    (putSwap put s).Post m Q ↔
      (put = false → Q (.error .db) m) ∧
      (put = true → Q (.ok ()) { m with db := m.db.putSwap s }) := by
  simp only [putSwap, post_throwIf_bind, Bool.not_eq_false, post_modify]

theorem post_writeSwapToDB :
    (writeSwapToDB put p).Post m Q ↔
      (m.infos[p]? = none → Q (.error .panicked) m) ∧
      ∀ s, m.infos[p]? = some s → (putSwap put s).Post m Q := by
  simp only [writeSwapToDB, post_info_bind]

-- What becomes of a swap with the pointer `p`.
def moved (m : Manager) (now : Time) (p : ℕ) (s : Record) : Manager :=
  { m with
    infos   := m.infos.modify p ({ · with endTime := some now })
    past    := m.past.insert s.offerID p
    ongoing := m.ongoing.erase s.offerID }

theorem post_completeOngoingSwap :
    (completeOngoingSwap put now p).Post m Q ↔
      (m.infos[p]? = none → Q (.error .panicked) m) ∧
      ∀ s, m.infos[p]? = some s →
        (s.offerID ∉ m.ongoing → Q (.error .noSwapWithOfferID) m) ∧
        (s.offerID ∈ m.ongoing →
          (putSwap put { s with endTime := some now }).Post (m.moved now p s) Q) := by
  simp only [completeOngoingSwap, post_info_bind, post_get_bind, post_throwIf_bind, not_not,
    post_modify_bind]
  rfl

theorem post_newInfo {Q : Except Error ℕ → Manager → Prop} :
    (newInfo s).Post m Q ↔ Q (.ok m.infos.length) { m with infos := m.infos ++ [s] } :=
  Iff.rfl

-- The ID of a swap is added to the map for its status.
def added (m : Manager) (p : ℕ) (s : Record) : Manager :=
  if s.status.isOngoing then { m with ongoing := m.ongoing.insert s.offerID p }
  else { m with past := m.past.insert s.offerID p }

theorem post_addSwap :
    (addSwap put p).Post m Q ↔
      (m.infos[p]? = none → Q (.error .panicked) m) ∧
      ∀ s, m.infos[p]? = some s → (putSwap put s).Post (m.added p s) Q := by
  simp only [addSwap, post_info_bind, post_modify_bind]
  rfl

theorem post_addSwap_new :
    (newInfo s >>= addSwap put).Post m Q ↔
      (putSwap put s).Post (added { m with infos := m.infos ++ [s] } m.infos.length s) Q := by
  have hp : (newInfo s >>= addSwap put).Post m Q ↔
      (addSwap put m.infos.length).Post { m with infos := m.infos ++ [s] } Q :=
    Iff.rfl
  simp [hp, post_addSwap]

end Post

end Manager

end Swap
