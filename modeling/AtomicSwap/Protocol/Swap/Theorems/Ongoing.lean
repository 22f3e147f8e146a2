import AtomicSwap.Protocol.Swap.Theorems.Manager

open Ethereum Handler

-- What the functions of the swap manager that work on one ongoing swap do to the others: nothing.
namespace Swap.Manager

variable {m m' m'' : Manager} {s s' : Record} {p : ℕ} {id : Bytes32} {status : Status}

-- The pointer to an ongoing swap leads to an `Info` with its ID.
def Keyed (m : Manager) : Prop :=
  ∀ id p, m.ongoing.lookup id = some p → ∃ s, m.infos[p]? = some s ∧ s.offerID = id

structure Points (m : Manager) (id : Bytes32) (p : ℕ) (s : Record) : Prop where
  lookup : m.ongoing.lookup id = some p
  info   : m.infos[p]? = some s

theorem Points.offerID (hk : m.Keyed) (h : m.Points id p s) : s.offerID = id := by
  obtain ⟨s', hs, hi⟩ := hk id p h.lookup
  cases hs.symm.trans h.info
  exact hi

theorem Points.mem (h : m.Points id p s) : id ∈ m.ongoing :=
  AList.lookup_isSome.mp (by simp [h.lookup])

-- Another swap has another pointer.
theorem Points.ne (hk : m.Keyed) (h : m.Points id p s) {id' : Bytes32} {p' : ℕ} (hi : id' ≠ id)
    (hp : m.ongoing.lookup id' = some p') : p' ≠ p := by
  rintro rfl
  obtain ⟨s', hs, ho⟩ := hk id' p' hp
  cases hs.symm.trans h.info
  exact hi (ho.symm.trans (h.offerID hk))

-- Only what the manager knows of one ID has changed.
structure Frame (id : Bytes32) (m m' : Manager) : Prop where
  keyed  : m'.Keyed
  lookup : ∀ id' ≠ id, m'.ongoing.lookup id' = m.ongoing.lookup id'
  infos  : ∀ id' ≠ id, ∀ p, m.ongoing.lookup id' = some p → m'.infos[p]? = m.infos[p]?
  stored : ∀ id' ≠ id, m'.db.getSwap id' = m.db.getSwap id'

theorem Frame.refl (h : m.Keyed) : Frame id m m :=
  ⟨h, fun _ _ => rfl, fun _ _ _ _ => rfl, fun _ _ => rfl⟩

theorem Frame.trans (h : Frame id m m') (h' : Frame id m' m'') : Frame id m m'' where
  keyed             := h'.keyed
  lookup id' hi     := (h'.lookup id' hi).trans (h.lookup id' hi)
  infos id' hi p hp := (h'.infos id' hi p (h.lookup id' hi ▸ hp)).trans (h.infos id' hi p hp)
  stored id' hi     := (h'.stored id' hi).trans (h.stored id' hi)

theorem Frame.points (h : Frame id m m') {id' : Bytes32} (hi : id' ≠ id) (hp : m.Points id' p s) :
    m'.Points id' p s :=
  ⟨(h.lookup id' hi).trans hp.lookup, (h.infos id' hi p hp.lookup).trans hp.info⟩

section Functions

theorem putSwap_frame (hk : m.Keyed) (hs : s.offerID = id) :
    Frame id m { m with db := m.db.putSwap s } where
  keyed         := hk
  lookup _ _    := rfl
  infos _ _ _ _ := rfl
  stored _ hi   := Table.getSwap_putSwap_of_ne (hs.symm ▸ hi)

variable (hp : m.Points id p s)
include hp

theorem modify_points {f : Record → Record} :
    Points { m with infos := m.infos.modify p f } id p (f s) :=
  ⟨hp.lookup, by simp [hp.info]⟩

theorem modify_frame {f : Record → Record} (hk : m.Keyed) (hf : (f s).offerID = s.offerID) :
    Frame id m { m with infos := m.infos.modify p f } where
  keyed id' p' h    := by
    obtain ⟨s', hs, hi⟩ := hk id' p' h
    by_cases hpp : p = p'
    case pos =>
      subst hpp
      cases hs.symm.trans hp.info
      exact ⟨f s, by simp [hs], hf.trans hi⟩
    case neg => exact ⟨s', by simp [hpp, hs], hi⟩
  lookup _ _        := rfl
  infos id' hi p' h := by simp [(hp.ne hk hi h).symm]
  stored _ _        := rfl

theorem moved_frame {now : Time} (hk : m.Keyed) : Frame id m (m.moved now p s) := by
  have hi := hp.offerID hk
  have hf : Frame id m { m with infos := m.infos.modify p ({ · with endTime := some now }) } :=
    modify_frame hp hk rfl
  refine ⟨fun id' p' h => ?_, fun id' hn => ?_, hf.infos, fun _ _ => rfl⟩
  · by_cases hn : id' = s.offerID
    case pos =>
      subst hn
      simp [moved] at h
    case neg => exact hf.keyed id' p' (by simpa [moved, hn] using h)
  · simp [moved, hi, hn]

variable {put : Bool} {now : Time} {Q : Except Error Unit → Manager → Prop}

theorem post_writeSwapToDB_points :
    (writeSwapToDB put p).Post m Q ↔
      (put = false → Q (.error .db) m) ∧
      (put = true → Q (.ok ()) { m with db := m.db.putSwap s }) := by
  simp [post_writeSwapToDB, hp.info, post_putSwap]

theorem post_completeOngoingSwap_points (hk : m.Keyed) :
    (completeOngoingSwap put now p).Post m Q ↔
      (put = false → Q (.error .db) (m.moved now p s)) ∧
      (put = true → Q (.ok ())
        { m.moved now p s with
          db := (m.moved now p s).db.putSwap { s with endTime := some now } }) := by
  have hm : s.offerID ∈ m.ongoing := hp.offerID hk ▸ hp.mem
  simp [post_completeOngoingSwap, hp.info, hm, post_putSwap]

end Functions

section NewManager

variable {db : Table}

theorem foldl_load_keyed {l : List Record} (h : m.Keyed) : (l.foldl load m).Keyed := by
  induction l generalizing m
  case nil         => exact h
  case cons s l hi =>
    refine hi fun id p hl => ?_
    by_cases hs : id = s.offerID
    case pos =>
      subst hs
      obtain rfl : m.infos.length = p := by simpa [load] using hl
      exact ⟨s, by simp [load], rfl⟩
    case neg =>
      obtain ⟨s', hs', ho⟩ := h id p (by simpa [load, hs] using hl)
      have hlt : p < m.infos.length := (List.getElem?_eq_some_iff.mp hs').fst
      exact ⟨s', by simp [load, List.getElem?_append_left hlt, hs'], ho⟩

theorem newManager_keyed : (newManager db).Keyed :=
  foldl_load_keyed fun _ _ h => by simp at h

-- The manager starts with the ongoing swaps of the database.
theorem newManager_points :
    (∃ p, (newManager db).Points id p s) ↔ db.getSwap id = some s ∧ s.status.isOngoing := by
  have hl {p s} (h : (newManager db).Points id p s) :
      db.getSwap id = some s ∧ s.status.isOngoing := by
    have hs : s ∈ db.getAllSwaps.filter (·.status.isOngoing) := by
      simpa [newManager] using List.mem_of_getElem? h.info
    obtain ⟨hs, ho⟩ := List.mem_filter.mp hs
    exact ⟨h.offerID newManager_keyed ▸ Table.mem_getAllSwaps.mp hs, ho⟩
  refine ⟨fun ⟨p, h⟩ => hl h, fun ⟨hs, ho⟩ => ?_⟩
  have hm : id ∈ (newManager db).ongoing := by
    cases Table.getSwap_offerID hs
    simp only [newManager, mem_foldl_load, List.mem_filter, Table.mem_getAllSwaps]
    exact .inr ⟨s, ⟨hs, ho⟩, rfl⟩
  obtain ⟨p, hp⟩ := Option.isSome_iff_exists.mp (AList.lookup_isSome.mpr hm)
  obtain ⟨s', hs', -⟩ := newManager_keyed id p hp
  have he := (hl ⟨hp, hs'⟩).left
  exact ⟨p, hp, Option.some.inj (he.symm.trans hs) ▸ hs'⟩

end NewManager

end Swap.Manager
