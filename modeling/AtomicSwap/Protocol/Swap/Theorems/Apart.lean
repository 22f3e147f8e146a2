import AtomicSwap.Protocol.Swap.Theorems.Manager

open Ethereum Handler Machine

namespace Swap

namespace Manager

variable {m : Manager} {s : Record} {p : ℕ} {id : Bytes32} {l : List Record}

-- No offer ID is in both maps.
def Apart (m : Manager) : Prop :=
  ∀ id ∈ m.ongoing, id ∉ m.past

-- What the two calls that return past swaps must not return.
def Call.Sound (m : Manager) : Call → Prop
  | .getPastSwap id =>
    ∀ p m' s, Manager.getPastSwap true id m = (.ok p, m') → m'.infos[p]? = some s →
      s.status.isOngoing = false
  | .getPastIDs     =>
    ∀ ids m', Manager.getPastIDs true m = (.ok ids, m') → ∀ id ∈ ids, id ∉ m.ongoing
  | _               => True

-- An ID that has an entry among the past swaps is not used again, a swap is completed in a final
-- status, which stays final, and a past swap is not asked for while the swap is ongoing.
def Call.Meets (m : Manager) : Call → Prop
  | .addSwap info            =>
    if info.status.isOngoing then info.offerID ∉ m.past else info.offerID ∉ m.ongoing
  | .setStatus p status      =>
    status.isOngoing → ∀ s ∈ m.infos[p]?, m.past.lookup s.offerID ≠ some p
  | .writeSwapToDB p         => ∀ s ∈ m.infos[p]?, s.offerID ∈ m.ongoing → s.status.isOngoing
  | .completeOngoingSwap _ p =>
    ∀ s ∈ m.infos[p]?, s.offerID ∈ m.ongoing → s.status.isOngoing = false
  | .getPastSwap id          => id ∉ m.ongoing
  | .getPastIDs              => True

-- The swaps are kept apart in memory, and the database agrees with this as far as it is asked.
structure Separate (m : Manager) : Prop where
  apart  : m.Apart
  past   : ∀ id p, m.past.lookup id = some p →
    ∃ s, m.infos[p]? = some s ∧ s.offerID = id ∧ s.status.isOngoing = false
  known  : ∀ (p : ℕ) (s : Record), m.infos[p]? = some s → s.offerID ∈ m.ongoing ∨ s.offerID ∈ m.past
  stored : ∀ id s, m.db.getSwap id = some s →
    (id ∈ m.ongoing → s.status.isOngoing) ∧ (s.status.isOngoing → id ∈ m.ongoing ∨ id ∈ m.past)

theorem newManager_separate {db : Table} : (newManager db).Separate where
  apart  := by simp [Apart, newManager]
  past   := by simp [newManager]
  known  := by
    intro p s h
    have hs : s ∈ db.getAllSwaps.filter (·.status.isOngoing) := by
      simpa [newManager] using List.mem_of_getElem? h
    simp only [newManager, mem_foldl_load]
    exact .inl <| .inr ⟨s, hs, rfl⟩
  stored := by
    intro id s h
    have h : db.getSwap id = some s := by simpa [newManager] using h
    cases Table.getSwap_offerID h
    simp only [newManager, mem_foldl_load, List.mem_filter, Table.mem_getAllSwaps]
    refine ⟨?_, fun ho => .inl <| .inr ⟨s, ⟨h, ho⟩, rfl⟩⟩
    rintro (hi | ⟨s', ⟨hs, ho⟩, he⟩)
    · simp at hi
    · rw [he, h] at hs
      cases hs
      exact ho

section Step

theorem getElem?_new {s' : Record} (h : (m.infos ++ [s])[p]? = some s') :
    m.infos[p]? = some s' ∨ s' = s := by
  rw [List.getElem?_append] at h
  split at h
  case isTrue  => exact .inl h
  case isFalse => exact .inr (List.mem_singleton.mp <| List.mem_of_getElem? h)

theorem getElem?_old {s' : Record} (h : m.infos[p]? = some s') :
    (m.infos ++ [s])[p]? = some s' := by
  rw [List.getElem?_append_left (List.getElem?_eq_some_iff.mp h).fst, h]

theorem Separate.putSwap (h : m.Separate) (hm : s.offerID ∈ m.ongoing → s.status.isOngoing)
    (ho : s.status.isOngoing → s.offerID ∈ m.ongoing ∨ s.offerID ∈ m.past) :
    Separate { m with db := m.db.putSwap s } where
  apart  := h.apart
  past   := h.past
  known  := h.known
  stored := by
    intro id s' hs
    rcases Table.getSwap_putSwap hs with rfl | ⟨-, hs'⟩
    case inl => exact Table.getSwap_offerID hs ▸ ⟨hm, ho⟩
    case inr => exact h.stored id s' hs'

theorem Separate.insert_ongoing (h : m.Separate) (ho : s.status.isOngoing)
    (hi : s.offerID ∉ m.past) :
    Separate { m with ongoing := m.ongoing.insert s.offerID p, db := m.db.putSwap s } where
  apart  := by
    intro id hm
    rcases AList.mem_insert _ |>.mp hm with rfl | hm
    case inl => exact hi
    case inr => exact h.apart id hm
  past   := h.past
  known  := fun q s' hq => (h.known q s' hq).imp_left (AList.mem_insert _ |>.mpr <| .inr ·)
  stored := by
    intro id s' hs
    simp only [AList.mem_insert]
    rcases Table.getSwap_putSwap hs with rfl | ⟨hn, hs'⟩
    case inl => exact ⟨fun _ => ho, fun _ => .inl <| .inl (Table.getSwap_offerID hs).symm⟩
    case inr =>
      obtain ⟨hm, hk⟩ := h.stored id s' hs'
      exact ⟨fun hi => hm (hi.resolve_left hn), fun ho => (hk ho).imp_left .inr⟩

theorem Separate.append (h : m.Separate) (hk : s.offerID ∈ m.ongoing ∨ s.offerID ∈ m.past) :
    Separate { m with infos := m.infos ++ [s] } where
  apart  := h.apart
  past   := by
    intro id q hq
    obtain ⟨s', hs, hi⟩ := h.past id q hq
    exact ⟨s', getElem?_old hs, hi⟩
  known  := by
    intro q s' hq
    rcases getElem?_new hq with hq | rfl
    case inl => exact h.known q s' hq
    case inr => exact hk
  stored := h.stored

-- The ID of a final swap moves to the past swaps. Its `Info` may be a new one.
theorem Separate.move (h : m.Separate) (hp : l[p]? = some s) (ho : s.status.isOngoing = false)
    (hl : l = m.infos ∨ l = m.infos ++ [s]) :
    Separate
      { m with
        infos   := l
        ongoing := m.ongoing.erase s.offerID
        past    := m.past.insert s.offerID p } where
  apart  := by
    intro id hm
    simp only [AList.mem_erase, AList.mem_insert, not_or] at hm ⊢
    exact ⟨hm.left, h.apart id hm.right⟩
  past   := by
    intro id q hq
    by_cases he : id = s.offerID
    · subst he
      simp only [AList.lookup_insert, Option.some.injEq] at hq
      exact ⟨s, hq ▸ hp, rfl, ho⟩
    · rw [AList.lookup_insert_ne he] at hq
      obtain ⟨s', hs, hi⟩ := h.past id q hq
      rcases hl with rfl | rfl
      case inl => exact ⟨s', hs, hi⟩
      case inr => exact ⟨s', getElem?_old hs, hi⟩
  known  := by
    intro q s' hq
    have hk : m.infos[q]? = some s' ∨ s' = s := by
      rcases hl with rfl | rfl
      case inl => exact .inl hq
      case inr => exact getElem?_new hq
    simp only [AList.mem_erase, AList.mem_insert]
    rcases hk with hk | rfl
    case inl => have := h.known q s' hk; tauto
    case inr => exact .inr <| .inl rfl
  stored := by
    intro id s' hs
    obtain ⟨hm, hk⟩ := h.stored id s' hs
    simp only [AList.mem_erase, AList.mem_insert]
    tauto

theorem Separate.append_past (h : m.Separate) (ho : s.status.isOngoing = false)
    (hi : s.offerID ∉ m.ongoing) :
    Separate
      { m with
        infos := m.infos ++ [s]
        past  := m.past.insert s.offerID m.infos.length } := by
  have he : m.ongoing.erase s.offerID = m.ongoing :=
    AList.ext <| List.kerase_of_notMem_keys hi
  have hm := h.move (p := m.infos.length) (by simp) ho <| .inr rfl
  rwa [he] at hm

-- A past swap does not become ongoing again.
theorem Separate.modify (h : m.Separate) {f : Record → Record} (hi : ∀ s, (f s).offerID = s.offerID)
    (hp : ∀ s ∈ m.infos[p]?, m.past.lookup s.offerID = some p → s.status.isOngoing = false →
      (f s).status.isOngoing = false) :
    Separate { m with infos := m.infos.modify p f } where
  apart  := h.apart
  past   := by
    intro id q hq
    obtain ⟨s, hs, rfl, ho⟩ := h.past id q hq
    by_cases he : p = q
    · subst he
      exact ⟨f s, by simp [hs], hi s, hp s hs hq ho⟩
    · exact ⟨s, by simp [hs, he], rfl, ho⟩
  known  := by
    intro q s' hq
    simp only [List.getElem?_modify, Option.map_eq_map, Option.map_eq_some_iff] at hq
    obtain ⟨s, hs, rfl⟩ := hq
    have hk := h.known q s hs
    split
    case isTrue  => rwa [hi]
    case isFalse => exact hk
  stored := h.stored

theorem Separate.step_addSwap (h : m.Separate) (hc : (Call.addSwap s).Meets m) :
    (m.step (.addSwap s)).Separate := by
  change (newInfo s >>= addSwap true).Post m fun _ m' => m'.Separate
  refine post_addSwap_new.mpr <| post_putSwap.mpr ⟨by simp, fun _ => ?_⟩
  by_cases ho : s.status.isOngoing <;> simp only [Call.Meets, ho, added] at hc ⊢
  case pos =>
    refine (h.insert_ongoing (p := m.infos.length) ho hc).append ?_
    simp
  case neg =>
    refine (h.append_past (by simpa using ho) hc).putSwap (fun hi => ?_) (fun hi => ?_)
    · exact absurd hi hc
    · exact absurd hi ho

theorem Separate.step_setStatus {status : Status} (h : m.Separate)
    (hc : (Call.setStatus p status).Meets m) : (m.step (.setStatus p status)).Separate := by
  refine h.modify (fun _ => rfl) fun s hs hp _ => ?_
  by_contra ho
  exact hc (by simpa using ho) s hs hp

theorem Separate.step_writeSwapToDB (h : m.Separate) (hc : (Call.writeSwapToDB p).Meets m) :
    (m.step (.writeSwapToDB p)).Separate := by
  change (writeSwapToDB true p).Post m fun _ m' => m'.Separate
  refine post_writeSwapToDB.mpr ⟨fun _ => h, fun s hp => post_putSwap.mpr ⟨by simp, fun _ => ?_⟩⟩
  exact h.putSwap (hc s hp) fun _ => h.known p s hp

theorem Separate.step_completeOngoingSwap {now : Time} (h : m.Separate)
    (hc : (Call.completeOngoingSwap now p).Meets m) :
    (m.step (.completeOngoingSwap now p)).Separate := by
  change (completeOngoingSwap true now p).Post m fun _ m' => m'.Separate
  refine post_completeOngoingSwap.mpr ⟨fun _ => h, fun s hp => ⟨fun _ => h, fun hi => ?_⟩⟩
  refine post_putSwap.mpr ⟨by simp, fun _ => ?_⟩
  have ho : s.status.isOngoing = false := hc s hp hi
  have he : Separate { m with infos := m.infos.modify p ({ · with endTime := some now }) } :=
    h.modify (fun _ => rfl) fun _ _ _ ho => ho
  have hm : (m.moved now p s).Separate :=
    he.move (s := { s with endTime := some now }) (by simp [hp]) ho <| .inl rfl
  refine hm.putSwap (fun hi => ?_) (fun ho' => ?_)
  · simp [moved] at hi
  · simp [ho] at ho'

-- Neither map has the ID, so that a swap of the database is final.
theorem Separate.getPastSwap (h : m.Separate) (hi : id ∉ m.ongoing) :
    (getPastSwap true id).Post m fun r m' =>
      m'.Separate ∧
      ∀ p s, r = .ok p → m'.infos[p]? = some s → s.status.isOngoing = false := by
  refine post_get_bind.mpr ?_
  split
  case h_1 p hp =>
    refine post_pure.mpr ⟨h, ?_⟩
    rintro _ s ⟨⟩ hs
    obtain ⟨s', hs', -, ho⟩ := h.past id p hp
    exact Option.some.inj (hs' ▸ hs) ▸ ho
  case h_2 hp =>
    refine post_throwIf_bind.mpr ⟨by simp, fun _ => post_ofOption_bind.mpr ⟨fun _ => ?_, ?_⟩⟩
    · exact ⟨h, by simp⟩
    intro s hs
    cases Table.getSwap_offerID hs
    have ho : s.status.isOngoing = false := by
      by_contra ho
      rcases (h.stored _ s hs).right (by simpa using ho) with hm | hm
      case inl => exact hi hm
      case inr => exact AList.lookup_eq_none.mp hp hm
    refine ⟨h.append_past ho hi, ?_⟩
    rintro _ s' ⟨⟩ hs'
    have he : (m.infos ++ [s])[m.infos.length]? = some s' := hs'
    simp only [List.getElem?_concat_length, Option.some.injEq] at he
    exact he ▸ ho

theorem Separate.getPastIDs (h : m.Separate) :
    (getPastIDs true).Post m fun r m' =>
      m' = m ∧ ∀ ids, r = .ok ids → ∀ id ∈ ids, id ∉ m.ongoing := by
  refine post_get_bind.mpr <| post_throwIf_bind.mpr ⟨by simp, fun _ => post_pure.mpr ⟨rfl, ?_⟩⟩
  rintro _ ⟨⟩ id hm hi
  simp only [List.mem_dedup, List.mem_append, List.mem_map, List.mem_filter,
    Table.mem_getAllSwaps] at hm
  rcases hm with hm | ⟨s, ⟨hs, ho⟩, rfl⟩
  case inl => exact h.apart id hi hm
  case inr => simp [(h.stored _ s hs).left hi] at ho

theorem Separate.step {c : Call} (h : m.Separate) (hc : c.Meets m) : (m.step c).Separate := by
  cases c
  case addSwap             => exact h.step_addSwap hc
  case setStatus           => exact h.step_setStatus hc
  case writeSwapToDB       => exact h.step_writeSwapToDB hc
  case completeOngoingSwap => exact h.step_completeOngoingSwap hc
  case getPastSwap         => exact (h.getPastSwap hc).left
  case getPastIDs          => exact h.getPastIDs.left ▸ h

theorem Separate.sound {c : Call} (h : m.Separate) (hc : c.Meets m) : c.Sound m := by
  cases c
  case getPastSwap id =>
    intro p m' s hp hs
    exact ((h.getPastSwap hc).result hp).right p s rfl hs
  case getPastIDs     =>
    intro ids m' hm
    exact (h.getPastIDs.result hm).right ids rfl
  all_goals trivial

end Step

variable {db : Table} {cs : List Call}

theorem swaps_apart (h : Along step (fun m c => c.Meets m) cs (newManager db)) :
    Along step (fun m c => m.Apart ∧ c.Sound m) cs (newManager db) ∧
    (run cs (newManager db)).Apart := by
  have hs : (newManager db).Separate := newManager_separate
  constructor
  · exact .of_invariant (fun m c => Separate.step) (fun m c h hc => ⟨h.apart, h.sound hc⟩) hs h
  · exact (run_invariant (I := Separate) (fun m c => Separate.step) hs h).apart

def Sample.record (status : Status) : Record where
  offerID        := 1
  providedAmount := { coeff := 1, exponent := 0 }
  expectedAmount := { coeff := 1, exponent := 0 }
  ethAsset       := ethAssetETH
  status         := status
  provides       := .xmr

instance : ∀ c : Call, Decidable (c.Meets m)
  | .addSwap _               => by unfold Call.Meets; infer_instance
  | .setStatus _ _           => by unfold Call.Meets; infer_instance
  | .writeSwapToDB _         => by unfold Call.Meets; infer_instance
  | .completeOngoingSwap _ _ => by unfold Call.Meets; infer_instance
  | .getPastSwap _           => by unfold Call.Meets; infer_instance
  | .getPastIDs              => .isTrue trivial

theorem swaps_apart_aborted :
    (run [.addSwap (Sample.record .keysExchanged), .writeSwapToDB 0, .setStatus 0 .completedAbort,
      .completeOngoingSwap 0 0, .getPastSwap 1, .getPastIDs] (newManager .empty)).Apart :=
  (swaps_apart <| by decide).right

def Sample.taken : Manager :=
  run [.addSwap (record .keysExchanged)] (newManager .empty)

-- The swap is aborted, and its offer is taken again.
def Sample.retaken : Manager :=
  run [.setStatus 0 .completedAbort, .completeOngoingSwap 0 0, .addSwap (record .keysExchanged)]
    taken

theorem retaken_in_both :
    (1 ∈ Sample.retaken.ongoing ∧ 1 ∈ Sample.retaken.past ∧
      (getPastIDs true Sample.retaken).fst = .ok [1]) ∧
    1 ∈ Sample.taken.ongoing ∧ 1 ∈ (getPastSwap true 1 Sample.taken).snd.past ∧
      (getPastSwap true 1 Sample.taken).fst = .ok 1 ∧
      (getPastSwap true 1 Sample.taken).snd.infos[1]? = some (Sample.record .keysExchanged) := by
  decide

end Manager

end Swap
