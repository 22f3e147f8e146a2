import AtomicSwap.Net.Host

open Ethereum Function

namespace Net

-- The handler is between the registration of its stream and its own last access to the entry.
def HandlerState.On (id : Bytes32) (s : HandlerState) : Prop :=
  s = .initiating id ∨ s = .exiting id ∨ s = .failed id ∨ s = .succeeded id

-- The handler may still need its entry.
def HandlerState.Needs (id : Bytes32) (s : HandlerState) : Prop :=
  s = .initiating id ∨ s = .succeeded id

instance {id : Bytes32} {s : HandlerState} : Decidable (s.On id) :=
  inferInstanceAs (Decidable (_ ∨ _))

instance {id : Bytes32} {s : HandlerState} : Decidable (s.Needs id) :=
  inferInstanceAs (Decidable (_ ∨ _))

namespace Host

-- No offer ID is taken while a handler is on it, and no swap deletes an entry which a handler
-- needs.
def Careful (h : Host) : Input → Prop
  | .received n (some id)  =>
    h.handlers n = .reading → h.swaps id = none → ∀ m, ¬(h.handlers m).On id
  | .initiate id true      => h.swaps id = none → ∀ n, ¬(h.handlers n).On id
  | .deleteOngoingSwap id  => ∀ n, ¬(h.handlers n).Needs id
  | _                      => True

-- A handler deletes no entry but its own, and its own is there when it sets the swap state.
def Undisturbed (h : Host) : Input → Prop
  | .delete n       => ∀ id, h.handlers n = .failed id → ∀ s ∈ h.swaps id, s.stream = .incoming n
  | .setSwapState n =>
    ∀ id, h.handlers n = .succeeded id → ∃ s ∈ h.swaps id, s.stream = .incoming n
  | _               => True

-- At most one stream is registered for an offer ID.
def Unique (h : Host) : Prop :=
  ∀ id s s', h.registered s = some id → h.registered s' = some id → s = s'

-- What a step can do.
inductive Step (h : Host) : Input → Host → Prop
  | idle {i} : Step h i h
  | closed {n im} : h.handlers n = .reading → Step h (.received n im) (h.goto n .closed)
  | registered {n id} : h.handlers n = .reading → h.swaps id = none →
      Step h (.received n (some id))
        (h.register id { stream := .incoming n } |>.goto n (.initiating id))
  | exit {n id} : h.handlers n = .initiating id → Step h (.exit n) (h.goto n (.exiting id))
  | succeeded {n id} : h.handlers n = .initiating id →
      Step h (.initiated n true) (h.goto n (.succeeded id))
  | failed {n id ok} : h.handlers n = .initiating id ∨ h.handlers n = .exiting id →
      Step h (.initiated n ok) (h.goto n (.failed id))
  | deleted {n id} : h.handlers n = .failed id →
      Step h (.delete n) (h.unregister id |>.goto n .closed)
  | panicked {n id} : h.handlers n = .succeeded id → h.swaps id = none →
      Step h (.setSwapState n) { h with panicked := true }
  | served {n id s} : h.handlers n = .succeeded id → h.swaps id = some s →
      Step h (.setSwapState n)
        ({ h with swaps := update h.swaps id (some { s with swapState := some (.incoming n) }) }
          |>.goto n (.serving id))
  | streamClosed {n id} : h.handlers n = .serving id →
      Step h (.streamClosed n) (h.goto n .closed)
  | initiate {id} : h.swaps id = none →
      Step h (.initiate id true)
        ({ h with opened := h.opened + 1 }.register id
          { stream := .outgoing h.opened, swapState := some (.outgoing h.opened) })
  | closeProtocolStream {id s} : h.swaps id = some s →
      Step h (.closeProtocolStream id)
        { h with swaps := update h.swaps id (some { s with streamClosed := true }) }
  | deleteOngoingSwap {id} : Step h (.deleteOngoingSwap id) (h.unregister id)

theorem step_step (h : Host) (i : Input) : h.Step i (h.step i) := by
  simp only [step]
  split
  case isTrue  => exact .idle
  case isFalse =>
    cases i <;> simp only
    case received n im          =>
      cases hn : h.handlers n
      case reading =>
        cases im
        case none    => exact .closed hn
        case some id =>
          simp only [handleProtocolStream]
          split
          case h_1    => exact .closed hn
          case h_2 hi => exact .registered hn hi
      all_goals exact .idle
    case exit n                 =>
      cases hn : h.handlers n
      case initiating id => exact .exit hn
      all_goals exact .idle
    case initiated n ok         =>
      simp only [initiated]
      cases hn : h.handlers n
      case initiating id =>
        cases ok
        case false => exact .failed (.inl hn)
        case true  => exact .succeeded hn
      case exiting id    => exact .failed (.inr hn)
      all_goals exact .idle
    case delete n               =>
      cases hn : h.handlers n
      case failed id => exact .deleted hn
      all_goals exact .idle
    case setSwapState n         =>
      cases hn : h.handlers n
      case succeeded id =>
        simp only [setSwapState]
        split
        case h_1 hi => exact .panicked hn hi
        case h_2 hi => exact .served hn hi
      all_goals exact .idle
    case streamClosed n         =>
      cases hn : h.handlers n
      case serving id => exact .streamClosed hn
      all_goals exact .idle
    case initiate id sent       =>
      simp only [initiate]
      split
      case h_1    => exact .idle
      case h_2 hi =>
        cases sent
        case false => exact .idle
        case true  => exact .initiate hi
    case closeProtocolStream id =>
      simp only [closeProtocolStream]
      split
      case h_1    => exact .idle
      case h_2 hi => exact .closeProtocolStream hi
    case deleteOngoingSwap id   => exact .deleteOngoingSwap

variable {h : Host} {n : ℕ} {id id' : Bytes32} {s : Swap} {hs : HandlerState} {i : Input}

section Registry

-- The map is as the registrations are: none has been overwritten.
structure Registry (h : Host) : Prop where
  registered : ∀ s id, h.registered s = some id ↔ ∃ e ∈ h.swaps id, e.stream = s
  incoming   : ∀ n, h.handlers n = .reading → h.registered (.incoming n) = none
  outgoing   : ∀ n, h.opened ≤ n → h.registered (.outgoing n) = none

theorem Registry.unique (hr : h.Registry) : h.Unique := by
  intro id s s' hs hs'
  obtain ⟨e, he, rfl⟩ := (hr.registered s id).mp hs
  obtain ⟨e', he', rfl⟩ := (hr.registered s' id).mp hs'
  rw [Option.mem_unique he he']

theorem new_registry : new.Registry where
  registered := by simp [new]
  incoming   := by simp [new]
  outgoing   := by simp [new]

theorem Registry.goto (hr : h.Registry) (hn : hs ≠ .reading) : (h.goto n hs).Registry where
  registered    := hr.registered
  outgoing      := hr.outgoing
  incoming m hm := by
    by_cases he : m = n
    · simp [Host.goto, he, hn] at hm
    · exact hr.incoming m (by simpa [Host.goto, he] using hm)

-- The ID has no entry, and the stream is not registered for another one.
theorem Registry.register (hr : h.Registry) (hi : h.swaps id = none)
    (hs : h.registered s.stream = none) (st : Stream) (id' : Bytes32) :
    (h.register id s).registered st = some id' ↔
      ∃ e ∈ (h.register id s).swaps id', e.stream = st := by
  simp only [Host.register]
  by_cases he : id' = id <;> by_cases ht : st = s.stream
  · simp [he, ht]
  · subst he
    have hn : h.registered st ≠ some id' := by simp [hr.registered, hi]
    simp [ht, hn, Ne.symm ht]
  · subst ht
    have hn : h.registered s.stream ≠ some id' := by simp [hs]
    rw [Ne, hr.registered] at hn
    simp only [update_self, update_of_ne he, hn, Option.some.injEq, iff_false]
    exact Ne.symm he
  · simp [he, ht, hr.registered]

theorem Registry.unregister (hr : h.Registry) : (h.unregister id).Registry := by
  rw [Host.unregister]
  split
  case h_1      => exact hr
  case h_2 s hs =>
    have hi : h.registered s.stream = some id := (hr.registered _ _).mpr ⟨s, hs, rfl⟩
    have hn {st : Stream} (ht : h.registered st = none) :
        update h.registered s.stream none st = none := by
      by_cases he : st = s.stream <;> simp [he, ht]
    refine ⟨fun st id' => ?_, fun n ht => hn (hr.incoming n ht), fun n ht => hn (hr.outgoing n ht)⟩
    by_cases he : id' = id
    · subst he
      by_cases ht : st = s.stream
      · simp [ht]
      · simp [ht, hr.registered, hs, Ne.symm ht]
    · by_cases ht : st = s.stream
      · have hn : h.registered st ≠ some id' := by simp [ht, hi, Ne.symm he]
        rw [Ne, hr.registered] at hn
        simpa [he, ht] using hn
      · simp [ht, he, hr.registered]

-- The stream of an entry does not change.
theorem Registry.replace {s' : Swap} (hr : h.Registry) (hs : h.swaps id = some s)
    (he : s'.stream = s.stream) : { h with swaps := update h.swaps id (some s') }.Registry where
  incoming          := hr.incoming
  outgoing          := hr.outgoing
  registered st id' := by
    rw [hr.registered]
    by_cases hi : id' = id
    · simp [hi, hs, he]
    · simp [hi]

theorem Registry.registerIncoming (hr : h.Registry) (hn : h.handlers n = .reading)
    (hi : h.swaps id = none) :
    (h.register id { stream := .incoming n } |>.goto n (.initiating id)).Registry := by
  constructor
  case registered => exact hr.register hi (hr.incoming n hn)
  case incoming   =>
    intro m hm
    have he : m ≠ n := by
      rintro rfl
      simp [Host.goto] at hm
    simp only [Host.goto, update_of_ne he] at hm
    simpa [Host.goto, Host.register, he] using hr.incoming m hm
  case outgoing   => simpa [Host.goto, Host.register] using hr.outgoing

theorem Registry.registerOutgoing {ss : Option Stream} (hr : h.Registry) (hi : h.swaps id = none) :
    ({ h with opened := h.opened + 1 }.register id
      { stream := .outgoing h.opened, swapState := ss }).Registry := by
  constructor
  case registered => exact hr.register hi (hr.outgoing _ le_rfl)
  case incoming   => simpa [Host.register] using hr.incoming
  case outgoing   =>
    intro n hn
    have he : n ≠ h.opened := by
      rintro rfl
      simp [Host.register] at hn
    simpa [Host.register, he] using hr.outgoing n (Nat.le_of_lt hn)

theorem step_registry (hr : h.Registry) : (h.step i).Registry := by
  have hs := h.step_step i
  generalize h.step i = h' at hs
  cases hs
  case idle                   => exact hr
  case registered hn hi       => exact hr.registerIncoming hn hi
  case deleted hn             => exact hr.unregister.goto (by simp)
  case panicked               => exact ⟨hr.registered, hr.incoming, hr.outgoing⟩
  case served hn hi           =>
    refine Registry.goto ?_ (by simp)
    exact hr.replace hi rfl
  case initiate hi            => exact hr.registerOutgoing hi
  case closeProtocolStream hi => exact hr.replace hi rfl
  case deleteOngoingSwap      => exact hr.unregister
  -- The other steps only move a handler that has read its message.
  all_goals exact hr.goto (by simp)

end Registry

section Owned

-- What a handler may rely on.
def Safe (swaps : Bytes32 → Option Swap) (n : ℕ) : HandlerState → Prop
  | .initiating id | .succeeded id  => ∃ s ∈ swaps id, s.stream = .incoming n
  | .exiting id | .failed id        => ∀ s ∈ swaps id, s.stream = .incoming n
  | .reading | .serving _ | .closed => True

def Owned (h : Host) : Prop :=
  ∀ n, Safe h.swaps n (h.handlers n)

variable {swaps : Bytes32 → Option Swap}

theorem Safe.failed (hn : Safe swaps n (.initiating id)) : Safe swaps n (.failed id) := by
  obtain ⟨s, hs, ht⟩ := hn
  intro s' hs'
  rwa [Option.mem_unique hs' hs]

-- The entries of other IDs do not matter to a handler.
theorem Safe.other {e : Option Swap} (hn : Safe swaps n hs) (hi : ¬hs.On id) :
    Safe (update swaps id e) n hs := by
  cases hs
  case reading | serving | closed => trivial
  all_goals
    rename_i id'
    have he : id' ≠ id := by
      rintro rfl
      simp [HandlerState.On] at hi
    simpa [Safe, he] using hn

theorem Safe.remove (hn : Safe swaps n hs) (hi : ¬hs.Needs id) :
    Safe (update swaps id none) n hs := by
  by_cases ho : hs.On id
  · have hf : hs = .exiting id ∨ hs = .failed id := by
      simp only [HandlerState.On, HandlerState.Needs] at ho hi
      tauto
    rcases hf with rfl | rfl <;> simp [Safe]
  · exact hn.other ho

theorem Safe.replace {s' : Swap} (hn : Safe swaps n hs) (hi : swaps id = some s)
    (he : s'.stream = s.stream) : Safe (update swaps id (some s')) n hs := by
  by_cases ho : hs.On id
  · rcases ho with rfl | rfl | rfl | rfl <;> simpa [Safe, hi, he] using hn
  · exact hn.other ho

theorem Owned.safe (ho : h.Owned) (hn : h.handlers n = hs) : Safe h.swaps n hs :=
  hn ▸ ho n

theorem Owned.goto (ho : h.Owned) (hn : Safe h.swaps n hs) : (h.goto n hs).Owned := by
  intro m
  by_cases he : m = n
  · subst he
    simpa [Host.goto] using hn
  · simpa [Host.goto, he] using ho m

theorem unregister_swaps : (h.unregister id).swaps = update h.swaps id none := by
  rw [unregister]
  split
  case h_1 hi => rw [← hi, update_eq_self]
  case h_2    => rfl

theorem unregister_handlers : (h.unregister id).handlers = h.handlers := by
  rw [unregister]
  split <;> rfl

theorem Owned.unregister (ho : h.Owned) (hi : ∀ n, ¬(h.handlers n).Needs id) :
    (h.unregister id).Owned := by
  intro n
  rw [unregister_swaps, unregister_handlers]
  exact (ho n).remove (hi n)

theorem Owned.register (ho : h.Owned) (hi : ∀ n, ¬(h.handlers n).On id) :
    (h.register id s).Owned :=
  fun n => (ho n).other (hi n)

-- The entry that a failed handler deletes is its own, so no other handler needs it.
theorem Owned.failed (ho : h.Owned) (hn : h.handlers n = .failed id) (m : ℕ) :
    ¬(h.handlers m).Needs id := by
  intro hm
  obtain ⟨s, hs, ht⟩ : ∃ s ∈ h.swaps id, s.stream = .incoming m := by
    rcases hm with hm | hm <;> exact ho.safe hm
  obtain rfl : n = m := Stream.incoming.inj <| (ho.safe hn s hs).symm.trans ht
  rcases hm with hm | hm <;> simp [hn] at hm

theorem step_owned (ho : h.Owned) (hc : h.Careful i) : (h.step i).Owned := by
  have hs := h.step_step i
  generalize h.step i = h' at hs
  cases hs
  case idle                     => exact ho
  case registered hn hi         =>
    refine (ho.register (hc hn hi)).goto ?_
    simp [Safe, Host.register]
  case deleted hn               => exact (ho.unregister (ho.failed hn)).goto trivial
  case panicked                 => exact ho
  case served hn hi             =>
    refine Owned.goto (fun m => ?_) trivial
    exact (ho m).replace hi rfl
  case initiate hi              =>
    refine Owned.register ?_ (hc hi)
    exact ho
  case closeProtocolStream hi   => exact fun m => (ho m).replace hi rfl
  case deleteOngoingSwap        => exact ho.unregister hc
  case exit hn                  => exact ho.goto (ho.safe hn |>.failed)
  case succeeded hn             =>
    have hs := ho.safe hn
    exact ho.goto hs
  case failed hn                =>
    rcases hn with hn | hn <;> have hs := ho.safe hn
    case inl => exact ho.goto hs.failed
    case inr => exact ho.goto hs
  case closed hn                => exact ho.goto trivial
  case streamClosed hn          => exact ho.goto trivial

theorem Owned.undisturbed (ho : h.Owned) : h.Undisturbed i := by
  cases i
  case delete n       => exact fun id hn => ho.safe hn
  case setSwapState n => exact fun id hn => ho.safe hn
  all_goals trivial

theorem new_owned : new.Owned :=
  fun _ => trivial

end Owned

-- Handlers do not touch the entries of each other while the IDs of running handlers are left alone.
theorem careful_undisturbed (is : List Input) :
    (run is new).Unique ∧
    (Machine.Along step Careful is new → Machine.Along step Undisturbed is new) := by
  constructor
  · exact (Machine.run_keeps (fun _ _ => step_registry) new_registry).unique
  · intro h
    exact h.of_invariant (fun _ _ => step_owned) (fun _ _ ho _ => ho.undisturbed) new_owned

end Host

namespace Sample

-- A handler fails after it has made a swap, and the offer is taken by the next stream.
def retakenRun : List Input :=
  [.received 0 (some 1), .exit 0, .closeProtocolStream 1, .deleteOngoingSwap 1, .initiated 0 false,
    .delete 0, .received 1 (some 1), .initiated 1 true, .setSwapState 1, .deleteOngoingSwap 1]

-- The offer is back on sale before the handler that has failed deletes the entry.
def overtakenRun : List Input :=
  [.received 0 (some 1), .exit 0, .closeProtocolStream 1, .deleteOngoingSwap 1,
    .received 1 (some 1), .initiated 0 false, .delete 0]

-- The swap is cancelled before the handler sets its state.
def cancelledRun : List Input :=
  [.received 0 (some 1), .initiated 0 true, .closeProtocolStream 1, .deleteOngoingSwap 1,
    .setSwapState 0]

end Sample

namespace Host

open Net.Sample

theorem careful_undisturbed_retaken :
    Machine.Along step Careful retakenRun new ∧ Machine.Along step Undisturbed retakenRun new := by
  have h : Machine.Along step Careful retakenRun new := by
    refine ⟨?_, trivial, trivial, ?_, trivial, trivial, ?_, trivial, trivial, ?_, trivial⟩
    case refine_1 => exact fun _ _ _ => of_decide_eq_false rfl
    case refine_3 => rintro - - (_ | n) <;> exact of_decide_eq_false rfl
    all_goals rintro (_ | _ | n) <;> exact of_decide_eq_false rfl
  exact ⟨h, (careful_undisturbed retakenRun).right h⟩

theorem overtaken_disturbed :
    ¬Machine.Along step Undisturbed overtakenRun new ∧
    ¬Machine.Along step Undisturbed cancelledRun new ∧ (run cancelledRun new).panicked := by
  refine ⟨?_, ?_, by decide⟩
  · rintro ⟨-, -, -, -, -, -, h, -⟩
    cases h 1 rfl { stream := .incoming 1 } rfl
  · rintro ⟨-, -, -, -, h, -⟩
    obtain ⟨s, hs, -⟩ := h 1 rfl
    cases hs

end Host

end Net
