import AtomicSwap.Library.Handler
import AtomicSwap.Library.Machine
import AtomicSwap.Ethereum.VaultManager.Basic

open Ethereum Handler Machine

namespace WsxmrDaemon

-- The daemon that looks for events of the vault manager. It polls a range of blocks after another.

-- The events, in the order in which they are asked for.
inductive Kind
  | mintInitiated
  | mintReady
  | mintFinalized
  | burnInitiated
  | burnFinalized
  | vaultLiquidated
  deriving DecidableEq

def monitored : List Kind :=
  [.mintInitiated, .mintReady, .mintFinalized, .burnInitiated, .burnFinalized, .vaultLiquidated]

-- Other events of the contract are not monitored.
def kind : VaultManager.Event → Option Kind
  | .mintInitiated ..   => some .mintInitiated
  | .mintReady ..       => some .mintReady
  | .mintFinalized ..   => some .mintFinalized
  | .burnInitiated ..   => some .burnInitiated
  | .burnFinalized ..   => some .burnFinalized
  | .vaultLiquidated .. => some .vaultLiquidated
  | _                   => none

structure EventLog where
  blockNumber : ℕ
  event       : VaultManager.Event
  deriving DecidableEq

inductive Error
  | blockNumber
  | filter (kind : Kind)
  deriving DecidableEq

-- The blocks from `start` to `stop`.
structure Range where
  start : ℕ
  stop  : ℕ
  deriving DecidableEq

instance : Membership ℕ Range where
  mem r b := r.start ≤ b ∧ b ≤ r.stop

instance {r : Range} {b : ℕ} : Decidable (b ∈ r) :=
  inferInstanceAs (Decidable (_ ∧ _))

-- The results of the client's calls in one iteration of the main loop. The head may move between
-- the two calls of `BlockNumber`, and each call may fail.
structure Answers where
  blockNumber  : Option ℕ
  filter       : Kind → Range → Option (List EventLog)
  currentBlock : Option ℕ

structure State where
  lastBlock : ℕ
  processed : List EventLog := []
  -- The ranges of the calls of `monitorEvents` that have returned no error.
  scanned   : List Range    := []

abbrev M := Handler State Error

def filterEvents (a : Answers) (r : Range) : List Kind → M Unit
  | []      => pure ()
  | k :: ks => do
    let logs ← .ofOption (.filter k) (a.filter k r)
    .modify fun s => { s with processed := s.processed ++ logs }
    filterEvents a r ks

-- The range is empty if there is no new block.
def monitorEvents (a : Answers) (fromBlock : ℕ) : M Range := do
  let currentBlock ← .ofOption .blockNumber a.blockNumber
  let r := { start := fromBlock + 1, stop := currentBlock }
  if currentBlock ≤ fromBlock then return r
  filterEvents a r monitored
  return r

-- One iteration of the main loop. The block that it continues from is asked for again, and is set
-- even if the events could not be read.
def tick (s : State) (a : Answers) : State :=
  let (result, s) := monitorEvents a s.lastBlock s
  let s :=
    match result with
    | .ok r    => { s with scanned := s.scanned ++ [r] }
    | .error _ => s
  match a.currentBlock with
  | none              => s
  | some currentBlock =>
    if currentBlock > s.lastBlock then { s with lastBlock := currentBlock } else s

variable {s s' : State} {a : Answers} {as : List Answers} {r : Range} {ks : List Kind}
  {chain : List EventLog} {start n b : ℕ}

-- What reading the events changes, and when it succeeds.
structure Reads (a : Answers) (r : Range) (ks : List Kind) (s : State) (result : Except Error Unit)
    (s' : State) : Prop where
  lastBlock : s'.lastBlock = s.lastBlock
  scanned   : s'.scanned = s.scanned
  kept      : s.processed ⊆ s'.processed
  ok        : result = .ok () ↔ ∀ k ∈ ks, (a.filter k r).isSome
  all       : result = .ok () → ∀ k ∈ ks, ∀ logs ∈ a.filter k r, logs ⊆ s'.processed

theorem filterEvents_spec (a : Answers) (r : Range) (ks : List Kind) (s : State) :
    (filterEvents a r ks).Post s (Reads a r ks s) := by
  induction ks generalizing s
  case nil =>
    rw [filterEvents]
    exact post_pure.mpr ⟨rfl, rfl, List.Subset.refl _, by simp, by simp⟩
  case cons k ks hi =>
    rw [filterEvents]
    refine post_ofOption_bind.mpr ⟨fun hn => ?_, fun logs hl => ?_⟩
    · exact ⟨rfl, rfl, List.Subset.refl _, by simp [hn], by simp⟩
    · refine post_modify_bind.mpr <| (hi _).imp fun result s' h => ?_
      refine ⟨h.lastBlock, h.scanned, fun l hm => h.kept <| by simp [hm], ?_, fun hr => ?_⟩
      · simp [h.ok, hl]
      · intro k' hk logs' hl'
        cases hk
        case tail hk => exact h.all hr k' hk logs' hl'
        case head    =>
          cases hl.symm.trans hl'
          exact fun l hm => h.kept <| by simp [hm]

-- A call that returns no error.
def Returns (a : Answers) (fromBlock : ℕ) (r : Range) : Prop :=
  a.blockNumber = some r.stop ∧ r.start = fromBlock + 1 ∧
    (fromBlock < r.stop → ∀ k ∈ monitored, (a.filter k r).isSome)

structure Monitors (a : Answers) (fromBlock : ℕ) (s : State) (result : Except Error Range)
    (s' : State) : Prop where
  lastBlock : s'.lastBlock = s.lastBlock
  scanned   : s'.scanned = s.scanned
  kept      : s.processed ⊆ s'.processed
  ok        : ∀ r, result = .ok r ↔ Returns a fromBlock r
  all       : ∀ r, result = .ok r → fromBlock < r.stop → ∀ k ∈ monitored, ∀ logs ∈ a.filter k r,
    logs ⊆ s'.processed

theorem monitorEvents_spec (a : Answers) (fromBlock : ℕ) (s : State) :
    (monitorEvents a fromBlock).Post s (Monitors a fromBlock s) := by
  rw [monitorEvents]
  refine post_ofOption_bind.mpr ⟨fun hn => ?_, fun currentBlock hb => ?_⟩
  · exact ⟨rfl, rfl, List.Subset.refl _, by simp [Returns, hn], by simp⟩
  · have hr (r : Range) (he : a.blockNumber = some r.stop) (hs : r.start = fromBlock + 1) :
        r = { start := fromBlock + 1, stop := currentBlock } := by
      cases hb.symm.trans he
      rw [← hs]
    dsimp only
    split
    case isTrue hle =>
      refine post_pure.mpr ⟨rfl, rfl, List.Subset.refl _, fun r => ⟨?_, ?_⟩, ?_⟩
      · rintro ⟨⟩
        exact ⟨hb, rfl, fun hlt => absurd hlt (not_lt.mpr hle)⟩
      · rintro ⟨he, hs, -⟩
        rw [hr r he hs]
      · rintro r ⟨⟩ hlt
        exact absurd hlt (not_lt.mpr hle)
    case isFalse hlt =>
      refine (filterEvents_spec a _ monitored s).bind (fun e s' h => ?_) fun u s' h => ?_
      · refine ⟨h.lastBlock, h.scanned, h.kept, fun r => ?_, by simp⟩
        refine iff_of_false (by simp) fun ⟨he, hs, hk⟩ => ?_
        cases hr r he hs
        exact absurd (h.ok.mpr (hk (by simpa using hlt))) (by simp)
      · refine post_pure.mpr ⟨h.lastBlock, h.scanned, h.kept, fun r => ⟨?_, ?_⟩, ?_⟩
        · rintro ⟨⟩
          exact ⟨hb, rfl, fun _ => h.ok.mp rfl⟩
        · rintro ⟨he, hs, -⟩
          rw [hr r he hs]
        · rintro r ⟨⟩ _
          exact h.all rfl

structure Ticks (s : State) (a : Answers) (s' : State) : Prop where
  lastBlock : s'.lastBlock = max s.lastBlock (a.currentBlock.getD 0)
  scanned   : ∀ r, r ∈ s'.scanned ↔ r ∈ s.scanned ∨ Returns a s.lastBlock r
  kept      : s.processed ⊆ s'.processed
  all       : ∀ r, Returns a s.lastBlock r → s.lastBlock < r.stop → ∀ k ∈ monitored,
    ∀ logs ∈ a.filter k r, logs ⊆ s'.processed

theorem tick_spec (s : State) (a : Answers) : Ticks s a (tick s a) := by
  have hp := monitorEvents_spec a s.lastBlock s
  rcases hm : monitorEvents a s.lastBlock s with ⟨result, s₁⟩
  have h := hp.result hm
  obtain ⟨s₂, hs, hl, hk⟩ : ∃ s₂, tick s a = (match a.currentBlock with
      | none   => s₂
      | some b => if b > s₂.lastBlock then { s₂ with lastBlock := b } else s₂) ∧
      s₂.lastBlock = s.lastBlock ∧ s₂.processed = s₁.processed ∧
      ∀ r, r ∈ s₂.scanned ↔ r ∈ s.scanned ∨ result = .ok r := by
    simp only [tick, hm]
    cases result
    case error e => exact ⟨_, rfl, h.lastBlock, rfl, by simp [h.scanned]⟩
    case ok r    => exact ⟨_, rfl, h.lastBlock, rfl, by simp [h.scanned, eq_comm]⟩
  have hall (r) (hr : Returns a s.lastBlock r) := h.all r ((h.ok r).mpr hr)
  rw [hs]
  cases hb : a.currentBlock
  case none =>
    refine ⟨?_, ?_, ?_, ?_⟩
    · simp [hb, hl]
    · simp [hk.right, h.ok]
    · exact hk.left ▸ h.kept
    · exact hk.left ▸ hall
  case some b =>
    dsimp only
    split
    all_goals
      refine ⟨?_, ?_, ?_, ?_⟩
      · simp only [hb, Option.getD_some]
        omega
      · simp [hk.right, h.ok]
      · exact hk.left ▸ h.kept
      · exact hk.left ▸ hall

-- A block whose events were read.
def State.Covered (s : State) (b : ℕ) : Prop :=
  ∃ r ∈ s.scanned, b ∈ r

instance : Decidable (s.Covered b) :=
  inferInstanceAs (Decidable (∃ r ∈ s.scanned, b ∈ r))

-- The block that the loop continues from is not later than the last one of a call that returned no
-- error, either this one or an earlier one.
def Complete (s : State) (a : Answers) : Prop :=
  ∀ b ∈ a.currentBlock, s.lastBlock < b →
    (∃ r ∈ s.scanned, b ≤ r.stop) ∨ ∃ r, Returns a s.lastBlock r ∧ b ≤ r.stop

section Coverage

structure Contiguous (start : ℕ) (s : State) : Prop where
  cursor : ∀ b, start < b → b ≤ s.lastBlock → s.Covered b
  ranges : ∀ r ∈ s.scanned, ∀ b, start < b → b ≤ r.stop → s.Covered b

def Missed (start : ℕ) (s : State) : Prop :=
  ∃ b, start < b ∧ b ≤ s.lastBlock ∧ ¬s.Covered b

theorem Ticks.covered (h : Ticks s a s') (hb : s.Covered b) : s'.Covered b := by
  obtain ⟨r, hr, hm⟩ := hb
  exact ⟨r, (h.scanned r).mpr (.inl hr), hm⟩

theorem tick_contiguous (s : State) (a : Answers) (h : Contiguous start s) (hc : Complete s a) :
    Contiguous start (tick s a) := by
  have ht := tick_spec s a
  have hn (r) (hr : Returns a s.lastBlock r) (b) (hs : start < b) (hb : b ≤ r.stop) :
      (tick s a).Covered b := by
    by_cases hl : b ≤ s.lastBlock
    case pos => exact ht.covered (h.cursor b hs hl)
    case neg =>
      refine ⟨r, (ht.scanned r).mpr (.inr hr), ?_, hb⟩
      rw [hr.right.left]
      omega
  have hr (r) (hr : r ∈ (tick s a).scanned) (b) (hs : start < b) (hb : b ≤ r.stop) :
      (tick s a).Covered b := by
    rcases (ht.scanned r).mp hr with hr | hr
    · exact ht.covered (h.ranges r hr b hs hb)
    · exact hn r hr b hs hb
  refine ⟨fun b hs hb => ?_, hr⟩
  by_cases hl : b ≤ s.lastBlock
  case pos => exact ht.covered (h.cursor b hs hl)
  case neg =>
    rw [ht.lastBlock] at hb
    cases hc' : a.currentBlock
    case none   => rw [hc', Option.getD_none] at hb; omega
    case some c =>
      rw [hc', Option.getD_some] at hb
      rcases hc c hc' (by omega) with ⟨r, hr, hle⟩ | ⟨r, hr, hle⟩
      · exact ht.covered (h.ranges r hr b hs (by omega))
      · exact hn r hr b hs (by omega)

theorem tick_missed (s : State) (a : Answers) (h : Missed start s) : Missed start (tick s a) := by
  have ht := tick_spec s a
  obtain ⟨b, hs, hb, hc⟩ := h
  refine ⟨b, hs, by rw [ht.lastBlock]; omega, fun ⟨r, hr, hm⟩ => ?_⟩
  rcases (ht.scanned r).mp hr with hr | hr
  · exact hc ⟨r, hr, hm⟩
  · have := hm.left
    rw [hr.right.left] at this
    omega

theorem missed_of_not_complete (s : State) (a : Answers) (h : start ≤ s.lastBlock)
    (hc : ¬Complete s a) : Missed start (tick s a) := by
  have ht := tick_spec s a
  simp only [Complete, not_forall, not_or, not_exists, not_and, not_le] at hc
  obtain ⟨b, hb, hl, h₁, h₂⟩ := hc
  refine ⟨b, by omega, ?_, fun ⟨r, hr, hm⟩ => ?_⟩
  · rw [ht.lastBlock, hb, Option.getD_some]
    omega
  · have := hm.right
    rcases (ht.scanned r).mp hr with hr | hr
    · exact absurd this (not_le.mpr (h₁ r hr))
    · exact absurd this (not_le.mpr (h₂ r hr))

end Coverage

-- The client finds all events of a range.
def Sound (chain : List EventLog) (_ : State) (a : Answers) : Prop :=
  ∀ k r, ∀ logs ∈ a.filter k r, ∀ l ∈ chain, kind l.event = some k → l.blockNumber ∈ r → l ∈ logs

theorem mem_monitored (k : Kind) : k ∈ monitored := by
  cases k <;> decide

theorem tick_processed (s : State) (a : Answers)
    (h : ∀ l ∈ chain, (kind l.event).isSome → s.Covered l.blockNumber → l ∈ s.processed)
    (hs : Sound chain s a) :
    ∀ l ∈ chain, (kind l.event).isSome → (tick s a).Covered l.blockNumber →
      l ∈ (tick s a).processed := by
  have ht := tick_spec s a
  intro l hl hk ⟨r, hr, hm⟩
  rcases (ht.scanned r).mp hr with hr | hr
  · exact ht.kept <| h l hl hk ⟨r, hr, hm⟩
  · obtain ⟨k, hk⟩ := Option.isSome_iff_exists.mp hk
    have hlt : s.lastBlock < r.stop := by
      have ⟨h₁, h₂⟩ := hm
      rw [hr.right.left] at h₁
      omega
    obtain ⟨logs, hf⟩ := Option.isSome_iff_exists.mp <| hr.right.right hlt k (mem_monitored k)
    exact ht.all r hr hlt k (mem_monitored k) logs hf <| hs k r logs hf l hl hk hm

-- No block is passed over exactly if the loop never continues from a block that it has not read.
-- The monitored events of the blocks that were read are processed.
theorem scanned_iff (start : ℕ) (as : List Answers) (chain : List EventLog) :
    let s := run tick as { lastBlock := start }
    ((∀ b, start < b → b ≤ s.lastBlock → s.Covered b) ↔
      Along tick Complete as { lastBlock := start }) ∧
    (Along tick (Sound chain) as { lastBlock := start } →
      ∀ l ∈ chain, (kind l.event).isSome → s.Covered l.blockNumber → l ∈ s.processed) := by
  intro s
  constructor
  case left =>
    have hi : ¬Missed start s ↔ Along tick Complete as { lastBlock := start } :=
      along_iff (I := fun s => start ≤ s.lastBlock ∧ Contiguous start s)
        (fun s a h hc => ⟨by rw [(tick_spec s a).lastBlock]; omega, tick_contiguous s a h.right hc⟩)
        (fun s a h hc => missed_of_not_complete s a h.left hc) tick_missed
        (fun s h ⟨b, hs, hb, hc⟩ => hc (h.right.cursor b hs hb))
        ⟨le_rfl, fun b hs hb => absurd hs (not_lt.mpr hb), by simp⟩
    rw [← hi, Missed]
    push Not
    rfl
  case right =>
    intro hs
    refine run_invariant (P := Sound chain) (I := fun s : State => ∀ l ∈ chain,
      (kind l.event).isSome → s.Covered l.blockNumber → l ∈ s.processed) tick_processed ?_ hs
    simp [State.Covered]

section Sample

def ready : EventLog where
  blockNumber := 101
  event       := .mintReady 1

-- No call fails. The head is at one block for `monitorEvents` and at another one for the loop.
def heads (n m : ℕ) : Answers where
  blockNumber  := some n
  filter k r   := some <| [ready].filter fun l => kind l.event = some k ∧ l.blockNumber ∈ r
  currentBlock := some m

-- A block is added between the two calls. The loop continues after it and never looks at it.
theorem block_passed_over :
    let s := run tick [heads 100 101, heads 102 103] { lastBlock := 99 }
    s.lastBlock = 103 ∧ ¬s.Covered 101 ∧ ready ∉ s.processed := by
  decide

theorem heads_sound {n m : ℕ} : Sound [ready] s (heads n m) := by
  rintro k r logs ⟨⟩ l hl hk hm
  exact List.mem_filter.mpr ⟨hl, by simp [hk, hm]⟩

theorem heads_complete {m : ℕ} : Complete s (heads m m) := by
  rintro b ⟨⟩ hl
  exact .inr ⟨⟨s.lastBlock + 1, m⟩, ⟨rfl, rfl, fun _ _ _ => rfl⟩, le_rfl⟩

theorem scanned_iff_heads : let s := run tick [heads 101 101, heads 103 103] { lastBlock := 99 }
    (∀ b, 99 < b → b ≤ s.lastBlock → s.Covered b) ∧ ready ∈ s.processed := by
  have h := scanned_iff 99 [heads 101 101, heads 103 103] [ready]
  refine ⟨h.left.mpr ⟨heads_complete, heads_complete, trivial⟩, ?_⟩
  exact h.right ⟨heads_sound, heads_sound, trivial⟩ ready (by simp) rfl (by decide)

end Sample

end WsxmrDaemon
