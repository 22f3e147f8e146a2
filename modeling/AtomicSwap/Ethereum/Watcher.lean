import AtomicSwap.Library.Machine
import AtomicSwap.Ethereum.Utils

open Machine

namespace Ethereum

-- A goroutine that asks for the logs of one contract and sends those of one topic to a channel.
structure EventFilter where
  contract  : Address
  topic     : Bytes32
  fromBlock : ℕ
  running   : Bool     := true
  sent      : List Log := []
  deriving DecidableEq

def newEventFilter (contract : Address) (fromBlock : ℕ) (topic : Bytes32) : EventFilter where
  contract  := contract
  topic     := topic
  fromBlock := fromBlock

namespace EventFilter

-- What one round of the loop gets from the Ethereum client. Without a header the logs are not asked
-- for, and some errors end the loop.
inductive Answer
  | noHeader (clientQuit : Bool)
  | header (number : ℕ) (logs : Option (List Log))

-- A log without topics makes the goroutine panic.
def send (f : EventFilter) : List Log → EventFilter
  | []      => f
  | l :: ls =>
    match l.topics with
    | []     => { f with running := false }
    | t :: _ =>
      if t ≠ f.topic ∨ l.removed then f.send ls
      else send { f with sent := f.sent ++ [l] } ls

def round (f : EventFilter) (a : Answer) : EventFilter :=
  if !f.running then f
  else
    match a with
    | .noHeader clientQuit   => if clientQuit then { f with running := false } else f
    | .header _ none         => f
    | .header n (some logs) =>
      if n ≤ f.fromBlock then f
      else
        let f' := f.send logs
        if f'.running then { f' with fromBlock := n } else f'

def stop (f : EventFilter) : EventFilter :=
  { f with running := false }

variable {f : EventFilter} {a : Answer} {as : List Answer} {l : Log} {ls chain : List Log}
  {start n : ℕ}

-- The logs of a contract in a range of blocks.
def filterLogs (chain : List Log) (contract : Address) (fromBlock head : ℕ) : List Log :=
  chain.filter fun l => l.address = contract ∧ fromBlock ≤ l.blockNumber ∧ l.blockNumber ≤ head

-- The client answers with the logs of a chain without reorganisations, up to a head that is not
-- older than the header.
def Sound (chain : List Log) (f : EventFilter) : Answer → Prop
  | .header n (some logs) => ∃ head ≥ n, logs = filterLogs chain f.contract f.fromBlock head
  | _                     => True

structure Wanted (contract : Address) (topic : Bytes32) (l : Log) : Prop where
  address : l.address = contract
  topic   : l.topics.head? = some topic
  present : l.removed = false

-- What a filter has done when it comes to the end of a list of logs.
structure Sends (f : EventFilter) (ls : List Log) (f' : EventFilter) : Prop where
  contract : f'.contract = f.contract
  topic    : f'.topic = f.topic
  block    : f'.fromBlock = f.fromBlock
  kept     : f.sent ⊆ f'.sent
  all      : f'.running → ∀ l ∈ ls, Wanted f.contract f.topic l → l ∈ f'.sent
  only     : ∀ l ∈ f'.sent, l ∈ f.sent ∨ l ∈ ls ∧ l.topics.head? = some f.topic ∧ l.removed = false

theorem send_spec (f : EventFilter) (ls : List Log) : f.Sends ls (f.send ls) := by
  fun_induction send f ls
  case case1 f => exact ⟨rfl, rfl, rfl, List.Subset.refl _, by simp, fun _ => .inl⟩
  case case2 f => exact ⟨rfl, rfl, rfl, List.Subset.refl _, by simp, fun _ => .inl⟩
  case case3 f l ls t _ ht hn hi =>
    refine ⟨hi.contract, hi.topic, hi.block, hi.kept, fun hr l' hl hw => ?_, fun l' hl => ?_⟩
    · cases hl
      case head      => have := hw.topic; simp_all [hw.present]
      case tail hl => exact hi.all hr l' hl hw
    · exact hi.only l' hl |>.imp_right fun h => ⟨.tail _ h.left, h.right⟩
  case case4 f l ls t _ ht hn hi =>
    refine ⟨hi.contract, hi.topic, hi.block, fun _ hm => hi.kept <| List.mem_append_left _ hm,
      fun hr l' hl hw => ?_, fun l' hl => ?_⟩
    · cases hl
      case head      => exact hi.kept <| by simp
      case tail hl => exact hi.all hr l' hl hw
    · cases hi.only l' hl
      case inl hm => grind
      case inr h  => exact .inr ⟨.tail _ h.left, h.right⟩

-- Up to the block that a filter has come to, it has sent all logs that it is meant for, and it has
-- sent no others.
structure Delivered (chain : List Log) (start : ℕ) (f : EventFilter) : Prop where
  le   : start ≤ f.fromBlock
  all  : start ≠ f.fromBlock → ∀ l ∈ chain, Wanted f.contract f.topic l → start ≤ l.blockNumber →
    l.blockNumber ≤ f.fromBlock → l ∈ f.sent
  only : ∀ l ∈ f.sent, Wanted f.contract f.topic l

theorem delivered_new {contract : Address} {topic : Bytes32} :
    Delivered chain start (newEventFilter contract start topic) :=
  ⟨le_rfl, by simp [newEventFilter], by simp [newEventFilter]⟩

theorem Delivered.stop (h : f.Delivered chain start) : f.stop.Delivered chain start :=
  ⟨h.le, h.all, h.only⟩

theorem send_delivered {head : ℕ} (h : f.Delivered chain start)
    (hl : ls = filterLogs chain f.contract f.fromBlock head) (hn : f.fromBlock < n)
    (hh : n ≤ head) :
    (f.send ls).Delivered chain start ∧
    ((f.send ls).running → Delivered chain start { f.send ls with fromBlock := n }) := by
  have hs := f.send_spec ls
  have honly (l) (hm : l ∈ (f.send ls).sent) : Wanted f.contract f.topic l := by
    cases hs.only l hm
    case inl hm => exact h.only l hm
    case inr hm =>
      have ha : l.address = f.contract := by
        have := hl ▸ hm.left
        simp_all [filterLogs]
      exact ⟨ha, hm.right.left, hm.right.right⟩
  refine ⟨⟨?_, ?_, ?_⟩, fun hr => ⟨?_, ?_, ?_⟩⟩
  all_goals simp only [hs.block, hs.contract, hs.topic]
  · exact h.le
  · exact fun hne l hm hw hb' hb => hs.kept <| h.all hne l hm hw hb' hb
  · exact honly
  · exact h.le.trans hn.le
  · intro _ l hm hw hb' hb
    by_cases hf : f.fromBlock ≤ l.blockNumber
    case pos =>
      apply hs.all hr l _ hw
      simp_all [filterLogs, hw.address, hb.trans hh]
    case neg => exact hs.kept <| h.all (by omega) l hm hw hb' (by omega)
  · exact honly

theorem round_delivered (f : EventFilter) (a : Answer) (h : f.Delivered chain start)
    (hs : f.Sound chain a) : (f.round a).Delivered chain start := by
  unfold EventFilter.round
  split
  case isTrue => exact h
  case isFalse =>
    split
    case h_1 => split; exacts [h.stop, h]
    case h_2 => exact h
    case h_3 n logs =>
      split
      case isTrue => exact h
      case isFalse hn =>
        have ⟨head, hh, hl⟩ := hs
        have ⟨h, hr⟩ := send_delivered h hl (Nat.lt_of_not_le hn) hh
        dsimp only
        split
        case isTrue hb => exact hr hb
        case isFalse   => exact h

-- No log is missed and none is invented, however often and with whatever errors a filter polls.
theorem run_delivered {contract : Address} {topic : Bytes32}
    (hs : Along EventFilter.round (Sound chain) as (newEventFilter contract start topic)) :
    (run EventFilter.round as (newEventFilter contract start topic)).Delivered chain start :=
  run_invariant round_delivered delivered_new hs

section Progress

variable {contract : Address} {topic : Bytes32}

-- Polling that the client does not put an end to.
structure Live (chain : List Log) (f : EventFilter) (a : Answer) : Prop where
  sound : f.Sound chain a
  alive : a ≠ .noHeader true

def Topical (chain : List Log) (contract : Address) : Prop :=
  ∀ l ∈ chain, l.address = contract → l.topics ≠ []

theorem send_running (h : ∀ l ∈ ls, l.topics ≠ []) : (f.send ls).running = f.running := by
  fun_induction send f ls
  case case1            => rfl
  case case2 ht         => exact absurd ht <| h _ (List.mem_cons_self ..)
  case case3 hi         => exact hi fun l hl => h l (.tail _ hl)
  case case4 f _ _ _ _ _ _ hi => exact hi fun l hl => h l (.tail _ hl)

theorem Sound.send_running {ls : List Log} (h : f.Sound chain (.header n (some ls)))
    (ht : Topical chain f.contract) : (f.send ls).running = f.running := by
  have ⟨head, _, hl⟩ := h
  apply EventFilter.send_running
  intro l hm
  simp only [hl, filterLogs, List.mem_filter, decide_eq_true_eq] at hm
  exact ht l hm.left hm.right.left

theorem round_query (f : EventFilter) (a : Answer) :
    (f.round a).contract = f.contract ∧ (f.round a).topic = f.topic := by
  unfold EventFilter.round
  repeat' split
  all_goals try exact ⟨rfl, rfl⟩
  dsimp only
  split <;> exact ⟨(f.send_spec _).contract, (f.send_spec _).topic⟩

-- A filter of a contract whose logs all have topics does not stop.
structure Runs (chain : List Log) (contract : Address) (topic : Bytes32) (f : EventFilter) :
    Prop where
  contract : f.contract = contract
  topic    : f.topic = topic
  running  : f.running = true
  topical  : Topical chain f.contract

theorem round_runs (f : EventFilter) (a : Answer) (h : f.Runs chain contract topic)
    (ha : f.Live chain a) : (f.round a).Runs chain contract topic := by
  have ⟨hc, ht⟩ := f.round_query a
  refine ⟨hc.trans h.contract, ht.trans h.topic, ?_, hc ▸ h.topical⟩
  cases a
  case noHeader quit =>
    cases quit
    case true  => exact absurd rfl ha.alive
    case false => simp [EventFilter.round, h.running]
  case header n logs =>
    cases logs
    case none    => simp [EventFilter.round, h.running]
    case some ls =>
      have hr := (ha.sound.send_running h.topical).trans h.running
      simp only [EventFilter.round, h.running, hr]
      repeat' split
      exacts [h.running, h.running, rfl, hr]

theorem round_reaches (h : f.Runs chain contract topic)
    (hs : f.Sound chain (.header n (some ls))) :
    n ≤ (f.round <| .header n (some ls)).fromBlock := by
  have hr := (hs.send_running h.topical).trans h.running
  simp only [EventFilter.round, h.running, hr]
  split
  case isTrue h => contradiction
  case isFalse  => split; exacts [‹_›, le_rfl]

-- However a filter polls, it sends a log as soon as a round gets to the block of the log.
def Delivers (f : EventFilter) (l : Log) : Prop :=
  ∀ chain as n ls, l ∈ chain → Topical chain l.address →
    Along EventFilter.round (Live chain) (as ++ [.header n (some ls)]) f →
    f.fromBlock ≤ l.blockNumber → l.blockNumber ≤ n → f.fromBlock < n →
    l ∈ (run EventFilter.round (as ++ [.header n (some ls)]) f).sent

theorem delivers_of_wanted (hw : Wanted contract topic l) :
    (newEventFilter contract start topic).Delivers l := by
  intro chain as n ls hm ht ha hb hn hs
  have hd := run_delivered <| ha.mono fun _ _ h => h.sound
  have h₀ : (newEventFilter contract start topic).Runs chain contract topic :=
    ⟨rfl, rfl, rfl, hw.address ▸ ht⟩
  have ⟨h₁, h₂⟩ := along_append.mp ha
  have hr := run_invariant round_runs h₀ h₁
  have hf := run_invariant round_runs h₀ ha
  have hn' := round_reaches hr h₂.left.sound
  rw [run_append] at hd hf ⊢
  refine hd.all ?_ l hm ?_ hb (hn.trans hn')
  · exact ne_of_lt <| hs.trans_le hn'
  · rw [hf.contract, hf.topic]; exact hw

-- A filter of another contract misses the log.
theorem Delivers.address (h : (newEventFilter contract start topic).Delivers l)
    (ht : l.topics ≠ []) (hb : start ≤ l.blockNumber) : l.address = contract := by
  have h := h [l] [] (l.blockNumber + 1) (filterLogs [l] contract start <| l.blockNumber + 1)
    (List.mem_singleton_self l) (by simp [Topical, ht])
  have hs : Along EventFilter.round (Live [l])
      [.header (l.blockNumber + 1) (some <| filterLogs [l] contract start <| l.blockNumber + 1)]
      (newEventFilter contract start topic) :=
    ⟨⟨⟨_, le_rfl, rfl⟩, by simp⟩, trivial⟩
  have hd := run_delivered <| hs.mono fun _ _ h => h.sound
  have hc := (EventFilter.round_query (newEventFilter contract start topic) <|
    .header (l.blockNumber + 1) (some <| filterLogs [l] contract start <| l.blockNumber + 1)).left
  exact (hd.only l <| h hs hb (Nat.le_succ _) (Nat.lt_succ_of_le hb)).address.trans hc

end Progress

section Complete

variable {contract : Address} {topic : Bytes32}

theorem run_query (f : EventFilter) (as : List Answer) :
    (run EventFilter.round as f).contract = f.contract ∧
    (run EventFilter.round as f).topic = f.topic :=
  run_keeps (I := fun f' : EventFilter => f'.contract = f.contract ∧ f'.topic = f.topic)
    (fun f' a h => ⟨(f'.round_query a).left.trans h.left, (f'.round_query a).right.trans h.right⟩)
    ⟨rfl, rfl⟩

-- Whatever the client answers, all logs up to the block that a filter has advanced to were sent,
-- those of that block and of the first one included.
theorem advanced_sent (hs : Along round (Sound chain) as (newEventFilter contract start topic)) :
    let f := run round as (newEventFilter contract start topic)
    (f.fromBlock ≠ start → ∀ l ∈ chain, l.address = contract → l.topics.head? = some topic →
      l.removed = false → start ≤ l.blockNumber → l.blockNumber ≤ f.fromBlock → l ∈ f.sent) ∧
    ∀ l ∈ f.sent, l.topics.head? = some topic := by
  intro f
  have hd : f.Delivered chain start := run_delivered hs
  obtain ⟨hc, ht⟩ : f.contract = contract ∧ f.topic = topic := run_query _ as
  refine ⟨fun hne l hm ha htl hr hb hn => ?_, fun l hm => ?_⟩
  · exact hd.all hne.symm l hm (hc ▸ ht ▸ ⟨ha, htl, hr⟩) hb hn
  · exact ht ▸ (hd.only l hm).topic

-- Two polls fail, and the head has moved on when the logs are asked for.
theorem advanced_sent_ready :
    let l : Log :=
      { address := 7, topics := [SwapCreator.readyTopic], data := [], blockNumber := 5 }
    let as := [.noHeader false, .header 5 none, .header 5 (some [l])]
    l ∈ (run round as (newEventFilter 7 3 SwapCreator.readyTopic)).sent := by
  intro l as
  have hs : Along round (Sound [l]) as (newEventFilter 7 3 SwapCreator.readyTopic) :=
    ⟨trivial, trivial, ⟨6, by decide, by decide⟩, trivial⟩
  exact (advanced_sent hs).left (by decide) l (by simp) rfl rfl rfl (by decide) (by decide)

end Complete

end EventFilter
end Ethereum
