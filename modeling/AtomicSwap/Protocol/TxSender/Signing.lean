import AtomicSwap.Library.Machine
import AtomicSwap.Protocol.TxSender.Calls

open Ethereum Function Machine

-- The calls of an external sender and the connections of the front-ends which sign for it. They
-- meet on two channels without a buffer and without identifiers.
namespace TxSender.Signing

-- How far a call has come. It holds the lock from the offer of its transaction until it returns.
inductive CallPhase
  | none
  | locking (tx : Transaction)
  | offering (tx : Transaction)
  | awaiting (tx : Transaction)
  | confirming (tx : Transaction) (txHash : Bytes32)
  | returned
  deriving DecidableEq

-- How far the loop of a connection has come. The transaction is one of the call `i`.
inductive SignerPhase
  | closed
  | idle
  | signing (i : ℕ) (tx : Transaction)
  | replying (i : ℕ) (tx : Transaction) (txHash : Bytes32)
  deriving DecidableEq

structure SignerTxSigned where
  offerID : Bytes32
  txHash  : Bytes32

-- What the signers answered for the transaction of a call and what the calls received is not part
-- of the code.
structure State where
  mutex    : Option ℕ                         := none
  call     : ℕ → CallPhase                    := fun _ => .none
  signer   : ℕ → SignerPhase                  := fun _ => .closed
  signed   : List (ℕ × Transaction × Bytes32) := []
  received : List (ℕ × Transaction × Bytes32) := []

-- The steps of all calls and connections, in any order. The answer of a front-end is missing if
-- writing to the connection or reading a message from it fails.
inductive Input
  | call (i : ℕ) (tx : Transaction)
  | lock (i : ℕ)
  | send (i c : ℕ)
  | sign (c : ℕ) (answer : Option SignerTxSigned)
  | receive (i c : ℕ)
  | timeOut (i : ℕ)
  | finish (i : ℕ)
  | connect (c : ℕ)
  | disconnect (c : ℕ)

def begin (s : State) (i : ℕ) (tx : Transaction) : State :=
  match s.call i with
  | .none => { s with call := update s.call i (.locking tx) }
  | _     => s

def lock (s : State) (i : ℕ) : State :=
  match s.call i, s.mutex with
  | .locking tx, none => { s with call := update s.call i (.offering tx), mutex := some i }
  | _, _              => s

-- A call sends its transaction to a connection.
def send (s : State) (i c : ℕ) : State :=
  match s.call i, s.signer c with
  | .offering tx, .idle =>
    { s with call   := update s.call i (.awaiting tx)
             signer := update s.signer c (.signing i tx) }
  | _, _ => s

def sign (offerID : Bytes32) (s : State) (c : ℕ) (answer : Option SignerTxSigned) : State :=
  match s.signer c, answer with
  | .signing _ _,  none        => { s with signer := update s.signer c .closed }
  | .signing i tx, some params =>
    if params.offerID ≠ offerID then { s with signer := update s.signer c .closed }
    else
      { s with signer := update s.signer c (.replying i tx params.txHash)
               signed := (i, tx, params.txHash) :: s.signed }
  | _, _ => s

-- A connection sends the hash that it has read to whichever call waits for one.
def receive (s : State) (i c : ℕ) : State :=
  match s.call i, s.signer c with
  | .awaiting tx, .replying _ _ txHash =>
    { s with call     := update s.call i (.confirming tx txHash)
             signer   := update s.signer c .idle
             received := (i, tx, txHash) :: s.received }
  | _, _ => s

def timeOut (s : State) (i : ℕ) : State :=
  match s.call i with
  | .awaiting _ => { s with call := update s.call i .returned, mutex := none }
  | _           => s

def finish (s : State) (i : ℕ) : State :=
  match s.call i with
  | .confirming _ _ => { s with call := update s.call i .returned, mutex := none }
  | _               => s

def connect (s : State) (c : ℕ) : State :=
  match s.signer c with
  | .closed => { s with signer := update s.signer c .idle }
  | _       => s

-- The connection times out or the server is stopped while no transaction is signed.
def disconnect (s : State) (c : ℕ) : State :=
  match s.signer c with
  | .idle => { s with signer := update s.signer c .closed }
  | _     => s

def step (offerID : Bytes32) (s : State) : Input → State
  | .call i tx     => begin s i tx
  | .lock i        => lock s i
  | .send i c      => send s i c
  | .sign c answer => sign offerID s c answer
  | .receive i c   => receive s i c
  | .timeOut i     => timeOut s i
  | .finish i      => finish s i
  | .connect c     => connect s c
  | .disconnect c  => disconnect s c

-- The transaction that a connection has taken and for which it has not sent a hash.
def SignerPhase.held : SignerPhase → Option (ℕ × Transaction)
  | .closed          => none
  | .idle            => none
  | .signing i tx    => some (i, tx)
  | .replying i tx _ => some (i, tx)

def CallPhase.locked : CallPhase → Bool
  | .offering _     => true
  | .awaiting _     => true
  | .confirming _ _ => true
  | _               => false

def CallPhase.sent : CallPhase → Bool
  | .awaiting _     => true
  | .confirming _ _ => true
  | .returned       => true
  | _               => false

-- A call only gives up when no connection has its transaction.
def Proper (s : State) : Input → Prop
  | .timeOut i => ∀ c tx, (s.signer c).held ≠ some (i, tx)
  | _          => True

structure Inv (s : State) : Prop where
  locked   : ∀ i, (s.call i).locked → s.mutex = some i
  held     : ∀ c i tx, (s.signer c).held = some (i, tx) → s.call i = .awaiting tx
  single   : ∀ c c', (s.signer c).held.isSome → (s.signer c').held.isSome → c = c'
  replied  : ∀ c i tx txHash, s.signer c = .replying i tx txHash → (i, tx, txHash) ∈ s.signed
  sent     : ∀ e ∈ s.signed, (s.call e.fst).sent
  answered : ∀ e ∈ s.signed, ∀ c tx, s.signer c ≠ .signing e.fst tx
  once     : ∀ e ∈ s.signed, ∀ e' ∈ s.signed, e.fst = e'.fst → e = e'
  received : ∀ e ∈ s.received, e ∈ s.signed

variable {s : State} {offerID : Bytes32} {i c : ℕ} {tx : Transaction} {txHash : Bytes32}

theorem inv_init : Inv {} := by
  constructor <;> simp [CallPhase.locked, SignerPhase.held]

-- A call goes on while no connection has its transaction.
theorem Inv.call {p : CallPhase} {m : Option ℕ} (hi : Inv s)
    (hl : ∀ j, (update s.call i p j).locked → m = some j)
    (hh : ∀ c tx, (s.signer c).held ≠ some (i, tx)) (hs : (s.call i).sent → p.sent) :
    Inv { s with call := update s.call i p, mutex := m } := by
  refine { hi with locked := hl, held := ?held, sent := ?sent }
  case held =>
    intro c j tx hc
    have he : j ≠ i := by
      rintro rfl
      exact hh c tx hc
    simpa [he] using hi.held c j tx hc
  case sent =>
    intro e he
    by_cases hj : e.fst = i
    case pos => simpa [hj] using hs (hj ▸ hi.sent e he)
    case neg => simpa [hj] using hi.sent e he

-- A connection has no transaction any longer.
theorem Inv.release {p : SignerPhase} (hi : Inv s) (hp : p.held = none) :
    Inv { s with signer := update s.signer c p } := by
  have kept : ∀ c' q, update s.signer c p c' = q → q.held.isSome → s.signer c' = q := by
    intro c' q hq hs
    by_cases he : c' = c
    case pos => simp [← hq, he, hp] at hs
    case neg => simpa [he] using hq
  refine { hi with held := ?held, single := ?single, replied := ?replied, answered := ?answered }
  case held =>
    intro c' j tx hc
    exact hi.held c' j tx (kept c' _ rfl (by simp [hc]) ▸ hc)
  case single =>
    intro c₁ c₂ h₁ h₂
    exact hi.single c₁ c₂ (kept c₁ _ rfl h₁ ▸ h₁) (kept c₂ _ rfl h₂ ▸ h₂)
  case replied =>
    intro c' j tx txHash hc
    exact hi.replied c' j tx txHash (kept c' _ hc rfl)
  case answered =>
    intro e he c' tx hc
    exact hi.answered e he c' tx (kept c' _ hc rfl)

-- A connection takes the transaction of a call while no other one has any.
theorem Inv.take (hi : Inv s) (hc : s.call i = .awaiting tx) (hn : ∀ c, (s.signer c).held = none)
    (hs : ∀ e ∈ s.signed, e.fst ≠ i) :
    Inv { s with signer := update s.signer c (.signing i tx) } := by
  have taken : ∀ c' q, update s.signer c (.signing i tx) c' = q → q.held.isSome →
      c' = c ∧ q = .signing i tx := by
    rintro c' _ rfl h
    by_cases he : c' = c
    case pos => simp [he]
    case neg => simp [he, hn] at h
  refine { hi with held := ?held, single := ?single, replied := ?replied, answered := ?answered }
  case held =>
    intro c' j tx' h
    obtain ⟨_, hq⟩ := taken c' _ rfl (by simp [h])
    cases (congrArg SignerPhase.held hq).symm.trans h
    exact hc
  case single =>
    intro c₁ c₂ h₁ h₂
    exact (taken c₁ _ rfl h₁).left.trans (taken c₂ _ rfl h₂).left.symm
  case replied =>
    intro c' j tx' txHash h
    cases (taken c' _ h rfl).right
  case answered =>
    intro e he c' tx' h
    exact hs e he (SignerPhase.signing.inj (taken c' _ h rfl).right).left

-- A front-end answers for the transaction of a call.
theorem Inv.answer (hi : Inv s) (hc : s.signer c = .signing i tx) :
    Inv { s with signer := update s.signer c (.replying i tx txHash)
                 signed := (i, tx, txHash) :: s.signed } := by
  have hh : (s.signer c).held = some (i, tx) := by rw [hc, SignerPhase.held]
  have unsigned : ∀ e ∈ s.signed, e.fst ≠ i := by
    rintro e he rfl
    exact hi.answered e he c tx hc
  have held : ∀ c', (update s.signer c (.replying i tx txHash) c').held = (s.signer c').held := by
    intro c'
    by_cases he : c' = c
    case pos => rw [he, update_self, hh, SignerPhase.held]
    case neg => rw [update_of_ne he]
  constructor
  case locked => exact hi.locked
  case held   => exact fun c' j tx' h => hi.held c' j tx' (held c' ▸ h)
  case single => exact fun c₁ c₂ h₁ h₂ => hi.single c₁ c₂ (held c₁ ▸ h₁) (held c₂ ▸ h₂)
  case replied =>
    intro c' j tx' txHash' h
    by_cases he : c' = c
    case pos =>
      obtain ⟨rfl, rfl, rfl⟩ : i = j ∧ tx = tx' ∧ txHash = txHash' := by simpa [he] using h
      exact .head _
    case neg => exact .tail _ <| hi.replied c' j tx' txHash' (by simpa [he] using h)
  case sent =>
    intro e he
    obtain rfl | he := List.mem_cons.mp he
    case inl => rw [hi.held c i tx hh, CallPhase.sent]
    case inr => exact hi.sent e he
  case answered =>
    intro e he c' tx' h
    have hc' : c' ≠ c := by
      rintro rfl
      simp at h
    have h : s.signer c' = .signing e.fst tx' := by simpa [hc'] using h
    obtain rfl | he := List.mem_cons.mp he
    case inl => exact hc' <| hi.single c' c (by rw [h]; rfl) (by rw [hc]; rfl)
    case inr => exact hi.answered e he c' tx' h
  case once =>
    intro e he e' he' hj
    obtain rfl | he := List.mem_cons.mp he <;> obtain rfl | he' := List.mem_cons.mp he'
    case inl.inl => rfl
    case inl.inr => exact absurd hj.symm <| unsigned e' he'
    case inr.inl => exact absurd hj <| unsigned e he
    case inr.inr => exact hi.once e he e' he' hj
  case received => exact fun e he => .tail _ <| hi.received e he

theorem Inv.not_held (hi : Inv s) (hc : ∀ tx, s.call i ≠ .awaiting tx) (c : ℕ) (tx : Transaction) :
    (s.signer c).held ≠ some (i, tx) :=
  fun h => hc tx <| hi.held c i tx h

theorem begin_inv (hi : Inv s) : Inv (begin s i tx) := by
  rw [begin]
  split
  case h_2    => exact hi
  case h_1 hc =>
    refine hi.call ?_ (hi.not_held (by simp [hc])) (by simp [hc, CallPhase.sent])
    intro j hl
    by_cases he : j = i
    case pos => simp [he, CallPhase.locked] at hl
    case neg => exact hi.locked j (by simpa [he] using hl)

theorem lock_inv (hi : Inv s) : Inv (lock s i) := by
  rw [lock]
  split
  case h_2          => exact hi
  case h_1 tx hc hm =>
    refine hi.call ?_ (hi.not_held (by simp [hc])) (by simp [hc, CallPhase.sent])
    intro j hl
    by_cases he : j = i
    case pos => rw [he]
    case neg =>
      have hj := hi.locked j (by simpa [he] using hl)
      simp [hm] at hj

-- A call that has the lock goes on with it.
theorem Inv.locked_update {p : CallPhase} (hi : Inv s) (hc : (s.call i).locked) (j : ℕ)
    (hl : (update s.call i p j).locked) : s.mutex = some j := by
  by_cases he : j = i
  case pos => exact he ▸ hi.locked i hc
  case neg => exact hi.locked j (by simpa [he] using hl)

theorem send_inv (hi : Inv s) : Inv (send s i c) := by
  rw [send]
  split
  case h_2          => exact hi
  case h_1 tx hc hs =>
    have hl : (s.call i).locked := by rw [hc, CallPhase.locked]
    have none_held : ∀ c, (s.signer c).held = none := by
      intro c
      by_contra hn
      obtain ⟨⟨j, tx'⟩, hh⟩ := Option.ne_none_iff_exists'.mp hn
      have hj := hi.held c j tx' hh
      -- The call of the transaction has the lock, too.
      have he := (hi.locked j (by rw [hj, CallPhase.locked])).symm.trans (hi.locked i hl)
      cases he
      cases hj.symm.trans hc
    have unsigned : ∀ e ∈ s.signed, e.fst ≠ i := by
      rintro e he rfl
      have hs := hi.sent e he
      simp [hc, CallPhase.sent] at hs
    have hi' := hi.call (p := .awaiting tx) (hi.locked_update hl) (hi.not_held (by simp [hc]))
      (fun _ => rfl)
    exact hi'.take (update_self ..) none_held unsigned

theorem sign_inv {answer : Option SignerTxSigned} (hi : Inv s) : Inv (sign offerID s c answer) := by
  unfold sign
  split
  case h_1 => exact hi.release rfl
  case h_3 => exact hi
  case h_2 hc =>
    split
    case isTrue  => exact hi.release rfl
    case isFalse => exact hi.answer hc

theorem receive_inv (hi : Inv s) : Inv (receive s i c) := by
  rw [receive]
  split
  case h_2                       => exact hi
  case h_1 tx j tx' txHash hc hs =>
    have hl : (s.call i).locked := by rw [hc, CallPhase.locked]
    have hj := hi.held c j tx' (by rw [hs, SignerPhase.held])
    -- The hash is for the call that has the lock.
    cases (hi.locked j (by rw [hj, CallPhase.locked])).symm.trans (hi.locked i hl)
    cases hj.symm.trans hc
    have hr : Inv { s with signer := update s.signer c .idle } := hi.release rfl
    have none_held : ∀ c' tx, (update s.signer c .idle c').held ≠ some (i, tx) := by
      intro c' tx hh
      have he : c' ≠ c := by
        rintro rfl
        simp [SignerPhase.held] at hh
      rw [update_of_ne he] at hh
      exact he <| hi.single c' c (by rw [hh]; rfl) (by rw [hs]; rfl)
    have hi' := hr.call (p := .confirming tx txHash) (hr.locked_update hl) none_held (fun _ => rfl)
    refine { hi' with received := ?_ }
    intro e he
    obtain rfl | he := List.mem_cons.mp he
    case inl => exact hi.replied c i tx txHash hs
    case inr => exact hi.received e he

theorem Inv.unlock (hi : Inv s) (hc : (s.call i).locked)
    (hh : ∀ c tx, (s.signer c).held ≠ some (i, tx)) :
    Inv { s with call := update s.call i .returned, mutex := none } := by
  refine hi.call ?_ hh (fun _ => rfl)
  intro j hl
  have he : j = i := Option.some.inj <| (hi.locked_update hc j hl).symm.trans (hi.locked i hc)
  simp [he, CallPhase.locked] at hl

theorem step_inv {input : Input} (hi : Inv s) (hp : Proper s input) :
    Inv (step offerID s input) := by
  cases input
  case call    => exact begin_inv hi
  case lock    => exact lock_inv hi
  case send    => exact send_inv hi
  case sign    => exact sign_inv hi
  case receive => exact receive_inv hi
  case timeOut =>
    rw [step, timeOut]
    split
    case h_1 hc => exact hi.unlock (by rw [hc, CallPhase.locked]) hp
    case h_2    => exact hi
  case finish =>
    rw [step, finish]
    split
    case h_1 hc => exact hi.unlock (by rw [hc, CallPhase.locked]) (hi.not_held (by simp [hc]))
    case h_2    => exact hi
  case connect =>
    rw [step, connect]
    split
    case h_1 => exact hi.release rfl
    case h_2 => exact hi
  case disconnect =>
    rw [step, disconnect]
    split
    case h_1 => exact hi.release rfl
    case h_2 => exact hi

-- The call waits for a connection and the connection for a call, and this does not change without
-- a new connection.
def BlockEachOther (offerID : Bytes32) (s : State) (i c : ℕ) : Prop :=
  ∀ is, (∀ c', .connect c' ∉ is) → ∃ tx j tx' txHash,
    (run (step offerID) is s).call i = .offering tx ∧
    (run (step offerID) is s).signer c = .replying j tx' txHash

-- A hash that is received by a call is the only answer for the transaction of this call, and the
-- call of a connection with an answer waits for it.
theorem signatures_matched {is : List Input} (hp : Along (step offerID) Proper is {}) :
    let s := run (step offerID) is {}
    (∀ e ∈ s.received, e ∈ s.signed) ∧
    (∀ e ∈ s.signed, ∀ e' ∈ s.signed, e.fst = e'.fst → e = e') ∧
    (∀ c i tx txHash, s.signer c = .replying i tx txHash → s.call i = .awaiting tx) ∧
    ∀ i c, ¬BlockEachOther offerID s i c := by
  intro s
  have hi : Inv s := run_invariant (fun _ _ => step_inv) inv_init hp
  have awaited : ∀ c i tx txHash, s.signer c = .replying i tx txHash → s.call i = .awaiting tx :=
    fun c i tx _ h => hi.held c i tx (by rw [h, SignerPhase.held])
  refine ⟨hi.received, hi.once, awaited, ?_⟩
  intro i c hb
  obtain ⟨tx, j, tx', txHash, hc, hs⟩ := hb [] (by simp)
  have hj : s.call j = .awaiting tx' := awaited c j tx' txHash hs
  -- Both calls would have the lock.
  have hl : s.mutex = some i := hi.locked i (by rw [show s.call i = _ from hc, CallPhase.locked])
  cases hl.symm.trans (hi.locked j (by rw [hj, CallPhase.locked]))
  cases hj.symm.trans hc

-- A call and a connection that wait for each other while no other connection is ready and no other
-- call waits for a hash.
structure Deadlocked (s : State) (i c : ℕ) (tx : Transaction) (j : ℕ) (tx' : Transaction)
    (txHash : Bytes32) : Prop where
  offering : s.call i = .offering tx
  replying : s.signer c = .replying j tx' txHash
  busy     : ∀ c', s.signer c' ≠ .idle
  awaiting : ∀ k tx, s.call k ≠ .awaiting tx

section

variable {j k : ℕ} {tx' : Transaction}

theorem Deadlocked.call {p : CallPhase} {m : Option ℕ} (h : Deadlocked s i c tx j tx' txHash)
    (hk : k ≠ i) (hp : ∀ tx, p ≠ .awaiting tx) :
    Deadlocked { s with call := update s.call k p, mutex := m } i c tx j tx' txHash := by
  refine { h with offering := ?_, awaiting := ?_ }
  case refine_1 => simpa [hk.symm] using h.offering
  case refine_2 =>
    intro k' tx
    by_cases he : k' = k
    case pos => simpa [he] using hp tx
    case neg => simpa [he] using h.awaiting k' tx

theorem Deadlocked.signer {p : SignerPhase} (h : Deadlocked s i c tx j tx' txHash)
    (hk : k ≠ c) (hp : p ≠ .idle) :
    Deadlocked { s with signer := update s.signer k p } i c tx j tx' txHash := by
  refine { h with replying := ?_, busy := ?_ }
  case refine_1 => simpa [hk.symm] using h.replying
  case refine_2 =>
    intro c'
    by_cases he : c' = k
    case pos => simpa [he] using hp
    case neg => simpa [he] using h.busy c'

theorem Deadlocked.step {input : Input} (h : Deadlocked s i c tx j tx' txHash)
    (hn : ∀ c', input ≠ .connect c') :
    Deadlocked (step offerID s input) i c tx j tx' txHash := by
  -- The phase of the call or the connection that moves differs from the one of `i` or `c`.
  have ne_call : ∀ {k p}, s.call k = p → p ≠ .offering tx → k ≠ i := by
    rintro k p hk hp rfl
    exact hp (hk.symm.trans h.offering)
  have ne_signer : ∀ {c' p}, s.signer c' = p → p ≠ .replying j tx' txHash → c' ≠ c := by
    rintro c' p hc hp rfl
    exact hp (hc.symm.trans h.replying)
  cases input
  case connect c' => exact absurd rfl (hn c')
  case call =>
    rw [Signing.step, begin]
    split
    case h_1 hk => exact h.call (ne_call hk (by simp)) (by simp)
    case h_2    => exact h
  case lock =>
    rw [Signing.step, lock]
    split
    case h_1 hk _ => exact h.call (ne_call hk (by simp)) (by simp)
    case h_2      => exact h
  case send i' c' =>
    rw [Signing.step, send]
    split
    case h_1 hs => exact absurd hs (h.busy c')
    case h_2    => exact h
  case sign =>
    rw [Signing.step]
    unfold sign
    split
    case h_1 hs => exact h.signer (ne_signer hs (by simp)) (by simp)
    case h_2 hs =>
      have hs := ne_signer hs (by simp)
      split
      case isTrue  => exact h.signer hs (by simp)
      case isFalse => exact { h.signer hs (by simp) with }
    case h_3 => exact h
  case receive i' c' =>
    rw [Signing.step, receive]
    split
    case h_1 hk _ => exact absurd hk (h.awaiting i' _)
    case h_2      => exact h
  case timeOut i' =>
    rw [Signing.step, timeOut]
    split
    case h_1 hk => exact absurd hk (h.awaiting i' _)
    case h_2    => exact h
  case finish =>
    rw [Signing.step, finish]
    split
    case h_1 hk => exact h.call (ne_call hk (by simp)) (by simp)
    case h_2    => exact h
  case disconnect c' =>
    rw [Signing.step, disconnect]
    split
    case h_1 hs => exact absurd hs (h.busy c')
    case h_2    => exact h

theorem Deadlocked.blockEachOther (h : Deadlocked s i c tx j tx' txHash) :
    BlockEachOther offerID s i c := by
  intro is hn
  have hn : ∀ input ∈ is, ∀ c', input ≠ .connect c' := by
    rintro _ hm c' rfl
    exact hn c' hm
  have hd : Deadlocked (run (Signing.step offerID) is s) i c tx j tx' txHash :=
    run_invariant (I := (Deadlocked · i c tx j tx' txHash)) (fun _ _ => Deadlocked.step) h
      (.of_forall hn)
  exact ⟨tx, j, tx', txHash, hd.offering, hd.replying⟩

end

namespace Sample

def tx₀ : Transaction := ⟨0x5C, [0], none⟩

def tx₁ : Transaction := ⟨0x5C, [1], none⟩

-- The first call gives up before the front-end answers, and a second one follows.
def late : List Input :=
  [.call 0 tx₀, .lock 0, .send 0 0, .timeOut 0, .sign 0 (some ⟨1, 7⟩), .call 1 tx₁, .lock 1]

end Sample

-- With one connection, the second call and the connection block each other. With two connections,
-- the second call receives the hash of the first one.
theorem late_answer :
    BlockEachOther 1 (run (step 1) (.connect 0 :: Sample.late) {}) 1 0 ∧
    ∃ s, s = run (step 1)
        (.connect 0 :: .connect 1 :: Sample.late ++ [.send 1 1, .receive 1 0]) {} ∧
      s.received = [(1, Sample.tx₁, 7)] ∧ s.signed = [(0, Sample.tx₀, 7)] := by
  refine ⟨Deadlocked.blockEachOther ⟨rfl, rfl, ?_, ?_⟩, _, rfl, rfl, rfl⟩
  case refine_1 => rintro (_ | _) ⟨⟩
  case refine_2 => rintro (_ | _ | _) _ ⟨⟩

-- The first connection is lost before the first call gives up.
theorem signatures_matched_second :
    let is := [.connect 0, .call 0 Sample.tx₀, .lock 0, .send 0 0, .sign 0 none, .timeOut 0,
      .connect 1, .call 1 Sample.tx₁, .lock 1, .send 1 1, .sign 1 (some ⟨1, 7⟩), .receive 1 1]
    let s := run (step 1) is {}
    s.received = [(1, Sample.tx₁, 7)] ∧ ∀ e ∈ s.received, e ∈ s.signed := by
  refine ⟨rfl, (signatures_matched ?_).left⟩
  refine ⟨trivial, trivial, trivial, trivial, trivial, ?_, trivial, trivial, trivial, trivial,
    trivial, trivial, trivial⟩
  rintro (_ | _) _ ⟨⟩

end TxSender.Signing
