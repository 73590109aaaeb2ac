import PyGridGain.Client.Transactions
import PyGridGain.Lib.Runs

/-! The end of transactions. The flag `closed` is on the transaction, the ownership in a
context variable, and the flag is set before the ownership is checked and before the
connection is asked: a call from the wrong context, or on a connection that takes no
request, closes the transaction without ending it. -/

namespace PyGridGain

/-- A `Transaction`, or an `AioTransaction`, which has no `tx_id` before it is entered. The
connection that it was started on is known to the context only. -/
structure Transaction where
  started : Option TransactionContext
  closed : Bool
  deriving DecidableEq

/-- A request `OP_TX_END`. -/
structure TxEnd where
  conn : Conn
  txId : ℤ
  committed : Bool
  deriving DecidableEq

/-- The transactions of a client, the value of `__CURRENT_TX` in every thread or task, the
connections whose `request` passes data on (those that are not `closed`; of an asynchronous
client those that are `alive`), and the requests to end a transaction that were issued. -/
structure Transactions where
  current : ℕ → Option TransactionContext
  txs : ℕ → Transaction
  takesRequests : Conn → Bool
  ends : List TxEnd

/-- What a call of `commit`, `rollback` or `close` does: nothing, or it raises because
the calling context is not the owner, there is no `tx_id` or the connection is closed, or it
issues a request. -/
inductive EndOutcome
  | nothing
  | cacheError
  | attributeError
  | socketError
  | requested
  deriving DecidableEq

namespace Transactions

def init : Transactions := ⟨fun _ => none, fun _ => ⟨none, false⟩, fun _ => false, []⟩

/-- `__tx_end`: `request` raises before anything is sent where the connection is closed. -/
def requestEnd (e : TxEnd) (s : Transactions) : EndOutcome × Transactions :=
  if s.takesRequests e.conn then (.requested, { s with ends := s.ends ++ [e] })
  else (.socketError, s)

/-- `tx_end`. Whatever comes of the request, the context variable is reset. -/
def txEnd (ctx : ℕ) (txId : ℤ) (committed : Bool) (s : Transactions) : EndOutcome × Transactions :=
  match s.current ctx with
  | none => (.cacheError, s)
  | some tc =>
    if tc.txId ≠ txId then (.cacheError, s)
    else
      let (outcome, s) := s.requestEnd ⟨tc.conn, txId, committed⟩
      (outcome, { s with current := Function.update s.current ctx none })

/-- `commit`, and with `committed = false` `rollback`, `close` and the end of a
`with`-block. -/
def endTx (ctx tx : ℕ) (committed : Bool) (s : Transactions) : EndOutcome × Transactions :=
  if (s.txs tx).closed then (.nothing, s)
  else
    let s := { s with txs := Function.update s.txs tx { s.txs tx with closed := true } }
    match (s.txs tx).started with
    | none => (.attributeError, s)
    | some tc => s.txEnd ctx tc.txId committed

/-- `__start_tx` of the transaction `tx`, given the answer to `OP_TX_START`. -/
def startTx (ctx tx : ℕ) (conn : Conn) (status txId : ℤ) (s : Transactions) : Transactions :=
  if status = 0 then { s with
    current := Function.update s.current ctx (txStart conn status txId (s.current ctx))
    txs := Function.update s.txs tx ⟨some ⟨txId, conn⟩, false⟩ }
  else s

end Transactions

/-- A context starts a transaction, given the status and the `Int` of the answer, or ends
one, a task is made, with a copy of the context variable, or a connection is opened, closed
or lost. -/
inductive TxStep
  | start (ctx tx : ℕ) (conn : Conn) (status : ℤ) (txId : BitVec 32)
  | endTx (ctx tx : ℕ) (committed : Bool)
  | createTask (ctx task : ℕ)
  | connection (conn : Conn) (takesRequests : Bool)

def Transactions.step (s : Transactions) : TxStep → Option Transactions
  | .start ctx tx conn status txId => some (s.startTx ctx tx conn status txId.toInt)
  | .endTx ctx tx committed => some (s.endTx ctx tx committed).2
  | .createTask ctx task => some { s with current := Function.update s.current task (s.current ctx) }
  | .connection conn takesRequests =>
    some { s with takesRequests := Function.update s.takesRequests conn takesRequests }

/-- The transaction is the current one of the context, and its connection is not closed. -/
def Transactions.CanEnd (s : Transactions) (ctx tx : ℕ) : Prop :=
  ∃ tc ∈ (s.txs tx).started, s.current ctx = some tc ∧ s.takesRequests tc.conn = true

instance (s : Transactions) (ctx tx : ℕ) : Decidable (s.CanEnd ctx tx) :=
  inferInstanceAs (Decidable (∃ tc ∈ (s.txs tx).started, _))

/-- An open transaction is ended by a context in which it is the current one, over a
connection that is not closed. -/
def Transactions.EndedByOwner (s : Transactions) : TxStep → Prop
  | .endTx ctx tx _ => (s.txs tx).closed = false → s.CanEnd ctx tx
  | _ => True

instance (s : Transactions) : ∀ a, Decidable (s.EndedByOwner a)
  | .endTx ctx tx _ => inferInstanceAs (Decidable ((s.txs tx).closed = false → s.CanEnd ctx tx))
  | .start _ _ _ _ _ => inferInstanceAs (Decidable True)
  | .createTask _ _ => inferInstanceAs (Decidable True)
  | .connection _ _ => inferInstanceAs (Decidable True)

/-- The end of the transaction has been requested on its connection. -/
def Transactions.EndRequested (s : Transactions) (tx : ℕ) : Prop :=
  ∃ tc, (s.txs tx).started = some tc ∧ ∃ r ∈ s.ends, r.conn = tc.conn ∧ r.txId = tc.txId

namespace Transactions

variable {s t : Transactions} {ctx tx : ℕ} {committed : Bool}

/-- The owner ends the transaction. -/
theorem endTx_of_owner {tc : TransactionContext} (hopen : (s.txs tx).closed = false)
    (hstarted : (s.txs tx).started = some tc) (hcurrent : s.current ctx = some tc)
    (hconn : s.takesRequests tc.conn = true) :
    s.endTx ctx tx committed = (.requested,
      ⟨Function.update s.current ctx none, Function.update s.txs tx ⟨some tc, true⟩,
        s.takesRequests, s.ends ++ [⟨tc.conn, tc.txId, committed⟩]⟩) := by
  unfold endTx
  rw [if_neg (by simp [hopen])]
  simp [hstarted, txEnd, hcurrent, requestEnd, hconn]

/-- The invariant: what is closed has been ended. -/
def ClosedEnded (s : Transactions) : Prop := ∀ tx, (s.txs tx).closed → s.EndRequested tx

theorem ClosedEnded.start (h : s.ClosedEnded) (conn : Conn) (status txId : ℤ) :
    (s.startTx ctx tx conn status txId).ClosedEnded := by
  unfold startTx
  split_ifs
  · intro tx' hclosed
    have hne : tx' ≠ tx := by
      rintro rfl
      simp at hclosed
    unfold EndRequested
    dsimp only at hclosed ⊢
    rw [Function.update_of_ne hne] at hclosed ⊢
    exact h tx' hclosed
  · exact h

theorem ClosedEnded.endTx (h : s.ClosedEnded) (hok : s.EndedByOwner (.endTx ctx tx committed)) :
    (s.endTx ctx tx committed).2.ClosedEnded := by
  by_cases hclosed : (s.txs tx).closed
  · rw [Transactions.endTx, if_pos hclosed]
    exact h
  · obtain ⟨tc, htc, hcurrent, hconn⟩ := hok (by simpa using hclosed)
    rw [endTx_of_owner (by simpa using hclosed) htc hcurrent hconn]
    intro tx' hclosed'
    unfold EndRequested
    dsimp only at hclosed' ⊢
    by_cases heq : tx' = tx
    · rw [heq, Function.update_self]
      exact ⟨tc, rfl, ⟨tc.conn, tc.txId, committed⟩, by simp, rfl, rfl⟩
    · rw [Function.update_of_ne heq] at hclosed' ⊢
      obtain ⟨tc', hstarted', r, hr, hrequest⟩ := h tx' hclosed'
      exact ⟨tc', hstarted', r, List.mem_append_left _ hr, hrequest⟩

theorem ClosedEnded.step {a : TxStep} (h : s.ClosedEnded) (hok : s.EndedByOwner a)
    (hstep : s.step a = some t) : t.ClosedEnded := by
  cases a with
  | start ctx tx conn status txId =>
    obtain rfl := Option.some.inj hstep
    exact h.start conn status txId.toInt
  | endTx ctx tx committed =>
    obtain rfl := Option.some.inj hstep
    exact h.endTx hok
  | createTask ctx task =>
    obtain rfl := Option.some.inj hstep
    exact h
  | connection conn takesRequests =>
    obtain rfl := Option.some.inj hstep
    exact h

end Transactions

/-- In a run in which transactions are ended by contexts in which they are current, over
connections that are not closed, a transaction is closed only if its end has been requested
on its connection; and each such call requests it and resets the context variable. -/
theorem closed_transaction_is_ended {as : List TxStep} {s : Transactions}
    (hok : Along Transactions.step Transactions.EndedByOwner Transactions.init as)
    (hrun : run Transactions.step Transactions.init as = some s) :
    (∀ tx, (s.txs tx).closed → s.EndRequested tx) ∧
    ∀ ctx tx committed, s.CanEnd ctx tx → (s.txs tx).closed = false →
      (s.endTx ctx tx committed).1 = .requested ∧
      (s.endTx ctx tx committed).2.EndRequested tx ∧
      (s.endTx ctx tx committed).2.current ctx = none := by
  have h0 : Transactions.init.ClosedEnded := by
    intro tx hclosed
    cases hclosed
  refine ⟨along_invariant (fun _ _ _ hs ho ht => hs.step ho ht) h0 hok hrun,
    fun ctx tx committed hcan hopen => ?_⟩
  obtain ⟨tc, htc, hcurrent, hconn⟩ := hcan
  rw [Transactions.endTx_of_owner hopen htc hcurrent hconn]
  exact ⟨rfl, ⟨tc, by simp, ⟨tc.conn, tc.txId, committed⟩, by simp, rfl, rfl⟩, by simp⟩

/-- Two contexts, each with a transaction of its own. -/
theorem closed_transaction_is_ended_two_contexts :
    let as : List TxStep := [.connection 3 true, .connection 4 true, .start 0 0 3 0 71,
      .start 1 1 4 0 71, .endTx 1 1 true, .connection 4 false, .endTx 0 0 false, .endTx 1 0 true]
    ∃ s, run Transactions.step Transactions.init as = some s ∧
      (∀ tx, (s.txs tx).closed → s.EndRequested tx) ∧
      ∀ ctx tx committed, s.CanEnd ctx tx → (s.txs tx).closed = false →
        (s.endTx ctx tx committed).1 = .requested ∧
        (s.endTx ctx tx committed).2.EndRequested tx ∧
        (s.endTx ctx tx committed).2.current ctx = none := by
  intro as
  obtain ⟨s, hs⟩ := Option.isSome_iff_exists.mp (by decide :
    (run Transactions.step Transactions.init as).isSome)
  exact ⟨s, hs, closed_transaction_is_ended (by decide) hs⟩

/-- A commit from another context closes the transaction without a request, and then the
owner can no longer end it. -/
theorem commit_from_other_context_closes :
    ∃ s, run Transactions.step Transactions.init
        [.connection 3 true, .start 0 0 3 0 71, .endTx 1 0 true, .endTx 0 0 true] = some s ∧
      (s.txs 0).closed = true ∧ s.ends = [] ∧ s.current 0 = some ⟨71, 3⟩ :=
  ⟨_, rfl, rfl, rfl, rfl⟩

/-- So does a commit of the owner over a connection that was closed meanwhile; its context
no longer knows the transaction. -/
example : ∃ s, run Transactions.step Transactions.init
      [.connection 3 true, .start 0 0 3 0 71, .connection 3 false, .endTx 0 0 true,
        .connection 3 true, .endTx 0 0 true] = some s ∧
    (s.txs 0).closed = true ∧ s.ends = [] ∧ s.current 0 = none :=
  ⟨_, rfl, rfl, rfl, rfl⟩

end PyGridGain
