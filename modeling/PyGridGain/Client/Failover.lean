import Mathlib.Data.List.Nodup
import Mathlib.Logic.Function.Basic

/-! Failover of a client without partition awareness: it stays with the current node, and
goes on to the others when it is lost. The index of the current node is only advanced by
one, wherever the search ends. -/

namespace PyGridGain

/-- How `connect` ends: it returns, or raises one of `connection_errors` or another error,
such as `AuthenticationError`. -/
inductive ConnectEnd
  | accepted
  | connectionError
  | otherError
  deriving DecidableEq

inductive PoolError
  | indexError
  | reconnectError
  | otherError
  deriving DecidableEq

/-- What is done to the connections; `connect` tells whether the connection was alive. -/
inductive PoolEvent
  | close (node : ℕ)
  | connect (node : ℕ) (wasAlive : Bool)
  deriving DecidableEq

/-- The connections of a client: which are alive, and the current one. -/
structure Pool where
  numNodes : ℕ
  alive : ℕ → Bool
  currentNode : ℕ

/-- A call of `random_node`. -/
structure NodeCall where
  result : Except PoolError ℕ
  pool : Pool
  events : List PoolEvent

/-- The loop of `random_node`: a connection that was made is alive, one that could not be
made has failed. Only `connection_errors` let it go on. -/
def tryNodes (connects : ℕ → ConnectEnd) :
    List ℕ → (ℕ → Bool) → Except PoolError ℕ × (ℕ → Bool) × List PoolEvent
  | [], alive => (.error .reconnectError, alive, [])
  | i :: is, alive =>
    match connects i with
    | .accepted => (.ok i, Function.update alive i true, [.connect i (alive i)])
    | .otherError => (.error .otherError, Function.update alive i false, [.connect i (alive i)])
    | .connectionError =>
      let rest := tryNodes connects is (Function.update alive i false)
      (rest.1, rest.2.1, .connect i (alive i) :: rest.2.2)

namespace Pool

/-- The index after the current one. -/
def nextNode (s : Pool) : ℕ := if s.currentNode + 1 ≥ s.numNodes then 0 else s.currentNode + 1

/-- The order in which the nodes are tried. -/
def order (s : Pool) : List ℕ :=
  List.range' s.nextNode (s.numNodes - s.nextNode) ++ List.range s.nextNode

/-- `random_node`. -/
def randomNode (s : Pool) (connects : ℕ → ConnectEnd) : NodeCall :=
  if s.currentNode < s.numNodes then
    if s.alive s.currentNode then ⟨.ok s.currentNode, s, []⟩
    else
      let tried := tryNodes connects s.order (Function.update s.alive s.currentNode false)
      ⟨tried.1, { s with alive := tried.2.1, currentNode := s.nextNode },
        .close s.currentNode :: tried.2.2⟩
  else ⟨.error .indexError, s, []⟩

/-- There is an alive node to be had. -/
def Available (s : Pool) (connects : ℕ → ConnectEnd) : Prop :=
  s.alive s.currentNode ∨ ∃ i < s.numNodes, connects i = .accepted

/-- A call gives an alive node if there is one to be had; it connects no connection that is
alive; and the next call gives the same node and touches no connection. -/
structure Stable (s : Pool) (connects : ℕ → ConnectEnd) : Prop where
  gives : s.Available connects →
    ∃ i, (s.randomNode connects).result = .ok i ∧ (s.randomNode connects).pool.alive i
  raises : ¬s.Available connects → (s.randomNode connects).result = .error .reconnectError
  spares : ∀ i, .connect i true ∉ (s.randomNode connects).events
  again : ∀ i, (s.randomNode connects).result = .ok i → ∀ connects',
    ((s.randomNode connects).pool.randomNode connects').result = .ok i ∧
      ((s.randomNode connects).pool.randomNode connects').events = []

end Pool

/-! ### The loop -/

section Loop
variable {connects : ℕ → ConnectEnd} {alive : ℕ → Bool} {is : List ℕ}

/-- The loop comes to its end only where every node ends in one of `connection_errors`. -/
theorem tryNodes_reconnectError_iff :
    (tryNodes connects is alive).1 = .error .reconnectError ↔
      ∀ i ∈ is, connects i = .connectionError := by
  induction is generalizing alive with
  | nil => simp [tryNodes]
  | cons j is ih =>
    unfold tryNodes
    split
    case h_1 haccepted => simp [haccepted]
    case h_2 hother => simp [hother]
    case h_3 herror => simpa [herror] using ih

theorem tryNodes_keeps {i : ℕ} (hi : i ∉ is) : (tryNodes connects is alive).2.1 i = alive i := by
  induction is generalizing alive with
  | nil => rfl
  | cons j is ih =>
    obtain ⟨hne, hrest⟩ := not_or.mp (List.mem_cons.not.mp hi)
    unfold tryNodes
    split
    · exact Function.update_of_ne hne _ _
    · exact Function.update_of_ne hne _ _
    · exact (ih hrest).trans (Function.update_of_ne hne _ _)

/-- If none can be reached, each is tried once, as it was before. -/
theorem tryNodes_events (alive : ℕ → Bool) (hnd : is.Nodup)
    (hnone : ∀ i ∈ is, connects i = .connectionError) :
    (tryNodes connects is alive).2.2 = is.map fun i => .connect i (alive i) := by
  induction is generalizing alive with
  | nil => rfl
  | cons j is ih =>
    obtain ⟨hj, hnd⟩ := List.nodup_cons.mp hnd
    obtain ⟨herror, hnone⟩ := List.forall_mem_cons.mp hnone
    rw [tryNodes, herror, List.map_cons]
    dsimp only
    rw [ih _ hnd hnone]
    refine congrArg _ (List.map_congr_left fun i hi => ?_)
    have hne : i ≠ j := fun heq => hj (heq ▸ hi)
    rw [Function.update_of_ne hne]

end Loop

namespace Pool

variable {s : Pool} {connects : ℕ → ConnectEnd}

theorem nextNode_lt (h : s.currentNode < s.numNodes) : s.nextNode < s.numNodes := by
  unfold nextNode
  split_ifs <;> omega

theorem mem_order (h : s.currentNode < s.numNodes) {i : ℕ} : i ∈ s.order ↔ i < s.numNodes := by
  have hnext := nextNode_lt h
  unfold order
  rw [List.mem_append, List.mem_range'_1, List.mem_range]
  omega

theorem nodup_order : s.order.Nodup := by
  refine List.Nodup.append List.nodup_range' List.nodup_range fun i hi hi' => ?_
  rw [List.mem_range'_1] at hi
  rw [List.mem_range] at hi'
  omega

/-- The search starts with the node after the current one. -/
theorem order_eq_cons (h : s.currentNode < s.numNodes) : ∃ is, s.order = s.nextNode :: is := by
  obtain ⟨k, hk⟩ := Nat.exists_eq_add_of_lt (nextNode_lt h)
  refine ⟨List.range' (s.nextNode + 1) k ++ List.range s.nextNode, ?_⟩
  rw [order, show s.numNodes - s.nextNode = k + 1 by omega, List.range'_succ, List.cons_append]

/-- A call that stays with the current node. -/
theorem randomNode_of_alive (h : s.currentNode < s.numNodes) (halive : s.alive s.currentNode) :
    s.randomNode connects = ⟨.ok s.currentNode, s, []⟩ := by
  rw [randomNode, if_pos h, if_pos halive]

/-- A call that leaves the current node. -/
theorem randomNode_of_dead (connects : ℕ → ConnectEnd) (h : s.currentNode < s.numNodes)
    (hdead : ¬s.alive s.currentNode) :
    s.randomNode connects = ⟨(tryNodes connects s.order s.alive).1,
      { s with alive := (tryNodes connects s.order s.alive).2.1, currentNode := s.nextNode },
      .close s.currentNode :: (tryNodes connects s.order s.alive).2.2⟩ := by
  have hclosed : Function.update s.alive s.currentNode false = s.alive := by
    rw [Function.update_eq_self_iff]
    exact (Bool.eq_false_iff.mpr hdead).symm
  rw [randomNode, if_pos h, if_neg hdead, hclosed]

/-- The node after the current one accepts the connection. -/
theorem tryNodes_of_accepted (h : s.currentNode < s.numNodes)
    (haccepted : connects s.nextNode = .accepted) :
    tryNodes connects s.order s.alive = (.ok s.nextNode, Function.update s.alive s.nextNode true,
      [.connect s.nextNode (s.alive s.nextNode)]) := by
  obtain ⟨is, his⟩ := order_eq_cons h
  rw [his, tryNodes, haccepted]

/-- If it does not, it is dead afterwards. -/
theorem nextNode_dead (h : s.currentNode < s.numNodes)
    (hnot : connects s.nextNode ≠ .accepted) :
    (tryNodes connects s.order s.alive).2.1 s.nextNode = false := by
  obtain ⟨is, his⟩ := order_eq_cons h
  have hnext : s.nextNode ∉ is := (List.nodup_cons.mp (his ▸ nodup_order)).1
  rw [his, tryNodes]
  split
  case h_1 haccepted => exact absurd haccepted hnot
  case h_2 => exact Function.update_self _ _ _
  case h_3 => exact (tryNodes_keeps hnext).trans (Function.update_self _ _ _)

theorem Stable.of_alive (h : s.currentNode < s.numNodes) (halive : s.alive s.currentNode) :
    s.Stable connects := by
  refine ⟨fun _ => ⟨s.currentNode, ?_⟩, fun hno => absurd (Or.inl halive) hno, fun i => ?_,
    fun i hi connects' => ?_⟩ <;> rw [randomNode_of_alive h halive] at *
  · exact ⟨rfl, halive⟩
  · simp
  · obtain rfl := Except.ok.inj hi
    rw [randomNode_of_alive h halive]
    exact ⟨rfl, rfl⟩

/-- The next node is not alive and accepts a connection. -/
theorem Stable.of_next (h : s.currentNode < s.numNodes) (hcurrent : ¬s.alive s.currentNode)
    (hdead : ¬s.alive s.nextNode) (haccepted : connects s.nextNode = .accepted) :
    s.Stable connects := by
  have hcall := randomNode_of_dead connects h hcurrent
  rw [tryNodes_of_accepted h haccepted] at hcall
  refine ⟨fun _ => ⟨s.nextNode, ?_⟩,
    fun hno => absurd (Or.inr ⟨s.nextNode, nextNode_lt h, haccepted⟩) hno, fun i hi => ?_,
    fun i hi connects' => ?_⟩ <;> rw [hcall] at *
  · exact ⟨rfl, Function.update_self _ _ _⟩
  · simp [hdead] at hi
  · obtain rfl := Except.ok.inj hi
    rw [randomNode_of_alive (nextNode_lt h) (Function.update_self _ _ _)]
    exact ⟨rfl, rfl⟩

/-- No node is alive, and every `connect` ends in one of `connection_errors`. -/
theorem Stable.of_none (h : s.currentNode < s.numNodes)
    (hnone : ∀ i < s.numNodes, ¬s.alive i ∧ connects i = .connectionError) :
    s.Stable connects := by
  have hcurrent := (hnone s.currentNode h).1
  have hcall := randomNode_of_dead connects h hcurrent
  have herrors : ∀ i ∈ s.order, connects i = .connectionError :=
    fun i hi => (hnone i ((mem_order h).mp hi)).2
  have hresult : (s.randomNode connects).result = .error .reconnectError := by
    rw [hcall]
    exact tryNodes_reconnectError_iff.mpr herrors
  have hno : ¬s.Available connects := by
    rintro (halive | ⟨i, hi, haccepted⟩)
    · exact hcurrent halive
    · rw [(hnone i hi).2] at haccepted
      cases haccepted
  refine ⟨fun hany => absurd hany hno, fun _ => hresult, fun i hi => ?_, fun i hi => ?_⟩
  · rw [hcall, tryNodes_events _ nodup_order herrors] at hi
    rcases List.mem_cons.mp hi with heq | hi
    · cases heq
    · obtain ⟨j, hj, heq⟩ := List.mem_map.mp hi
      obtain ⟨-, htrue⟩ := PoolEvent.connect.inj heq
      exact (hnone j ((mem_order h).mp hj)).1 htrue
  · rw [hresult] at hi
    cases hi

/-- Without an alive current node, a stable search gives the next node or finds none. -/
theorem Stable.result {i : ℕ} (hs : s.Stable connects) (h : s.currentNode < s.numNodes)
    (hcurrent : ¬s.alive s.currentNode) (hi : (s.randomNode connects).result = .ok i) :
    connects s.nextNode = .accepted := by
  -- otherwise the next call finds the dead node after the current one, and closes it
  by_contra hnot
  have hagain := (hs.again i hi connects).2
  rw [randomNode_of_dead connects h hcurrent, randomNode_of_dead connects (nextNode_lt h)
    (by simp [nextNode_dead h hnot])] at hagain
  cases hagain

end Pool

/-- The failover is stable exactly if the current node is alive, or the one after it is not
and accepts a connection, or no node is alive and all `connect` calls would end in one of
`connection_errors`. -/
theorem failover_stable_iff (s : Pool) (connects : ℕ → ConnectEnd) :
    s.Stable connects ↔ s.currentNode < s.numNodes ∧
      (s.alive s.currentNode ∨ (¬s.alive s.nextNode ∧ connects s.nextNode = .accepted) ∨
        ∀ i < s.numNodes, ¬s.alive i ∧ connects i = .connectionError) := by
  constructor
  · intro hs
    have h : s.currentNode < s.numNodes := by
      by_contra hge
      have herror : (s.randomNode connects).result = .error .indexError := by
        rw [Pool.randomNode, if_neg hge]
      by_cases hany : s.Available connects
      · obtain ⟨i, hi, -⟩ := hs.gives hany
        rw [herror] at hi
        cases hi
      · have hraises := hs.raises hany
        rw [herror] at hraises
        cases hraises
    refine ⟨h, ?_⟩
    by_cases halive : s.alive s.currentNode
    · exact Or.inl halive
    have hcall := Pool.randomNode_of_dead connects h halive
    have hspares : ∀ i, .connect i true ∉ (tryNodes connects s.order s.alive).2.2 := by
      intro i hi
      refine hs.spares i ?_
      rw [hcall]
      exact List.mem_cons_of_mem _ hi
    by_cases haccepted : connects s.nextNode = .accepted
    · refine Or.inr (Or.inl ⟨fun hnext => hspares s.nextNode ?_, haccepted⟩)
      rw [Pool.tryNodes_of_accepted h haccepted, hnext]
      exact List.mem_cons_self
    · right; right
      have hno : ¬s.Available connects := by
        intro hany
        obtain ⟨i, hi, -⟩ := hs.gives hany
        exact haccepted (hs.result h halive hi)
      have hraises := hs.raises hno
      rw [hcall] at hraises
      have herrors := tryNodes_reconnectError_iff.mp hraises
      intro i hi
      have hmem := (Pool.mem_order h).mpr hi
      refine ⟨fun hi' => hspares i ?_, herrors i hmem⟩
      rw [tryNodes_events _ Pool.nodup_order herrors, List.mem_map]
      exact ⟨i, hmem, by rw [hi']⟩
  · rintro ⟨h, halive | ⟨hdead, haccepted⟩ | hnone⟩
    · exact Pool.Stable.of_alive h halive
    · by_cases hcurrent : s.alive s.currentNode
      · exact Pool.Stable.of_alive h hcurrent
      · exact Pool.Stable.of_next h hcurrent hdead haccepted
    · exact Pool.Stable.of_none h hnone

/-- The current node 0 and the one after it are down: node 2 is given, but the next call
closes node 1 and connects node 2 again, which is alive. -/
theorem failover_reconnects_alive_node :
    let s : Pool := ⟨3, fun _ => false, 0⟩
    let connects : ℕ → ConnectEnd := fun i => if i = 2 then .accepted else .connectionError
    let first := s.randomNode connects
    let second := first.pool.randomNode connects
    first.result = .ok 2 ∧ second.events = [.close 1, .connect 2 true] ∧ ¬s.Stable connects := by
  refine ⟨rfl, rfl, fun hs => ?_⟩
  have hagain := (hs.again 2 rfl fun i => if i = 2 then .accepted else .connectionError).2
  cases hagain

/-- An authentication that fails leaves the search, though the node after it would accept. -/
example :
    let connects : ℕ → ConnectEnd := fun i => if i = 1 then .otherError else .accepted
    (Pool.randomNode ⟨3, fun _ => false, 0⟩ connects).result = .error .otherError :=
  rfl

end PyGridGain
