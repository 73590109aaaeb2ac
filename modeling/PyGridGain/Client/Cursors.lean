import PyGridGain.Lib.Dict

/-! The cursors over the pages of a query. A page is fetched when the one before it is
exhausted, but an empty page ends the iteration, whether or not more pages follow. -/

namespace PyGridGain

/-- What the server returns for a page: entries or rows, and whether there are more. -/
structure Page (α : Type) where
  data : List α
  more : Bool

/-- A cursor: what is left of the current page, and the pages that the server still has. -/
structure Cursor (α : Type) where
  connection : Bool
  data : Option (List α)
  more : Bool
  fieldNames : Option (List String)
  server : List (Page α)
  requests : ℕ

/-- A call of `__next__` or `__anext__` gives an item, or raises `StopIteration` (for the
asynchronous cursors `StopAsyncIteration`) or an error. -/
inductive Outcome (β : Type)
  | item (b : β)
  | stop
  | error
  deriving DecidableEq

/-- What a cursor yields. -/
inductive Item (ν : Type)
  | fieldNames (names : List String)
  | entry (k v : ν)
  | row (vs : List ν)

section Next
variable {α β ν : Type} [DecidableEq ν] (unwrapBinary : ν → ν)

/-- What all cursors do for the next item; `items` are those of a page that is fetched. The
`StopIteration` of the new iterator is the one that leaves the method, or becomes its
`StopAsyncIteration`. -/
def nextItem (items : List α → List α) (yielded : α → β) (c : Cursor α) : Outcome β × Cursor α :=
  match c.data with
  | none => (.stop, c)
  | some (x :: xs) => (.item (yielded x), { c with data := some xs })
  | some [] =>
    if c.more then
      match c.server with
      | [] => (.error, c)
      | page :: server =>
        let fetched := { c with more := page.more, server := server, requests := c.requests + 1 }
        match items page.data with
        | x :: xs => (.item (yielded x), { fetched with data := some xs })
        | [] => (.stop, { fetched with data := some [] })
    else (.stop, c)

/-- `result.value['data'].items()`: the entries of a dict. -/
def dictItems (data : List (ν × ν)) : List (ν × ν) := dictUpdate [] data

def unwrapEntry (p : ν × ν) : Item ν := .entry (unwrapBinary p.1) (unwrapBinary p.2)

def unwrapRow (row : List ν) : Item ν := .row (row.map unwrapBinary)

/-- An asynchronous cursor must have been initialised. -/
def initialized (next : Cursor α → Outcome β × Cursor α) (c : Cursor α) : Outcome β × Cursor α :=
  if c.connection then next c else (.error, c)

def ScanCursor.next (c : Cursor (ν × ν)) : Outcome (Item ν) × Cursor (ν × ν) :=
  nextItem dictItems (unwrapEntry unwrapBinary) c

def AioScanCursor.anext (c : Cursor (ν × ν)) : Outcome (Item ν) × Cursor (ν × ν) :=
  initialized (nextItem dictItems (unwrapEntry unwrapBinary)) c

def SqlCursor.next (c : Cursor (ν × ν)) : Outcome (Item ν) × Cursor (ν × ν) :=
  nextItem dictItems (unwrapEntry unwrapBinary) c

def VectorCursor.next (c : Cursor (ν × ν)) : Outcome (Item ν) × Cursor (ν × ν) :=
  nextItem dictItems (unwrapEntry unwrapBinary) c

def AioVectorCursor.anext (c : Cursor (ν × ν)) : Outcome (Item ν) × Cursor (ν × ν) :=
  initialized (nextItem dictItems (unwrapEntry unwrapBinary)) c

/-- The field names come first, if there are any. -/
def nextRow (c : Cursor (List ν)) : Outcome (Item ν) × Cursor (List ν) :=
  match c.data, c.fieldNames with
  | none, _ => (.stop, c)
  | some _, some (name :: names) => (.item (.fieldNames (name :: names)), { c with fieldNames := none })
  | some _, _ => nextItem id (unwrapRow unwrapBinary) c

def SqlFieldsCursor.next (c : Cursor (List ν)) : Outcome (Item ν) × Cursor (List ν) :=
  nextRow unwrapBinary c

def AioSqlFieldsCursor.anext (c : Cursor (List ν)) : Outcome (Item ν) × Cursor (List ν) :=
  initialized (nextRow unwrapBinary) c

end Next

section Iteration
variable {α β : Type}

/-- The pages with the given entries: all but the last have more. -/
def serverPages : List (List α) → List (Page α)
  | [] => []
  | data :: rest => ⟨data, !rest.isEmpty⟩ :: serverPages rest

/-- `_finalize_init`: a cursor with the first page, and the others at the server. Where there are
no field names it takes the field count, and a response with a list of names, even an empty one, has
none: `none` is that `KeyError`. -/
def Cursor.finalizeInit (items : List α → List α) (fieldNames : Option (List String))
    (first : List α) (rest : List (List α)) : Option (Cursor α) :=
  if fieldNames = some [] then none
  else some ⟨true, some (items first), !rest.isEmpty, fieldNames, serverPages rest, 0⟩

/-- The items that a cursor yields until the iteration ends, and the cursor then; `none` if
it has not ended after `n` calls or an error is raised. -/
def iterate (next : Cursor α → Outcome β × Cursor α) : ℕ → Cursor α → Option (List β × Cursor α)
  | 0, _ => none
  | n + 1, c =>
    match next c with
    | (.item b, c) => (iterate next n c).map fun r => (b :: r.1, r.2)
    | (.stop, c) => some ([], c)
    | (.error, _) => none

/-- The iteration yields exactly `items` and makes so many requests for pages; after it the
cursor is at the end, and makes no more. -/
def Delivers (next : Cursor α → Outcome β × Cursor α) (c : Cursor α) (items : List β)
    (requests : ℕ) : Prop :=
  ∃ n left, iterate next n c = some (items, left) ∧ left.requests = requests ∧
    next left = (.stop, left)

/-- A cursor with the rest `xs` of the current page and the pages `rest` to come. -/
structure Cursor.At (items : List α → List α) (xs : List α) (rest : List (List α)) (k : ℕ)
    (c : Cursor α) : Prop where
  data : c.data = some xs
  more : c.more = !rest.isEmpty
  server : c.server = serverPages rest
  requests : c.requests = k
  distinct : ∀ d ∈ rest, items d = d

variable {items : List α → List α} {yielded : α → β} {c : Cursor α} {x : α} {xs : List α}
  {rest : List (List α)} {k : ℕ}

theorem next_cons (yielded : α → β) (h : c.At items (x :: xs) rest k) :
    ∃ c', nextItem items yielded c = (.item (yielded x), c') ∧ c'.At items xs rest k := by
  refine ⟨{ c with data := some xs }, ?_, rfl, h.more, h.server, h.requests, h.distinct⟩
  rw [nextItem, h.data]

theorem next_end (yielded : α → β) (h : c.At items [] [] k) :
    nextItem items yielded c = (.stop, c) := by
  rw [nextItem, h.data]
  simp [h.more]

/-- With another page to come, a call is not the last. -/
theorem next_ne_stop {d : List α} (h : c.At items [] (d :: rest) k) :
    nextItem items yielded c ≠ (.stop, c) := by
  intro heq
  have hrequests := congrArg (fun r => r.2.requests) heq
  rw [nextItem, h.data, h.server] at hrequests
  simp only [h.more, List.isEmpty_cons, Bool.not_false, if_true, serverPages] at hrequests
  split at hrequests <;> simp at hrequests

/-- A page with entries is fetched. -/
theorem next_fetch (yielded : α → β) (h : c.At items [] ((x :: xs) :: rest) k) :
    ∃ c', nextItem items yielded c = (.item (yielded x), c') ∧ c'.At items xs rest (k + 1) := by
  refine ⟨{ c with data := some xs, more := !rest.isEmpty, server := serverPages rest,
                   requests := c.requests + 1 }, ?_,
    rfl, rfl, rfl, by rw [h.requests], fun d hd => h.distinct d (List.mem_cons_of_mem _ hd)⟩
  rw [nextItem, h.data, h.server]
  simp [h.more, serverPages, h.distinct (x :: xs) List.mem_cons_self]

/-- An empty page is fetched: the iteration ends. -/
theorem next_empty (yielded : α → β) (h : c.At items [] ([] :: rest) k) :
    ∃ c', nextItem items yielded c = (.stop, c') ∧ c'.At items [] rest (k + 1) := by
  refine ⟨{ c with data := some [], more := !rest.isEmpty, server := serverPages rest,
                   requests := c.requests + 1 }, ?_,
    rfl, rfl, rfl, by rw [h.requests], fun d hd => h.distinct d (List.mem_cons_of_mem _ hd)⟩
  rw [nextItem, h.data, h.server]
  simp [h.more, serverPages, h.distinct [] List.mem_cons_self]

theorem delivers_item {next : Cursor α → Outcome β × Cursor α} {c c' : Cursor α} {b : β}
    {out : List β} {r : ℕ} (hnext : next c = (.item b, c')) (h : Delivers next c' out r) :
    Delivers next c (b :: out) r := by
  obtain ⟨n, left, hout, hr, hend⟩ := h
  refine ⟨n + 1, left, ?_, hr, hend⟩
  rw [iterate, hnext]
  simp only [hout, Option.map_some]

theorem delivers_stop {next : Cursor α → Outcome β × Cursor α} {c c' : Cursor α}
    (hnext : next c = (.stop, c')) (hend : next c' = (.stop, c')) :
    Delivers next c [] c'.requests := by
  refine ⟨1, c', ?_, rfl, hend⟩
  rw [iterate, hnext]

/-- If only the last page may be empty, all is delivered. -/
theorem delivers_of_nonempty (yielded : α → β) (h : c.At items xs rest k)
    (hrest : ∀ d ∈ rest.dropLast, d ≠ []) :
    Delivers (nextItem items yielded) c ((xs ++ rest.flatten).map yielded) (k + rest.length) := by
  induction rest generalizing xs c k with
  | nil =>
    induction xs generalizing c with
    | nil =>
      have hstop := delivers_stop (next_end yielded h) (next_end yielded h)
      rwa [h.requests] at hstop
    | cons x xs ih =>
      obtain ⟨c', hnext, h'⟩ := next_cons yielded h
      exact delivers_item hnext (ih h')
  | cons d rest ih =>
    induction xs generalizing c with
    | nil =>
      cases d with
      | nil =>
        obtain rfl : rest = [] := by
          by_contra hne
          refine hrest [] ?_ rfl
          rw [List.dropLast_cons_of_ne_nil hne]
          exact List.mem_cons_self
        obtain ⟨c', hnext, h'⟩ := next_empty yielded h
        have hstop := delivers_stop hnext (next_end yielded h')
        rwa [h'.requests] at hstop
      | cons x xs =>
        obtain ⟨c', hnext, h'⟩ := next_fetch yielded h
        have hrest' : ∀ d ∈ rest.dropLast, d ≠ [] := by
          intro d hd
          by_cases hne : rest = []
          · simp [hne] at hd
          · rw [List.dropLast_cons_of_ne_nil hne] at hrest
            exact hrest d (List.mem_cons_of_mem _ hd)
        have hdelivers := delivers_item hnext (ih h' hrest')
        rw [List.length_cons, Nat.add_comm rest.length, ← Nat.add_assoc]
        exact hdelivers
    | cons x xs ihxs =>
      obtain ⟨c', hnext, h'⟩ := next_cons yielded h
      exact delivers_item hnext (ihxs h')

/-- If the iteration ends where the cursor is at the end, only the last page was empty. -/
theorem nonempty_of_iterate {n : ℕ} {out : List β} {left : Cursor α} (h : c.At items xs rest k)
    (hout : iterate (nextItem items yielded) n c = some (out, left))
    (hend : nextItem items yielded left = (.stop, left)) :
    (∀ d ∈ rest.dropLast, d ≠ []) ∧ ∀ b ∈ out, ∃ a, b = yielded a := by
  induction n generalizing c xs rest k out with
  | zero => cases hout
  | succ n ih =>
    rw [iterate] at hout
    have hitem : ∀ {a c' xs' rest' k'}, nextItem items yielded c = (.item (yielded a), c') →
        c'.At items xs' rest' k' →
        (∀ d ∈ rest'.dropLast, d ≠ []) ∧ ∀ b ∈ out, ∃ a, b = yielded a := by
      intro a c' xs' rest' k' hnext h'
      rw [hnext] at hout
      obtain ⟨⟨out', left'⟩, hout', heq⟩ := Option.map_eq_some_iff.mp hout
      obtain ⟨rfl, rfl⟩ := Prod.mk.inj heq
      obtain ⟨hrest, hyielded⟩ := ih h' hout'
      exact ⟨hrest, List.forall_mem_cons.mpr ⟨⟨a, rfl⟩, hyielded⟩⟩
    cases xs with
    | cons x xs =>
      obtain ⟨c', hnext, h'⟩ := next_cons yielded h
      exact hitem hnext h'
    | nil =>
      cases rest with
      | nil =>
        rw [next_end yielded h] at hout
        obtain ⟨rfl, rfl⟩ := Prod.mk.inj (Option.some.inj hout)
        simp
      | cons d rest =>
        cases d with
        | nil =>
          obtain ⟨c', hnext, h'⟩ := next_empty yielded h
          rw [hnext] at hout
          obtain ⟨rfl, rfl⟩ := Prod.mk.inj (Option.some.inj hout)
          cases rest with
          | nil => simp
          | cons d' rest => exact absurd hend (next_ne_stop h')
        | cons x xs =>
          obtain ⟨c', hnext, h'⟩ := next_fetch yielded h
          obtain ⟨hrest, hyielded⟩ := hitem hnext h'
          refine ⟨?_, hyielded⟩
          by_cases hne : rest = []
          · simp [hne]
          · rw [List.dropLast_cons_of_ne_nil hne]
            exact List.forall_mem_cons.mpr ⟨by simp, hrest⟩

/-- The first page and the others are delivered exactly if no page between the first and
the last is empty. -/
theorem delivers_iff (yielded : α → β) (hc : c.At items xs rest 0) :
    Delivers (nextItem items yielded) c ((xs ++ rest.flatten).map yielded) rest.length ↔
      ∀ d ∈ rest.dropLast, d ≠ [] := by
  constructor
  · rintro ⟨n, left, hout, -, hend⟩
    exact (nonempty_of_iterate hc hout hend).1
  · intro hrest
    have hdelivers := delivers_of_nonempty yielded hc hrest
    rwa [Nat.zero_add] at hdelivers

/-- Two ways to go on that agree on the states `P` of the iteration. -/
theorem delivers_congr {next next' : Cursor α → Outcome β × Cursor α} {P : Cursor α → Prop}
    (hnext : ∀ c, P c → next' c = next c) (hkeep : ∀ c, P c → P (next c).2) (hc : P c)
    {out : List β} {r : ℕ} : Delivers next' c out r ↔ Delivers next c out r := by
  have hiterate : ∀ n c, P c → iterate next' n c = iterate next n c ∧
      ∀ o ∈ iterate next n c, P o.2 := by
    intro n
    induction n with
    | zero => exact fun c _ => ⟨rfl, fun o ho => by cases ho⟩
    | succ n ih =>
      intro c hc
      have hkept := hkeep c hc
      rw [iterate, iterate, hnext c hc]
      rcases hstep : next c with ⟨b | _ | _, c'⟩
      · rw [hstep] at hkept
        obtain ⟨heq, hleft⟩ := ih c' hkept
        refine ⟨by simp only [heq], fun o ho => ?_⟩
        obtain ⟨o', ho', rfl⟩ := Option.map_eq_some_iff.mp ho
        exact hleft o' ho'
      · rw [hstep] at hkept
        refine ⟨rfl, fun o ho => ?_⟩
        obtain rfl := Option.some.inj ho
        exact hkept
      · exact ⟨rfl, fun o ho => by cases ho⟩
  constructor
  · rintro ⟨n, left, hout, hr, hend⟩
    obtain ⟨heq, hleft⟩ := hiterate n c hc
    rw [heq] at hout
    exact ⟨n, left, hout, hr, hnext left (hleft _ hout) ▸ hend⟩
  · rintro ⟨n, left, hout, hr, hend⟩
    obtain ⟨heq, hleft⟩ := hiterate n c hc
    exact ⟨n, left, heq.trans hout, hr, (hnext left (hleft _ hout)).trans hend⟩

/-- The connection and the field names stay as they are. -/
theorem nextItem_keeps (c : Cursor α) : (nextItem items yielded c).2.connection = c.connection ∧
    (nextItem items yielded c).2.fieldNames = c.fieldNames := by
  unfold nextItem
  split
  · exact ⟨rfl, rfl⟩
  · exact ⟨rfl, rfl⟩
  · split_ifs
    · split
      · exact ⟨rfl, rfl⟩
      · dsimp only
        split <;> exact ⟨rfl, rfl⟩
    · exact ⟨rfl, rfl⟩

end Iteration

/-! ### The classes of cursors -/

section Classes
variable {ν : Type} [DecidableEq ν] {unwrapBinary : ν → ν}

theorem dictItems_of_nodup {data : List (ν × ν)} (h : (data.map (·.1)).Nodup) :
    dictItems data = data := dictUpdate_of_nodup (d := []) h

theorem finalizeInit_eq_some {α : Type} (items : List α → List α) {names : Option (List String)}
    (hnames : names ≠ some []) (first : List α) (rest : List (List α))
    (h : ∀ d ∈ first :: rest, items d = d) :
    ∃ c, Cursor.finalizeInit items names first rest = some c ∧ c.At items first rest 0 ∧
      c.connection = true ∧ c.fieldNames = names :=
  ⟨_, if_neg hnames, ⟨congrArg some (h first List.mem_cons_self), rfl, rfl, rfl,
    fun d hd => h d (List.mem_cons_of_mem _ hd)⟩, rfl, rfl⟩

/-- An initialised cursor goes on as one that needs no initialisation. -/
theorem delivers_initialized {α β : Type} {next : Cursor α → Outcome β × Cursor α}
    (hkeep : ∀ c, (next c).2.connection = c.connection) {c : Cursor α} (hc : c.connection = true)
    {out : List β} {r : ℕ} : Delivers (initialized next) c out r ↔ Delivers next c out r :=
  delivers_congr (P := fun c => c.connection = true) (fun _ hc => if_pos hc)
    (fun c hc => (hkeep c).trans hc) hc

omit [DecidableEq ν] in
/-- Without field names, rows are items like others. -/
theorem nextRow_of_no_names {c : Cursor (List ν)} (h : c.fieldNames.getD [] = []) :
    nextRow unwrapBinary c = nextItem id (unwrapRow unwrapBinary) c := by
  unfold nextRow
  split
  · rename_i hdata
    rw [nextItem, hdata]
  · rename_i hnames
    rw [hnames] at h
    cases h
  · rfl

omit [DecidableEq ν] in
theorem nextRow_connection (c : Cursor (List ν)) :
    (nextRow unwrapBinary c).2.connection = c.connection := by
  unfold nextRow
  split
  · rfl
  · rfl
  · exact (nextItem_keeps c).1

/-- The field names that come first. -/
def header (names : Option (List String)) : List (Item ν) :=
  (names.map Item.fieldNames).toList

omit [DecidableEq ν] in
theorem rows_delivered (unwrapBinary : ν → ν) {c : Cursor (List ν)} {first : List (List ν)}
    {rest : List (List (List ν))} (hat : c.At id first rest 0) (hnames : c.fieldNames ≠ some []) :
    Delivers (nextRow unwrapBinary) c
        (header c.fieldNames ++ (first ++ rest.flatten).map (unwrapRow unwrapBinary)) rest.length ↔
      ∀ d ∈ rest.dropLast, d ≠ [] := by
  have hrows : ∀ {c : Cursor (List ν)}, c.At id first rest 0 → c.fieldNames = none →
      (Delivers (nextRow unwrapBinary) c ((first ++ rest.flatten).map (unwrapRow unwrapBinary))
        rest.length ↔ ∀ d ∈ rest.dropLast, d ≠ []) := by
    intro c hat hnone
    refine Iff.trans (delivers_congr (P := fun c => c.fieldNames = none) (fun c hc => ?_)
      (fun c hc => (nextItem_keeps c).2.trans hc) hnone) (delivers_iff _ hat)
    exact nextRow_of_no_names (by simp [show c.fieldNames = none from hc])
  cases hfields : c.fieldNames with
  | none => exact hrows hat hfields
  | some names =>
    cases names with
    | nil => exact absurd hfields hnames
    | cons name names =>
      let c' : Cursor (List ν) := { c with fieldNames := none }
      have hfirst : nextRow unwrapBinary c = (.item (.fieldNames (name :: names)), c') := by
        rw [nextRow, hat.data, hfields]
        exact congrArg (Prod.mk _) (by simp [c', hat.data])
      have hiff := hrows (c := c') ⟨hat.data, hat.more, hat.server, hat.requests, hat.distinct⟩ rfl
      constructor
      · rintro ⟨n, left, hout, hr, hend⟩
        refine hiff.mp ?_
        cases n with
        | zero => cases hout
        | succ n =>
          rw [iterate, hfirst] at hout
          obtain ⟨o, ho, heq⟩ := Option.map_eq_some_iff.mp hout
          obtain ⟨hlist, rfl⟩ := Prod.mk.inj heq
          have hrest : o.1 = (first ++ rest.flatten).map (unwrapRow unwrapBinary) :=
            (List.cons.inj hlist).2
          exact ⟨n, o.2, by rw [ho, ← hrest], hr, hend⟩
      · intro hrest
        exact delivers_item hfirst (hiff.mpr hrest)

/-- Every cursor delivers all pages, exactly if no page between the first and the last is
empty, and the field names, if they were requested, exactly if there are any. -/
theorem cursors_deliver_iff (unwrapBinary : ν → ν) {first : List (ν × ν)}
    {rest : List (List (ν × ν))} (hkeys : ∀ d ∈ first :: rest, (d.map (·.1)).Nodup)
    (names : Option (List String)) (rows : List (List ν)) (rowPages : List (List (List ν))) :
    (∀ next ∈ [ScanCursor.next unwrapBinary, AioScanCursor.anext unwrapBinary,
        SqlCursor.next unwrapBinary, VectorCursor.next unwrapBinary,
        AioVectorCursor.anext unwrapBinary],
      (∃ c ∈ Cursor.finalizeInit dictItems none first rest,
          Delivers next c ((first ++ rest.flatten).map (unwrapEntry unwrapBinary)) rest.length) ↔
        ∀ d ∈ rest.dropLast, d ≠ []) ∧
    ∀ next ∈ [SqlFieldsCursor.next unwrapBinary, AioSqlFieldsCursor.anext unwrapBinary],
      (∃ c ∈ Cursor.finalizeInit id names rows rowPages,
          Delivers next c (header names ++ (rows ++ rowPages.flatten).map (unwrapRow unwrapBinary))
            rowPages.length) ↔
        (∀ d ∈ rowPages.dropLast, d ≠ []) ∧ names ≠ some [] := by
  constructor
  · obtain ⟨c, hc, hat, hconnection, -⟩ := finalizeInit_eq_some dictItems (Option.some_ne_none []).symm
      first rest fun d hd => dictItems_of_nodup (hkeys d hd)
    have hentries := delivers_iff (unwrapEntry unwrapBinary) hat
    have haio := (delivers_initialized (fun c => (nextItem_keeps c).1) hconnection).trans hentries
    simp only [hc, Option.mem_some_iff, exists_eq_left', List.forall_mem_cons, List.not_mem_nil,
      false_implies, implies_true, and_true]
    exact ⟨hentries, haio, hentries, hentries, haio⟩
  · by_cases hnames : names = some []
    · simp [hnames, Cursor.finalizeInit]
    · obtain ⟨c, hc, hat, hconnection, rfl⟩ := finalizeInit_eq_some id hnames rows rowPages
        fun _ _ => rfl
      have hrows := rows_delivered unwrapBinary hat hnames
      have haio := (delivers_initialized nextRow_connection hconnection).trans hrows
      simp only [hc, Option.mem_some_iff, exists_eq_left', List.forall_mem_cons, List.not_mem_nil,
        false_implies, implies_true, and_true, hnames, ne_eq, not_false_eq_true]
      exact ⟨hrows, haio⟩

/-- Three pages, of which the last is empty. -/
theorem cursors_deliver_iff_three_pages :
    let first : List (ℕ × ℕ) := [(1, 10)]
    let rest : List (List (ℕ × ℕ)) := [[(1, 11), (2, 12)], []]
    (∀ next ∈ [ScanCursor.next id, AioScanCursor.anext id, SqlCursor.next id,
        VectorCursor.next id, AioVectorCursor.anext id],
      (∃ c ∈ Cursor.finalizeInit dictItems none first rest,
          Delivers next c ((first ++ rest.flatten).map (unwrapEntry id)) rest.length) ↔
        ∀ d ∈ rest.dropLast, d ≠ []) ∧
    ∀ next ∈ [SqlFieldsCursor.next (id : ℕ → ℕ), AioSqlFieldsCursor.anext id],
      (∃ c ∈ Cursor.finalizeInit id (some ["A"]) [[1]] [[[2], [3]]],
          Delivers next c
            (header (some ["A"]) ++ ([[1]] ++ [[[2], [3]]].flatten).map (unwrapRow id))
            [[[2], [3]]].length) ↔
        (∀ d ∈ [[[2], [3]]].dropLast, d ≠ []) ∧ some ["A"] ≠ some [] := by
  intro first rest
  have hkeys : ∀ d ∈ first :: rest, (d.map (·.1)).Nodup := by decide
  exact cursors_deliver_iff id hkeys (some ["A"]) [[1]] [[[2], [3]]]

/-- An empty page between two others: the iteration ends before the last entry. -/
theorem empty_page_ends_iteration :
    ∃ c ∈ Cursor.finalizeInit dictItems none [((1 : ℕ), (10 : ℕ))] [[], [(2, 20)]],
      ∃ left, iterate (ScanCursor.next id) 9 c = some ([.entry 1 10], left) ∧ left.more = true :=
  ⟨_, rfl, _, rfl, rfl⟩

end Classes

end PyGridGain
