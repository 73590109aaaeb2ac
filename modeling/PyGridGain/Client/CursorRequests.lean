import PyGridGain.Datatypes.Value
import PyGridGain.Lib.Runs

/-! The requests that the cursors send: what they ask a node for, over every run of entering,
iterating and closing, whatever comes back. -/

namespace PyGridGain

inductive CursorClass
  | scanCursor
  | sqlCursor
  | sqlFieldsCursor
  | vectorCursor
  | aioScanCursor
  | aioSqlFieldsCursor
  | aioVectorCursor
  deriving DecidableEq

namespace CursorClass

def isAsync : CursorClass → Bool
  | aioScanCursor | aioSqlFieldsCursor | aioVectorCursor => true
  | _ => false

/-- The cursors over rows, `AbstractSqlFieldsCursor`. -/
def isFields : CursorClass → Bool
  | sqlFieldsCursor | aioSqlFieldsCursor => true
  | _ => false

end CursorClass

/-- The value of a successful result. The pages that are fetched have no `cursor` and no fields. -/
structure PageValue (α : Type) where
  cursor : ℤ
  data : List α
  more : Bool
  fields : Option (List PyStr)
  fieldCount : Option ℕ

/-- A request is answered, or its status is not zero, or the exchange itself fails. -/
inductive PageReply (α : Type)
  | page (value : PageValue α)
  | failed

def PageReply.isPage {α : Type} : PageReply α → Bool
  | page _ => true
  | failed => false

inductive CursorRequest (ν : Type)
  | query (conn : ν)
  | getPage (conn : Option ν) (cursor : Option ℤ) (fieldCount : Option ℕ)
  | resourceClose (conn : Option ν) (cursor : Option ℤ)
  deriving DecidableEq

def CursorRequest.isQuery {ν : Type} : CursorRequest ν → Bool
  | query _ => true
  | _ => false

/-- The attributes of a cursor; `none` before they are set. -/
structure CursorAttrs (ν α : Type) where
  connection : Option ν
  cursorId : Option ℤ
  more : Option Bool
  data : Option (List α)
  fieldNames : Option (List PyStr)
  fieldCount : Option ℕ

inductive CallOutcome (α : Type)
  | returned
  | item (x : α)
  | fieldNames (names : List PyStr)
  | stop
  | error

/-- What a call sends, what it takes off the page, how it ends and what it leaves. -/
structure CallResult (ν α : Type) where
  sent : Option (CursorRequest ν)
  taken : Option α
  outcome : CallOutcome α
  cursor : CursorAttrs ν α

namespace CursorAttrs
variable {ν α : Type} (k : CursorClass)

def empty : CursorAttrs ν α := ⟨none, none, none, none, none, none⟩

/-- `self._field_count`, where the page says it. -/
def countOf (value : PageValue α) : Option ℕ :=
  match value.fields with
  | some (name :: names) => some (name :: names).length
  | _ => value.fieldCount

/-- `_finalize_init`. Only the cursors over rows look at the fields; without any, the value has a
field count, or a `KeyError` is raised. -/
def finalizeInit (c : CursorAttrs ν α) : PageReply α → CallOutcome α × CursorAttrs ν α
  | .failed => (.error, c)
  | .page value =>
    let c := { c with
      cursorId := some value.cursor, more := some value.more, data := some value.data }
    if k.isFields then
      let c := { c with fieldNames := value.fields }
      match countOf value with
      | some count => (.returned, { c with fieldCount := some count })
      | none => (.error, c)
    else (.returned, c)

/-- The query of a cursor, to the node that `random_node` gives, if it does. -/
def sendQuery (node : Option ν) (reply : PageReply α) (c : CursorAttrs ν α) : CallResult ν α :=
  match node with
  | none => ⟨none, none, .error, c⟩
  | some node =>
    let r := finalizeInit k { c with connection := some node } reply
    ⟨some (.query node), none, r.1, r.2⟩

/-- `__enter__` and `__aenter__`. -/
def enter (node : Option ν) (reply : PageReply α) (c : CursorAttrs ν α) : CallResult ν α :=
  match k with
  | .aioScanCursor | .aioVectorCursor =>
    if c.connection.isNone then sendQuery k node reply c else ⟨none, none, .returned, c⟩
  | .aioSqlFieldsCursor =>
    if c.connection.isSome ∧ c.cursorId.getD 0 ≠ 0 then ⟨none, none, .returned, c⟩
    else sendQuery k node reply c
  | _ => ⟨none, none, .returned, c⟩

/-- A row or an entry is gone from the page, even if `unwrap_binary` raises. -/
def take (unwraps : Bool) (sent : Option (CursorRequest ν)) (c : CursorAttrs ν α) (x : α)
    (xs : List α) : CallResult ν α :=
  ⟨sent, some x, if unwraps then .item x else .error, { c with data := some xs }⟩

/-- What is asked for when a page is exhausted. -/
def fetch (reply : PageReply α) (unwraps : Bool) (c : CursorAttrs ν α) : CallResult ν α :=
  if k.isFields ∧ c.fieldCount = none then ⟨none, none, .error, c⟩
  else
    let sent := some (.getPage c.connection c.cursorId c.fieldCount)
    match reply with
    | .failed => ⟨sent, none, .error, c⟩
    | .page value =>
      let c := { c with data := some value.data, more := some value.more }
      match value.data with
      | x :: xs => take unwraps sent c x xs
      | [] => ⟨sent, none, .stop, c⟩

/-- The next of what is left of the page. -/
def nextOf (reply : PageReply α) (unwraps : Bool) (c : CursorAttrs ν α) :
    List α → CallResult ν α
  | x :: xs => take unwraps none c x xs
  | [] => if c.more = some true then fetch k reply unwraps c else ⟨none, none, .stop, c⟩

/-- `__next__` and `__anext__`. -/
def next (reply : PageReply α) (unwraps : Bool) (c : CursorAttrs ν α) : CallResult ν α :=
  if k.isAsync ∧ c.connection = none then ⟨none, none, .error, c⟩
  else
    match c.data, c.fieldNames with
    | none, _ => ⟨none, none, .stop, c⟩
    | some _, some (name :: names) =>
      ⟨none, none, .fieldNames (name :: names), { c with fieldNames := none }⟩
    | some data, _ => nextOf k reply unwraps c data

/-- `close`, also at the end of a `with`. -/
def close (c : CursorAttrs ν α) : CallResult ν α :=
  if c.connection.isSome ∧ c.cursorId.getD 0 ≠ 0 ∧ c.more = some true then
    ⟨some (.resourceClose c.connection c.cursorId), none, .returned, c⟩
  else ⟨none, none, .returned, c⟩

end CursorAttrs

/-! ### Runs -/

inductive CursorCall (ν α : Type)
  | enter (node : Option ν) (reply : PageReply α)
  | next (reply : PageReply α) (unwraps : Bool)
  | close (reply : PageReply α)

/-- A cursor, what it has sent and what was answered, and what was taken off the pages since the
last query that was answered. -/
structure CursorRun (ν α : Type) where
  cursor : CursorAttrs ν α
  log : List (CursorRequest ν × PageReply α)
  given : List α

namespace CursorRun
variable {ν α : Type} (k : CursorClass)

def record (s : CursorRun ν α) (r : CallResult ν α) (reply : PageReply α) : CursorRun ν α where
  cursor := r.cursor
  log := s.log ++ r.sent.toList.map fun request => (request, reply)
  given := (if r.sent.any CursorRequest.isQuery && reply.isPage then [] else s.given) ++
    r.taken.toList

/-- The constructor: that of a synchronous cursor sends the query. -/
def create (node : Option ν) (reply : PageReply α) : Option (CursorRun ν α) :=
  if k.isAsync then some ⟨.empty, [], []⟩
  else
    let r := CursorAttrs.sendQuery k node reply .empty
    match r.outcome with
    | .returned => some (record ⟨.empty, [], []⟩ r reply)
    | _ => none

def step (s : CursorRun ν α) : CursorCall ν α → Option (CursorRun ν α)
  | .enter node reply => some (s.record (s.cursor.enter k node reply) reply)
  | .next reply unwraps => some (s.record (s.cursor.next k reply unwraps) reply)
  | .close reply => some (s.record s.cursor.close reply)

end CursorRun

/-- What a server has opened for the last query that it answered. -/
structure CursorSession (ν α : Type) where
  node : ν
  cursor : ℤ
  more : Bool
  fieldCount : Option ℕ
  received : List α

section Sessions
variable {ν α : Type} (k : CursorClass)

def CursorSession.after (s : Option (CursorSession ν α)) :
    CursorRequest ν × PageReply α → Option (CursorSession ν α)
  | (.query node, .page value) =>
    let count := if k.isFields then CursorAttrs.countOf value else none
    some ⟨node, value.cursor, value.more, count, value.data⟩
  | (.getPage .., .page value) =>
    s.map fun s => { s with more := value.more, received := s.received ++ value.data }
  | _ => s

def cursorSession (log : List (CursorRequest ν × PageReply α)) : Option (CursorSession ν α) :=
  log.foldl (CursorSession.after k) none

/-- What may be sent after `log`. A query comes first, except that `AioSqlFieldsCursor` sends
another while it has no id but zero; what follows names the cursor that the last query opened, on
its connection, and is sent while the last answer said that there is more. Only `AioSqlFieldsCursor`
may ask another connection for a page, under the id zero. -/
def MaySend (log : List (CursorRequest ν × PageReply α)) : CursorRequest ν → Prop
  | .query _ =>
    log = [] ∨ k = .aioSqlFieldsCursor ∧ ∀ s ∈ cursorSession k log, s.cursor = 0
  | .getPage conn cursor fieldCount => ∃ s ∈ cursorSession k log,
    s.more = true ∧ cursor = some s.cursor ∧ (∀ n ∈ s.fieldCount, fieldCount = some n) ∧
      (conn = some s.node ∨ k = .aioSqlFieldsCursor ∧ s.cursor = 0)
  | .resourceClose conn cursor => ∃ s ∈ cursorSession k log,
    s.more = true ∧ cursor = some s.cursor ∧ s.cursor ≠ 0 ∧ conn = some s.node

end Sessions

/-! ### What a call can do -/

section Calls
variable {ν α : Type} {k : CursorClass} {c : CursorAttrs ν α} {r : CallResult ν α}
  {reply : PageReply α}

/-- A call that sends nothing and takes what it takes off the page. -/
structure TakesOnly (c : CursorAttrs ν α) (r : CallResult ν α) : Prop where
  sent : r.sent = none
  connection : r.cursor.connection = c.connection
  cursorId : r.cursor.cursorId = c.cursorId
  more : r.cursor.more = c.more
  fieldCount : r.cursor.fieldCount = c.fieldCount
  data : c.data = r.cursor.data.map (r.taken.toList ++ ·)

theorem takesOnly_same (outcome : CallOutcome α) : TakesOnly c ⟨none, none, outcome, c⟩ :=
  ⟨rfl, rfl, rfl, rfl, rfl, by simp⟩

variable (k c) in
theorem finalizeInit_page (value : PageValue α) :
    (c.finalizeInit k (.page value)).2.connection = c.connection ∧
    (c.finalizeInit k (.page value)).2.cursorId = some value.cursor ∧
    (c.finalizeInit k (.page value)).2.more = some value.more ∧
    (c.finalizeInit k (.page value)).2.data = some value.data ∧
    ∀ n ∈ (if k.isFields then CursorAttrs.countOf value else none),
      (c.finalizeInit k (.page value)).2.fieldCount = some n := by
  rw [CursorAttrs.finalizeInit]
  cases k.isFields with
  | false => exact ⟨rfl, rfl, rfl, rfl, fun n hn => nomatch hn⟩
  | true => cases hcount : CursorAttrs.countOf value with
    | none => exact ⟨rfl, rfl, rfl, rfl, fun n hn => nomatch hn⟩
    | some m => exact ⟨rfl, rfl, rfl, rfl, fun n hn => hn⟩

/-- The query is sent, and the reply sets the attributes. -/
structure SendsQuery (k : CursorClass) (c : CursorAttrs ν α) (reply : PageReply α)
    (r : CallResult ν α) : Prop where
  taken : r.taken = none
  sent : ∃ node, r.sent = some (.query node) ∧
    r.cursor = (CursorAttrs.finalizeInit k { c with connection := some node } reply).2

variable (k c reply)

theorem sendQuery_cases (node : Option ν) :
    TakesOnly c (c.sendQuery k node reply) ∨ SendsQuery k c reply (c.sendQuery k node reply) := by
  cases node with
  | none => exact .inl (takesOnly_same .error)
  | some node => exact .inr ⟨rfl, node, rfl, rfl⟩

/-- A query is sent while there is no connection, or by `AioSqlFieldsCursor` while it has no id but
zero. -/
theorem enter_cases (node : Option ν) :
    TakesOnly c (c.enter k node reply) ∨ SendsQuery k c reply (c.enter k node reply) ∧
      (c.connection = none ∨ k = .aioSqlFieldsCursor ∧ c.cursorId.getD 0 = 0) := by
  have hscan : TakesOnly c (if c.connection.isNone then c.sendQuery k node reply
        else ⟨none, none, .returned, c⟩) ∨
      SendsQuery k c reply (if c.connection.isNone then c.sendQuery k node reply
        else ⟨none, none, .returned, c⟩) ∧ c.connection = none := by
    split_ifs with h
    · exact (sendQuery_cases _ c reply node).imp_right fun hq => ⟨hq, Option.isNone_iff_eq_none.mp h⟩
    · exact .inl (takesOnly_same .returned)
  cases k with
  | aioScanCursor | aioVectorCursor => exact hscan.imp_right fun h => ⟨h.1, .inl h.2⟩
  | aioSqlFieldsCursor =>
    rw [CursorAttrs.enter]
    split_ifs with h
    · exact .inl (takesOnly_same .returned)
    · refine (sendQuery_cases _ c reply node).imp_right fun hq => ⟨hq, ?_⟩
      rw [not_and_or, not_not] at h
      exact h.imp (by simp) fun hid => ⟨rfl, hid⟩
  | _ => exact .inl (takesOnly_same .returned)

/-- The next page is asked for, and is not there, or an item is taken off it if it has one. -/
structure Fetches (c : CursorAttrs ν α) (reply : PageReply α) (r : CallResult ν α) : Prop where
  data : c.data = some []
  more : c.more = some true
  sent : r.sent = some (.getPage c.connection c.cursorId c.fieldCount)
  failed : reply = .failed → r.taken = none ∧ r.cursor = c
  page : ∀ value, reply = .page value → ∃ left, value.data = r.taken.toList ++ left ∧
    r.cursor = { c with data := some left, more := some value.more }

variable {c} in
theorem fetch_cases (hdata : c.data = some []) (hmore : c.more = some true) (unwraps : Bool) :
    TakesOnly c (c.fetch k reply unwraps) ∨ Fetches c reply (c.fetch k reply unwraps) := by
  rw [CursorAttrs.fetch]
  by_cases hcount : k.isFields = true ∧ c.fieldCount = none
  · rw [if_pos hcount]
    exact .inl (takesOnly_same .error)
  rw [if_neg hcount]
  refine .inr ?_
  cases reply with
  | failed => exact ⟨hdata, hmore, rfl, fun _ => ⟨rfl, rfl⟩, fun value h => nomatch h⟩
  | page value =>
    dsimp only
    cases hpage : value.data with
    | nil =>
      refine ⟨hdata, hmore, rfl, (fun h => nomatch h), ?_⟩
      rintro _ ⟨⟩
      exact ⟨[], hpage, rfl⟩
    | cons x xs =>
      refine ⟨hdata, hmore, rfl, (fun h => nomatch h), ?_⟩
      rintro _ ⟨⟩
      exact ⟨xs, hpage, rfl⟩

theorem next_cases (unwraps : Bool) :
    TakesOnly c (c.next k reply unwraps) ∨ Fetches c reply (c.next k reply unwraps) := by
  rw [CursorAttrs.next]
  by_cases hinit : k.isAsync = true ∧ c.connection = none
  · rw [if_pos hinit]
    exact .inl (takesOnly_same .error)
  rw [if_neg hinit]
  cases hdata : c.data with
  | none => exact .inl (takesOnly_same .stop)
  | some data =>
    have hrest : TakesOnly c (c.nextOf k reply unwraps data) ∨
        Fetches c reply (c.nextOf k reply unwraps data) := by
      cases data with
      | cons x xs =>
        exact .inl ⟨rfl, rfl, rfl, rfl, rfl, by simp [CursorAttrs.nextOf, CursorAttrs.take, hdata]⟩
      | nil =>
        rw [CursorAttrs.nextOf]
        split_ifs with hmore
        · exact fetch_cases k reply hdata hmore unwraps
        · exact .inl (takesOnly_same .stop)
    rcases hnames : c.fieldNames with _ | _ | ⟨name, names⟩
    · exact hrest
    · exact hrest
    · exact .inl ⟨rfl, rfl, rfl, rfl, rfl, by simp [hdata]⟩

theorem close_cases : TakesOnly c c.close ∨
    c.close = ⟨some (.resourceClose c.connection c.cursorId), none, .returned, c⟩ ∧
      c.cursorId.getD 0 ≠ 0 ∧ c.more = some true := by
  unfold CursorAttrs.close
  split_ifs with h
  · exact .inr ⟨rfl, h.2⟩
  · exact .inl (takesOnly_same .returned)

end Calls

/-! ### What a run has sent -/

section Invariant
variable {ν α : Type} {k : CursorClass}

/-- The attributes are those of the session: what was taken and what is left is what was
received. -/
structure HoldsSession (k : CursorClass) (s : CursorRun ν α) (ses : CursorSession ν α) : Prop where
  connection : ∃ node, s.cursor.connection = some node ∧
    (node = ses.node ∨ k = .aioSqlFieldsCursor ∧ ses.cursor = 0)
  cursorId : s.cursor.cursorId = some ses.cursor
  more : s.cursor.more = some ses.more
  fieldCount : ∀ n ∈ ses.fieldCount, s.cursor.fieldCount = some n
  data : ∃ left, s.cursor.data = some left ∧ s.given ++ left = ses.received

structure CursorInv (k : CursorClass) (s : CursorRun ν α) : Prop where
  sent : ∀ before request reply after, s.log = before ++ (request, reply) :: after →
    MaySend k before request
  unsent : s.cursor.connection = none → s.log = []
  unanswered : cursorSession k s.log = none →
    s.cursor.cursorId = none ∧ s.cursor.more = none ∧ s.cursor.data = none
  session : ∀ ses ∈ cursorSession k s.log, HoldsSession k s ses

theorem cursorSession_concat (log : List (CursorRequest ν × PageReply α)) (e) :
    cursorSession k (log ++ [e]) = CursorSession.after k (cursorSession k log) e := by
  rw [cursorSession, List.foldl_append]
  rfl

variable {s t : CursorRun ν α} {r : CallResult ν α} {reply : PageReply α}
  {request : CursorRequest ν}

variable (s reply) in
theorem record_log (hsent : r.sent = some request) :
    (s.record r reply).log = s.log ++ [(request, reply)] := by
  rw [CursorRun.record, hsent]
  rfl

variable (s) in
theorem record_given (reply : PageReply α) (h : r.sent.any CursorRequest.isQuery = false ∨ reply.isPage = false) :
    (s.record r reply).given = s.given ++ r.taken.toList := by
  rw [CursorRun.record]
  rcases h with h | h <;> simp [h]

/-- Only the last request is new. -/
theorem CursorInv.sent_concat (h : CursorInv k s)
    (hnew : MaySend k s.log request) :
    ∀ before req rep after, s.log ++ [(request, reply)] = before ++ (req, rep) :: after →
      MaySend k before req := by
  intro before req rep after heq
  rcases List.eq_nil_or_concat after with rfl | ⟨after, last, rfl⟩
  · obtain ⟨rfl, hlast⟩ := List.append_inj' heq rfl
    obtain ⟨rfl, -⟩ := Prod.mk.inj (List.singleton_inj.mp hlast)
    exact hnew
  · rw [List.concat_eq_append, ← List.cons_append, ← List.append_assoc] at heq
    exact h.sent before req rep after (List.append_inj' heq rfl).1

theorem CursorInv.takesOnly (h : CursorInv k s) (hr : TakesOnly s.cursor r) :
    CursorInv k (s.record r reply) := by
  have hlog : (s.record r reply).log = s.log := by
    rw [CursorRun.record, hr.sent]
    exact List.append_nil _
  have hgiven := record_given s reply (.inl (by rw [hr.sent]; rfl))
  refine ⟨hlog ▸ h.sent, ?_, ?_, ?_⟩
  · rw [hlog]
    exact fun hnone => h.unsent (hr.connection ▸ hnone)
  · rw [hlog]
    intro hnone
    obtain ⟨hid, hmore, hdata⟩ := h.unanswered hnone
    refine ⟨hr.cursorId.trans hid, hr.more.trans hmore, ?_⟩
    rw [hr.data, Option.map_eq_none_iff] at hdata
    exact hdata
  · rw [hlog]
    intro ses hses
    obtain ⟨⟨node, hnode, hor⟩, hid, hmore, hcount, left, hdata, hgot⟩ := h.session ses hses
    rw [hr.data, Option.map_eq_some_iff] at hdata
    obtain ⟨rest, hrest, rfl⟩ := hdata
    exact ⟨⟨node, hr.connection.trans hnode, hor⟩, hr.cursorId.trans hid, hr.more.trans hmore,
      fun n hn => hr.fieldCount.trans (hcount n hn),
      rest, hrest, by rw [hgiven, List.append_assoc, hgot]⟩

/-- A query is sent when nothing was sent, or nothing is open but under the id zero. -/
theorem CursorInv.query (h : CursorInv k s) (hr : SendsQuery k s.cursor reply r)
    (hnew : s.cursor.connection = none ∨
      k = .aioSqlFieldsCursor ∧ s.cursor.cursorId.getD 0 = 0) :
    CursorInv k (s.record r reply) := by
  obtain ⟨htaken, node, hsent, hcursor⟩ := hr
  have hzero : ∀ ses ∈ cursorSession k s.log, k = .aioSqlFieldsCursor ∧ ses.cursor = 0 := by
    intro ses hses
    have hold := h.session ses hses
    rcases hnew with hnone | ⟨hk, hid⟩
    · obtain ⟨node, hnode, -⟩ := hold.connection
      cases hnone.symm.trans hnode
    · rw [hold.cursorId] at hid
      exact ⟨hk, hid⟩
  have hmay : MaySend k s.log (.query node) :=
    hnew.imp h.unsent fun hk => ⟨hk.1, fun ses hses => (hzero ses hses).2⟩
  have hlog := record_log s reply hsent
  have hsession : cursorSession k (s.record r reply).log =
      CursorSession.after k (cursorSession k s.log) (.query node, reply) := by
    rw [hlog, cursorSession_concat]
  cases reply with
  | failed =>
    have hcursor : (s.record r .failed).cursor = { s.cursor with connection := some node } :=
      hcursor
    have hgiven := record_given s (r := r) .failed (.inr rfl)
    rw [htaken, Option.toList_none, List.append_nil] at hgiven
    refine ⟨hlog ▸ h.sent_concat hmay, ?_, ?_, ?_⟩
    · rw [hcursor]
      exact fun hnone => nomatch hnone
    · rw [hsession, hcursor]
      exact h.unanswered
    · rw [hsession]
      intro ses hses
      obtain ⟨-, hid, hmore, hcount, left, hdata, hgot⟩ := h.session ses hses
      refine ⟨⟨node, by rw [hcursor], .inr (hzero ses hses)⟩, ?_, ?_, ?_, left, ?_, ?_⟩
      · rw [hcursor, hid]
      · rw [hcursor, hmore]
      · rw [hcursor]
        exact hcount
      · rw [hcursor, hdata]
      · rw [hgiven, hgot]
  | page value =>
    obtain ⟨hconn, hid, hmore, hdata, hcount⟩ :=
      finalizeInit_page k { s.cursor with connection := some node } value
    rw [← hcursor] at hconn hid hmore hdata hcount
    have hgiven : (s.record r (.page value)).given = [] := by
      rw [CursorRun.record, hsent, htaken]
      rfl
    refine ⟨hlog ▸ h.sent_concat hmay, fun hnone => ?_, fun hnone => ?_, ?_⟩
    · cases hnone.symm.trans hconn
    · cases hsession.symm.trans hnone
    · rw [hsession]
      rintro ses ⟨⟩
      exact ⟨⟨node, hconn, .inl rfl⟩, hid, hmore, hcount, value.data, hdata, by rw [hgiven]; rfl⟩

theorem CursorInv.fetch (h : CursorInv k s) (hr : Fetches s.cursor reply r) :
    CursorInv k (s.record r reply) := by
  have hanswered : cursorSession k s.log ≠ none := by
    intro hnone
    cases hr.data.symm.trans (h.unanswered hnone).2.2
  obtain ⟨ses, hses⟩ := Option.ne_none_iff_exists'.mp hanswered
  obtain ⟨⟨node, hnode, hor⟩, hid, hmore, hcount, left, hdata, hgot⟩ := h.session ses hses
  obtain rfl : left = [] := Option.some.inj (hdata.symm.trans hr.data)
  rw [List.append_nil] at hgot
  have hmay : MaySend k s.log
      (.getPage s.cursor.connection s.cursor.cursorId s.cursor.fieldCount) :=
    ⟨ses, hses, Option.some.inj (hmore.symm.trans hr.more), hid, hcount,
      hor.imp_left fun hn => hnode.trans (congrArg some hn)⟩
  have hlog := record_log s reply hr.sent
  have hgiven := record_given s reply (.inl (by rw [hr.sent]; rfl))
  have hsession : cursorSession k (s.record r reply).log = CursorSession.after k (some ses)
      (.getPage s.cursor.connection s.cursor.cursorId s.cursor.fieldCount, reply) := by
    rw [hlog, cursorSession_concat, hses]
  cases reply with
  | failed =>
    obtain ⟨htaken, hcursor⟩ := hr.failed rfl
    have hcursor : (s.record r .failed).cursor = s.cursor := hcursor
    rw [htaken, Option.toList_none, List.append_nil] at hgiven
    refine ⟨hlog ▸ h.sent_concat hmay, fun hnone => ?_, fun hnone => ?_, ?_⟩
    · cases hnone.symm.trans (hcursor ▸ hnode)
    · cases hsession.symm.trans hnone
    · rw [hsession]
      rintro ses ⟨⟩
      rw [← hcursor] at hnode hid hmore hdata hcount
      exact ⟨⟨node, hnode, hor⟩, hid, hmore, hcount, [], hdata,
        by rw [hgiven, List.append_nil, hgot]⟩
  | page value =>
    obtain ⟨left, hvalue, hcursor⟩ := hr.page value rfl
    have hcursor : (s.record r (.page value)).cursor =
      { s.cursor with data := some left, more := some value.more } := hcursor
    refine ⟨hlog ▸ h.sent_concat hmay, fun hnone => ?_, fun hnone => ?_, ?_⟩
    · rw [hcursor] at hnone
      cases hnone.symm.trans hnode
    · cases hsession.symm.trans hnone
    · rw [hsession]
      rintro ses ⟨⟩
      refine ⟨⟨node, by rw [hcursor, hnode], hor⟩, by rw [hcursor, hid], by rw [hcursor], ?_,
        left, by rw [hcursor], by rw [hgiven, List.append_assoc, ← hvalue, hgot]⟩
      rw [hcursor]
      exact hcount

theorem CursorInv.close (h : CursorInv k s) : CursorInv k (s.record s.cursor.close reply) := by
  rcases close_cases s.cursor with hq | ⟨hr, hid, hmore⟩
  · exact h.takesOnly hq
  have hsent := congrArg CallResult.sent hr
  have hlog := record_log s reply hsent
  have hgiven : (s.record s.cursor.close reply).given = s.given := by
    rw [record_given _ _ (.inl (by rw [hsent]; rfl)), hr]
    exact List.append_nil _
  have hcursor : (s.record s.cursor.close reply).cursor = s.cursor := by
    rw [CursorRun.record, hr]
  have hsession : cursorSession k (s.record s.cursor.close reply).log = cursorSession k s.log := by
    rw [hlog, cursorSession_concat]
    rfl
  have hanswered : cursorSession k s.log ≠ none := by
    intro hnone
    cases hmore.symm.trans (h.unanswered hnone).2.1
  obtain ⟨ses, hses⟩ := Option.ne_none_iff_exists'.mp hanswered
  obtain ⟨⟨node, hnode, hor⟩, hid', hmore', -⟩ := h.session ses hses
  rw [hid'] at hid
  have hmay : MaySend k s.log (.resourceClose s.cursor.connection s.cursor.cursorId) :=
    ⟨ses, hses, Option.some.inj (hmore'.symm.trans hmore), hid', hid,
      hnode.trans (congrArg some (hor.resolve_right fun hz => hid hz.2))⟩
  refine ⟨hlog ▸ h.sent_concat hmay, fun hnone => ?_, fun hnone => ?_, ?_⟩
  · rw [hcursor, hnode] at hnone
    cases hnone
  · rw [hsession] at hnone
    rw [hcursor]
    exact h.unanswered hnone
  · rw [hsession]
    intro ses hses
    obtain ⟨hconn, hid, hmore, hcount, hdata⟩ := h.session ses hses
    exact ⟨by rwa [hcursor], by rwa [hcursor], by rwa [hcursor], by rwa [hcursor],
      by rwa [hcursor, hgiven]⟩

theorem CursorInv.step {call : CursorCall ν α} (h : CursorInv k s) (hst : s.step k call = some t) :
    CursorInv k t := by
  cases call with
  | enter node reply =>
    obtain rfl := Option.some.inj hst
    rcases enter_cases k s.cursor reply node with hr | ⟨hr, hnew⟩
    · exact h.takesOnly hr
    · exact h.query hr hnew
  | next reply unwraps =>
    obtain rfl := Option.some.inj hst
    rcases next_cases k s.cursor reply unwraps with hr | hr
    · exact h.takesOnly hr
    · exact h.fetch hr
  | close reply =>
    obtain rfl := Option.some.inj hst
    exact h.close

theorem cursorInv_empty : CursorInv k (⟨.empty, [], []⟩ : CursorRun ν α) where
  sent before request reply after h := by simp at h
  unsent _ := rfl
  unanswered _ := ⟨rfl, rfl, rfl⟩
  session ses hses := by cases hses

theorem CursorInv.create {node : Option ν} (hs : CursorRun.create k node reply = some s) :
    CursorInv k s := by
  rw [CursorRun.create] at hs
  split_ifs at hs with hk
  · exact Option.some.inj hs ▸ cursorInv_empty
  · dsimp only at hs
    split at hs
    · obtain rfl := Option.some.inj hs
      rcases sendQuery_cases k .empty reply node with hr | hr
      · exact cursorInv_empty.takesOnly hr
      · exact cursorInv_empty.query hr (.inl rfl)
    · cases hs

end Invariant

/-- Whatever is called in whatever order and whatever comes back: the requests of a cursor are those
that may be sent; what was taken off the pages and what is left to take is what was received for the
last query, so that nothing is lost or given twice; and closing asks the node to close what is still
open, unless its id is zero. -/
theorem cursor_requests {ν α : Type} (k : CursorClass) {node : Option ν} {reply : PageReply α}
    {calls : List (CursorCall ν α)} {s t : CursorRun ν α}
    (hnew : CursorRun.create k node reply = some s)
    (hrun : run (CursorRun.step k) s calls = some t) :
    (∀ before request rep after, t.log = before ++ (request, rep) :: after →
      MaySend k before request) ∧
    (∀ ses ∈ cursorSession k t.log, ∃ left, t.cursor.data = some left ∧
      t.given ++ left = ses.received) ∧
    (∀ ses ∈ cursorSession k t.log, ses.more = true → ses.cursor ≠ 0 →
      t.cursor.close.sent = some (.resourceClose (some ses.node) (some ses.cursor))) := by
  have h : CursorInv k t :=
    run_invariant (fun _ _ _ hs hstep => hs.step hstep) (.create hnew) hrun
  refine ⟨h.sent, fun ses hses => (h.session ses hses).data, fun ses hses hmore hid => ?_⟩
  obtain ⟨⟨node, hnode, hor⟩, hcursor, hmore', -⟩ := h.session ses hses
  obtain rfl := hor.resolve_right fun hz => hid hz.2
  rw [hmore] at hmore'
  rw [CursorAttrs.close, if_pos (by simp [hnode, hcursor, hmore', hid]), hnode, hcursor]

/-- Rows on two pages, the second of which is asked for twice, and more that are not fetched. -/
def twoPages : List (CursorCall ℕ ℕ) :=
  [.enter (some 1) (.page ⟨7, [10, 20], true, none, some 2⟩), .next .failed true,
    .next .failed true, .next .failed true, .next (.page ⟨0, [30], true, none, none⟩) true,
    .close .failed]

theorem cursor_requests_two_pages : ∃ t : CursorRun ℕ ℕ,
    run (CursorRun.step .aioSqlFieldsCursor) ⟨.empty, [], []⟩ twoPages = some t ∧
    t.given = [10, 20, 30] ∧
    t.log.map Prod.fst = [.query 1, .getPage (some 1) (some 7) (some 2),
      .getPage (some 1) (some 7) (some 2), .resourceClose (some 1) (some 7)] ∧
    ∀ before request reply after, t.log = before ++ (request, reply) :: after →
      MaySend .aioSqlFieldsCursor before request := by
  have hrun : run (CursorRun.step .aioSqlFieldsCursor) ⟨.empty, [], []⟩ twoPages = some _ := rfl
  have hnew : CursorRun.create .aioSqlFieldsCursor none (.failed : PageReply ℕ) =
    some (⟨.empty, [], []⟩ : CursorRun ℕ ℕ) := rfl
  exact ⟨_, hrun, rfl, rfl, (cursor_requests .aioSqlFieldsCursor hnew hrun).1⟩

end PyGridGain
