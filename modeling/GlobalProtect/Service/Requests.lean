import Mathlib.Data.List.Nodup
import Mathlib.Data.List.Perm.Subperm
import GlobalProtect.Api.Messages
import GlobalProtect.Lib.Machine

/-! # Requests on a connection

The loop of an authenticated connection (`WsConnection::accept` with `handle_client_message`) and
the tasks that answer its requests. An answer goes through the bounded command queue of the
connection, on one of three routes: the loop sends it without waiting, a dispatcher task waits for
room, and the worker of a HIP preview sends without waiting and does not look at the result. Events
go through the same queue.

A request that was accepted has a number of its own (`Ticket`), so that a reply can be told from
the reply to another request with the same id. `sources` are the tickets with a reply under way.
They are pending, each once (`Books`); so no request is answered twice. That no pending request
is forgotten holds as long as a preview worker finds room in the queue (`previewHasRoom`); otherwise
the reply is lost (`preview_reply_lost`). What the registry, the dispatcher, the previews of other
connections and the socket decide is in the labels; the results themselves are left open (`ρ`). -/

namespace GlobalProtect.Service.Requests

open Lib Api

def connectionQueue : ℕ := 64

def maxPendingRequests : ℕ := 64

variable {ρ : Type}

/-- An accepted request: its number and the id that the client gave it. -/
structure Ticket where
  serial : ℕ
  id : Uuid
  deriving DecidableEq, Repr

inductive ConnectionCommand (ρ : Type) where
  | send
  | reply (ticket : Ticket) (result : ρ)
  deriving DecidableEq, Repr

def ConnectionCommand.ticket : ConnectionCommand ρ → Option Ticket
  | .send => none
  | .reply ticket _ => some ticket

/-- Requests, by how they are answered. `lifecycle` are those that the dispatcher takes. -/
inductive WsRequest where
  | setTunnelStatisticsEnabled
  | storeEditedHipReportChunk
  | readHipPreviewChunk
  | getLastSubmittedHipReport
  | getHipApprovalStatus
  | previewHipReport
  | lifecycle
  deriving DecidableEq, Repr

inductive ClientMessage where
  | attach
  | resync
  | request (id : Uuid) (request : WsRequest)
  deriving DecidableEq, Repr

/-- Where the loop is. It handles a message before it takes the next, also where it has to wait for
a lock while it does so. -/
inductive Phase where
  | select
  | settingStatistics (ticket : Ticket)
  | startingPreview (ticket : Ticket)
  | ended
  deriving DecidableEq, Repr

def Phase.ticket : Phase → Option Ticket
  | .settingStatistics ticket | .startingPreview ticket => some ticket
  | _ => none

/-- A dispatcher task; with a result, it waits for room in the queue. -/
structure Task (ρ : Type) where
  ticket : Ticket
  result : Option ρ := none
  deriving DecidableEq, Repr

/-- `dropped` says that the receiver of the queue is gone. `accepted` and `sent` are histories: the
ids of the requests that were accepted, and the requests whose reply the loop has sent. -/
structure State (ρ : Type) where
  phase : Phase := .select
  queue : List (ConnectionCommand ρ) := []
  pending : List Ticket := []
  tasks : List (Task ρ) := []
  previews : List Ticket := []
  closeReason : Option CloseReason := none
  dropped : Bool := false
  accepted : List Uuid := []
  sent : List Ticket := []
  deriving DecidableEq

namespace State

variable (s : State ρ)

/-- The tasks that wait come first when room is made. -/
def hasRoom : Bool :=
  !s.dropped && s.queue.length + (s.tasks.filter (·.result.isSome)).length < connectionQueue

/-- `ConnectionControl::send`. -/
def trySend (command : ConnectionCommand ρ) : Option (State ρ) :=
  if s.hasRoom then some { s with queue := s.queue ++ [command] } else none

/-- The loop is left. -/
def leave : State ρ := { s with phase := .ended }

/-- A reply whose failure ends the loop. -/
def replyOrLeave (ticket : Ticket) (result : ρ) : State ρ :=
  (s.trySend (.reply ticket result)).getD s.leave

def remove (id : Uuid) : State ρ := { s with pending := s.pending.filter (·.id ≠ id) }

def close (reason : CloseReason) : State ρ := { s with closeReason := some reason }

/-- A reply whose failure gives the request up and closes the connection. -/
def replyOrClose (ticket : Ticket) (result : ρ) : State ρ :=
  (s.trySend (.reply ticket result)).getD ((s.remove ticket.id).close .internalError)

end State

/-- What `handle_client_message` is told: whether the attachment is current, whether a snapshot
fits, the result of what is answered at once, and whether a preview or a dispatched request is
refused before it is started. -/
structure Answers (ρ : Type) where
  current : Bool
  snapshotFits : Bool
  result : ρ
  refused : Option ρ

namespace State

variable (s : State ρ)

/-- A request that was accepted. -/
def handleRequest (answers : Answers ρ) (ticket : Ticket) : WsRequest → State ρ
  | .setTunnelStatisticsEnabled => { s with phase := .settingStatistics ticket }
  | .storeEditedHipReportChunk => s.replyOrClose ticket answers.result
  | .readHipPreviewChunk | .getLastSubmittedHipReport | .getHipApprovalStatus =>
    s.replyOrLeave ticket answers.result
  | .previewHipReport =>
    match answers.refused with
    | some result => s.replyOrLeave ticket result
    | none => { s with phase := .startingPreview ticket }
  | .lifecycle =>
    match answers.refused with
    | some result => s.replyOrClose ticket result
    | none => { s with tasks := s.tasks ++ [{ ticket }] }

/-- `handle_client_message`, up to where it waits; an error ends the loop. -/
def handleClientMessage (answers : Answers ρ) : ClientMessage → State ρ
  | .attach => s.leave
  | .resync => if answers.snapshotFits then (s.trySend .send).getD s.leave else s.leave
  | .request id request =>
    if maxPendingRequests ≤ s.pending.length ∨ id ∈ s.pending.map (·.id) then s.leave
    else if answers.current = false then s.leave
    else
      let ticket := ⟨s.accepted.length, id⟩
      let s := { s with pending := s.pending ++ [ticket], accepted := s.accepted ++ [id] }
      s.handleRequest answers ticket request

/-- The loop takes a command; `ok` says whether the socket took the message. -/
def receive (ok : Bool) : Option (State ρ) :=
  match s.queue with
  | [] => none
  | .send :: queue => if ok then some { s with queue } else some { s with queue, phase := .ended }
  | .reply ticket _ :: queue =>
    if ticket.id ∈ s.pending.map (·.id) then
      let s := { s.remove ticket.id with queue, sent := s.sent ++ [ticket] }
      some (if ok then s else s.leave)
    else some { s with queue, phase := .ended }

end State

inductive Label (ρ : Type) where
  | frame (message : ClientMessage) (answers : Answers ρ)
  | receive (ok : Bool)
  /-- `set_statistics_enabled` returns. -/
  | statisticsSet (result : ρ)
  /-- `HipPreviews::start` returns. -/
  | previewStarted (started : Bool) (busy : ρ)
  /-- The loop sees that it is to close, or ends on its own: the socket fails or is closed, a frame
  is not authentic, the peer does not answer. -/
  | leave
  | drop
  | event
  | close (reason : CloseReason)
  | taskDone (task : ℕ) (result : ρ)
  | taskSent (task : ℕ)
  | previewDone (preview : ℕ) (result : ρ)

def step (s : State ρ) : Label ρ → Option (State ρ)
  | .frame message answers =>
    if s.phase = .select then some (s.handleClientMessage answers message) else none
  | .receive ok => if s.phase = .select then s.receive ok else none
  | .statisticsSet result =>
    match s.phase with
    | .settingStatistics ticket =>
      some (State.replyOrLeave { s with phase := .select } ticket result)
    | _ => none
  | .previewStarted started busy =>
    match s.phase with
    | .startingPreview ticket =>
      let s := { s with phase := .select }
      if started then some { s with previews := s.previews ++ [ticket] }
      else some (s.replyOrLeave ticket busy)
    | _ => none
  | .leave => if s.phase = .select then some s.leave else none
  | .drop =>
    -- the tasks that wait give up
    if s.phase = .ended then
      some { s with dropped := true, tasks := s.tasks.filter (·.result.isNone) }
    else none
  | .event => some ((s.trySend .send).getD (s.close .internalError))
  | .close reason => some (s.close reason)
  | .taskDone task result =>
    match s.tasks[task]? with
    | some ⟨ticket, none⟩ =>
      let rest := { s with tasks := s.tasks.eraseIdx task }
      -- whether there is room does not depend on a task that still runs
      match rest.trySend (.reply ticket result) with
      | some s' => some s'
      | none =>
        if s.dropped then some rest
        else some { s with tasks := s.tasks.set task ⟨ticket, some result⟩ }
    | _ => none
  | .taskSent task =>
    match s.tasks[task]? with
    | some ⟨ticket, some result⟩ =>
      if s.queue.length < connectionQueue then
        some { s with
          tasks := s.tasks.eraseIdx task
          queue := s.queue ++ [.reply ticket result] }
      else none
    | _ => none
  | .previewDone preview result =>
    match s.previews[preview]? with
    | some ticket =>
      let s := { s with previews := s.previews.eraseIdx preview }
      some ((s.trySend (.reply ticket result)).getD s)
    | none => none

/-- A connection that was established. -/
def machine : Machine (State ρ) (Label ρ) where
  init := {}
  step := step

/-! ### The books -/

variable {s s' : State ρ} {strict : Bool} {hand hand' : List Ticket} {t : Ticket}

/-- The replies in the queue. -/
def State.replies (s : State ρ) : List Ticket := s.queue.filterMap (·.ticket)

/-- The requests with a reply under way. -/
def State.sources (s : State ρ) : List Ticket :=
  s.replies ++ s.tasks.map (·.ticket) ++ s.previews ++ s.phase.ticket.toList

/-- The connection is closed, or has been told to close. -/
def State.Over (s : State ρ) : Prop := s.phase = .ended ∨ s.closeReason.isSome = true

/-- The number of a request gives its id. -/
def State.Accepted (s : State ρ) (t : Ticket) : Prop := s.accepted[t.serial]? = some t.id

/-- The pending requests, those with a reply under way or in hand, and those that were answered.
With `strict`, no pending request is forgotten. -/
structure Books (strict : Bool) (s : State ρ) (hand : List Ticket) : Prop where
  distinct : (s.pending.map (·.id)).Nodup
  bounded : s.pending.length ≤ maxPendingRequests
  numbered : ∀ t ∈ s.pending, s.Accepted t
  sources : hand ++ s.sources ⊆ s.pending
  once : (hand ++ s.sources).Nodup
  sentNumbered : ∀ t ∈ s.sent, s.Accepted t
  sentOnce : s.sent.Nodup
  settled : ∀ t ∈ s.sent, t ∉ s.pending
  dropped : s.dropped = true → s.phase = .ended
  covered : strict = true → s.Over ∨ s.pending ⊆ hand ++ s.sources

theorem Books.move (h : Books strict s hand) (hpending : s'.pending = s.pending)
    (hsent : s'.sent = s.sent) (haccepted : s'.accepted = s.accepted)
    (hsub : (hand' ++ s'.sources).Subperm (hand ++ s.sources))
    (hdropped : s'.dropped = true → s'.phase = .ended)
    (hcovered : strict = true → s'.Over ∨
      (s.Over → s'.Over) ∧ (hand' ++ s'.sources).Perm (hand ++ s.sources)) :
    Books strict s' hand' where
  distinct := by rw [hpending]; exact h.distinct
  bounded := by rw [hpending]; exact h.bounded
  numbered := by unfold State.Accepted; rw [hpending, haccepted]; exact h.numbered
  sources := by rw [hpending]; exact List.Subset.trans hsub.subset h.sources
  once := by
    obtain ⟨l, hperm, hl⟩ := hsub
    exact hperm.nodup_iff.mp (h.once.sublist hl)
  sentNumbered := by unfold State.Accepted; rw [hsent, haccepted]; exact h.sentNumbered
  sentOnce := by rw [hsent]; exact h.sentOnce
  settled := by rw [hsent, hpending]; exact h.settled
  dropped := hdropped
  covered hs := by
    rcases hcovered hs with hover | ⟨hkeep, hperm⟩
    · exact Or.inl hover
    · rcases h.covered hs with hover | hsubset
      · exact Or.inl (hkeep hover)
      · rw [hpending]
        exact Or.inr (List.Subset.trans hsubset hperm.symm.subset)

theorem Books.rearrange (h : Books strict s hand) (hpending : s'.pending = s.pending)
    (hsent : s'.sent = s.sent) (haccepted : s'.accepted = s.accepted)
    (hperm : (hand' ++ s'.sources).Perm (hand ++ s.sources))
    (hdropped : s'.dropped = true → s'.phase = .ended) (hover : s.Over → s'.Over) :
    Books strict s' hand' :=
  h.move hpending hsent haccepted hperm.subperm hdropped fun _ => Or.inr ⟨hover, hperm⟩

theorem sources_trySend {command : ConnectionCommand ρ} (h : s.trySend command = some s') :
    s'.sources.Perm (command.ticket.toList ++ s.sources) := by
  obtain ⟨-, rfl⟩ := Option.ite_some_none_eq_some.mp h
  have hreplies : State.replies { s with queue := s.queue ++ [command] } =
      s.replies ++ command.ticket.toList := by
    rw [State.replies, State.replies, List.filterMap_append]
    cases command <;> rfl
  simp only [State.sources, hreplies, List.append_assoc]
  exact List.perm_append_comm_assoc _ _ _

theorem trySend_eq {command : ConnectionCommand ρ} (h : s.trySend command = some s') :
    s' = { s with queue := s.queue ++ [command] } := by
  obtain ⟨-, h⟩ := Option.ite_none_right_eq_some.mp h
  exact (Option.some.inj h).symm

theorem Books.enqueue (h : Books strict s hand) {command : ConnectionCommand ρ}
    (hhand : hand = command.ticket.toList) (hs : s.trySend command = some s') :
    Books strict s' [] := by
  have hperm := sources_trySend hs
  obtain rfl := trySend_eq hs
  subst hhand
  exact h.rearrange rfl rfl rfl hperm h.dropped id

theorem Books.leave (h : Books strict s hand) : Books strict s.leave [] := by
  have hsub : s.leave.sources.Subperm s.sources := by
    simp only [State.sources, State.leave, State.replies, Phase.ticket, Option.toList_none,
      List.append_nil]
    exact (List.sublist_append_left _ _).subperm
  exact h.move rfl rfl rfl (hsub.trans (List.sublist_append_right _ _).subperm) (fun _ => rfl)
    fun _ => Or.inl (Or.inl rfl)

theorem Books.replyOrLeave (h : Books strict s [t]) (result : ρ) :
    Books strict (s.replyOrLeave t result) [] := by
  unfold State.replyOrLeave
  cases hs : s.trySend (.reply t result) with
  | none => exact h.leave
  | some s' => exact h.enqueue rfl hs

theorem Books.mem_pending (h : Books strict s [t]) : t ∈ s.pending :=
  h.sources (List.mem_append_left _ (List.mem_singleton_self t))

theorem Books.mem_remove (h : Books strict s [t]) (u : Ticket) :
    u ∈ (s.remove t.id).pending ↔ u ∈ s.pending ∧ u ≠ t := by
  simp only [State.remove, List.mem_filter, decide_eq_true_eq]
  refine and_congr_right fun hu => not_congr ⟨fun hid => ?_, fun heq => by rw [heq]⟩
  exact List.inj_on_of_nodup_map h.distinct hu h.mem_pending hid

theorem Books.remove (h : Books strict s [t]) : Books strict (s.remove t.id) [] where
  distinct := h.distinct.sublist (List.filter_sublist.map _)
  bounded := Nat.le_trans (List.length_filter_le _ _) h.bounded
  numbered u hu := h.numbered u ((h.mem_remove u).mp hu).1
  sources u hu := by
    have hmem : u ∈ [t] ++ s.sources := List.mem_append_right _ hu
    refine (h.mem_remove u).mpr ⟨h.sources hmem, ?_⟩
    rintro rfl
    exact (List.nodup_cons.mp h.once).1 hu
  once := (List.nodup_cons.mp h.once).2
  sentNumbered := h.sentNumbered
  sentOnce := h.sentOnce
  settled u hu hmem := h.settled u hu ((h.mem_remove u).mp hmem).1
  dropped := h.dropped
  covered hs := by
    refine (h.covered hs).imp_right fun hsub u hu => ?_
    obtain ⟨hu, hne⟩ := (h.mem_remove u).mp hu
    rcases List.mem_append.mp (hsub hu) with hmem | hmem
    · exact absurd (List.mem_singleton.mp hmem) hne
    · exact hmem

theorem Books.close (h : Books strict s []) (reason : CloseReason) :
    Books strict (s.close reason) [] :=
  h.rearrange rfl rfl rfl (List.Perm.refl _) h.dropped fun _ => Or.inr rfl

theorem Books.replyOrClose (h : Books strict s [t]) (result : ρ) :
    Books strict (s.replyOrClose t result) [] := by
  unfold State.replyOrClose
  cases hs : s.trySend (.reply t result) with
  | none => exact h.remove.close _
  | some s' => exact h.enqueue rfl hs

theorem State.Accepted.lt {u : Ticket} (h : s.Accepted u) : u.serial < s.accepted.length :=
  (List.getElem?_eq_some_iff.mp h).1

theorem State.Accepted.append {u : Ticket} (h : s.Accepted u) (ids : List Uuid) :
    (s.accepted ++ ids)[u.serial]? = some u.id := by
  rw [List.getElem?_append_left h.lt]
  exact h

theorem Books.accept (h : Books strict s []) {id : Uuid}
    (hlen : s.pending.length < maxPendingRequests) (hid : id ∉ s.pending.map (·.id)) :
    Books strict { s with
      pending := s.pending ++ [⟨s.accepted.length, id⟩]
      accepted := s.accepted ++ [id] } [⟨s.accepted.length, id⟩] := by
  have hnew : (⟨s.accepted.length, id⟩ : Ticket) ∉ s.pending := fun hmem =>
    Nat.lt_irrefl _ (h.numbered _ hmem).lt
  constructor
  case distinct =>
    rw [List.map_append, List.map_singleton]
    exact nodup_snoc h.distinct hid
  case bounded =>
    rw [List.length_append, List.length_singleton]
    omega
  case numbered =>
    exact forall_mem_snoc (fun u hu => (h.numbered u hu).append _) List.getElem?_concat_length
  case sources =>
    intro u hu
    rcases List.mem_cons.mp hu with rfl | hu
    · exact List.mem_append_right _ (List.mem_singleton_self _)
    · exact List.mem_append_left _ (h.sources hu)
  case once => exact List.nodup_cons.mpr ⟨fun hmem => hnew (h.sources hmem), h.once⟩
  case sentNumbered => exact fun u hu => (h.sentNumbered u hu).append _
  case sentOnce => exact h.sentOnce
  case settled =>
    intro u hu hmem
    rcases List.mem_append.mp hmem with hmem | hmem
    · exact h.settled u hu hmem
    · have hlt := (h.sentNumbered u hu).lt
      rw [List.mem_singleton.mp hmem] at hlt
      exact Nat.lt_irrefl _ hlt
  case dropped => exact h.dropped
  case covered =>
    intro hs
    exact (h.covered hs).imp_right fun hsub =>
      forall_mem_snoc (fun u hu => List.mem_cons_of_mem _ (hsub hu)) List.mem_cons_self

/-! ### Steps -/

theorem count_sources (s : State ρ) (a : Ticket) :
    s.sources.count a = s.replies.count a + (s.tasks.map (·.ticket)).count a +
      s.previews.count a + s.phase.ticket.toList.count a := by
  rw [State.sources, List.count_append, List.count_append, List.count_append]

theorem Books.hold (h : Books strict s [t]) {phase : Phase} (hphase : s.phase = .select)
    (ht : phase.ticket = some t) : Books strict { s with phase } [] := by
  refine h.rearrange rfl rfl rfl (List.perm_iff_count.mpr fun a => ?_) (fun hd => ?_)
    fun hover => ?_
  · have hselect : s.phase.ticket = none := by rw [hphase]; rfl
    rw [List.nil_append, List.count_append, count_sources, count_sources, ht, hselect]
    simp only [State.replies, Option.toList_some, Option.toList_none, List.count_nil]
    omega
  · have hended := h.dropped hd
    rw [hphase] at hended
    cases hended
  · rcases hover with hended | hclose
    · rw [hphase] at hended; cases hended
    · exact Or.inr hclose

theorem Books.resume (h : Books strict s []) (ht : s.phase.ticket = some t) :
    Books strict { s with phase := .select } [t] := by
  have hlive : s.phase ≠ .ended := by
    intro hended
    rw [hended] at ht
    cases ht
  refine h.rearrange rfl rfl rfl (List.perm_iff_count.mpr fun a => ?_)
    (fun hd => absurd (h.dropped hd) hlive) fun hover => ?_
  · rw [List.nil_append, List.count_append, count_sources, count_sources, ht]
    simp only [State.replies, Phase.ticket, Option.toList_some, Option.toList_none, List.count_nil]
    omega
  · rcases hover with hended | hclose
    · exact absurd hended hlive
    · exact Or.inr hclose

theorem Books.spawn (h : Books strict s [t]) :
    Books strict { s with tasks := s.tasks ++ [{ ticket := t }] } [] := by
  refine h.rearrange rfl rfl rfl (List.perm_iff_count.mpr fun a => ?_) h.dropped id
  rw [List.nil_append, List.count_append, count_sources, count_sources]
  simp only [State.replies, List.map_append, List.map_singleton, List.count_append]
  omega

theorem Books.startPreview (h : Books strict s [t]) :
    Books strict { s with previews := s.previews ++ [t] } [] := by
  refine h.rearrange rfl rfl rfl (List.perm_iff_count.mpr fun a => ?_) h.dropped id
  rw [List.nil_append, List.count_append, count_sources, count_sources]
  simp only [State.replies, List.count_append]
  omega

theorem count_eraseIdx {l : List Ticket} {i : ℕ} (h : l[i]? = some t) (a : Ticket) :
    l.count a = [t].count a + (l.eraseIdx i).count a := by
  obtain ⟨hi, rfl⟩ := List.getElem?_eq_some_iff.mp h
  have hperm : l.Perm (l[i] :: l.eraseIdx i) := (List.getElem_cons_eraseIdx_perm hi).symm
  rw [hperm.count_eq, ← List.singleton_append, List.count_append]

theorem Books.takeTask (h : Books strict s []) {i : ℕ} {result : Option ρ}
    (hi : s.tasks[i]? = some ⟨t, result⟩) :
    Books strict { s with tasks := s.tasks.eraseIdx i } [t] := by
  refine h.rearrange rfl rfl rfl (List.perm_iff_count.mpr fun a => ?_) h.dropped id
  have hticket : (s.tasks.map (·.ticket))[i]? = some t := by rw [List.getElem?_map, hi]; rfl
  have hcount := count_eraseIdx hticket a
  rw [List.eraseIdx_map] at hcount
  rw [List.nil_append, List.count_append, count_sources, count_sources]
  simp only [State.replies]
  omega

theorem Books.takePreview (h : Books strict s []) {i : ℕ} (hi : s.previews[i]? = some t) :
    Books strict { s with previews := s.previews.eraseIdx i } [t] := by
  refine h.rearrange rfl rfl rfl (List.perm_iff_count.mpr fun a => ?_) h.dropped id
  have hcount := count_eraseIdx hi a
  rw [List.nil_append, List.count_append, count_sources, count_sources]
  simp only [State.replies]
  omega

theorem Books.takeReply (h : Books strict s []) {result : ρ} {queue : List (ConnectionCommand ρ)}
    (hq : s.queue = .reply t result :: queue) : Books strict { s with queue } [t] := by
  refine h.rearrange rfl rfl rfl (List.perm_iff_count.mpr fun a => ?_) h.dropped id
  have hreplies : s.replies = [t] ++ queue.filterMap (·.ticket) := by rw [State.replies, hq]; rfl
  rw [List.nil_append, List.count_append, count_sources, count_sources, hreplies, List.count_append]
  simp only [State.replies]
  omega

theorem Books.takeMessage (h : Books strict s []) {queue : List (ConnectionCommand ρ)}
    (hq : s.queue = .send :: queue) : Books strict { s with queue } [] := by
  refine h.rearrange rfl rfl rfl (List.perm_iff_count.mpr fun a => ?_) h.dropped id
  have hreplies : s.replies = queue.filterMap (·.ticket) := by rw [State.replies, hq]; rfl
  rw [List.nil_append, List.nil_append, count_sources, count_sources, hreplies]
  rfl

/-- What is in hand may be lost when the connection is over, or nobody counts. -/
theorem Books.lose (h : Books strict s hand) (hover : strict = true → s.Over) :
    Books strict s [] :=
  h.move rfl rfl rfl (List.sublist_append_right _ _).subperm h.dropped fun hs => Or.inl (hover hs)

theorem Books.answer (h : Books strict s [t]) :
    Books strict { s.remove t.id with sent := s.sent ++ [t] } [] := by
  have hr := h.remove
  have hnot : t ∉ s.sent := fun hmem => h.settled t hmem h.mem_pending
  constructor
  case sentNumbered => exact forall_mem_snoc h.sentNumbered (h.numbered t h.mem_pending)
  case sentOnce => exact nodup_snoc h.sentOnce hnot
  case settled => exact forall_mem_snoc hr.settled fun hmem => ((h.mem_remove t).mp hmem).2 rfl
  case distinct => exact hr.distinct
  case bounded => exact hr.bounded
  case numbered => exact hr.numbered
  case sources => exact hr.sources
  case once => exact hr.once
  case dropped => exact hr.dropped
  case covered => exact hr.covered

theorem Books.handleRequest (h : Books strict s [t]) (hphase : s.phase = .select)
    (answers : Answers ρ) (request : WsRequest) :
    Books strict (s.handleRequest answers t request) [] := by
  cases request with
  | setTunnelStatisticsEnabled => exact h.hold hphase rfl
  | storeEditedHipReportChunk => exact h.replyOrClose _
  | readHipPreviewChunk => exact h.replyOrLeave _
  | getLastSubmittedHipReport => exact h.replyOrLeave _
  | getHipApprovalStatus => exact h.replyOrLeave _
  | previewHipReport =>
    simp only [State.handleRequest]
    cases answers.refused with
    | some result => exact h.replyOrLeave result
    | none => exact h.hold hphase rfl
  | lifecycle =>
    simp only [State.handleRequest]
    cases answers.refused with
    | some result => exact h.replyOrClose result
    | none => exact h.spawn

theorem Books.handleClientMessage (h : Books strict s []) (hphase : s.phase = .select)
    (answers : Answers ρ) (message : ClientMessage) :
    Books strict (s.handleClientMessage answers message) [] := by
  cases message with
  | attach => exact h.leave
  | resync =>
    simp only [State.handleClientMessage]
    split_ifs
    · cases hs : s.trySend .send with
      | none => exact h.leave
      | some s' => exact h.enqueue rfl hs
    · exact h.leave
  | request id request =>
    simp only [State.handleClientMessage]
    split_ifs with hrefused hcurrent
    · exact h.leave
    · exact h.leave
    · rw [not_or, Nat.not_le] at hrefused
      exact (h.accept hrefused.1 hrefused.2).handleRequest hphase answers request

theorem Books.receive (h : Books strict s []) {ok : Bool} (hs : s.receive ok = some s') :
    Books strict s' [] := by
  unfold State.receive at hs
  split at hs
  · cases hs
  · next queue hq =>
    have hrest := h.takeMessage hq
    split_ifs at hs <;> cases hs
    · exact hrest
    · exact hrest.leave
  · next ticket result queue hq =>
    have hrest := h.takeReply hq
    by_cases hmem : ticket.id ∈ s.pending.map (·.id)
    · rw [if_pos hmem] at hs
      cases hs
      have hanswer := hrest.answer
      cases ok
      · exact hanswer.leave
      · exact hanswer
    · rw [if_neg hmem] at hs
      cases hs
      exact hrest.leave

/-- The worker of a preview finds room for its reply, or the connection is over. -/
def previewHasRoom (s : State ρ) : Label ρ → Bool
  | .previewDone _ _ => s.hasRoom || s.phase = .ended || s.closeReason.isSome
  | _ => true

theorem Books.taskDone (h : Books strict s []) {i : ℕ} {result : ρ}
    (hs : step s (.taskDone i result) = some s') : Books strict s' [] := by
  simp only [step] at hs
  split at hs
  · next ticket hi =>
    have hrest := h.takeTask hi
    split at hs
    · next sent hsent =>
      cases hs
      exact hrest.enqueue rfl hsent
    · split_ifs at hs with hd <;> cases hs
      · exact hrest.lose fun _ => Or.inl (h.dropped hd)
      · -- the task waits, with the same ticket
        refine h.rearrange rfl rfl rfl (List.perm_iff_count.mpr fun a => ?_) h.dropped id
        have hsame : (s.tasks.set i ⟨ticket, some result⟩).map (·.ticket) =
            s.tasks.map (·.ticket) := by
          rw [List.map_set]
          refine List.ext_getElem? fun j => ?_
          rw [List.getElem?_set]
          split_ifs with hij hlen
          · rw [← hij, List.getElem?_map, hi]; rfl
          · rw [← hij, List.getElem?_eq_none (Nat.le_of_not_lt hlen)]
          · rfl
        rw [List.nil_append, List.nil_append, count_sources, count_sources, hsame]
        rfl
  · cases hs

/-- **One step keeps the books**, strictly if a preview finds room. -/
theorem Books.step (h : Books strict s []) {l : Label ρ}
    (hroom : strict = true → previewHasRoom s l = true) (hs : step s l = some s') :
    Books strict s' [] := by
  cases l with
  | frame message answers =>
    obtain ⟨hphase, rfl⟩ := Option.ite_some_none_eq_some.mp hs
    exact h.handleClientMessage hphase answers message
  | receive ok =>
    obtain ⟨-, hs⟩ := Option.ite_none_right_eq_some.mp hs
    exact h.receive hs
  | statisticsSet result =>
    simp only [Requests.step] at hs
    split at hs
    · next ticket hphase =>
      cases hs
      exact (h.resume (by rw [hphase]; rfl)).replyOrLeave result
    · cases hs
  | previewStarted started busy =>
    simp only [Requests.step] at hs
    split at hs
    · next ticket hphase =>
      have hresumed := h.resume (t := ticket) (by rw [hphase]; rfl)
      split_ifs at hs <;> cases hs
      · exact hresumed.startPreview
      · exact hresumed.replyOrLeave busy
    · cases hs
  | leave =>
    obtain ⟨-, rfl⟩ := Option.ite_some_none_eq_some.mp hs
    exact h.leave
  | drop =>
    obtain ⟨hended, rfl⟩ := Option.ite_some_none_eq_some.mp hs
    refine h.move rfl rfl rfl ?_ (fun _ => hended) fun _ => Or.inl (Or.inl hended)
    have htasks : ((s.tasks.filter (·.result.isNone)).map (·.ticket)).Sublist
        (s.tasks.map (·.ticket)) := List.filter_sublist.map _
    exact ((((List.Sublist.refl _).append htasks).append (List.Sublist.refl _)).append
      (List.Sublist.refl _)).subperm
  | event =>
    cases hs
    cases hsend : s.trySend .send with
    | none => exact h.close _
    | some s' => exact h.enqueue rfl hsend
  | close reason =>
    cases hs
    exact h.close reason
  | taskDone i result => exact h.taskDone hs
  | taskSent i =>
    simp only [Requests.step] at hs
    split at hs
    · next ticket result hi =>
      obtain ⟨-, rfl⟩ := Option.ite_some_none_eq_some.mp hs
      have hrest := h.takeTask hi
      refine hrest.rearrange rfl rfl rfl (List.perm_iff_count.mpr fun a => ?_) h.dropped id
      rw [List.nil_append, List.count_append, count_sources, count_sources]
      simp only [State.replies, List.filterMap_append, List.count_append]
      have hone : List.count a (List.filterMap (·.ticket) [ConnectionCommand.reply ticket result]) =
          List.count a [ticket] := rfl
      omega
    · cases hs
  | previewDone i result =>
    simp only [Requests.step] at hs
    split at hs
    · next ticket hi =>
      cases hs
      have hrest := h.takePreview hi
      cases hsend : State.trySend { s with previews := s.previews.eraseIdx i }
          (.reply ticket result) with
      | some s' => exact hrest.enqueue rfl hsend
      | none =>
        -- the reply is lost; with room it would have been sent
        refine hrest.lose fun hstrict => ?_
        have hok := hroom hstrict
        simp only [previewHasRoom, Bool.or_eq_true, decide_eq_true_eq] at hok
        rcases hok with (hfull | hended) | hclose
        · have hsome : (State.trySend { s with previews := s.previews.eraseIdx i }
              (.reply ticket result)) ≠ none := by
            have : State.hasRoom { s with previews := s.previews.eraseIdx i } = true := hfull
            simp [State.trySend, this]
          exact absurd hsend hsome
        · exact Or.inl hended
        · exact Or.inr hclose
    · cases hs

theorem Books.init : Books strict ({} : State ρ) [] where
  distinct := List.nodup_nil
  bounded := Nat.zero_le _
  numbered := fun _ h => absurd h List.not_mem_nil
  sources := fun _ h => absurd h List.not_mem_nil
  once := List.nodup_nil
  sentNumbered := fun _ h => absurd h List.not_mem_nil
  sentOnce := List.nodup_nil
  settled := fun _ h => absurd h List.not_mem_nil
  dropped := fun h => absurd h Bool.false_ne_true
  covered := fun _ => Or.inr fun _ h => absurd h List.not_mem_nil

theorem reachable_books (h : (machine (ρ := ρ)).Reachable s) : Books false s [] :=
  h.invariant (P := fun s => Books false s []) Books.init fun _ _ _ _ hb hs =>
    hb.step (fun hstrict => absurd hstrict Bool.false_ne_true) hs

theorem reachable_strict (h : ((machine (ρ := ρ)).guard previewHasRoom).Reachable s) :
    Books true s [] := by
  refine Machine.Reachable.invariant (M := machine.guard previewHasRoom)
    (P := fun s => Books true s []) Books.init (fun m l m' _ hb hs => ?_) h
  obtain ⟨hroom, hs⟩ := Machine.guard_step.mp hs
  exact hb.step (fun _ => hroom) hs

theorem mem_sources : t ∈ s.sources ↔ (∃ result, .reply t result ∈ s.queue) ∨
    (∃ task ∈ s.tasks, task.ticket = t) ∨ t ∈ s.previews ∨ s.phase.ticket = some t := by
  have hreply : t ∈ s.replies ↔ ∃ result, ConnectionCommand.reply t result ∈ s.queue := by
    rw [State.replies, List.mem_filterMap]
    constructor
    · rintro ⟨command, hmem, hticket⟩
      cases command with
      | send => cases hticket
      | reply ticket result =>
        cases hticket
        exact ⟨result, hmem⟩
    · rintro ⟨result, hmem⟩
      exact ⟨_, hmem, rfl⟩
  rw [State.sources, List.mem_append, List.mem_append, List.mem_append, hreply, List.mem_map,
    Option.mem_toList, or_assoc, or_assoc]

/-- **No request is answered twice or forgotten**: in every state the pending requests have distinct
ids and are not too many, and each accepted request had at most one reply. If the workers of
previews find room in the queue, a pending request has its reply in the queue, or a task or a
preview that will send it, or is the one the loop handles just now, as long as the connection is
not over. -/
theorem requests_answered_once :
    (∀ s, (machine (ρ := ρ)).Reachable s →
      (s.pending.map (·.id)).Nodup ∧ s.pending.length ≤ maxPendingRequests ∧
      (s.sent.map (·.serial)).Nodup ∧ ∀ t ∈ s.sent, s.Accepted t) ∧
    ∀ s, ((machine (ρ := ρ)).guard previewHasRoom).Reachable s → ∀ t ∈ s.pending,
      (∃ result, .reply t result ∈ s.queue) ∨ (∃ task ∈ s.tasks, task.ticket = t) ∨
      t ∈ s.previews ∨ s.phase.ticket = some t ∨ s.Over := by
  constructor
  · intro s h
    have hb := reachable_books h
    refine ⟨hb.distinct, hb.bounded, ?_, hb.sentNumbered⟩
    -- the number of a request determines it
    refine List.Nodup.map_on (fun t ht u hu hserial => ?_) hb.sentOnce
    have hid : some t.id = some u.id :=
      (hb.sentNumbered t ht).symm.trans (hserial ▸ hb.sentNumbered u hu)
    cases t
    cases u
    exact congrArg₂ Ticket.mk hserial (Option.some.inj hid)
  · intro s h t ht
    rcases (reachable_strict h).covered rfl with hover | hsub
    · exact Or.inr (Or.inr (Or.inr (Or.inr hover)))
    · rcases mem_sources.mp (hsub ht) with h | h | h | h
      · exact Or.inl h
      · exact Or.inr (Or.inl h)
      · exact Or.inr (Or.inr (Or.inl h))
      · exact Or.inr (Or.inr (Or.inr (Or.inl h)))

/-- The worker of a preview ends while events fill the queue: the request stays pending on an open
connection, and nothing will answer it. -/
theorem preview_reply_lost : ∃ s : State Unit, machine.Reachable s ∧ s.pending = [⟨0, 7⟩] ∧
    s.queue = [] ∧ s.tasks = [] ∧ s.previews = [] ∧ s.phase = .select ∧ s.closeReason = none ∧
    s.sent = [] := by
  obtain ⟨s, hs, hp⟩ := Machine.Reachable.of_run (M := machine (ρ := Unit))
    (.frame (.request 7 .previewHipReport) ⟨true, true, (), none⟩ :: .previewStarted true () ::
      (List.replicate connectionQueue .event).append
        (.previewDone 0 () :: List.replicate connectionQueue (.receive true)))
    (p := fun s => decide (s.pending = [⟨0, 7⟩] ∧ s.queue = [] ∧ s.tasks = [] ∧ s.previews = [] ∧
      s.phase = .select ∧ s.closeReason = none ∧ s.sent = [])) (by decide +kernel)
  exact ⟨s, hs, of_decide_eq_true hp⟩

/-- One request is answered, and the next one waits for its preview. -/
def previewRun : List (Label Unit) :=
  [.frame (.request 7 .lifecycle) ⟨true, true, (), none⟩, .taskDone 0 (), .receive true,
    .frame (.request 9 .previewHipReport) ⟨true, true, (), none⟩, .previewStarted true ()]

theorem requests_answered_once_preview :
    (∃ s : State Unit, machine.Reachable s ∧ s.sent = [⟨0, 7⟩] ∧ (s.sent.map (·.serial)).Nodup) ∧
    ∃ s : State Unit, (machine.guard previewHasRoom).Reachable s ∧ s.pending = [⟨1, 9⟩] ∧
      ((∃ result, .reply ⟨1, 9⟩ result ∈ s.queue) ∨ (∃ task ∈ s.tasks, task.ticket = ⟨1, 9⟩) ∨
        ⟨1, 9⟩ ∈ s.previews ∨ s.phase.ticket = some ⟨1, 9⟩ ∨ s.Over) := by
  constructor
  · obtain ⟨s, hs, hp⟩ := Machine.Reachable.of_run (M := machine (ρ := Unit)) previewRun
      (p := fun s => decide (s.sent = [⟨0, 7⟩])) (by decide +kernel)
    exact ⟨s, hs, of_decide_eq_true hp, (requests_answered_once.1 s hs).2.2.1⟩
  · obtain ⟨s, hs, hp⟩ := Machine.Reachable.of_run (M := machine.guard previewHasRoom) previewRun
      (p := fun s => decide (s.pending = [⟨1, 9⟩])) (by decide +kernel)
    have hpending : s.pending = [⟨1, 9⟩] := of_decide_eq_true hp
    refine ⟨s, hs, hpending, requests_answered_once.2 s hs ⟨1, 9⟩ ?_⟩
    rw [hpending]
    exact List.mem_singleton_self _

end GlobalProtect.Service.Requests
