import GlobalProtect.Lib.Broadcast
import GlobalProtect.Lib.Machine

/-! # The status lines of a client

The model of `accept_loop` and `serve_client` in `daemon/socket.rs` for one client, together with
what the daemon publishes. A snapshot is put in a watch channel, which holds the newest one, and
then in a broadcast channel, which has a bound; other messages are only broadcast. A client is
subscribed to the broadcast when it is accepted. It is greeted with the snapshot of the watch, gets
the broadcast messages one by one, gets the newest snapshot instead when it has fallen behind, and
gets replies, among them snapshots it asked for, from a queue of its own.

Snapshots are known by their number in the order of publication; `written` is a history, the numbers
of the snapshots the client was sent. A snapshot that does not come from the broadcast is newer than
the ones that wait there, so it comes too early (`older_status_follows`). If a snapshot is written
only while no older one waits elsewhere (`ahead`), the numbers never go down (`statuses_ordered`):
each of the two queues is in order and ahead of what was written (`Pending`). -/

namespace GlobalProtect.Widget.StatusLines

open Lib

def broadcastCapacity : ℕ := 64

def replyCapacity : ℕ := 16

inductive Line where
  | status (number : ℕ)
  | other
  deriving DecidableEq, Repr

def Line.number? : Line → Option ℕ
  | .status number => some number
  | .other => none

structure Client where
  receiver : Receiver Line := {}
  replies : List Line := []
  greeted : Bool := false
  written : List ℕ := []
  deriving DecidableEq

/-- `snapshot` is the number of the snapshot in the watch; `publishing` says that it is not in the
broadcast yet. -/
structure State where
  snapshot : ℕ := 0
  publishing : Bool := false
  client : Option Client := none
  deriving DecidableEq

inductive Label where
  /-- `publish_snapshot`: the watch, then the broadcast. -/
  | publish
  | broadcast
  /-- `publish_msg`. -/
  | message
  | accept
  /-- The daemon answers `GetStatus`, or acknowledges a command. -/
  | getStatus
  | ack
  /-- The client's task reads the watch and greets the client. -/
  | greet
  | recv
  /-- It takes a reply from its queue. -/
  | reply
  deriving DecidableEq, Repr

namespace Client

variable (c : Client)

/-- `write_line`. -/
def write (line : Line) : Client := { c with written := c.written ++ line.number?.toList }

/-- The snapshots that wait in the broadcast. -/
def waiting : List ℕ := (c.receiver.unread broadcastCapacity).filterMap (·.number?)

/-- The snapshots that wait among the replies. -/
def asked : List ℕ := c.replies.filterMap (·.number?)

def broadcast (line : Line) : Client := { c with receiver := c.receiver.send line }

/-- The branch of the broadcast; `snapshot` is what the watch holds. -/
def recv (snapshot : ℕ) : Option Client :=
  match c.receiver.recv broadcastCapacity with
  | some (.message line, receiver) => some (write { c with receiver } line)
  | some (.lagged _, receiver) => some (write { c with receiver } (.status snapshot))
  | none => none

def reply : Option Client :=
  match c.replies with
  | line :: replies => some (write { c with replies } line)
  | [] => none

end Client

/-- A reply is put on the client's queue; the daemon waits for room. -/
def State.answer (s : State) (line : Line) : Option State :=
  match s.client with
  | some c =>
    if c.greeted && c.replies.length < replyCapacity && !s.publishing then
      some { s with client := some { c with replies := c.replies ++ [line] } }
    else none
  | none => none

def step (s : State) : Label → Option State
  | .publish =>
    if s.publishing then none else some { s with snapshot := s.snapshot + 1, publishing := true }
  | .broadcast =>
    if s.publishing then
      some { s with publishing := false, client := s.client.map (·.broadcast (.status s.snapshot)) }
    else none
  | .message =>
    if s.publishing then none else some { s with client := s.client.map (·.broadcast .other) }
  | .accept => if s.client.isSome then none else some { s with client := some {} }
  | .getStatus => s.answer (.status s.snapshot)
  | .ack => s.answer .other
  | .greet =>
    match s.client with
    | some c =>
      if c.greeted then none
      else
        let c := { c with greeted := true }
        some { s with client := some (c.write (.status s.snapshot)) }
    | none => none
  | .recv =>
    match s.client with
    | some c =>
      if c.greeted then (c.recv s.snapshot).map fun c' => { s with client := some c' } else none
    | none => none
  | .reply =>
    match s.client with
    | some c => if c.greeted then c.reply.map fun c' => { s with client := some c' } else none
    | none => none

/-- The snapshot of the start is number zero. -/
def machine : Machine State Label where
  init := {}
  step := step

/-! ### The order of the statuses -/

/-- Snapshots that wait to be written, when the watch holds `snapshot`. -/
structure Pending (snapshot : ℕ) (written queue : List ℕ) : Prop where
  sorted : queue.Pairwise (· ≤ ·)
  le : ∀ m ∈ queue, m ≤ snapshot
  behind : ∀ n ∈ written, ∀ m ∈ queue, n ≤ m

section

variable {snapshot : ℕ} {written queue queue' : List ℕ} {n : Option ℕ}

theorem Pending.nil : Pending snapshot written [] where
  sorted := List.Pairwise.nil
  le := fun _ h => absurd h List.not_mem_nil
  behind := fun _ _ _ h => absurd h List.not_mem_nil

theorem Pending.sublist (h : Pending snapshot written queue) (hsub : queue'.Sublist queue) :
    Pending snapshot written queue' :=
  ⟨h.sorted.sublist hsub, fun m hm => h.le m (hsub.subset hm),
    fun n hn m hm => h.behind n hn m (hsub.subset hm)⟩

theorem Pending.write (h : Pending snapshot written queue)
    (hn : ∀ k ∈ n, ∀ m ∈ queue, k ≤ m) : Pending snapshot (written ++ n.toList) queue := by
  refine ⟨h.sorted, h.le, fun k hk m hm => ?_⟩
  rcases List.mem_append.mp hk with hk | hk
  · exact h.behind k hk m hm
  · exact hn k (Option.mem_toList.mp hk) m hm

/-- The newest snapshot, or none, is added. -/
theorem Pending.push (h : Pending snapshot written queue) (hwritten : ∀ k ∈ written, k ≤ snapshot)
    (hn : ∀ k ∈ n, k = snapshot) : Pending snapshot written (queue ++ n.toList) := by
  have hnew : ∀ k ∈ n.toList, k = snapshot := fun k hk => hn k (Option.mem_toList.mp hk)
  refine ⟨List.pairwise_append.mpr ⟨h.sorted, ?_, fun m hm k hk => ?_⟩, fun m hm => ?_,
    fun k hk m hm => ?_⟩
  · cases n <;> simp
  · rw [hnew k hk]
    exact h.le m hm
  · rcases List.mem_append.mp hm with hm | hm
    · exact h.le m hm
    · exact Nat.le_of_eq (hnew m hm)
  · rcases List.mem_append.mp hm with hm | hm
    · exact h.behind k hk m hm
    · rw [hnew m hm]
      exact hwritten k hk

theorem Pending.published (h : Pending snapshot written queue) :
    Pending (snapshot + 1) written queue :=
  ⟨h.sorted, fun m hm => Nat.le_succ_of_le (h.le m hm), h.behind⟩

end

/-- What a client was sent and what it can still get, when the watch holds `snapshot`. -/
structure Ordered (snapshot : ℕ) (c : Client) : Prop where
  written : c.written.Pairwise (· ≤ ·)
  writtenLe : ∀ n ∈ c.written, n ≤ snapshot
  waiting : Pending snapshot c.written c.waiting
  asked : Pending snapshot c.written c.asked
  /-- Nothing is answered before the greeting. -/
  ungreeted : c.greeted = false → c.replies = []

variable {snapshot : ℕ} {c c' : Client} {line : Line}

theorem Ordered.write (h : Ordered snapshot c) (hle : ∀ n ∈ line.number?, n ≤ snapshot)
    (hwritten : ∀ n ∈ line.number?, ∀ m ∈ c.written, m ≤ n)
    (hwaiting : ∀ n ∈ line.number?, ∀ m ∈ c.waiting, n ≤ m)
    (hasked : ∀ n ∈ line.number?, ∀ m ∈ c.asked, n ≤ m) : Ordered snapshot (c.write line) where
  written := by
    refine List.pairwise_append.mpr ⟨h.written, ?_, fun m hm n hn => ?_⟩
    · cases line.number? <;> simp
    · exact hwritten n (Option.mem_toList.mp hn) m hm
  writtenLe n hn := by
    rcases List.mem_append.mp hn with hn | hn
    · exact h.writtenLe n hn
    · exact hle n (Option.mem_toList.mp hn)
  waiting := h.waiting.write hwaiting
  asked := h.asked.write hasked
  ungreeted := h.ungreeted

/-- The newest snapshot is written, and no older one waits. -/
theorem Ordered.resync (h : Ordered snapshot c) (hwaiting : ∀ m ∈ c.waiting, snapshot ≤ m)
    (hasked : ∀ m ∈ c.asked, snapshot ≤ m) : Ordered snapshot (c.write (.status snapshot)) := by
  refine h.write ?_ ?_ ?_ ?_ <;> rintro n ⟨⟩
  · exact Nat.le_refl _
  · exact h.writtenLe
  · exact hwaiting
  · exact hasked

theorem waiting_broadcast (c : Client) (line : Line) :
    (c.broadcast line).waiting.Sublist (c.waiting ++ line.number?.toList) := by
  have hsub := (Receiver.unread_send broadcastCapacity c.receiver line).filterMap Line.number?
  rw [List.filterMap_append] at hsub
  cases line <;> exact hsub

theorem Ordered.broadcast (h : Ordered snapshot c) (hnew : ∀ n ∈ line.number?, n = snapshot) :
    Ordered snapshot (c.broadcast line) :=
  ⟨h.written, h.writtenLe,
    (h.waiting.push h.writtenLe hnew).sublist (waiting_broadcast c line), h.asked, h.ungreeted⟩

theorem Ordered.answer (h : Ordered snapshot c) (hgreeted : c.greeted = true)
    (hnew : ∀ n ∈ line.number?, n = snapshot) :
    Ordered snapshot { c with replies := c.replies ++ [line] } := by
  refine ⟨h.written, h.writtenLe, h.waiting, ?_, fun hnot => ?_⟩
  · have happ : Client.asked { c with replies := c.replies ++ [line] } =
        c.asked ++ line.number?.toList := by
      unfold Client.asked
      rw [List.filterMap_append]
      cases line <;> rfl
    rw [happ]
    exact h.asked.push h.writtenLe hnew
  · cases hgreeted.symm.trans hnot

theorem Ordered.published (h : Ordered snapshot c) : Ordered (snapshot + 1) c :=
  ⟨h.written, fun n hn => Nat.le_succ_of_le (h.writtenLe n hn), h.waiting.published,
    h.asked.published, h.ungreeted⟩

theorem Ordered.init : Ordered snapshot {} :=
  ⟨List.Pairwise.nil, fun _ h => absurd h List.not_mem_nil, .nil, .nil, fun _ => rfl⟩

/-- The receiver has fallen behind. -/
def Client.lagging (c : Client) : Bool :=
  c.receiver.next < c.receiver.oldest broadcastCapacity

/-- The snapshot that the branch of the broadcast is about to write. -/
def Client.received (c : Client) (snapshot : ℕ) : Option ℕ :=
  match c.receiver.recv broadcastCapacity with
  | some (.message line, _) => line.number?
  | some (.lagged _, _) => some snapshot
  | none => none

/-- No snapshot is written while an older one waits elsewhere. When the newest one is written, in the
greeting or because the client has fallen behind, no older one waits in the broadcast; when the
branch of the broadcast writes one, no older one waits among the replies; and when a reply is one,
no older one waits in the broadcast. -/
def Client.ahead (c : Client) (snapshot : ℕ) : Label → Bool
  | .greet => c.waiting.all (snapshot ≤ ·)
  | .recv => (!c.lagging || c.waiting.all (snapshot ≤ ·)) &&
      (c.received snapshot).all fun n => c.asked.all (n ≤ ·)
  | .reply =>
    match c.replies with
    | .status k :: _ => c.waiting.all (k ≤ ·)
    | _ => true
  | _ => true

/-- The steps of the runs considered. -/
def ahead (s : State) (l : Label) : Bool := s.client.all (·.ahead s.snapshot l)

theorem ahead_client {s : State} {l : Label} (h : ahead s l = true) (hc : s.client = some c) :
    c.ahead s.snapshot l = true := by
  rw [ahead, hc] at h
  exact h

theorem le_of_all {l : List ℕ} {n : ℕ} (h : l.all (n ≤ ·) = true) : ∀ m ∈ l, n ≤ m :=
  fun m hm => of_decide_eq_true (List.all_eq_true.mp h m hm)

theorem Ordered.receive (h : Ordered snapshot c) {receiver : Receiver Line}
    (hr : c.receiver.recv broadcastCapacity = some (.message line, receiver))
    (hasked : ∀ n ∈ line.number?, ∀ m ∈ c.asked, n ≤ m) :
    Ordered snapshot (Client.write { c with receiver } line) := by
  have hwaiting : c.waiting = line.number?.toList ++ Client.waiting { c with receiver } := by
    rw [Client.waiting, Receiver.unread_message hr]
    cases line <;> rfl
  have hsorted := List.pairwise_append.mp (hwaiting ▸ h.waiting.sorted)
  have hline : ∀ n ∈ line.number?, n ∈ c.waiting := fun n hn => by
    rw [hwaiting]
    exact List.mem_append_left _ (Option.mem_toList.mpr hn)
  have hrest : Ordered snapshot { c with receiver } :=
    ⟨h.written, h.writtenLe, h.waiting.sublist (hwaiting ▸ List.sublist_append_right _ _), h.asked,
      h.ungreeted⟩
  refine hrest.write (fun n hn => h.waiting.le n (hline n hn)) (fun n hn m hm => ?_)
    (fun n hn m hm => ?_) hasked
  · exact h.waiting.behind m hm n (hline n hn)
  · exact hsorted.2.2 n (Option.mem_toList.mpr hn) m hm

theorem Ordered.lag (h : Ordered snapshot c) {receiver : Receiver Line} {missed : ℕ}
    (hr : c.receiver.recv broadcastCapacity = some (.lagged missed, receiver))
    (hahead : ∀ m ∈ c.waiting, snapshot ≤ m) (hasked : ∀ m ∈ c.asked, snapshot ≤ m) :
    Ordered snapshot (Client.write { c with receiver } (.status snapshot)) := by
  have hwaiting : Client.waiting { c with receiver } = c.waiting := by
    rw [Client.waiting, Receiver.unread_lagged hr]
    rfl
  have hrest : Ordered snapshot { c with receiver } :=
    ⟨h.written, h.writtenLe, hwaiting.symm ▸ h.waiting, h.asked, h.ungreeted⟩
  exact hrest.resync (hwaiting.symm ▸ hahead) hasked

theorem lagging_of_lagged {receiver : Receiver Line} {missed : ℕ}
    (hr : c.receiver.recv broadcastCapacity = some (.lagged missed, receiver)) :
    c.lagging = true := by
  by_contra hnot
  have hnext : ¬ c.receiver.next < c.receiver.oldest broadcastCapacity := fun hlt =>
    hnot (decide_eq_true hlt)
  rw [Receiver.recv, if_neg hnext] at hr
  split at hr <;> cases hr

theorem Ordered.takeReply (h : Ordered snapshot c) {replies : List Line}
    (hc : c.replies = line :: replies)
    (hahead : ∀ k ∈ line.number?, ∀ m ∈ c.waiting, k ≤ m) :
    Ordered snapshot (Client.write { c with replies } line) := by
  have hasked : c.asked = line.number?.toList ++ Client.asked { c with replies } := by
    unfold Client.asked
    rw [hc]
    cases line <;> rfl
  have hsorted := List.pairwise_append.mp (hasked ▸ h.asked.sorted)
  have hline : ∀ k ∈ line.number?, k ∈ c.asked := fun k hk => by
    rw [hasked]
    exact List.mem_append_left _ (Option.mem_toList.mpr hk)
  have hrest : Ordered snapshot { c with replies } := by
    refine ⟨h.written, h.writtenLe, h.waiting, h.asked.sublist ?_, fun hnot => ?_⟩
    · exact hasked ▸ List.sublist_append_right _ _
    · cases hc.symm.trans (h.ungreeted hnot)
  refine hrest.write (fun k hk => h.asked.le k (hline k hk)) (fun k hk m hm => ?_) hahead
    fun k hk m hm => ?_
  · exact h.asked.behind m hm k (hline k hk)
  · exact hsorted.2.2 k (Option.mem_toList.mpr hk) m hm

variable {s s' : State}

/-- The order in a state. -/
def Sorted (s : State) : Prop := ∀ c, s.client = some c → Ordered s.snapshot c

theorem Sorted.answer (h : Sorted s) (line : Line) (hnew : ∀ n ∈ line.number?, n = s.snapshot)
    (hs : s.answer line = some s') : Sorted s' := by
  unfold State.answer at hs
  split at hs
  · next c hc =>
    split_ifs at hs with hroom
    cases hs
    intro c' hc'
    cases hc'
    simp only [Bool.and_eq_true] at hroom
    exact (h c hc).answer hroom.1.1 hnew
  · cases hs

theorem Sorted.mapClient (h : Sorted s) (line : Line) (hnew : ∀ n ∈ line.number?, n = s.snapshot)
    {publishing : Bool} :
    Sorted { s with publishing, client := s.client.map (·.broadcast line) } := by
  intro c' hc'
  obtain ⟨c, hc, rfl⟩ := Option.map_eq_some_iff.mp hc'
  exact (h c hc).broadcast hnew

/-- **One step keeps the statuses in order**, if a snapshot does not come ahead of an older one. -/
theorem Sorted.step {l : Label} (h : Sorted s) (hahead : ahead s l = true)
    (hs : step s l = some s') : Sorted s' := by
  cases l with
  | publish =>
    obtain ⟨-, hs⟩ := Option.ite_none_left_eq_some.mp hs
    cases hs
    exact fun c hc => (h c hc).published
  | broadcast =>
    obtain ⟨-, rfl⟩ := Option.ite_some_none_eq_some.mp hs
    exact h.mapClient (.status s.snapshot) fun n hn => (Option.some.inj hn).symm
  | message =>
    obtain ⟨-, hs⟩ := Option.ite_none_left_eq_some.mp hs
    cases hs
    exact h.mapClient .other fun n hn => by cases hn
  | accept =>
    obtain ⟨-, hs⟩ := Option.ite_none_left_eq_some.mp hs
    cases hs
    intro c hc
    cases hc
    exact Ordered.init
  | getStatus => exact h.answer (.status _) (fun n hn => (Option.some.inj hn).symm) hs
  | ack => exact h.answer .other (fun n hn => by cases hn) hs
  | greet =>
    simp only [StatusLines.step] at hs
    split at hs
    · next c hc =>
      split_ifs at hs with hgreeted
      cases hs
      intro c' hc'
      cases hc'
      have hclear : c.waiting.all (s.snapshot ≤ ·) = true := ahead_client hahead hc
      have hold := h c hc
      have hempty : c.replies = [] := hold.ungreeted (Bool.eq_false_iff.mpr hgreeted)
      refine Ordered.resync ⟨hold.written, hold.writtenLe, hold.waiting, hold.asked, fun hnot => ?_⟩
        (le_of_all hclear) ?_
      · cases hnot
      · simp [Client.asked, hempty]
    · cases hs
  | recv =>
    simp only [StatusLines.step] at hs
    split at hs
    · next c hc =>
      split_ifs at hs
      obtain ⟨c', hrecv, rfl⟩ := Option.map_eq_some_iff.mp hs
      intro c'' hc''
      cases hc''
      obtain ⟨hclear, hasked⟩ := Bool.and_eq_true_iff.mp (ahead_client (l := .recv) hahead hc)
      unfold Client.recv at hrecv
      unfold Client.received at hasked
      split at hrecv
      · next line receiver hr =>
        cases hrecv
        simp only [hr] at hasked
        refine (h c hc).receive hr fun n hn => le_of_all ?_
        rw [Option.mem_def.mp hn] at hasked
        exact hasked
      · next missed receiver hr =>
        cases hrecv
        simp only [hr] at hasked
        rw [lagging_of_lagged hr] at hclear
        exact (h c hc).lag hr (le_of_all hclear) (le_of_all hasked)
      · cases hrecv
    · cases hs
  | reply =>
    simp only [StatusLines.step] at hs
    split at hs
    · next c hc =>
      split_ifs at hs
      obtain ⟨c', hreply, rfl⟩ := Option.map_eq_some_iff.mp hs
      intro c'' hc''
      cases hc''
      have hclear := ahead_client hahead hc
      unfold Client.reply at hreply
      split at hreply
      · next line replies hr =>
        cases hreply
        refine (h c hc).takeReply hr fun k hk => ?_
        cases line with
        | status number =>
          cases hk
          simp only [Client.ahead, hr] at hclear
          exact le_of_all hclear
        | other => cases hk
      · cases hreply
    · cases hs

/-- **Statuses in order**: in every run in which no snapshot is written while an older one waits
elsewhere, a status that is written to the client is never followed by one that was published before
it. -/
theorem statuses_ordered (h : (machine.guard ahead).Reachable s) (hc : s.client = some c) :
    c.written.Pairwise (· ≤ ·) := by
  have hsorted : Sorted s := by
    refine Machine.Reachable.invariant (M := machine.guard ahead) (P := Sorted) ?_
      (fun m l m' _ ih hs => ?_) h
    · intro c hc
      cases hc
    · obtain ⟨hahead, hs⟩ := Machine.guard_step.mp hs
      exact ih.step hahead hs
  exact (hsorted c hc).written

/-- A client that is greeted at once and keeps up. -/
theorem statuses_ordered_prompt : ∃ s c, (machine.guard ahead).Reachable s ∧ s.client = some c ∧
    c.written = [1, 2, 2] ∧ c.written.Pairwise (· ≤ ·) := by
  obtain ⟨s, hs, hp⟩ := Machine.Reachable.of_run (M := machine.guard ahead)
    [.publish, .broadcast, .accept, .greet, .publish, .broadcast, .recv, .getStatus, .reply]
    (p := fun s => decide (s.client.map (·.written) = some [1, 2, 2])) (by decide +kernel)
  obtain ⟨c, hc, hw⟩ := Option.map_eq_some_iff.mp (of_decide_eq_true hp)
  exact ⟨s, c, hs, hc, hw, statuses_ordered hs hc⟩

theorem written_of_run (l : List Label) {written : List ℕ}
    (h : (machine.run machine.init l).any (fun s =>
      decide (s.client.map (·.written) = some written)) = true) :
    ∃ s c, machine.Reachable s ∧ s.client = some c ∧ c.written = written := by
  obtain ⟨s, hs, hp⟩ := Machine.Reachable.of_run l h
  obtain ⟨c, hc, hw⟩ := Option.map_eq_some_iff.mp (of_decide_eq_true hp)
  exact ⟨s, c, hs, hc, hw⟩

/-- Two snapshots are published between the subscription and the greeting; a client falls behind; a
client asks for the status while older ones wait, and gets the answer after a newer one. -/
theorem older_status_follows :
    (∃ s c, machine.Reachable s ∧ s.client = some c ∧ c.written = [2, 1]) ∧
    (∃ s c, machine.Reachable s ∧ s.client = some c ∧ c.written = [0, 65, 2]) ∧
    (∃ s c, machine.Reachable s ∧ s.client = some c ∧ c.written = [0, 2, 1]) ∧
    ∃ s c, machine.Reachable s ∧ s.client = some c ∧ c.written = [0, 1, 0] :=
  ⟨written_of_run [.accept, .publish, .broadcast, .publish, .broadcast, .greet, .recv]
      (by decide +kernel),
    written_of_run ([.accept, .greet] ++ (List.replicate 65 [Label.publish, .broadcast]).flatten ++
      [.recv, .recv]) (by decide +kernel),
    written_of_run [.accept, .greet, .publish, .broadcast, .publish, .broadcast, .getStatus, .reply,
      .recv] (by decide +kernel),
    written_of_run [.accept, .greet, .getStatus, .publish, .broadcast, .recv, .reply]
      (by decide +kernel)⟩

end GlobalProtect.Widget.StatusLines
