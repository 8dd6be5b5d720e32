import GlobalProtect.Lib.Runtime
import GlobalProtect.Api.Messages

/-! # The event pump of the widget

`pump` of `gpwidget`'s connection to the service: the messages it receives after it was attached, in
order. It asks for a snapshot when an event does not have the next revision. `receiveAll_accepted`
says that it never does so on a stream that a replica accepts. -/

namespace GlobalProtect.Widget

open Lib Api

variable {γ : Type}

/-- What the connection reports to the daemon. -/
inductive WsNotice (γ : Type) where
  | event (event : WsEvent γ)
  | rejected (message : String)
  | lost
  | gone
  deriving DecidableEq, Repr

/-- The pump: the revision it has seen, the notices it has sent and the revisions for which it has
requested a snapshot. -/
structure Pump (γ : Type) where
  revision : ℕ
  notices : List (WsNotice γ) := []
  resyncs : List ℕ := []
  deriving DecidableEq

/-- A session that was attached. -/
def Pump.start (revision : ℕ) (snapshot : VpnEnv γ) : Pump γ :=
  { revision, notices := [.event (.vpnEnv snapshot)] }

/-- One message from the service. -/
def Pump.receive (p : Pump γ) : ServerMessage γ → Except String (Pump γ)
  | .event next event =>
    let p := if next ≠ wrappingAdd p.revision 1 then
      { p with resyncs := p.resyncs ++ [p.revision] } else p
    .ok { p with revision := next, notices := p.notices ++ [.event event] }
  | .snapshot currentRevision snapshot =>
    .ok { p with
      revision := currentRevision, notices := p.notices ++ [.event (.vpnState snapshot.vpnState)] }
  | .reply _ (.rejected _ message) => .ok { p with notices := p.notices ++ [.rejected message] }
  | .reply _ _ => .ok p
  | .attached _ _ _ => .error "gpservice attached an already attached session"

/-- Receives a whole stream. -/
def Pump.receiveAll (p : Pump γ) (ms : List (ServerMessage γ)) : Except String (Pump γ) :=
  ms.foldlM Pump.receive p

theorem receiveAll_cons {p p' : Pump γ} {m : ServerMessage γ} (h : p.receive m = .ok p')
    (ms : List (ServerMessage γ)) : p.receiveAll (m :: ms) = p'.receiveAll ms := by
  unfold Pump.receiveAll
  rw [List.foldlM_cons, h]
  rfl

theorem receive_next {p : Pump γ} {next : ℕ} (h : next = wrappingAdd p.revision 1) (e : WsEvent γ) :
    p.receive (.event next e) =
      .ok { p with revision := next, notices := p.notices ++ [.event e] } := by
  simp [Pump.receive, h]

theorem receiveAll_accepted {ms : List (ServerMessage γ)} {v v' : Replica (VpnEnv γ)} {p : Pump γ}
    (hrun : vpnFeed.observer.run (some v) (ms.filterMap (·.feed)) = some (some v'))
    (hrev : v.revision = p.revision)
    (hlt : ∀ r e, ServerMessage.event r e ∈ ms → r < wordSize) :
    ∃ p', p.receiveAll ms = .ok p' ∧ p'.resyncs = p.resyncs := by
  induction ms generalizing v p with
  | nil => exact ⟨p, rfl, rfl⟩
  | cons m ms ih =>
    have hlt' : ∀ r e, ServerMessage.event r e ∈ ms → r < wordSize :=
      fun r e he => hlt r e (List.mem_cons_of_mem _ he)
    cases m with
    | attached id r x =>
      obtain ⟨w, hw, -⟩ := Machine.run_cons.mp hrun
      cases hw
    | reply id result =>
      cases result with
      | accepted => exact ih hrun hrev hlt'
      | rejected code message =>
        exact ih (p := { p with notices := p.notices ++ [.rejected message] }) hrun hrev hlt'
    | event r e =>
      obtain ⟨w, hw, hrun⟩ := Machine.run_cons.mp hrun
      simp only [Feed.observer, Feed.follow, Option.ite_none_right_eq_some,
        Option.some.injEq] at hw
      obtain ⟨rfl, rfl⟩ := hw
      have hnext : v.revision + 1 = wrappingAdd p.revision 1 := by
        rw [wrappingAdd, ← hrev, Nat.mod_eq_of_lt (hlt _ e List.mem_cons_self)]
      obtain ⟨p', hp', hr⟩ := ih (p := { p with
        revision := v.revision + 1, notices := p.notices ++ [.event e] }) hrun rfl hlt'
      exact ⟨p', (receiveAll_cons (receive_next hnext e) ms).trans hp', hr⟩
    | snapshot r x =>
      obtain ⟨w, hw, hrun⟩ := Machine.run_cons.mp hrun
      simp only [Feed.observer, Feed.follow, Option.ite_none_right_eq_some,
        Option.some.injEq] at hw
      obtain ⟨⟨rfl, -⟩, rfl⟩ := hw
      exact ih (p := { p with
        revision := v.revision, notices := p.notices ++ [.event (.vpnState x.vpnState)] })
        hrun rfl hlt'

theorem receiveAll_late {ms : List (ServerMessage γ)} (p : Pump γ)
    (hms : ∀ m ∈ ms, (∃ r x, m = .snapshot r x) ∨ ∃ id result, m = .reply id result) :
    ∃ p', p.receiveAll ms = .ok p' ∧ p'.resyncs = p.resyncs := by
  induction ms generalizing p with
  | nil => exact ⟨p, rfl, rfl⟩
  | cons m ms ih =>
    have hms' := fun m hm => hms m (List.mem_cons_of_mem _ hm)
    rcases hms m List.mem_cons_self with ⟨r, x, rfl⟩ | ⟨id, _ | ⟨code, message⟩, rfl⟩
    · exact ih { p with
        revision := r, notices := p.notices ++ [.event (.vpnState x.vpnState)] } hms'
    · exact ih p hms'
    · exact ih { p with notices := p.notices ++ [.rejected message] } hms'

theorem receiveAll_append (p : Pump γ) (ms ms' : List (ServerMessage γ)) :
    p.receiveAll (ms ++ ms') = (p.receiveAll ms).bind fun p' => p'.receiveAll ms' := by
  simp [Pump.receiveAll, List.foldlM_append, bind]

end GlobalProtect.Widget
