import GaiaNet.Grpc.LinkState

/-! Where the messages of a run are: sent, being sent or still to send. -/

namespace GaiaNet.Grpc

open Lib.Transition

section

variable {link after : Link}

/-- The message of the `real_send` that is running. -/
def App.message : App → List Bytes
  | .calling (.send message) _ _ => [message]
  | _ => []

/-- What has been sent, is being sent and will be sent. -/
def Link.account (link : Link) : List Bytes := link.sent ++ link.app.message ++ link.pending

theorem account_eq (message : after.app.message = link.app.message) (sent : after.sent = link.sent)
    (pending : after.pending = link.pending) : after.account.Sublist link.account := by
  have same : after.account = link.account := by
    unfold Link.account
    rw [message, sent, pending]
  exact same ▸ List.Sublist.refl _

/-- A step inside a call. -/
theorem account_enter (app : link.app = .calling call tries stage) (sent : after.sent = link.sent)
    (pending : after.pending = link.pending) (turn : Nat) (stop : Stage) :
    (after.enter call turn stop).account.Sublist link.account :=
  account_eq (by rw [app]; cases call <;> rfl) sent pending

/-- A call that does not return gives its message up. -/
theorem account_idle (idle : after.app.message = []) (sent : after.sent = link.sent)
    (pending : after.pending = link.pending) : after.account.Sublist link.account := by
  unfold Link.account
  rw [idle, sent, pending, List.append_nil]
  exact (List.sublist_append_left _ _).append (List.Sublist.refl _)

theorem account_succeed (app : link.app = .calling call tries stage) (sent : after.sent = link.sent)
    (pending : after.pending = link.pending) :
    (after.succeed call).account.Sublist link.account := by
  cases call with
  | flush => exact account_idle rfl sent pending
  | send message =>
    have same : (after.succeed (.send message)).account = link.account := by
      unfold Link.account
      rw [app]
      show (after.sent ++ [message]) ++ [] ++ after.pending = link.sent ++ [message] ++ link.pending
      rw [sent, pending, List.append_nil]
    exact same ▸ List.Sublist.refl _

theorem account_endRound (after : Link) (app : link.app = .calling call tries stage)
    (sent : after.sent = link.sent) (pending : after.pending = link.pending) (ret : Bool) :
    (after.endRound call tries ret).account.Sublist link.account := by
  unfold Link.endRound
  split
  · exact account_enter app sent pending _ _
  · split
    · exact account_succeed app sent pending
    · split
      · exact account_succeed app sent pending
      · exact account_idle rfl sent pending

theorem account_beginSend (app : link.app = .calling call tries stage)
    (moved : link.beginSend env call tries client = some after) :
    after.account.Sublist link.account := by
  unfold Link.beginSend Link.negotiate at moved
  repeat' split at moved
  · cases moved
    exact account_idle rfl rfl rfl
  · cases moved
    exact account_eq rfl rfl rfl
  · cases moved
  · cases moved
    exact account_enter app rfl rfl _ _
  · cases moved
    exact account_enter app rfl rfl _ _

theorem account_poll (app : link.app = .calling call tries stage) :
    (link.poll env call tries client).account.Sublist link.account := by
  unfold Link.poll
  repeat' split
  · exact account_succeed app rfl rfl
  · exact account_enter app rfl rfl _ _
  · exact account_enter app rfl rfl _ _
  · exact account_idle rfl rfl rfl
  · exact List.Sublist.refl _

theorem account_tryWrite (app : link.app = .calling call tries stage)
    (moved : (link.tryWrite packet client stream).map (Link.enter call turn stop) = some after) :
    after.account.Sublist link.account := by
  unfold Link.tryWrite at moved
  split at moved
  · cases moved
  · cases moved
    exact account_enter app rfl rfl _ _

theorem account_crash (fault : Fault) : (link.crash fault).account.Sublist link.account :=
  account_idle rfl rfl rfl

theorem account_clientStep (app : link.app = .calling call tries stage)
    (moved : link.clientStep env call tries client stage = some after) :
    after.account.Sublist link.account := by
  cases stage with
  | attempt =>
    cases call with
    | send message => exact account_beginSend app moved
    | flush =>
      cases moved
      exact account_poll app
  | write packet =>
    simp only [Link.clientStep] at moved
    repeat' split at moved
    · cases moved
      exact account_crash _
    · exact account_tryWrite app moved
    · cases moved
      exact account_enter app rfl rfl _ _
  | push packet =>
    cases moved
    exact account_succeed app rfl rfl
  | finish =>
    simp only [Link.clientStep] at moved
    split at moved
    · cases moved
      exact account_crash _
    · cases moved
      exact account_enter app rfl rfl _ _
  | join =>
    simp only [Link.clientStep] at moved
    split at moved
    · cases moved
      exact account_enter app rfl rfl _ _
    · cases moved
    · cases moved
      exact account_enter app rfl rfl _ _
  | giveUp =>
    simp only [Link.clientStep] at moved
    split at moved
    · cases moved
      exact account_crash _
    · cases moved
      exact account_enter app rfl rfl _ _
  | create tup => cases moved
  | restore tup =>
    cases moved
    exact account_enter app rfl rfl _ _
  | resend rest =>
    cases rest with
    | nil =>
      cases moved
      exact account_endRound link app rfl rfl true
    | cons packet rest =>
      simp only [Link.clientStep] at moved
      repeat' split at moved
      · cases moved
        exact account_crash _
      · exact account_tryWrite app moved
      · cases moved
        exact account_endRound { link with failed := true } app rfl rfl false

theorem account_appStep (moved : link.appStep env = some after) :
    after.account.Sublist link.account := by
  unfold Link.appStep at moved
  split at moved
  · cases moved
  · cases moved
  · rename_i call tries tup app
    cases moved
    unfold Link.create
    split
    · exact account_enter app rfl rfl _ _
    · exact account_idle rfl rfl rfl
  · rename_i app
    split at moved
    · exact account_clientStep app moved
    · cases moved
      exact account_crash _
    · cases moved
      exact account_crash _

theorem account_call (moved : link.call flushes = some after) :
    after.account.Sublist link.account := by
  unfold Link.call at moved
  split at moved
  · rename_i idle
    split at moved
    · cases moved
      exact account_eq (by rw [idle]; rfl) rfl rfl
    · split at moved
      · cases moved
      · rename_i message rest pending
        cases moved
        unfold Link.account
        rw [idle, pending]
        show (link.sent ++ [message] ++ rest).Sublist (link.sent ++ [] ++ message :: rest)
        simp
  · cases moved

theorem account_ackStep (moved : link.ackStep step = some after) :
    after.account.Sublist link.account := by
  unfold Link.ackStep Link.ackClientStep Link.readAck at moved
  repeat' split at moved
  all_goals first
    | contradiction
    | cases moved
      exact account_eq rfl rfl rfl
    | rw [Option.map_eq_some_iff] at moved
      obtain ⟨packet, -, rfl⟩ := moved
      exact account_eq rfl rfl rfl

/-- The server and the receiver leave the account alone. -/
theorem account_next (moved : Link.next label link = some after) :
    after.account.Sublist link.account := by
  cases label with
  | call flushes => exact account_call moved
  | app env => exact account_appStep moved
  | ack step => exact account_ackStep moved
  | receive =>
    simp only [Link.next, Link.receive] at moved
    repeat' split at moved
    · cases moved
    · rw [Option.map_eq_some_iff] at moved
      obtain ⟨packet, -, rfl⟩ := moved
      exact account_eq rfl rfl rfl
    · cases moved
  | append k =>
    simp only [Link.next, Link.append] at moved
    repeat' split at moved
    · cases moved
    · rw [Option.map_eq_some_iff] at moved
      obtain ⟨packet, -, rfl⟩ := moved
      exact account_eq rfl rfl rfl
    · cases moved
  | acknowledge k =>
    simp only [Link.next, Link.acknowledge] at moved
    repeat' split at moved
    · cases moved
    · cases moved
      exact account_eq rfl rfl rfl
    · cases moved
  | pop =>
    simp only [Link.next, Link.pop] at moved
    rw [Option.map_eq_some_iff] at moved
    obtain ⟨frame, -, rfl⟩ := moved
    split <;> exact account_eq rfl rfl rfl

end

end GaiaNet.Grpc
