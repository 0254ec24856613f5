import GaiaNet.Grpc.ControlRounds

/-! Control frames stay hidden: the contents that `Recv` returns are those of the messages,
as long as the rounds of a call last. -/

namespace GaiaNet.Grpc

open Lib.Replay (accepted)

/-- A fresh client and the calls of `Recv` its application makes on a list. -/
structure Session where
  partyid : UInt32
  toPartyid : UInt32
  env : Option Int
  taskid : String
  calls : List Bool
  answers : List Answer

namespace Session

def client (session : Session) : RpcClient :=
  RpcClient.init session.partyid session.toPartyid true session.env

def run (session : Session) : List Bytes × List Poll :=
  receives session.taskid session.calls (Answer.polls true session.answers) session.client

/-- What the successful calls return. -/
def contents (session : Session) : List Bytes := session.run.1

/-- The answers the calls have used up. -/
def used (session : Session) : List Answer :=
  session.answers.take (session.answers.length - session.run.2.length)

/-- The list has these elements, of which the calls pop the first ones. -/
def On (frames : List ListFrame) (session : Session) : Prop := Answer.frames session.answers <+: frames

/-- No call runs out of rounds where a message is still to be delivered. -/
def InRounds (session : Session) : Prop :=
  Answer.Paced session.client.redisTimeout 1 0 session.answers

theorem takes (session : Session) : Takes session.client session.client.redisTimeout 0 0 :=
  ⟨⟨rfl, rfl⟩, by decide, rfl, rfl, rfl⟩

end Session

/-- `m_redis_timeout` of a client that finds this `CPP_REDIS_TIMEOUT`. -/
def timeoutOf (env : Option Int) : Int := (RpcClient.init 0 0 true env).redisTimeout

/-- The messages of a list without its commands. -/
def ListFrame.messages (frames : List ListFrame) : List ListFrame :=
  frames.filter (·.message?.isSome)

/-- The contents are the messages popped; calls that do not run out of rounds return the same on
lists with the same messages; and on a list that is all there, commands included, so many calls
return what they return on its messages alone. -/
structure Hidden (env : Option Int) (frames : List ListFrame) : Prop where
  messages : ∀ session : Session, session.env = env → session.On frames →
    session.contents = accepted 0 (Answer.entries session.used)
  moved : ∀ others, ListFrame.MessageFirst others →
    ListFrame.entries others = ListFrame.entries frames →
    ∀ session other : Session, session.env = env → Answer.frames session.answers = frames →
      Answer.frames other.answers = others → session.calls.length = other.calls.length →
      session.InRounds → other.InRounds → session.contents = other.contents
  whole : ∀ session : Session, session.env = env → session.answers = frames.map .popped →
    session.contents =
      { session with answers := (ListFrame.messages frames).map .popped }.contents

theorem ListFrame.MessageFirst.mono {frames shorter : List ListFrame}
    (first : ListFrame.MessageFirst frames)
    (early : shorter <+: frames) : ListFrame.MessageFirst shorter := by
  cases shorter with
  | nil => trivial
  | cons frame rest =>
    obtain ⟨more, rfl⟩ := early
    cases frame with
    | data index body fits => trivial
    | control code fits negative => exact first.elim

theorem ListFrame.messageFirst_messages (frames : List ListFrame) :
    ListFrame.MessageFirst (ListFrame.messages frames) := by
  induction frames with
  | nil => trivial
  | cons frame frames ih =>
    cases frame with
    | data index body fits => trivial
    | control code fits negative => exact ih

theorem Answer.frames_popped (frames : List ListFrame) :
    Answer.frames (frames.map .popped) = frames := by
  induction frames with
  | nil => rfl
  | cons frame frames ih => exact congrArg (frame :: ·) ih

theorem ListFrame.entries_messages (frames : List ListFrame) :
    ListFrame.entries (ListFrame.messages frames) = ListFrame.entries frames := by
  induction frames with
  | nil => rfl
  | cons frame frames ih =>
    cases frame with
    | data index body fits => exact congrArg ((index, body) :: ·) ih
    | control code fits negative => exact ih

/-- Messages alone do not use up the rounds. -/
theorem Answer.paced_messages (frames : List ListFrame) (timed : 0 ≤ timeout) (next : Nat) :
    Answer.Paced timeout 1 next ((ListFrame.messages frames).map .popped) := by
  have inTime : 1 ≤ timeout ∨ timeout = 0 := by omega
  induction frames generalizing next with
  | nil => trivial
  | cons frame frames ih =>
    cases frame with
    | data index body fits => exact .inr ⟨inTime, ih _⟩
    | control code fits negative => exact ih next

theorem Session.contents_eq {frames : List ListFrame} {session : Session}
    (first : ListFrame.MessageFirst frames) (on : session.On frames) :
    session.contents = accepted 0 (Answer.entries session.used) := by
  obtain ⟨used, rest, split, contents, length⟩ := receives_answers session.taskid session.calls
    session.answers session.takes fun _ => first.mono on
  have left : session.run.2.length = rest.length := length
  have same : session.used = used := by
    unfold Session.used
    rw [left, split, List.length_append, Nat.add_sub_cancel, List.take_left]
  rw [same]
  exact contents

theorem Session.contents_paced {session : Session}
    (first : ListFrame.MessageFirst (Answer.frames session.answers)) (inRounds : session.InRounds) :
    session.contents = delivers (Answer.entries session.answers) session.calls.length 0 :=
  (receives_paced session.taskid session.answers session.takes fun _ => first).mpr inRounds
    session.calls

theorem Session.contents_messages (session : Session) (timed : 0 ≤ timeoutOf session.env)
    (frames : List ListFrame) :
    { session with answers := (ListFrame.messages frames).map .popped }.contents =
      delivers (ListFrame.entries frames) session.calls.length 0 := by
  have first := ListFrame.messageFirst_messages frames
  rw [← Answer.frames_popped (ListFrame.messages frames)] at first
  have inRounds := Answer.paced_messages frames timed 0
  have contents : Session.contents
      { session with answers := (ListFrame.messages frames).map .popped } = _ :=
    Session.contents_paced first inRounds
  rwa [Answer.entries_frames, Answer.frames_popped, ListFrame.entries_messages] at contents

theorem Session.run_never {session : Session} (never : timeoutOf session.env < 0) :
    session.run = ([], Answer.polls true session.answers) := by
  refine receives_never session.taskid session.calls _ rfl ?_
  rw [session.takes.inTime 1]
  show ¬ (1 ≤ timeoutOf session.env ∨ timeoutOf session.env = 0)
  omega

/-- A client with a negative timeout returns nothing on any list. -/
theorem Hidden.never (never : timeoutOf env < 0) (frames : List ListFrame) : Hidden env frames := by
  have nothing (session : Session) (same : session.env = env) : session.contents = [] := by
    unfold Session.contents
    rw [Session.run_never (same ▸ never)]
  refine ⟨?_, ?_, ?_⟩
  · intro session same on
    have unused : session.used = [] := by
      unfold Session.used
      rw [Session.run_never (same ▸ never), Answer.length_polls, Nat.sub_self, List.take_zero]
    rw [nothing session same, unused]
    rfl
  · intro others first entries session other same holds otherHolds calls inRounds otherInRounds
    rw [← otherHolds] at first
    have contents := Session.contents_paced first otherInRounds
    have spent : accepted 0 (ListFrame.entries frames) = [] := by
      have paced : Answer.Paced (timeoutOf env) 1 0 session.answers := same ▸ inRounds
      rw [← holds, ← Answer.entries_frames]
      cases answers : session.answers with
      | nil => rfl
      | cons answer rest =>
        rw [answers] at paced
        rcases paced with spent | ⟨inTime, -⟩
        · exact spent
        · omega
    have none := delivers_accepted (ListFrame.entries frames) other.calls.length 0
    rw [spent] at none
    rw [nothing session same, contents, Answer.entries_frames, otherHolds, entries,
      List.prefix_nil.mp none]
  · intro session same holds
    rw [nothing session same]
    exact (nothing { session with answers := (ListFrame.messages frames).map .popped } same).symm

theorem Hidden.of_paced (timed : 0 ≤ timeoutOf env) (first : ListFrame.MessageFirst frames)
    (paced : Answer.Paced (timeoutOf env) 1 0 (frames.map .popped)) : Hidden env frames := by
  refine ⟨fun session same on => Session.contents_eq first on, ?_, ?_⟩
  · intro others otherFirst entries session other same holds otherHolds calls inRounds otherInRounds
    rw [Session.contents_paced (holds ▸ first) inRounds,
      Session.contents_paced (otherHolds ▸ otherFirst) otherInRounds, Answer.entries_frames,
      Answer.entries_frames, holds, otherHolds, entries, calls]
  · intro session same holds
    have start : ListFrame.MessageFirst (Answer.frames session.answers) := by
      rwa [holds, Answer.frames_popped]
    have inRounds : session.InRounds := by
      unfold Session.InRounds
      rw [holds]
      have timeout : session.client.redisTimeout = timeoutOf env := congrArg timeoutOf same
      rwa [timeout]
    rw [Session.contents_paced start inRounds,
      Session.contents_messages session (same ▸ timed) frames, holds, Answer.entries_frames,
      Answer.frames_popped]

/-- A command at the head of the list settles the version as v1 and is delivered. -/
theorem recvBody_control_first (withResend : Bool) (client : RpcClient) (frame content : Bytes)
    (short : frame.length = 4)
    (fresh : client.useRedisDataVersion = .notInited) :
    recvBody withResend (.element frame) ⟨client, content⟩ =
      .ok (.ends true false) ⟨{ client with useRedisDataVersion := .v1 }, frame⟩ := by
  have noMagic : ¬ frame.take dataVersionMagicString.length = dataVersionMagicString := by
    intro same
    have lengths := congrArg List.length same
    rw [List.length_take, short] at lengths
    exact absurd lengths (by decide)
  have settled : client.versioned frame = ({ client with useRedisDataVersion := .v1 }, frame) := by
    unfold RpcClient.versioned initRedisDataVersion
    rw [if_pos fresh, if_neg noMagic]
  rw [recvBody_element, receiveFrame_eq, settled]
  rfl

/-- The session of one call that pops the head of a list. -/
def Session.head (setting : Option Int) (frame : ListFrame) : Session :=
  ⟨1, 2, setting, "", [true], [.popped frame]⟩

theorem Session.head_control (timed : 0 ≤ timeoutOf setting) (fits : -2 ^ 31 ≤ code)
    (negative : code < 0) :
    (Session.head setting (.control code fits negative)).contents =
      [(ListFrame.control code fits negative).element true] := by
  have short : ((ListFrame.control code fits negative).element true).length = 4 :=
    Lib.LittleEndian.length_encode 4 _
  have inTime : (RpcClient.init 1 2 true setting).InTime 1 := by
    show 1 ≤ timeoutOf setting ∨ timeoutOf setting = 0
    omega
  have called : recvRedis true 1 (Answer.polls true [.popped (.control code fits negative)])
      ⟨RpcClient.init 1 2 true setting, []⟩ =
        .ok ⟨true, false, []⟩ ⟨{ RpcClient.init 1 2 true setting with useRedisDataVersion := .v1 },
          (ListFrame.control code fits negative).element true⟩ := by
    unfold Answer.polls Answer.poll
    rw [recvRedis_cons, if_pos inTime, recvBody_control_first true _ _ [] short rfl]
    rfl
  unfold Session.contents Session.run Session.head receives Session.client
  rw [recv_eq_recvRedis "" true _ (RpcClient.init 1 2 true setting) [] rfl, called]
  rfl

theorem Hidden.messageFirst (hidden : Hidden env frames) (timed : 0 ≤ timeoutOf env) :
    ListFrame.MessageFirst frames := by
  cases frames with
  | nil => trivial
  | cons frame rest =>
    cases frame with
    | data index body fits => trivial
    | control code fits negative =>
      have taken := hidden.messages (Session.head env (.control code fits negative)) rfl ⟨rest, rfl⟩
      have none : Answer.entries (Session.head env (.control code fits negative)).used = [] := by
        have early : (Session.head env (.control code fits negative)).used <+:
            [.popped (.control code fits negative)] := List.take_prefix _ _
        rcases List.prefix_cons_iff.mp early with empty | ⟨rest, same, early⟩
        · rw [empty]
          rfl
        · rw [same, List.prefix_nil.mp early]
          rfl
      rw [Session.head_control timed, none] at taken
      cases taken

theorem Hidden.paced (hidden : Hidden env frames) (timed : 0 ≤ timeoutOf env) :
    Answer.Paced (timeoutOf env) 1 0 (frames.map .popped) := by
  have first := hidden.messageFirst timed
  rw [← Answer.frames_popped frames] at first
  have takes := (Session.mk 1 2 env "" [] (frames.map .popped)).takes
  refine (receives_paced "" (frames.map .popped) takes fun _ => first).mp fun calls => ?_
  have contents := hidden.whole ⟨1, 2, env, "", calls, frames.map .popped⟩ rfl rfl
  rw [Session.contents_messages _ timed frames] at contents
  rw [Answer.entries_frames, Answer.frames_popped]
  exact contents

/-- Control frames stay hidden exactly in the lists that start with a message, unless they are
empty, and have nowhere before a message still to be delivered so many control frames in a row
that the rounds of a call run out; or the client pops nothing at all. -/
theorem control_frames_hidden (env : Option Int) (frames : List ListFrame) :
    Hidden env frames ↔ timeoutOf env < 0 ∨
      ListFrame.MessageFirst frames ∧ Answer.Paced (timeoutOf env) 1 0 (frames.map .popped) := by
  rcases Int.lt_or_le (timeoutOf env) 0 with never | timed
  · exact iff_of_true (.never never frames) (.inl never)
  · constructor
    · exact fun hidden => .inr ⟨hidden.messageFirst timed, hidden.paced timed⟩
    · rintro (never | ⟨first, paced⟩)
      · exact .never never frames
      · exact .of_paced timed first paced

/-- The local server reports a disconnect before the first message arrives. -/
def disconnected : List ListFrame :=
  [.control (-1) (by decide) (by decide), .data 0 [7] (by decide)]

/-- It has reported it 120 times between the two messages. -/
def stalled : List ListFrame :=
  .data 0 [7] (by decide) ::
    (List.replicate 120 (.control (-1) (by decide) (by decide)) ++ [.data 1 [8] (by decide)])

/-- Both calls return, with the bytes of the command and of the raw first element; with the default
timeout the second of two calls runs out of rounds on the commands, where it returns the second
message if they are not there. -/
theorem control_frame_delivered :
    (¬ Hidden none disconnected ∧
      Session.contents ⟨1, 2, none, "", [true, true], disconnected.map .popped⟩ =
        [[255, 255, 255, 255], dataVersionMagicString ++ [0, 0, 0, 0, 7]]) ∧
    ¬ Hidden none stalled ∧
      Session.contents ⟨1, 2, none, "", [true, true], stalled.map .popped⟩ = [[7]] ∧
      Session.contents ⟨1, 2, none, "", [true, true],
        (ListFrame.messages stalled).map .popped⟩ = [[7], [8]] := by
  have short : Session.contents ⟨1, 2, none, "", [true, true], stalled.map .popped⟩ = [[7]] := by
    decide +kernel
  have all : Session.contents ⟨1, 2, none, "", [true, true],
      (ListFrame.messages stalled).map .popped⟩ = [[7], [8]] := by
    decide +kernel
  refine ⟨⟨fun hidden => hidden.messageFirst (by decide), ?_⟩, fun hidden => ?_, short, all⟩
  · decide +kernel
  · have same := hidden.whole ⟨1, 2, none, "", [true, true], stalled.map .popped⟩ rfl rfl
    rw [short, all] at same
    cases same

end GaiaNet.Grpc
