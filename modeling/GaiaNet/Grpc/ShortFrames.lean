import GaiaNet.Grpc.RecvOrder
import GaiaNet.Lib.Transition

/-! The index of a frame is read before its length is looked at: which lists make `Recv` read
past the end of a frame. -/

namespace GaiaNet.Grpc

open Lib.Hoare Lib.Transition

/-- The version that an element meets, and what the magic string leaves of it. -/
def RedisDataVersion.settle (version : RedisDataVersion) (frame : Bytes) :
    RedisDataVersion × Bytes :=
  if version = .notInited then initRedisDataVersion frame else (version, frame)

theorem RpcClient.versioned_settle (frame : Bytes) (client : RpcClient) :
    client.versioned frame =
      ({ client with useRedisDataVersion := (client.useRedisDataVersion.settle frame).1 },
        (client.useRedisDataVersion.settle frame).2) := by
  unfold RpcClient.versioned RedisDataVersion.settle
  split <;> rfl

/-- The bytes that the elements of a list have when their index is to be read; elements of
version v1 have no index. -/
def RedisDataVersion.indexed (version : RedisDataVersion) : List Bytes → List Bytes
  | [] => []
  | frame :: rest =>
    let (settled, body) := version.settle frame
    (if settled = .v2 then [body] else []) ++ settled.indexed rest

theorem RedisDataVersion.indexed_cons (version : RedisDataVersion) (frame : Bytes)
    (rest : List Bytes) :
    version.indexed (frame :: rest) =
      (if (version.settle frame).1 = .v2 then [(version.settle frame).2] else []) ++
        (version.settle frame).1.indexed rest := rfl

/-- The bytes from which `memcpy` copies the index of an element. -/
def RpcClient.indexBytes (client : RpcClient) (frame : Bytes) : Option Bytes :=
  if (client.versioned frame).1.useRedisDataVersion = .v2 then some (client.versioned frame).2
  else none

/-- Fewer bytes than an index has are left of an element of version v2. -/
def RpcClient.Short (client : RpcClient) (frame : Bytes) : Prop :=
  (client.versioned frame).1.useRedisDataVersion = .v2 ∧ (client.versioned frame).2.length < 4

theorem RpcClient.short_settle (client : RpcClient) {frame : Bytes} :
    client.Short frame ↔ (client.useRedisDataVersion.settle frame).1 = .v2 ∧
      (client.useRedisDataVersion.settle frame).2.length < 4 := by
  unfold RpcClient.Short
  rw [RpcClient.versioned_settle]

/-- The decoder leaves a short frame unread and treats it as none. -/
structure RpcClient.Decodes (client : RpcClient) (frame : Bytes) : Prop where
  unread : client.Short frame → client.indexBytes frame = none
  ignored : client.Short frame → ∀ content, ∃ kind after,
    receiveFrame frame ⟨client, content⟩ = .ok kind ⟨after, content⟩ ∧ kind.contents = [] ∧
      after.recvIdx = client.recvIdx

/-- What the copied bytes decide. -/
theorem receiveFrame_indexBytes (client : RpcClient) (frame content : Bytes) :
    receiveFrame frame ⟨client, content⟩ =
      match client.indexBytes frame with
      | none => .ok (.deliver (client.versioned frame).2) ⟨(client.versioned frame).1, content⟩
      | some body => receiveFrame body ⟨(client.versioned frame).1, content⟩ := by
  unfold RpcClient.indexBytes
  by_cases second : (client.versioned frame).1.useRedisDataVersion = .v2
  · rw [if_pos second]
    exact receiveFrame_versioned frame client content
  · rw [if_neg second, receiveFrame_eq]
    exact if_pos second

/-- The code decodes a frame safely exactly when it is not short: it reads the index anyway. -/
theorem RpcClient.decodes_iff (client : RpcClient) (frame : Bytes) :
    client.Decodes frame ↔ ¬ client.Short frame := by
  constructor
  · intro decodes short
    have read := decodes.unread short
    rw [RpcClient.indexBytes, if_pos short.1] at read
    cases read
  · intro whole
    exact ⟨fun short => absurd short whole, fun short => absurd short whole⟩

/-- An element that is not short is decoded without undefined behaviour. -/
theorem receiveFrame_whole {client : RpcClient} {frame : Bytes} (whole : ¬ client.Short frame)
    (content : Bytes) :
    ∃ kind after, receiveFrame frame ⟨client, content⟩ = .ok kind ⟨after, content⟩ ∧
      after.useRedisDataVersion = (client.versioned frame).1.useRedisDataVersion ∧
      after.useRedis = client.useRedis ∧ after.redisTimeout = client.redisTimeout := by
  have heard := client.versioned_heard frame
  have redis : (client.versioned frame).1.useRedis = client.useRedis := by rw [heard.rest]
  have timeout : (client.versioned frame).1.redisTimeout = client.redisTimeout := by rw [heard.rest]
  rw [receiveFrame_indexBytes]
  unfold RpcClient.indexBytes
  by_cases second : (client.versioned frame).1.useRedisDataVersion = .v2
  · have long : 4 ≤ (client.versioned frame).2.length :=
      Nat.le_of_not_lt fun short => whole ⟨second, short⟩
    obtain ⟨kind, is_⟩ := frameVerdict_whole long (client.versioned frame).1.wanted
    have received := receiveFrame_v2 second (client.versioned frame).2 content
    rw [is_] at received
    simp only [if_pos second, received]
    cases kind with
    | deliver body => exact ⟨_, _, rfl, rfl, redis, timeout⟩
    | control | repeated | gap => exact ⟨_, _, rfl, rfl, redis, timeout⟩
  · simp only [if_neg second]
    exact ⟨_, _, rfl, rfl, redis, timeout⟩

/-- An application that calls `Recv` on one list again and again. Inside a call, `round` has
its `need_resend` and the number of its next round. -/
structure Reader where
  state : ClientState
  round : Option (Bool × Int)

inductive ReaderLabel where
  | call (withResend : Bool) (content : Bytes)
  | poll (poll : Poll)
  | expire

namespace Reader

/-- A call begins, one of its rounds runs, or its loop is left. An exception ends the call. -/
def next : ReaderLabel → Reader → Option Reader
  | .call withResend content, ⟨state, none⟩ =>
    if state.client.useRedis then some ⟨⟨state.client, content⟩, some (withResend, 1)⟩ else none
  | .poll poll, ⟨state, some (withResend, i)⟩ =>
    if state.client.InTime i then
      match recvRound withResend i poll state with
      | .ok (.again j) after => some ⟨after, some (withResend, j)⟩
      | .ok (.ends _ _) after => some ⟨after, none⟩
      | .error (.thrown _) after => some ⟨after, none⟩
      | .error _ _ => none
    else none
  | .expire, ⟨state, some (_, i)⟩ => if state.client.InTime i then none else some ⟨state, none⟩
  | _, _ => none

theorem run_passes {state after : ClientState} (passes : Passes withResend i state used j after) :
    run next (used.map .poll) ⟨state, some (withResend, i)⟩ =
      some ⟨after, some (withResend, j)⟩ := by
  induction passes with
  | none => rfl
  | round inTime passed later ih =>
    simp only [List.map_cons, run, next, if_pos inTime, passed, Option.bind_some]
    exact ih

/-- A call of `Recv` that returns is a run of the reader over the polls that it uses up. -/
theorem recv_run {client : RpcClient} (redis : client.useRedis = true)
    (returned : recv taskid withResend env ⟨client, content⟩ = .ok result after) (old : Bytes) :
    ∃ used labels, env.polls (redisKey client.toPartyid client.partyid taskid) = used ++ result.rest ∧
      run next labels ⟨⟨client, old⟩, none⟩ = some ⟨after, none⟩ ∧
      (labels = .call withResend content :: used.map .poll ∨
        labels = .call withResend content :: (used.map .poll ++ [.expire])) := by
  rw [recv_eq_recvRedis _ _ _ client content redis] at returned
  have rounds := recvRedis_rounds withResend 1
    (env.polls (redisKey client.toPartyid client.partyid taskid)) ⟨client, content⟩
  rw [returned] at rounds
  cases rounds with
  | expired passes split late =>
    refine ⟨_, _, split, ?_, Or.inr rfl⟩
    simp only [run, next, redis, if_true, Option.bind_some, run_append, run_passes passes,
      if_neg late]
  | ended passes split inTime turned =>
    refine ⟨_, _, split.trans (List.append_cons ..), ?_, Or.inl rfl⟩
    simp only [List.map_append, List.map_cons, List.map_nil, run, next, redis, if_true,
      Option.bind_some, run_append, run_passes passes, if_pos inTime, turned]

/-- The elements popped along a run. -/
def popped (labels : List ReaderLabel) : List Bytes :=
  labels.filterMap fun
    | .poll poll => poll.frame?
    | _ => none

/-- In some sequence of calls on the list, in some timing, this frame of the list is popped
when the client has come to this state. -/
def Pops (client : RpcClient) (list : List Bytes) (current : RpcClient) (frame : Bytes) : Prop :=
  ∃ labels content reader withResend i,
    run next labels ⟨⟨client, content⟩, none⟩ = some reader ∧ reader.state.client = current ∧
      reader.round = some (withResend, i) ∧ current.InTime i ∧ popped labels ++ [frame] <+: list

theorem popped_append (labels more : List ReaderLabel) :
    popped (labels ++ more) = popped labels ++ popped more := by
  simp [popped]

/-- What a run keeps of the client, whatever it pops. -/
structure Kept (before after : RpcClient) : Prop where
  redis : after.useRedis = before.useRedis
  timeout : after.redisTimeout = before.redisTimeout

theorem Kept.refl (client : RpcClient) : Kept client client := ⟨rfl, rfl⟩

theorem Kept.heard (heard : Heard before after) : Kept before after := by
  constructor <;> rw [heard.rest]

theorem Kept.inTime (kept : Kept before after) (i : Int) : after.InTime i ↔ before.InTime i := by
  unfold RpcClient.InTime
  rw [kept.timeout]

/-- A round settles the version as its element says, however it ends. -/
inductive Settles (before : ClientState) : Poll → ClientState → Prop where
  | waited (idle : poll.frame? = none) (kept : Kept before.client after.client)
      (same : after.client.useRedisDataVersion = before.client.useRedisDataVersion) :
    Settles before poll after
  | element (kept : Kept before.client after.client)
      (same : after.client.useRedisDataVersion =
        (before.client.useRedisDataVersion.settle frame).1) :
    Settles before (.element frame) after

theorem receiveFrame_settles (frame : Bytes) (state : ClientState) :
    Settles state (.element frame) (finalState (receiveFrame frame state)) := by
  have heard := state.client.versioned_heard frame
  have version := congrArg (·.1.useRedisDataVersion) (state.client.versioned_settle frame)
  have kept := Kept.heard heard
  have delivered (idx : Int) (payload : Bytes) : Settles state (.element frame)
      (finalState (.ok (Verdict.deliver payload) ⟨{ (state.client.versioned frame).1 with
        recvIdx := idx }, state.content⟩ : EStateM.Result Abort ClientState Verdict)) :=
    .element ⟨kept.redis, kept.timeout⟩ version
  have other (after : ClientState) (same : after.client = (state.client.versioned frame).1) :
      Settles state (.element frame) after :=
    .element (same ▸ kept) (same ▸ version)
  rw [show state = ⟨state.client, state.content⟩ from rfl, receiveFrame_eq]
  simp only
  split
  · exact other _ rfl
  · cases frameIndex (state.client.versioned frame).2 with
    | none => exact other _ rfl
    | some idx =>
      simp only
      split
      · exact other _ rfl
      · split
        · split
          · exact other _ rfl
          · exact delivered idx _
        · split <;> exact other _ rfl

theorem recvRound_settles (withResend : Bool) (i : Int) (poll : Poll) (state : ClientState) :
    Settles state poll (finalState (recvRound withResend i poll state)) := by
  cases poll with
  | error => exact .waited rfl (Kept.refl _) rfl
  | empty thread =>
    have acked := state.client.ackThread_acked thread
    rw [show state = ⟨state.client, state.content⟩ from rfl, recvRound_empty]
    simp only
    split <;> exact .waited rfl (Kept.heard acked.heard) acked.useRedisDataVersion
  | element frame =>
    have settled := receiveFrame_settles frame state
    rw [recvRound_element]
    revert settled
    generalize receiveFrame frame state = result
    intro settled
    cases result with
    | error abort after => exact settled
    | ok verdict after =>
      cases verdict with
      | deliver content =>
        cases settled with
        | waited idle => cases idle
        | element kept same => exact .element kept same
      | control | repeated | gap => exact settled

/-- The steps of a reader. -/
inductive Moves (reader : Reader) : ReaderLabel → Reader → Prop where
  | call (outside : reader.round = none) (redis : reader.state.client.useRedis = true) :
    Moves reader (.call withResend content) ⟨⟨reader.state.client, content⟩, some (withResend, 1)⟩
  | poll (inside : reader.round = some (withResend, i)) (inTime : reader.state.client.InTime i)
      (round : later = none ∨ ∃ j, later = some (withResend, j)) :
    Moves reader (.poll poll) ⟨finalState (recvRound withResend i poll reader.state), later⟩
  | expire (inside : reader.round = some (withResend, i)) : Moves reader .expire ⟨reader.state, none⟩

theorem next_moves {reader after : Reader} (moved : next label reader = some after) :
    Moves reader label after := by
  obtain ⟨state, round⟩ := reader
  cases label with
  | call withResend content =>
    cases round with
    | none =>
      simp only [next, Option.ite_none_right_eq_some, Option.some.injEq] at moved
      obtain ⟨redis, rfl⟩ := moved
      exact .call rfl redis
    | some round => cases moved
  | poll poll =>
    cases round with
    | none => cases moved
    | some round =>
      obtain ⟨withResend, i⟩ := round
      simp only [next, Option.ite_none_right_eq_some] at moved
      obtain ⟨inTime, moved⟩ := moved
      have ran (later : Option (Bool × Int)) (round : later = none ∨ ∃ j, later = some (withResend, j)) :
          Moves ⟨state, some (withResend, i)⟩ (.poll poll)
            ⟨finalState (recvRound withResend i poll state), later⟩ := .poll rfl inTime round
      cases turned : recvRound withResend i poll state with
      | ok turn left =>
        rw [turned] at moved ran
        cases turn with
        | again j =>
          cases moved
          exact ran _ (Or.inr ⟨j, rfl⟩)
        | ends ret needResend =>
          cases moved
          exact ran none (Or.inl rfl)
      | error abort left =>
        rw [turned] at moved ran
        cases abort with
        | thrown exception =>
          cases moved
          exact ran none (Or.inl rfl)
        | fault | pending => cases moved
  | expire =>
    cases round with
    | none => cases moved
    | some round =>
      obtain ⟨withResend, i⟩ := round
      simp only [next, Option.ite_none_left_eq_some, Option.some.injEq] at moved
      obtain ⟨-, rfl⟩ := moved
      exact .expire rfl

/-- A step pops what its label says, and the version follows. -/
theorem next_follows {reader after : Reader} (moved : next label reader = some after) :
    Kept reader.state.client after.state.client ∧ ∀ more,
      after.state.client.useRedisDataVersion.indexed more <:+
        reader.state.client.useRedisDataVersion.indexed (popped [label] ++ more) := by
  cases next_moves moved with
  | call | expire => exact ⟨Kept.refl _, fun more => List.suffix_refl _⟩
  | @poll withResend i _ poll inside inTime round =>
    have settles := recvRound_settles withResend i poll reader.state
    revert settles
    generalize finalState (recvRound withResend i poll reader.state) = left
    intro settles
    cases settles with
    | waited idle kept same =>
      refine ⟨kept, fun more => ?_⟩
      simp [popped, idle, same]
    | element kept same =>
      refine ⟨kept, fun more => ?_⟩
      rw [same]
      exact List.suffix_append _ _

theorem run_follows {labels : List ReaderLabel} {reader final : Reader}
    (finished : run next labels reader = some final) (more : List Bytes) :
    final.state.client.useRedisDataVersion.indexed more <:+
      reader.state.client.useRedisDataVersion.indexed (popped labels ++ more) := by
  induction labels generalizing reader with
  | nil =>
    cases finished
    exact List.suffix_refl _
  | cons label labels ih =>
    cases moved : next label reader with
    | none => simp [run, moved] at finished
    | some middle =>
      have rest : run next labels middle = some final := by simpa [run, moved] using finished
      have split : popped (label :: labels) = popped [label] ++ popped labels :=
        popped_append [label] labels
      rw [split, List.append_assoc]
      exact (ih rest).trans ((next_follows moved).2 _)

/-- A client pops frames only in Redis mode and when its loop has a first round. -/
theorem Pops.polls {client current : RpcClient} (pops : Pops client list current frame) :
    client.useRedis = true ∧ client.InTime 1 := by
  obtain ⟨labels, content, reader, withResend, i, finished, rfl, round, inTime, -⟩ := pops
  have inv : Kept client reader.state.client ∧ ∀ withResend i, reader.round = some (withResend, i) →
      client.useRedis = true ∧ (i = 1 ∨ client.InTime 1) := by
    refine (Reaches.ofRun labels finished).invariant (fun reader : Reader =>
      Kept client reader.state.client ∧ ∀ withResend i, reader.round = some (withResend, i) →
        client.useRedis = true ∧ (i = 1 ∨ client.InTime 1)) ⟨Kept.refl client, by simp⟩ ?_
    rintro label before after ⟨kept, first⟩ moved
    have later := (next_follows moved).1
    refine ⟨⟨later.redis.trans kept.redis, later.timeout.trans kept.timeout⟩, ?_⟩
    intro withResend j round
    cases next_moves moved with
    | call outside redis =>
      cases round
      exact ⟨kept.redis ▸ redis, Or.inl rfl⟩
    | @poll _ i _ _ inside inTime =>
      obtain ⟨redis, only | inside⟩ := first _ i inside
      · subst only
        exact ⟨redis, Or.inr ((kept.inTime 1).mp inTime)⟩
      · exact ⟨redis, Or.inr inside⟩
    | expire => cases round
  obtain ⟨kept, first⟩ := inv
  obtain ⟨redis, only | inside⟩ := first withResend i round
  · subst only
    exact ⟨redis, (kept.inTime 1).mp inTime⟩
  · exact ⟨redis, inside⟩

/-- A call can begin, whatever was going on. -/
theorem enters {state : ClientState} (round : Option (Bool × Int))
    (redis : state.client.useRedis = true) (inTime : state.client.InTime 1) :
    ∃ labels content withResend i,
      run next labels ⟨state, round⟩ = some ⟨⟨state.client, content⟩, some (withResend, i)⟩ ∧
      popped labels = [] ∧ state.client.InTime i := by
  cases round with
  | none => exact ⟨[.call false []], [], false, 1, by simp [run, next, redis], rfl, inTime⟩
  | some round =>
    obtain ⟨withResend, i⟩ := round
    by_cases inside : state.client.InTime i
    · exact ⟨[], state.content, withResend, i, rfl, rfl, inside⟩
    · exact ⟨[.expire, .call false []], [], false, 1, by simp [run, next, redis, inside], rfl,
        inTime⟩

/-- A short frame somewhere in the list is popped as one, if the calls go on to it. -/
theorem pops_short (list : List Bytes) (state : ClientState) (round : Option (Bool × Int))
    (redis : state.client.useRedis = true) (inTime : state.client.InTime 1)
    (member : body ∈ state.client.useRedisDataVersion.indexed list) (short : body.length < 4) :
    ∃ labels reader withResend i frame, run next labels ⟨state, round⟩ = some reader ∧
      reader.round = some (withResend, i) ∧ reader.state.client.InTime i ∧
      popped labels ++ [frame] <+: list ∧ reader.state.client.Short frame := by
  induction list generalizing state round with
  | nil => cases member
  | cons frame rest ih =>
    obtain ⟨labels, content, withResend, i, entered, none, inside⟩ := enters round redis inTime
    by_cases now : state.client.Short frame
    · refine ⟨labels, _, withResend, i, frame, entered, rfl, inside, ?_, now⟩
      rw [none]
      exact ⟨rest, rfl⟩
    · obtain ⟨kind, after, received, version, keptRedis, keptTimeout⟩ :=
        receiveFrame_whole now content
      have kept : Kept state.client after := ⟨keptRedis, keptTimeout⟩
      have stepped : ∃ round left, next (.poll (.element frame))
          ⟨⟨state.client, content⟩, some (withResend, i)⟩ = some ⟨⟨after, left⟩, round⟩ := by
        simp only [next, if_pos inside, recvRound_element, received]
        cases kind with
        | deliver body => exact ⟨_, body, rfl⟩
        | control | repeated | gap => exact ⟨_, content, rfl⟩
      obtain ⟨round, left, moved⟩ := stepped
      have settled : after.useRedisDataVersion = (state.client.useRedisDataVersion.settle frame).1 :=
        version.trans (congrArg (·.1.useRedisDataVersion) (state.client.versioned_settle frame))
      have later : body ∈ after.useRedisDataVersion.indexed rest := by
        rw [RedisDataVersion.indexed_cons] at member
        rw [settled]
        rcases List.mem_append.mp member with here | there
        · exfalso
          split at here
          · rename_i second
            rw [List.mem_singleton.mp here] at short
            exact now (state.client.short_settle.mpr ⟨second, short⟩)
          · cases here
        · exact there
      obtain ⟨more, reader, withResend, j, found, ran, round, inTime, ahead, found⟩ :=
        ih ⟨after, left⟩ round (kept.redis.trans redis) ((kept.inTime 1).mpr inTime) later
      refine ⟨labels ++ .poll (.element frame) :: more, reader, withResend, j, _, ?_, round, inTime,
        ?_, found⟩
      · rw [run_append, entered, Option.bind_some, run, moved, Option.bind_some, ran]
      · rw [popped_append, none, List.nil_append]
        exact List.cons_prefix_cons.mpr ⟨rfl, ahead⟩

/-- Whatever calls are made on the list and in whatever timing, no frame is short when it is
popped, exactly if no element has too few bytes for the index that its version says it has. -/
theorem frames_decoded_safely (client : RpcClient) (list : List Bytes) :
    (∀ current frame, Pops client list current frame → current.Decodes frame) ↔
      client.useRedis = false ∨ ¬ client.InTime 1 ∨
        ∀ body ∈ client.useRedisDataVersion.indexed list, 4 ≤ body.length := by
  constructor
  · intro safe
    by_cases redis : client.useRedis = true
    · by_cases inTime : client.InTime 1
      · refine Or.inr (Or.inr fun body member => Nat.le_of_not_lt fun short => ?_)
        obtain ⟨labels, reader, withResend, i, frame, ran, round, inside, ahead, bad⟩ :=
          pops_short list ⟨client, []⟩ none redis inTime member short
        have pops : Pops client list reader.state.client frame :=
          ⟨labels, [], reader, withResend, i, ran, rfl, round, inside, ahead⟩
        exact (RpcClient.decodes_iff _ _).mp (safe _ _ pops) bad
      · exact Or.inr (Or.inl inTime)
    · exact Or.inl (Bool.eq_false_iff.mpr redis)
  · intro whole current frame pops
    obtain ⟨redis, inTime⟩ := pops.polls
    obtain ⟨labels, content, reader, withResend, i, ran, rfl, round, inside, rest, rfl⟩ := pops
    have long := (whole.resolve_left (by simp [redis])).resolve_left (not_not_intro inTime)
    refine (RpcClient.decodes_iff _ _).mpr ?_
    intro bad
    obtain ⟨second, short⟩ := reader.state.client.short_settle.mp bad
    have here : (reader.state.client.useRedisDataVersion.settle frame).2 ∈
        reader.state.client.useRedisDataVersion.indexed (frame :: rest) := by
      rw [RedisDataVersion.indexed_cons, if_pos second]
      exact List.mem_append_left _ (List.mem_singleton_self _)
    have bound := long _ (by
      rw [List.append_assoc]
      exact (run_follows ran (frame :: rest)).mem here)
    omega

/-- The first element is the magic string and two more bytes. -/
theorem short_frame_read :
    (∃ after, recv "task" true
        ⟨fun _ => [.element (dataVersionMagicString ++ [0, 0])], .failed⟩
        ⟨RpcClient.init 1 2 true none, []⟩ = .error (.fault .shortFrame) after) ∧
      ¬ ∀ current frame, Pops (RpcClient.init 1 2 true none) [dataVersionMagicString ++ [0, 0]]
        current frame → current.Decodes frame := by
  refine ⟨⟨_, rfl⟩, fun safe => ?_⟩
  have popped : Pops (RpcClient.init 1 2 true none) [dataVersionMagicString ++ [0, 0]]
      (RpcClient.init 1 2 true none) (dataVersionMagicString ++ [0, 0]) :=
    ⟨[.call true []], [], _, true, 1, rfl, rfl, rfl, Or.inl (by decide), List.prefix_refl _⟩
  exact (RpcClient.decodes_iff _ _).mp (safe _ _ popped) ⟨by decide +kernel, by decide +kernel⟩

end Reader

end GaiaNet.Grpc
