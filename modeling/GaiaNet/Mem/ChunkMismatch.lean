import GaiaNet.Mem.Scripts

/-! Ends whose `m_buf_size` is not the segment's: `attach_shm` does not compare the two,
and a chunk larger than the segment is never moved. -/

namespace GaiaNet.Mem

open Lib Lib.Chunks Lib.Duplex Lib.Transition

/-- Some of these segments is longer than the ring. -/
def Overlong (limit : Nat) (segments : List Bytes) : Prop :=
  ∃ segment ∈ segments, limit < segment.length

theorem overlong_tail (overlong : Overlong limit (first :: rest)) (fits : first.length ≤ limit) :
    Overlong limit rest := by
  obtain ⟨segment, member, long⟩ := overlong
  rcases List.mem_cons.mp member with rfl | later
  · omega
  · exact ⟨segment, later, long⟩

/-- The first chunk of a long message is as long as the chunk size allows. -/
theorem overlong_chunks (chunk : limit < size) (long : limit < body.length) :
    Overlong limit (chunksAfter size body 0) := by
  have inside := (lt_chunkCount 0 body.length (by omega)).mpr (by omega : 0 * size < body.length)
  rw [chunksAfter_of_lt inside]
  refine ⟨_, List.mem_cons_self, ?_⟩
  rw [length_chunk]
  omega

theorem overlong_frames (chunk : limit < size) (long : limit < body.length)
    (member : body ∈ messages) : Overlong limit (frames size messages) := by
  obtain ⟨segment, among, length⟩ := overlong_chunks chunk long
  exact ⟨segment, List.mem_flatMap.mpr ⟨body, member, List.mem_cons_of_mem _ among⟩, length⟩

theorem mem_chunksFrom {segment : List UInt8}
    (member : segment ∈ chunksFrom size body index count) :
    segment.length ≤ body.length := by
  induction count generalizing index with
  | zero => cases member
  | succ count ih =>
    rcases List.mem_cons.mp member with rfl | later
    · rw [length_chunk]
      omega
    · exact ih later

/-- A segment longer than the ring belongs to a message longer than the ring. -/
theorem long_of_overlong (low : 4 ≤ limit) (overlong : Overlong limit (frames size messages)) :
    ∃ body ∈ messages, limit < body.length := by
  obtain ⟨segment, member, long⟩ := overlong
  obtain ⟨body, among, here⟩ := List.mem_flatMap.mp member
  refine ⟨body, among, ?_⟩
  rcases List.mem_cons.mp here with rfl | chunk
  · rw [LittleEndian.length_encode] at long
    omega
  · exact Nat.lt_of_lt_of_le long (mem_chunksFrom chunk)

/-- The end has still to send a message with a chunk that the ring cannot take. -/
def Endpoint.Unsent (limit size : Nat) (endpoint : Endpoint) : Prop :=
  (∃ body ∈ sent endpoint.script, limit < body.length) ∨
    ∃ producer ahead, endpoint.running = .sending producer ∧ producer.Sends size ahead ∧
      Overlong limit ahead

/-- The end has still to receive a message with a chunk that the ring never holds. -/
def Endpoint.Unread (limit size : Nat) (messages : List Bytes) (endpoint : Endpoint)
    (awaited : Bytes) : Prop :=
  match endpoint.running with
  | .receiving consumer => ∃ ahead, consumer.Expects size messages ahead ∧
      awaited = ahead.flatten ∧ Overlong limit ahead
  | .aborted _ => True
  | _ => ∃ body ∈ messages.drop endpoint.returned.length, limit < body.length

/-- Outside its calls an end keeps its script. -/
theorem Endpoint.action_script {endpoint : Endpoint} (chunkSize : UInt32)
    (running : endpoint.running ≠ .idle) :
    Net.Keeps (fun next => next.script = endpoint.script) (endpoint.move chunkSize) := by
  unfold Endpoint.move Endpoint.action
  cases stage : endpoint.running with
  | idle => exact absurd stage running
  | sending producer =>
    simp only
    cases producer.action chunkSize with
    | none => rfl
    | some action => cases action <;> first | exact fun _ => rfl | rfl | trivial
  | receiving consumer =>
    simp only
    cases consumer.action chunkSize with
    | none => rfl
    | some action => cases action <;> first | exact fun _ => rfl | rfl | trivial
  | header buf =>
    intro bytes
    unfold Endpoint.assertLength
    split <;> rfl
  | aborted buf => trivial

/-- A sender whose chunks are too long does not get past the message. -/
theorem Endpoint.Unsent.move {endpoint : Endpoint} {chunkSize : UInt32}
    (unsent : endpoint.Unsent limit chunkSize.toNat) (chunk : limit < chunkSize.toNat)
    (legal : LegalSize chunkSize) (talks : endpoint.Talks chunkSize.toNat messages out awaited) :
    match endpoint.move chunkSize with
    | some (.write data next) => data.length ≤ limit → next.Unsent limit chunkSize.toNat
    | some (.read _ next) => ∀ data, (next data).Unsent limit chunkSize.toNat
    | some (.silent next) => next.Unsent limit chunkSize.toNat
    | none => True := by
  have whole := unsent
  rcases unsent with ⟨body, member, long⟩ | ⟨producer, ahead, running, sends, overlong⟩
  · by_cases idle : endpoint.running = .idle
    · cases script : endpoint.script with
      | nil =>
        rw [script] at member
        cases member
      | cons call rest =>
        simp only [Endpoint.move, Endpoint.action, idle, script, Option.bind_some, Action.move]
        rw [script] at member
        have small := talks.emits.1
        rw [script] at small
        cases call with
        | send other =>
          rcases List.mem_cons.mp member with rfl | later
          · refine .inr ⟨_, frames chunkSize.toNat [body], rfl, ⟨?_, rfl⟩,
              overlong_frames chunk long List.mem_cons_self⟩
            intro any among
            rw [List.mem_singleton.mp among]
            exact small body List.mem_cons_self
          · exact .inl ⟨body, later, long⟩
        | recv str => exact .inl ⟨body, member, long⟩
        | recvInto buf => exact .inl ⟨body, member, long⟩
    · have keeps := Endpoint.action_script chunkSize idle
      generalize endpoint.move chunkSize = chosen at keeps ⊢
      rcases chosen with _ | ⟨data, next⟩ | ⟨amount, next⟩ | next
      · trivial
      · exact fun _ => .inl ⟨body, keeps ▸ member, long⟩
      · exact fun data => .inl ⟨body, keeps data ▸ member, long⟩
      · exact .inl ⟨body, keeps ▸ member, long⟩
  · have step := sends.action legal
    simp only [Endpoint.move, Endpoint.action, running]
    cases acts : producer.action chunkSize with
    | none =>
      rw [acts] at step
      obtain ⟨segment, member, -⟩ := overlong
      rw [step] at member
      cases member
    | some action =>
      rw [acts] at step
      cases action with
      | write buf len next =>
        obtain ⟨rest, split, -, -, -, later⟩ := step
        rw [split] at overlong
        exact fun fits => .inr ⟨next, rest, rfl, later, overlong_tail overlong fits⟩
      | read len next => exact step.elim
      | «local» next => exact .inr ⟨next, ahead, rfl, step, overlong⟩
      | outside => exact step.elim

/-- The next message, or a later one, is longer than the ring. -/
theorem overlong_rest {messages rest done : List Bytes} (split : messages = done ++ rest)
    (position : done.length = count) (chunk : limit < size)
    (later : ∃ body ∈ messages.drop count, limit < body.length) :
    Overlong limit (frames size rest) := by
  obtain ⟨body, member, long⟩ := later
  rw [← messages_split split position] at member
  exact overlong_frames chunk long member

/-- A receiver whose chunks are too long does not get past the message. -/
theorem Endpoint.Unread.move {endpoint : Endpoint} {chunkSize : UInt32} {messages : List Bytes}
    (unread : endpoint.Unread limit chunkSize.toNat messages awaited)
    (chunk : limit < chunkSize.toNat) (low : 4 ≤ limit) (legal : LegalSize chunkSize)
    (talks : endpoint.Talks chunkSize.toNat messages out awaited) :
    match endpoint.move chunkSize with
    | some (.write _ next) => next.Unread limit chunkSize.toNat messages awaited
    | some (.read count next) => ∀ data rest, data.length = count → awaited = data ++ rest →
        count ≤ limit → (next data).Unread limit chunkSize.toNat messages rest
    | some (.silent next) => next.Unread limit chunkSize.toNat messages awaited
    | none => True := by
  have whole := talks
  have least := legal.low
  obtain ⟨-, short, awaits⟩ := talks
  cases running : endpoint.running with
  | idle =>
    simp only [Endpoint.Unread, running] at unread awaits
    cases script : endpoint.script with
    | nil => simp [Endpoint.move, Endpoint.action, running, script]
    | cons call rest =>
      simp only [Endpoint.move, Endpoint.action, running, script, Option.bind_some, Action.move]
      cases call with
      | send body => exact unread
      | recv str =>
        obtain ⟨done, left, returned, split, same⟩ := awaits
        have number : done.length = endpoint.returned.length := by rw [returned, List.length_map]
        refine ⟨frames chunkSize.toNat left, ⟨short, done, left, returned, split, rfl⟩, ?_,
          overlong_rest split number chunk unread⟩
        rw [same, flatten_frames (by omega)]
      | recvInto buf => exact unread
  | sending producer =>
    simp only [Endpoint.Unread, running] at unread
    simp only [Endpoint.move, Endpoint.action, running]
    cases acts : producer.action chunkSize with
    | none => exact unread
    | some action =>
      cases action with
      | write buf len next => exact unread
      | read len next => exact fun _ _ _ _ _ => unread
      | «local» next => exact unread
      | outside => trivial
  | receiving consumer =>
    simp only [Endpoint.Unread, running] at unread
    obtain ⟨ahead, expects, same, overlong⟩ := unread
    have step := expects.action legal
    simp only [Endpoint.move, Endpoint.action, running]
    cases acts : consumer.action chunkSize with
    | none =>
      obtain ⟨-, done, left, returned, position⟩ := expects
      simp only [(Consumer.action_none acts).1] at position
      have number : done.length = consumer.returned.length := by rw [returned, List.length_map]
      rw [position.2] at overlong
      simp only [Option.bind_some, Action.move, Endpoint.Unread]
      rw [← messages_split position.1 number]
      exact long_of_overlong low overlong
    | some action =>
      rw [acts] at step
      cases action with
      | write buf len next => exact step.elim
      | read len next =>
        intro data rest length split fits
        obtain ⟨first, later, rfl⟩ : ∃ first later, ahead = first :: later := by
          obtain ⟨segment, member, -⟩ := overlong
          exact List.exists_cons_of_ne_nil (List.ne_nil_of_mem member)
        obtain ⟨size, expects⟩ := step.2 first later rfl
        rw [same, List.flatten_cons] at split
        obtain ⟨rfl, rfl⟩ := List.append_inj split (by rw [length, size])
        exact ⟨later, expects, rfl, overlong_tail overlong (by omega)⟩
      | «local» next => exact ⟨ahead, step, same, overlong⟩
      | outside => exact step.elim
  | header buf =>
    simp only [Endpoint.move, Endpoint.action, running, Option.bind_some, Action.move]
    intro data rest length split fits
    simp only [Endpoint.Unread, running] at unread
    have four : (4 : UInt32).toNat = 4 := rfl
    rw [split] at whole
    have later := whole.assertLength legal running (length.trans four)
    unfold Endpoint.assertLength at later ⊢
    split at later
    · rename_i agree
      rw [if_pos agree]
      obtain ⟨-, -, ahead, expects, same⟩ := later
      refine ⟨ahead, expects, same, ?_⟩
      obtain ⟨-, done, left, returned, body, index, parts, at_, -, -, rfl⟩ := expects
      have first : index = 0 := at_.i.symm
      have number : done.length = endpoint.returned.length := by
        have lengths := congrArg List.length returned
        rw [List.length_map] at lengths
        exact lengths.symm
      rw [first]
      obtain ⟨other, member, long⟩ := unread
      rw [← messages_split parts number] at member
      rcases List.mem_cons.mp member with rfl | after
      · obtain ⟨segment, among, tooLong⟩ := overlong_chunks chunk long
        exact ⟨segment, List.mem_append_left _ among, tooLong⟩
      · obtain ⟨segment, among, tooLong⟩ := overlong_frames chunk long after
        exact ⟨segment, List.mem_append_right _ among, tooLong⟩
    · rename_i differ
      rw [if_neg differ]
      trivial
  | aborted buf => simp [Endpoint.move, Endpoint.action, running]

section

variable {chunkSize : Side → UInt32} {messages : Side → List Bytes} {limit : Nat} {side : Side}
  {net last : Net Endpoint UInt8} {out : Side → Bytes}

theorem unsent_forever (path : Reaches (Net.next limit (moves chunkSize)) net last)
    (balanced : Net.Balanced (Talking chunkSize messages) out net)
    (legal : ∀ side, LegalSize (chunkSize side)) (chunk : limit < (chunkSize side).toNat)
    (unsent : (net.program side).Unsent limit (chunkSize side).toNat) :
    (last.program side).Unsent limit (chunkSize side).toNat := by
  have kept := path.invariant (fun net => ∃ out, Net.Balanced (Talking chunkSize messages) out net ∧
    (net.program side).Unsent limit (chunkSize side).toNat) ⟨out, balanced, unsent⟩ ?_
  · obtain ⟨-, -, kept⟩ := kept
    exact kept
  · rintro mover before after ⟨out, balanced, unsent⟩ moved
    have moved := Net.next_moved moved
    obtain ⟨later, kept, -, -⟩ := balanced.moved (talking_follows legal) moved
    refine ⟨later, kept, ?_⟩
    by_cases same : mover = side
    · subst mover
      have step := unsent.move chunk (legal side) (balanced side)
      cases moved with
      | write data next chosen room =>
        rw [moves] at chosen
        rw [chosen] at step
        simpa using step (by omega)
      | read count next chosen stored =>
        rw [moves] at chosen
        rw [chosen] at step
        simpa using step _
      | silent next chosen =>
        rw [moves] at chosen
        rw [chosen] at step
        simpa using step
    · have still := moved.program_other
      rw [← Side.eq_other_of_ne same] at still
      rwa [still]

theorem unread_forever (path : Reaches (Net.next limit (moves chunkSize)) net last)
    (balanced : Net.Balanced (Talking chunkSize messages) out net)
    (bounded : ∀ side, (net.queue side).length ≤ limit) (low : 4 ≤ limit)
    (legal : ∀ side, LegalSize (chunkSize side)) (chunk : limit < (chunkSize side).toNat)
    (unread : (net.program side).Unread limit (chunkSize side).toNat (messages side)
      (net.queue side.other ++ out side.other)) :
    ∃ awaited, (last.program side).Unread limit (chunkSize side).toNat (messages side) awaited := by
  have kept := path.invariant (fun net => ∃ out, Net.Balanced (Talking chunkSize messages) out net ∧
    (∀ side, (net.queue side).length ≤ limit) ∧
    (net.program side).Unread limit (chunkSize side).toNat (messages side)
      (net.queue side.other ++ out side.other)) ⟨out, balanced, bounded, unread⟩ ?_
  · obtain ⟨out, -, -, kept⟩ := kept
    exact ⟨_, kept⟩
  · rintro mover before after ⟨out, balanced, bounded, unread⟩ moved
    have fits := Net.bounded ((Reaches.refl _ _).step moved) bounded
    have moved := Net.next_moved moved
    obtain ⟨later, kept, others, joined⟩ := balanced.moved (talking_follows legal) moved
    refine ⟨later, kept, fits, ?_⟩
    by_cases same : mover = side
    · subst mover
      have step := unread.move chunk low (legal side) (balanced side)
      cases moved with
      | write data next chosen room =>
        rw [moves] at chosen
        rw [chosen] at step
        simpa [others] using step
      | read count next chosen stored =>
        rw [moves] at chosen
        rw [chosen] at step
        have most := bounded side.other
        have next := step ((before.queue side.other).take count)
          ((before.queue side.other).drop count ++ out side.other) (List.length_take_of_le stored)
          (by rw [← List.append_assoc, List.take_append_drop]) (by omega)
        simpa [others] using next
      | silent next chosen =>
        rw [moves] at chosen
        rw [chosen] at step
        simpa [others] using step
    · have still := moved.program_other
      have equal := Side.eq_other_of_ne same
      rw [← equal] at still
      have mirrored : side.other = mover := by rw [equal, Side.other_other]
      rw [still, mirrored, joined, ← mirrored]
      exact unread

end

/-- Ends whose calls face each other can always get to the end of their scripts with every
message received, unless a message is longer than the segment and an end's chunks are, too. -/
theorem facing_complete_iff (segment : Side → SharedMemoryView) (bufSize : UInt32)
    (chunkSize : Side → UInt32) (script : Side → List Call) (sized : Sized bufSize chunkSize)
    (short : ∀ side, ∀ body ∈ sent (script side), body.length ≤ 2 ^ 31)
    (facing : List.Forall₂ Faces (script .left) (script .right)) :
    (∀ reached, Reaches (Duplex.next chunkSize) (Duplex.start segment bufSize script) reached →
      ∃ final, Reaches (Duplex.next chunkSize) reached final ∧ final.Done (incoming script)) ↔
    ∀ side, ∀ body ∈ sent (script side), Carried chunkSize bufSize.toNat body := by
  constructor
  · intro returns sender body member
    refine Classical.byContradiction fun lost => ?_
    obtain ⟨long, wide⟩ := not_or.mp lost
    obtain ⟨wide, chunk⟩ := Classical.not_forall.mp wide
    obtain ⟨final, path, done⟩ := returns _ (Reaches.refl _ _)
    have step := @coupled_step bufSize chunkSize (incoming script) sized.legal
    have start := sized.coupled segment short
    obtain ⟨last, moved, atFinal⟩ := reaches_lockstep _ step start path
    obtain ⟨-, out, balanced⟩ := start
    have program := atFinal.1.program
    by_cases same : sender = wide
    · subst wide
      have kept := unsent_forever moved balanced sized.legal (Nat.not_le.mp chunk)
        (.inl ⟨body, member, Nat.not_le.mp long⟩)
      obtain ⟨idle, empty, -⟩ := done sender
      rw [program] at kept
      rcases kept with ⟨other, unsent, -⟩ | ⟨producer, -, running, -⟩
      · rw [empty] at unsent
        cases unsent
      · rw [idle] at running
        cases running
    · have equal := Side.eq_other_of_ne same
      have waiting : (incoming script wide) = sent (script sender) := by
        rw [equal, incoming, Side.other_other]
      obtain ⟨awaited, kept⟩ := unread_forever moved balanced (fun _ => Nat.zero_le _)
        sized.four_le sized.legal (Nat.not_le.mp chunk) ⟨body, by
          rw [waiting]
          exact member, Nat.not_le.mp long⟩
      obtain ⟨idle, -, returned⟩ := done wide
      rw [program] at kept
      simp only [Endpoint.Unread, idle, returned, List.length_map, List.drop_length] at kept
      obtain ⟨other, none, -⟩ := kept
      cases none
  · intro carried reached path
    exact facing_finishes segment script sized short facing carried reached path

/-- Ten bytes over segments of eight, and an answer. -/
theorem facing_complete_ten :
    ∃ final, Reaches (Duplex.next fun _ => 8) (Duplex.start (fun _ => .zeroed) 8
        (sides [.send [1, 2, 3, 4, 5, 6, 7, 8, 9, 10], .recv []] [.recv [], .send [1]])) final ∧
      final.Done (sides [[1]] [[1, 2, 3, 4, 5, 6, 7, 8, 9, 10]]) := by
  have facing : List.Forall₂ Faces [.send [1, 2, 3, 4, 5, 6, 7, 8, 9, 10], .recv []]
      [.recv [], .send [1]] :=
    .cons (.inl ⟨_, rfl, rfl⟩) (.cons (.inr ⟨_, rfl, rfl⟩) .nil)
  obtain ⟨final, path, done⟩ := (facing_complete_iff (fun _ => .zeroed) 8 (fun _ => 8)
    (sides [.send [1, 2, 3, 4, 5, 6, 7, 8, 9, 10], .recv []] [.recv [], .send [1]]) Sized.eight
    (fun side => by cases side <;> simp [sides]) facing).mpr
    (fun _ _ _ => .inr fun _ => Nat.le_refl _) _ (Reaches.refl _ _)
  refine ⟨final, path, fun side => ?_⟩
  cases side
  · exact done .left
  · exact done .right

end GaiaNet.Mem
