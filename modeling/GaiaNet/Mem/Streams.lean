import GaiaNet.Mem.Duplex

/-! The two ends of a pair as programs over queues of bytes: what an end still writes,
what it still waits for, and that the rings behave as these queues. -/

namespace GaiaNet.Mem

open Lib Lib.Chunks Lib.Duplex Lib.Transition

/-- A message as it passes through a ring. -/
def frame (body : Bytes) : Bytes := LittleEndian.encode 4 body.length ++ body

def stream (messages : List Bytes) : Bytes := messages.flatMap frame

theorem length_frame (body : Bytes) : (frame body).length = 4 + body.length := by
  simp [frame]

@[simp] theorem stream_nil : stream [] = [] := rfl

@[simp] theorem stream_cons (body : Bytes) (rest : List Bytes) :
    stream (body :: rest) = frame body ++ stream rest := rfl

@[simp] theorem stream_append (messages more : List Bytes) :
    stream (messages ++ more) = stream messages ++ stream more :=
  List.flatMap_append

/-- The chunks still to come make up the rest of the body. -/
theorem flatten_chunksAfter (positive : 0 < size) (body : Bytes) (index : Nat) :
    (chunksAfter size body index).flatten = body.drop (index * size) := by
  induction left : chunkCount size body.length - index generalizing index with
  | zero =>
    have done := lt_chunkCount index body.length positive
    rw [chunksAfter_of_le (by omega), List.drop_eq_nil_of_le (by omega)]
    rfl
  | succ left ih =>
    have step : (index + 1) * size = index * size + size := Nat.succ_mul index size
    rw [chunksAfter_of_lt (by omega), List.flatten_cons, ih (index + 1) (by omega), chunk, step,
      ← List.drop_drop, List.take_append_drop]

/-- The bytes of the segments do not depend on the chunk size. -/
theorem flatten_frames (positive : 0 < size) (messages : List Bytes) :
    (frames size messages).flatten = stream messages := by
  induction messages with
  | nil => rfl
  | cons body rest ih =>
    rw [frames_cons, List.flatten_cons, List.flatten_append, flatten_chunksAfter positive, ih,
      Nat.zero_mul, List.drop_zero, stream_cons, frame, List.append_assoc]

/-- The messages that the calls of a script send. -/
def sent (script : List Call) : List Bytes :=
  script.filterMap fun
    | .send body => some body
    | _ => none

@[simp] theorem sent_nil : sent [] = [] := rfl

@[simp] theorem sent_send (body : Bytes) (rest : List Call) :
    sent (.send body :: rest) = body :: sent rest := rfl

@[simp] theorem sent_recv (str : Bytes) (rest : List Call) : sent (.recv str :: rest) = sent rest :=
  rfl

@[simp] theorem sent_recvInto (buf : RawString) (rest : List Call) :
    sent (.recvInto buf :: rest) = sent rest := rfl

/-- The end writes exactly these bytes from now on, if it gets to the end of its script. -/
def Endpoint.Emits (size : Nat) (endpoint : Endpoint) (out : Bytes) : Prop :=
  (∀ body ∈ sent endpoint.script, body.length ≤ 2 ^ 31) ∧
    match endpoint.running with
    | .sending producer => ∃ ahead, producer.Sends size ahead ∧
        out = ahead.flatten ++ stream (sent endpoint.script)
    | _ => out = stream (sent endpoint.script)

/-- The end has received a prefix of the messages and the rest of them is what it reads
from now on; an aborted end has met a message of another length than its buffer. -/
def Endpoint.Awaits (size : Nat) (messages : List Bytes) (endpoint : Endpoint)
    (awaited : Bytes) : Prop :=
  (∀ body ∈ messages, body.length ≤ 2 ^ 31) ∧
    match endpoint.running with
    | .receiving consumer => ∃ ahead, consumer.Expects size messages ahead ∧
        awaited = ahead.flatten
    | .aborted buf => ∃ done body rest, endpoint.returned = done.map (List.map some) ∧
        messages = done ++ body :: rest ∧ buf.length ≠ body.length
    | _ => ∃ done rest, endpoint.returned = done.map (List.map some) ∧ messages = done ++ rest ∧
        awaited = stream rest

/-- The action as a move over queues. -/
def Action.move : Action σ → Option (Move σ UInt8)
  | .write buf len next => some (.write (buf.take len.toNat) next)
  | .read len next => some (.read len.toNat next)
  | .local next => some (.silent next)
  | .outside => none

def Endpoint.move (chunkSize : UInt32) (endpoint : Endpoint) : Option (Move Endpoint UInt8) :=
  (endpoint.action chunkSize).bind Action.move

theorem Consumer.action_none {consumer : Consumer} (ended : consumer.action chunkSize = none) :
    consumer.pc = .idle ∧ consumer.todo = [] := by
  cases pc : consumer.pc with
  | idle =>
    cases todo : consumer.todo with
    | nil => exact ⟨rfl, rfl⟩
    | cons str rest => simp [Consumer.action, pc, todo] at ended
  | chunks str loop =>
    simp only [Consumer.action, pc] at ended
    split at ended
    · split at ended <;> cases ended
    · cases ended

/-- Calls of `send` still to begin count twice, a running one once. -/
def Producer.weight (producer : Producer) : Nat :=
  2 * producer.todo.length + match producer.pc with
    | .idle => 0
    | .chunks _ _ => 1

def Consumer.weight (consumer : Consumer) : Nat :=
  2 * consumer.todo.length + match consumer.pc with
    | .idle => 0
    | .chunks _ _ => 1

def Endpoint.weight (endpoint : Endpoint) : Nat :=
  4 * endpoint.script.length + match endpoint.running with
    | .idle => 0
    | .sending producer => 1 + producer.weight
    | .receiving consumer => 1 + consumer.weight
    | .header _ => 3
    | .aborted _ => 0

theorem Producer.action_weight (producer : Producer) (chunkSize : UInt32) :
    match producer.action chunkSize with
    | some (.write _ _ next) => next.weight ≤ producer.weight
    | some (.local next) => next.weight < producer.weight
    | _ => True := by
  cases pc : producer.pc with
  | idle =>
    cases todo : producer.todo with
    | nil => simp [Producer.action, pc, todo]
    | cons body rest =>
      simp only [Producer.action, pc, todo, Producer.weight, List.length_cons]
      omega
  | chunks body loop =>
    simp only [Producer.action, pc]
    split
    · rename_i chosen
      split at chosen
      · split at chosen
        · cases chosen
          simp [Producer.weight, pc]
        · cases chosen
      · cases chosen
    · rename_i chosen
      split at chosen
      · split at chosen <;> cases chosen
      · cases chosen
        simp [Producer.weight, pc]
    · trivial

theorem Consumer.action_weight (consumer : Consumer) (chunkSize : UInt32) :
    match consumer.action chunkSize with
    | some (.read _ next) => ∀ bytes, (next bytes).weight ≤ consumer.weight
    | some (.local next) => next.weight < consumer.weight
    | _ => True := by
  cases pc : consumer.pc with
  | idle =>
    cases todo : consumer.todo with
    | nil => simp [Consumer.action, pc, todo]
    | cons str rest =>
      simp only [Consumer.action, pc, todo, Consumer.weight, List.length_cons]
      intro bytes
      omega
  | chunks str loop =>
    simp only [Consumer.action, pc]
    split
    · rename_i chosen
      split at chosen
      · split at chosen
        · cases chosen
          simp [Consumer.weight, pc]
        · cases chosen
      · cases chosen
    · rename_i chosen
      split at chosen
      · split at chosen <;> cases chosen
      · cases chosen
        simp [Consumer.weight, pc]
    · trivial

/-- What both relations say of an end together. -/
structure Endpoint.Talks (size : Nat) (messages : List Bytes) (endpoint : Endpoint)
    (out awaited : Bytes) : Prop where
  emits : endpoint.Emits size out
  awaits : endpoint.Awaits size messages awaited

namespace Endpoint.Talks

variable {endpoint : Endpoint} {size : Nat} {messages : List Bytes} {out awaited : Bytes}

theorem begin (talks : endpoint.Talks size messages out awaited) (positive : 0 < size)
    (idle : endpoint.running = .idle) (next : endpoint.script = call :: rest) :
    (endpoint.begin rest call).Talks size messages out awaited := by
  obtain ⟨⟨small, emits⟩, short, awaits⟩ := talks
  simp only [idle] at emits awaits
  rw [next] at small emits
  cases call with
  | send body =>
    refine ⟨⟨fun other member => small other (List.mem_cons_of_mem body member), ?_⟩, short, awaits⟩
    refine ⟨frames size [body], ⟨fun other member => small other ?_, rfl⟩, ?_⟩
    · rw [List.mem_singleton.mp member]
      exact List.mem_cons_self
    · rw [emits, flatten_frames positive, ← stream_append]
      rfl
  | recv str =>
    obtain ⟨done, left, returned, whole, same⟩ := awaits
    refine ⟨⟨small, emits⟩, short, frames size left, ⟨short, done, left, returned, whole, rfl⟩, ?_⟩
    rw [same, flatten_frames positive]
  | recvInto buf => exact ⟨⟨small, emits⟩, short, awaits⟩

/-- The length of the next message, read by `recv(void*, length)`. -/
theorem assertLength {chunkSize : UInt32} (legal : LegalSize chunkSize)
    (talks : endpoint.Talks chunkSize.toNat messages out (data ++ rest))
    (header : endpoint.running = .header buf) (length : data.length = 4) :
    (endpoint.assertLength chunkSize buf data).Talks chunkSize.toNat messages out rest := by
  have low := legal.low
  have high := legal.high
  obtain ⟨⟨small, emits⟩, short, awaits⟩ := talks
  simp only [header] at emits awaits
  obtain ⟨done, left, returned, whole, same⟩ := awaits
  cases left with
  | nil =>
    have none := congrArg List.length same
    simp [length] at none
  | cons body left =>
    have bodyShort : body.length ≤ 2 ^ 31 := short body (by simp [whole])
    rw [stream_cons, frame, List.append_assoc] at same
    obtain ⟨head, tail⟩ := List.append_inj same (by rw [length, LittleEndian.length_encode])
    have decoded : LittleEndian.decode data = body.length := by
      rw [head, LittleEndian.decode_encode]
      omega
    by_cases agree : body.length = buf.length
    · rw [Endpoint.assertLength, decoded, if_pos agree]
      refine ⟨⟨small, emits⟩, short, chunksAfter chunkSize.toNat body 0 ++
        frames chunkSize.toNat left, ?_, ?_⟩
      · refine ⟨short, done, left, returned, body, 0, whole, ?_, agree.symm, ?_, rfl⟩
        · rw [← agree]
          exact ChunkLoop.At.start legal (by omega)
        · simp
      · rw [tail, List.flatten_append, flatten_chunksAfter (by omega), flatten_frames (by omega),
          Nat.zero_mul, List.drop_zero]
    · rw [Endpoint.assertLength, decoded, if_neg agree]
      exact ⟨⟨small, emits⟩, short, done, body, left, returned, whole, Ne.symm agree⟩

/-- The next action of an end, which `weight` measures where it moves nothing. -/
theorem action {chunkSize : UInt32} (legal : LegalSize chunkSize)
    (talks : endpoint.Talks chunkSize.toNat messages out awaited) :
    match endpoint.action chunkSize with
    | none => (endpoint.running = .idle ∧ endpoint.script = []) ∨ ∃ buf, endpoint.running = .aborted buf
    | some (.write buf len next) => 0 < len.toNat ∧ len ≤ chunkSize ∧ len.toNat ≤ buf.length ∧
        next.weight ≤ endpoint.weight ∧ ∃ rest, out = buf.take len.toNat ++ rest ∧
          next.Talks chunkSize.toNat messages rest awaited
    | some (.read len next) => 0 < len.toNat ∧ (∀ data, (next data).weight ≤ endpoint.weight) ∧
        ∀ data rest, data.length = len.toNat → awaited = data ++ rest →
          (next data).Talks chunkSize.toNat messages out rest
    | some (.local next) => next.weight < endpoint.weight ∧
        next.Talks chunkSize.toNat messages out awaited
    | some .outside => False := by
  have positive : 0 < chunkSize.toNat := by
    have low := legal.low
    omega
  cases running : endpoint.running with
  | idle =>
    cases script : endpoint.script with
    | nil => simp [Endpoint.action, running, script]
    | cons call rest =>
      simp only [Endpoint.action, running, script]
      refine ⟨?_, talks.begin positive running script⟩
      cases call <;>
        simp only [Endpoint.begin, Endpoint.weight, running, script, Producer.weight,
          Consumer.weight, List.length_cons, List.length_nil] <;>
        omega
  | sending producer =>
    obtain ⟨⟨small, emits⟩, short, awaits⟩ := talks
    simp only [running] at emits awaits
    obtain ⟨ahead, sends, same⟩ := emits
    have step := sends.action legal
    have weight := producer.action_weight chunkSize
    simp only [Endpoint.action, running]
    cases chosen : producer.action chunkSize with
    | none =>
      rw [chosen] at step
      refine ⟨?_, ⟨small, ?_⟩, short, awaits⟩
      · simp only [Endpoint.weight, running]
        omega
      · rw [same, step]
        rfl
    | some action =>
      rw [chosen] at step weight
      cases action with
      | write buf len next =>
        obtain ⟨rest, split, enough, some_, legalLen, later⟩ := step
        simp only [Action.map]
        refine ⟨some_, legalLen, enough, ?_, rest.flatten ++ stream (sent endpoint.script), ?_, ?_⟩
        · simp only [Endpoint.weight, running]
          omega
        · rw [same, split, List.flatten_cons, List.append_assoc]
        · exact ⟨⟨small, rest, later, rfl⟩, short, awaits⟩
      | read len next => exact step.elim
      | «local» next =>
        simp only [Action.map]
        refine ⟨?_, ⟨small, ahead, step, same⟩, short, awaits⟩
        simp only [Endpoint.weight, running]
        omega
      | outside => exact step.elim
  | receiving consumer =>
    obtain ⟨⟨small, emits⟩, short, awaits⟩ := talks
    simp only [running] at emits awaits
    obtain ⟨ahead, expects, same⟩ := awaits
    have step := expects.action legal
    have weight := consumer.action_weight chunkSize
    simp only [Endpoint.action, running]
    cases chosen : consumer.action chunkSize with
    | none =>
      obtain ⟨-, done, rest, returned, position⟩ := expects
      simp only [(Consumer.action_none chosen).1] at position
      refine ⟨?_, ⟨small, emits⟩, short, done, rest, returned, position.1, ?_⟩
      · simp only [Endpoint.weight, running]
        omega
      · rw [same, position.2, flatten_frames positive]
    | some action =>
      rw [chosen] at step weight
      cases action with
      | read len next =>
        obtain ⟨some_, taken⟩ := step
        simp only [Action.map]
        refine ⟨some_, ?_, ?_⟩
        · intro data
          have lighter := weight data
          simp only [Endpoint.weight, running]
          omega
        · intro data rest length split
          cases ahead with
          | nil =>
            have none := congrArg List.length (same.symm.trans split)
            simp [length] at none
            omega
          | cons segment later =>
            obtain ⟨whole, next⟩ := taken segment later rfl
            rw [same, List.flatten_cons] at split
            obtain ⟨rfl, rfl⟩ := List.append_inj split (by rw [length, whole])
            exact ⟨⟨small, emits⟩, short, later, next, rfl⟩
      | write buf len next => exact step.elim
      | «local» next =>
        simp only [Action.map]
        refine ⟨?_, ⟨small, emits⟩, short, ahead, step, same⟩
        simp only [Endpoint.weight, running]
        omega
      | outside => exact step.elim
  | header buf =>
    have four : (4 : UInt32).toNat = 4 := rfl
    simp only [Endpoint.action, running]
    refine ⟨by omega, ?_, ?_⟩
    · intro data
      unfold Endpoint.assertLength
      split <;> simp [Endpoint.weight, running, Consumer.weight]
    · intro data rest length split
      rw [split] at talks
      exact talks.assertLength legal running length
  | aborted buf => simp [Endpoint.action, running]

end Endpoint.Talks

/-- Both ends as programs over queues. -/
def moves (chunkSize : Side → UInt32) (side : Side) (endpoint : Endpoint) :
    Option (Move Endpoint UInt8) :=
  endpoint.move (chunkSize side)

/-- What both ends still write and wait for; each is to receive the given messages. -/
def Talking (chunkSize : Side → UInt32) (messages : Side → List Bytes) (side : Side)
    (endpoint : Endpoint) : Bytes → Bytes → Prop :=
  endpoint.Talks (chunkSize side).toNat (messages side)

section

variable {chunkSize : Side → UInt32} {messages : Side → List Bytes}

theorem talking_follows (legal : ∀ side, LegalSize (chunkSize side)) :
    Net.Follows (moves chunkSize) (Talking chunkSize messages) := by
  intro side endpoint out awaited talks
  have step := Endpoint.Talks.action (legal side) talks
  unfold moves Endpoint.move
  cases chosen : endpoint.action (chunkSize side) with
  | none => trivial
  | some action =>
    rw [chosen] at step
    cases action with
    | write buf len next =>
      obtain ⟨-, -, -, -, rest, split, later⟩ := step
      exact ⟨rest, split, later⟩
    | read len next => exact step.2.2
    | «local» next => exact step.2
    | outside => exact step.elim

theorem talking_works (legal : ∀ side, LegalSize (chunkSize side)) :
    Net.Works (moves chunkSize) (Talking chunkSize messages) Endpoint.weight := by
  intro side endpoint out awaited talks
  have step := Endpoint.Talks.action (legal side) talks
  unfold moves Endpoint.move
  cases chosen : endpoint.action (chunkSize side) with
  | none => trivial
  | some action =>
    rw [chosen] at step
    cases action with
    | write buf len next =>
      obtain ⟨positive, -, enough, lighter, -⟩ := step
      refine ⟨?_, lighter⟩
      rw [List.length_take]
      omega
    | read len next => exact ⟨step.1, fun data _ => step.2.1 data⟩
    | «local» next => exact step.1
    | outside => exact step.elim

end

/-- `can_put` is right also for a length beyond the segment, which never fits. -/
theorem Represents.canPut_iff_of_legal (rep : Represents view consumed queued)
    (legal : LegalSize chunkSize) (small : len ≤ chunkSize) :
    view.canPut len = true ↔ queued.length + len.toNat ≤ view.bufSize.toNat := by
  have bound := rep.bufSize_le
  have fits := rep.fits
  have high := legal.high
  rw [UInt32.le_iff_toNat_le] at small
  rw [SharedMemoryView.canPut, decide_eq_true_iff, UInt32.le_iff_toNat_le, UInt32.toNat_add,
    rep.stored]
  omega

theorem Duplex.next_eq {duplex : Duplex}
    (chosen : (duplex.endpoint side).action (chunkSize side) = some action) :
    duplex.next chunkSize side =
      (action.perform (duplex.ring (action.ring side))).map fun (view, endpoint) =>
        ⟨Function.update duplex.endpoint side endpoint,
          Function.update duplex.ring (action.ring side) view⟩ := by
  simp only [Duplex.next, chosen, Option.bind_eq_bind, Option.bind_some]
  cases action.perform (duplex.ring (action.ring side)) <;> rfl

theorem Duplex.next_none {duplex : Duplex}
    (chosen : (duplex.endpoint side).action (chunkSize side) = none) :
    duplex.next chunkSize side = none := by
  simp only [Duplex.next, chosen]
  rfl

/-- The rings hold what is in the queues. -/
structure Duplex.Refines (bufSize : UInt32) (duplex : Duplex) (net : Net Endpoint UInt8) : Prop where
  program : net.program = duplex.endpoint
  sized : ∀ side, (duplex.ring side).bufSize = bufSize
  queue : ∀ side, ∃ consumed, Represents (duplex.ring side) consumed (net.queue side)

namespace Duplex.Refines

variable {bufSize : UInt32} {chunkSize : Side → UInt32} {messages : Side → List Bytes}
  {duplex : Duplex} {net : Net Endpoint UInt8} {out : Side → Bytes}

/-- A segment changes together with its queue. -/
theorem update (refines : duplex.Refines bufSize net) (side target : Side) (endpoint : Endpoint)
    (sized : view.bufSize = bufSize) (queue : Represents view consumed queued) :
    Duplex.Refines bufSize
      ⟨Function.update duplex.endpoint side endpoint, Function.update duplex.ring target view⟩
      ⟨Function.update net.program side endpoint, Function.update net.queue target queued⟩ := by
  refine ⟨by rw [refines.program], ?_, ?_⟩
  · intro any
    by_cases same : any = target
    · subst any
      simpa using sized
    · simpa [Function.update_of_ne same] using refines.sized any
  · intro any
    by_cases same : any = target
    · subst any
      simpa using ⟨consumed, queue⟩
    · simpa [Function.update_of_ne same] using refines.queue any

/-- A step of an end is a step of its program, and both wait for the same. -/
theorem step (refines : duplex.Refines bufSize net)
    (balanced : Net.Balanced (Talking chunkSize messages) out net)
    (legal : ∀ side, LegalSize (chunkSize side)) (side : Side) :
    Option.Rel (Duplex.Refines bufSize) (duplex.next chunkSize side)
      (net.next bufSize.toNat (moves chunkSize) side) := by
  have spec := Endpoint.Talks.action (legal side) (balanced side)
  have same : net.program side = duplex.endpoint side := by rw [refines.program]
  rw [same] at spec
  unfold Net.next moves Endpoint.move
  rw [same]
  cases chosen : (duplex.endpoint side).action (chunkSize side) with
  | none =>
    rw [Duplex.next_none chosen]
    exact .none
  | some action =>
    rw [chosen] at spec
    rw [Duplex.next_eq chosen]
    cases action with
    | write buf len next =>
      obtain ⟨-, small, enough, -⟩ := spec
      obtain ⟨consumed, queue⟩ := refines.queue side
      have room := queue.canPut_iff_of_legal (legal side) small
      have length : (buf.take len.toNat).length = len.toNat := List.length_take_of_le enough
      rw [refines.sized side] at room
      by_cases fits : (net.queue side).length + len.toNat ≤ bufSize.toNat
      · have put := queue.put buf (by rw [refines.sized side]; exact fits) enough
        simp only [Option.bind_some, Action.move, Action.perform, Action.ring, room.mpr fits,
          length, fits, ↓reduceIte, Option.map_some]
        exact .some (refines.update side side next (refines.sized side) put)
      · have full : ¬ (duplex.ring side).canPut len = true := fun can => fits (room.mp can)
        simpa [Action.move, Action.perform, Action.ring, full, length, fits] using Option.Rel.none
    | read len next =>
      obtain ⟨consumed, queue⟩ := refines.queue side.other
      have stored : (duplex.ring side.other).canGet len = true ↔ _ := queue.canGet_iff
      by_cases ready : len.toNat ≤ (net.queue side.other).length
      · obtain ⟨bytes, got⟩ := queue.get ready
        simp only [Option.bind_some, Action.move, Action.perform, Action.ring, stored.mpr ready,
          ready, ↓reduceIte, Option.map_some, ← bytes]
        exact .some (refines.update side side.other _ (refines.sized side.other) got)
      · have short : ¬ (duplex.ring side.other).canGet len = true :=
          fun can => ready (stored.mp can)
        simpa [Action.move, Action.perform, Action.ring, short, ready] using Option.Rel.none
    | «local» next =>
      obtain ⟨consumed, queue⟩ := refines.queue side
      have kept := refines.update side side next (refines.sized side) queue
      simpa [Action.move, Action.perform, Action.ring] using Option.Rel.some kept
    | outside => exact spec.elim

end Duplex.Refines

/-- Rings and queues side by side, with what both ends still have to say. -/
def Coupled (bufSize : UInt32) (chunkSize : Side → UInt32) (messages : Side → List Bytes)
    (duplex : Duplex) (net : Net Endpoint UInt8) : Prop :=
  duplex.Refines bufSize net ∧ ∃ out, Net.Balanced (Talking chunkSize messages) out net

section

variable {bufSize : UInt32} {chunkSize : Side → UInt32} {messages : Side → List Bytes}

theorem coupled_step (legal : ∀ side, LegalSize (chunkSize side)) (side : Side) (duplex : Duplex)
    (net : Net Endpoint UInt8) (coupled : Coupled bufSize chunkSize messages duplex net) :
    Option.Rel (Coupled bufSize chunkSize messages) (duplex.next chunkSize side)
      (net.next bufSize.toNat (moves chunkSize) side) := by
  obtain ⟨refines, out, balanced⟩ := coupled
  have step := refines.step balanced legal side
  generalize duplex.next chunkSize side = reached at step ⊢
  generalize moved : net.next bufSize.toNat (moves chunkSize) side = later at step ⊢
  cases step with
  | none => exact .none
  | some refined =>
    obtain ⟨rest, kept, -, -⟩ := balanced.moved (talking_follows legal) (Net.next_moved moved)
    exact .some ⟨refined, rest, kept⟩

/-- What the completed calls of `recv` have left in their arguments. -/
def Endpoint.results (endpoint : Endpoint) : List RawString :=
  match endpoint.running with
  | .receiving consumer => consumer.returned
  | _ => endpoint.returned

/-- Two idle ends and two empty queues. -/
def startNet (script : Side → List Call) : Net Endpoint UInt8 where
  program side := { script := script side, running := .idle, returned := [], stats := .zero }
  queue _ := []

/-- The messages that the other end's script sends. -/
def incoming (script : Side → List Call) (side : Side) : List Bytes := sent (script side.other)

theorem coupled_start (segment : Side → SharedMemoryView) (script : Side → List Call)
    (low : 3 ≤ exponent) (high : exponent ≤ 30) (size : bufSize.toNat = 2 ^ exponent)
    (short : ∀ side, ∀ body ∈ sent (script side), body.length ≤ 2 ^ 31) :
    Coupled bufSize chunkSize (incoming script) (Duplex.start segment bufSize script)
      (startNet script) := by
  refine ⟨⟨rfl, fun side => rfl, fun side => ⟨0, ?_⟩⟩, fun side => stream (sent (script side)), ?_⟩
  · exact Represents.init (segment side) low high size
  · intro side
    exact ⟨⟨short side, rfl⟩, short side.other, [], incoming script side, rfl, rfl, rfl⟩

theorem Endpoint.Talks.delivered {endpoint : Endpoint} {messages : List Bytes}
    (talks : endpoint.Talks size messages out awaited) :
    endpoint.results <+: messages.map (List.map some) := by
  obtain ⟨-, -, awaits⟩ := talks
  unfold Endpoint.results
  cases running : endpoint.running with
  | receiving consumer =>
    simp only [running] at awaits ⊢
    obtain ⟨ahead, ⟨-, done, rest, returned, position⟩, -⟩ := awaits
    rw [returned]
    cases pc : consumer.pc with
    | idle =>
      simp only [pc] at position
      rw [position.1, List.map_append]
      exact List.prefix_append _ _
    | chunks str loop =>
      simp only [pc] at position
      obtain ⟨body, -, whole, -⟩ := position
      rw [whole, List.map_append]
      exact List.prefix_append _ _
  | idle | sending producer | header buf =>
    simp only [running] at awaits ⊢
    obtain ⟨done, rest, returned, whole, -⟩ := awaits
    rw [returned, whole, List.map_append]
    exact List.prefix_append _ _
  | aborted buf =>
    simp only [running] at awaits ⊢
    obtain ⟨done, body, rest, returned, whole, -⟩ := awaits
    rw [returned, whole, List.map_append]
    exact List.prefix_append _ _

/-- What holds of an end in every run: it has received a prefix of what the other end
sends, it stays inside its buffers, and it only aborts at a message of another length. -/
structure Endpoint.Safe (chunkSize : UInt32) (messages : List Bytes) (endpoint : Endpoint) :
    Prop where
  delivered : endpoint.results <+: messages.map (List.map some)
  inside : endpoint.action chunkSize ≠ some .outside
  aborted : ∀ buf, endpoint.running = .aborted buf →
    ∃ body, messages[endpoint.results.length]? = some body ∧ buf.length ≠ body.length

theorem Endpoint.Talks.safe {endpoint : Endpoint} {chunkSize : UInt32} {messages : List Bytes}
    (talks : endpoint.Talks chunkSize.toNat messages out awaited) (legal : LegalSize chunkSize) :
    endpoint.Safe chunkSize messages := by
  refine ⟨talks.delivered, ?_, ?_⟩
  · intro outside
    have step := talks.action legal
    rw [outside] at step
    exact step
  · intro buf running
    obtain ⟨-, -, awaits⟩ := talks
    simp only [running] at awaits
    obtain ⟨done, body, rest, returned, whole, differ⟩ := awaits
    refine ⟨body, ?_, differ⟩
    simp [Endpoint.results, running, returned, whole]

/-- Full duplex, any two scripts: whatever both ends do in whatever order, each receives
the other's messages in order and intact, inside the buffers it was given. -/
theorem duplex_safe (segment : Side → SharedMemoryView) (bufSize : UInt32) (exponent : Nat)
    (chunkSize : Side → UInt32) (script : Side → List Call) (duplex : Duplex)
    (low : 3 ≤ exponent) (high : exponent ≤ 30) (size : bufSize.toNat = 2 ^ exponent)
    (legal : ∀ side, LegalSize (chunkSize side))
    (short : ∀ side, ∀ body ∈ sent (script side), body.length ≤ 2 ^ 31)
    (path : Reaches (Duplex.next chunkSize) (Duplex.start segment bufSize script) duplex)
    (side : Side) :
    (duplex.endpoint side).Safe (chunkSize side) (sent (script side.other)) := by
  have start : Coupled bufSize chunkSize (incoming script) _ _ :=
    coupled_start segment script low high size short
  obtain ⟨net, -, refines, out, balanced⟩ :=
    reaches_lockstep (Coupled bufSize chunkSize (incoming script)) (coupled_step legal) start path
  have talks := balanced side
  rw [refines.program] at talks
  exact Endpoint.Talks.safe talks (legal side)

/-- Three bytes and an empty message cross a pair of eight bytes each way. -/
theorem duplex_safe_three :
    ∃ duplex : Duplex, (duplex.endpoint .right).results = [[some 1, some 2, some 3]] ∧
      (duplex.endpoint .right).Safe 8 [[1, 2, 3]] := by
  have ran : (run (Duplex.next fun _ => 8)
      [.left, .left, .left, .right, .right, .right, .right, .right, .left, .left, .right, .right]
      (Duplex.start (fun _ => .zeroed) 8
        (sides [.send [1, 2, 3], .recv [9]] [.recvInto [none, none, none], .send []]))).map
      (fun duplex => (duplex.endpoint .right).results) = some [[some 1, some 2, some 3]] := by
    decide +kernel
  obtain ⟨duplex, finished, same⟩ := Option.map_eq_some_iff.mp ran
  refine ⟨duplex, same, duplex_safe _ 8 3 _ _ duplex (by decide) (by decide) rfl
    (fun _ => ⟨by decide, by decide⟩) (fun side => ?_) (Reaches.ofRun _ finished) .right⟩
  cases side <;> simp [sides]

/-- The order of the steps decides nothing: where one run comes to a halt, every run does,
after as many steps and with both ends in the same state. -/
theorem duplex_order_irrelevant (segment : Side → SharedMemoryView) (bufSize : UInt32)
    (exponent : Nat) (chunkSize : Side → UInt32) (script : Side → List Call)
    (labels more : List Side) (final other : Duplex)
    (low : 3 ≤ exponent) (high : exponent ≤ 30) (size : bufSize.toNat = 2 ^ exponent)
    (legal : ∀ side, LegalSize (chunkSize side))
    (short : ∀ side, ∀ body ∈ sent (script side), body.length ≤ 2 ^ 31)
    (ran : run (Duplex.next chunkSize) labels (Duplex.start segment bufSize script) = some final)
    (halted : Halted (Duplex.next chunkSize) final)
    (strayed : run (Duplex.next chunkSize) more (Duplex.start segment bufSize script) = some other) :
    ∃ rest last, run (Duplex.next chunkSize) rest other = some last ∧
      more.length + rest.length = labels.length ∧ last.endpoint = final.endpoint := by
  have start : Coupled bufSize chunkSize (incoming script) _ _ :=
    coupled_start segment script low high size short
  have step := @coupled_step bufSize chunkSize (incoming script) legal
  obtain ⟨goal, reached, atGoal⟩ := run_lockstep_left _ step labels start ran
  obtain ⟨net, moved, atOther⟩ := run_lockstep_left _ step more start strayed
  have stops := (halted_lockstep _ step atGoal).mp halted
  obtain ⟨rest, finished, lengths⟩ :=
    (Net.commutes bufSize.toNat (moves chunkSize)).completes labels more reached stops moved
  obtain ⟨last, realized, atLast⟩ := run_lockstep_right _ step rest atOther finished
  refine ⟨rest, last, realized, lengths, ?_⟩
  rw [← atLast.1.program, atGoal.1.program]

/-- The same calls begun by the other end first. -/
theorem duplex_order_irrelevant_three :
    ∃ last : Duplex, (last.endpoint .right).returned = [[some 1, some 2, some 3]] ∧
      (last.endpoint .right).script = [] := by
  have ran : (run (Duplex.next fun _ => 8)
      [.left, .left, .left, .left, .left, .right, .right, .right, .right, .right]
      (Duplex.start (fun _ => .zeroed) 8 (sides [.send [1, 2, 3]] [.recv [9]]))).map
      (fun duplex => ((duplex.endpoint .right).returned, (duplex.endpoint .right).script.length,
        (duplex.next (fun _ => 8) .left).isNone, (duplex.next (fun _ => 8) .right).isNone)) =
      some ([[some 1, some 2, some 3]], 0, true, true) := by
    decide +kernel
  have strayed : (run (Duplex.next fun _ => 8) [.right, .left, .left]
      (Duplex.start (fun _ => .zeroed) 8 (sides [.send [1, 2, 3]] [.recv [9]]))).isSome = true := by
    decide +kernel
  obtain ⟨final, finished, same⟩ := Option.map_eq_some_iff.mp ran
  obtain ⟨other, moved⟩ := Option.isSome_iff_exists.mp strayed
  simp only [Prod.mk.injEq, Option.isNone_iff_eq_none] at same
  obtain ⟨results, calls, left, right⟩ := same
  obtain ⟨rest, last, -, -, ends⟩ := duplex_order_irrelevant _ 8 3 _ _ _ _ final other (by decide)
    (by decide) rfl (fun _ => ⟨by decide, by decide⟩)
    (fun side => by cases side <;> simp [sides]) finished
    (fun side => by cases side <;> assumption) moved
  refine ⟨last, ?_, ?_⟩
  · rw [ends, results]
  · rw [ends, List.length_eq_zero_iff.mp calls]

end

end GaiaNet.Mem
