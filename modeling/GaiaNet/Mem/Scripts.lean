import GaiaNet.Mem.Deadlock
import Mathlib.Data.List.Forall2

/-! Two families of scripts: ends whose calls face each other, and ends that both send
before they receive. -/

namespace GaiaNet.Mem

open Lib Lib.Duplex Lib.Transition

/-- One of two calls sends what the other one receives. -/
def Faces (mine theirs : Call) : Prop :=
  (∃ body, mine = .send body ∧ theirs.accepts body = true) ∨
    ∃ body, theirs = .send body ∧ mine.accepts body = true

/-- Between two messages that nobody has begun to read. -/
def Exchange.between (left right : List Call) (received : Side → List Bytes) : Exchange :=
  ⟨sides left right, fun _ => [], received⟩

/-- What the given scripts add to the received messages. -/
def receivedAfter (left right : List Call) (received : Side → List Bytes) (side : Side) : List Bytes :=
  received side ++ sent (sides left right side.other)

theorem receivedAfter_append (left right moreLeft moreRight : List Call)
    (received : Side → List Bytes) :
    receivedAfter moreLeft moreRight (receivedAfter left right received) =
      receivedAfter (left ++ moreLeft) (right ++ moreRight) received := by
  funext side
  cases side <;> simp [receivedAfter, sides, Side.other, sent, List.filterMap_append]

theorem between_short (left right moreLeft moreRight : List Call) {received : Side → List Bytes}
    (short : (Exchange.between (left ++ moreLeft) (right ++ moreRight) received).Short) :
    (Exchange.between moreLeft moreRight (receivedAfter left right received)).Short := by
  intro side body member
  refine short side body ?_
  cases side <;>
    simpa [Exchange.due, Exchange.between, receivedAfter, sides, Side.other, sent] using member

/-- Two calls that face each other are carried out, whatever the size of the message. -/
theorem Settled.faces {net : Net Endpoint UInt8} {received : Side → List Bytes}
    (clean : Settled (Exchange.between (mine :: left) (theirs :: right) received) net)
    (short : (Exchange.between (mine :: left) (theirs :: right) received).Short)
    (legal : ∀ side, LegalSize (chunkSize side)) (low : 4 ≤ capacity)
    (nested : ∀ side, (chunkSize side).toNat ∣ (chunkSize side.other).toNat ∨
      (chunkSize side.other).toNat ∣ (chunkSize side).toNat)
    (carried : ∀ body ∈ sent [mine] ++ sent [theirs], Carried chunkSize capacity body)
    (faces : Faces mine theirs) :
    ∃ later, Reaches (Net.next capacity (moves chunkSize)) net later ∧
      Settled (Exchange.between left right (receivedAfter [mine] [theirs] received)) later := by
  rcases faces with ⟨body, rfl, accepts⟩ | ⟨body, rfl, accepts⟩
  · obtain ⟨later, path, there⟩ := clean.handOver short legal low (carried body (by simp))
      (nested .left) rfl rfl rfl accepts
    refine ⟨later, path, ?_⟩
    have silent := Exchange.accepts_sent accepts []
    convert there using 1
    unfold Exchange.between
    congr 1
    · funext side
      cases side <;> rfl
    · funext side
      cases side
      · simp [receivedAfter, sides, Side.other, silent]
      · rfl
  · obtain ⟨later, path, there⟩ := clean.handOver short legal low (carried body (by simp))
      (nested .right) rfl rfl rfl accepts
    refine ⟨later, path, ?_⟩
    have silent := Exchange.accepts_sent accepts []
    convert there using 1
    unfold Exchange.between
    congr 1
    · funext side
      cases side <;> rfl
    · funext side
      cases side
      · rfl
      · simp [receivedAfter, sides, Side.other, silent]

theorem Settled.facing {net : Net Endpoint UInt8} {received : Side → List Bytes}
    (facing : List.Forall₂ Faces left right)
    (clean : Settled (Exchange.between left right received) net)
    (short : (Exchange.between left right received).Short)
    (legal : ∀ side, LegalSize (chunkSize side)) (low : 4 ≤ capacity)
    (nested : ∀ side, (chunkSize side).toNat ∣ (chunkSize side.other).toNat ∨
      (chunkSize side.other).toNat ∣ (chunkSize side).toNat)
    (carried : ∀ body ∈ sent left ++ sent right, Carried chunkSize capacity body) :
    ∃ later, Reaches (Net.next capacity (moves chunkSize)) net later ∧
      Settled (Exchange.between [] [] (receivedAfter left right received)) later := by
  induction facing generalizing received net with
  | nil =>
    have same : receivedAfter [] [] received = received := by
      funext side
      cases side <;> exact List.append_nil _
    rw [same]
    exact ⟨net, Reaches.refl _ _, clean⟩
  | @cons mine theirs left right faces _ ih =>
    have split : ∀ (call : Call) rest, sent (call :: rest) = sent [call] ++ sent rest :=
      fun call rest => by cases call <;> rfl
    rw [split mine, split theirs] at carried
    obtain ⟨middle, first, there⟩ := clean.faces short legal low nested
      (fun body member => carried body (by grind)) faces
    obtain ⟨later, rest, after⟩ := ih there (between_short [mine] [theirs] left right short)
      (fun body member => carried body (by grind))
    rw [receivedAfter_append] at after
    exact ⟨later, first.trans rest, after⟩

theorem receivedAfter_start (script : Side → List Call) :
    receivedAfter (script .left) (script .right) (fun _ => []) = incoming script := by
  funext side
  cases side <;> rfl

/-- Ends whose calls face each other one by one. -/
theorem facing_finishes (segment : Side → SharedMemoryView) (script : Side → List Call)
    (sized : Sized bufSize chunkSize)
    (short : ∀ side, ∀ body ∈ sent (script side), body.length ≤ 2 ^ 31)
    (facing : List.Forall₂ Faces (script .left) (script .right))
    (carried : ∀ side, ∀ body ∈ sent (script side), Carried chunkSize bufSize.toNat body)
    (reached : Duplex)
    (path : Reaches (Duplex.next chunkSize) (Duplex.start segment bufSize script) reached) :
    ∃ final, Reaches (Duplex.next chunkSize) reached final ∧ final.Done (incoming script) := by
  have clean : Settled (Exchange.between (script .left) (script .right) fun _ => [])
      (startNet script) := by
    refine ⟨fun side => ?_, fun _ => rfl, fun _ => rfl, fun _ => rfl⟩
    cases side <;> rfl
  have still : (Exchange.between (script .left) (script .right) fun _ => []).Short := by
    intro side body member
    cases side
    · exact short .right body member
    · exact short .left body member
  obtain ⟨net, run, there⟩ := clean.facing facing still sized.legal sized.four_le sized.nested
    (fun body member => (List.mem_append.mp member).elim (carried .left body) (carried .right body))
  rw [receivedAfter_start] at there
  refine sized.finishes segment short run there (fun side => ?_) reached path
  cases side <;> rfl

/-- A round in which both ends send and then receive, with the strings they receive into. -/
structure Round where
  fromLeft : Bytes
  fromRight : Bytes
  leftString : Bytes
  rightString : Bytes

namespace Round

def left (round : Round) : List Call := [.send round.fromLeft, .recv round.leftString]

def right (round : Round) : List Call := [.send round.fromRight, .recv round.rightString]

/-- One of the two messages fits into its segment together with its length. -/
def Passes (capacity : Nat) (round : Round) : Prop :=
  4 + round.fromLeft.length ≤ capacity ∨ 4 + round.fromRight.length ≤ capacity

/-- Both ends of a sequence of rounds. -/
def scripts (rounds : List Round) : Side → List Call :=
  sides (rounds.flatMap left) (rounds.flatMap right)

/-- What a round adds to the received messages. -/
def exchanged (round : Round) (received : Side → List Bytes) : Side → List Bytes :=
  receivedAfter round.left round.right received

end Round

namespace Exchange

open Function Round

variable {capacity : Nat} {received : Side → List Bytes}

/-- The end whose message fits puts it down, takes the other one's from its hands, and the
other end then collects. -/
theorem passes_from (side : Side) (script : Side → List Call)
    (mine : script side = .send body :: .recv str :: rest)
    (theirs : script side.other = .send other :: .recv string :: others)
    (fits : 4 + body.length ≤ capacity) :
    Reaches (Exchange.next capacity) ⟨script, fun _ => [], received⟩ {
      script := update (update script side rest) side.other others
      backlog := fun _ => []
      received := update (update received side (received side ++ [other])) side.other
        (received side.other ++ [body]) } := by
  have apart := side.other_ne
  have room : (stream []).length + (frame body).length ≤ capacity := by
    rw [length_frame]
    simpa using fits
  have first : Exchange.next capacity (.deposit side) ⟨script, fun _ => [], received⟩ =
      some ⟨update script side (.recv str :: rest), update (fun _ => []) side [body], received⟩ := by
    rw [Dealt.next_eq (.deposit side body _ mine room)]
    rfl
  have second : Exchange.next capacity (.handOver side.other)
      ⟨update script side (.recv str :: rest), update (fun _ => []) side [body], received⟩ =
      some ⟨update (update script side rest) side.other (.recv string :: others),
        update (fun _ => []) side [body], update received side (received side ++ [other])⟩ := by
    rw [Dealt.next_eq (.handOver side.other other (.recv string :: others) rest (.recv str)
      (by simpa using theirs) (by simp) (by simp) rfl)]
    simp [update_comm apart]
  have third : Exchange.next capacity (.collect side.other)
      ⟨update (update script side rest) side.other (.recv string :: others),
        update (fun _ => []) side [body], update received side (received side ++ [other])⟩ =
      some ⟨update (update script side rest) side.other others, fun _ => [],
        update (update received side (received side ++ [other])) side.other
          (received side.other ++ [body])⟩ := by
    rw [Dealt.next_eq (.collect side.other (.recv string) others body [] (by simp) (by simp) rfl)]
    have none : update (update (fun _ => []) side [body]) side [] = fun _ => ([] : List Bytes) := by
      rw [update_idem]
      exact update_eq_self side _
    simp [none]
  exact (((Reaches.refl _ _).step first).step second).step third

theorem round_passes (round : Round) (passes : round.Passes capacity) (left right : List Call)
    (received : Side → List Bytes) :
    Reaches (Exchange.next capacity)
      (Exchange.between (round.left ++ left) (round.right ++ right) received)
      (Exchange.between left right (round.exchanged received)) := by
  have after : ∀ {script : Side → List Call} {gained : Side → List Bytes},
      script = sides left right → gained = round.exchanged received →
      Exchange.mk script (fun _ => []) gained = Exchange.between left right (round.exchanged received) := by
    rintro _ _ rfl rfl
    rfl
  rcases passes with fits | fits
  · rw [← after ?_ ?_]
    · exact passes_from .left _ rfl rfl fits
    · funext side
      cases side <;> rfl
    · funext side
      cases side <;> rfl
  · rw [← after ?_ ?_]
    · exact passes_from .right _ rfl rfl fits
    · funext side
      cases side <;> rfl
    · funext side
      cases side <;> rfl

/-- Where neither message fits, both ends stop in their `send`. -/
theorem round_blocks (round : Round) (blocks : ¬ round.Passes capacity) (left right : List Call)
    (received : Side → List Bytes) :
    Halted (Exchange.next capacity)
      (Exchange.between (round.left ++ left) (round.right ++ right) received) := by
  obtain ⟨big, large⟩ := not_or.mp blocks
  intro deal
  have first : ¬ (stream []).length + (frame round.fromLeft).length ≤ capacity := by
    rw [length_frame]
    simpa using big
  have second : ¬ (stream []).length + (frame round.fromRight).length ≤ capacity := by
    rw [length_frame]
    simpa using large
  rcases deal with (_ | _) | (_ | _) | (_ | _)
  · simp only [Exchange.next, between, sides, Round.left, List.cons_append, first, ↓reduceIte]
  · simp only [Exchange.next, between, sides, Round.right, List.cons_append, second, ↓reduceIte]
  · rfl
  · rfl
  · rfl
  · rfl

/-- A run of whole calls passes the rounds up to the first that blocks. -/
theorem rounds_run (rounds : List Round) (capacity : Nat) (received : Side → List Bytes) :
    ∃ exchange, Reaches (Exchange.next capacity)
        (Exchange.between (rounds.flatMap Round.left) (rounds.flatMap Round.right) received)
        exchange ∧
      Halted (Exchange.next capacity) exchange ∧
      (exchange.Finished ↔ ∀ round ∈ rounds, round.Passes capacity) ∧
      (exchange.Finished → exchange.received =
        receivedAfter (rounds.flatMap Round.left) (rounds.flatMap Round.right) received) := by
  induction rounds generalizing received with
  | nil =>
    refine ⟨Exchange.between [] [] received, Reaches.refl _ _, ?_, ?_, ?_⟩
    · rintro ((_ | _) | (_ | _) | (_ | _)) <;> rfl
    · constructor
      · exact fun _ round member => by cases member
      · rintro - (_ | _) <;> rfl
    · intro _
      funext side
      cases side <;> exact (List.append_nil _).symm
  | cons round rounds ih =>
    simp only [List.flatMap_cons, List.forall_mem_cons]
    by_cases passes : round.Passes capacity
    · obtain ⟨exchange, path, halted, finished, gained⟩ := ih (round.exchanged received)
      refine ⟨exchange, (round_passes round passes _ _ received).trans path, halted, ?_, ?_⟩
      · rw [finished]
        exact (and_iff_right passes).symm
      · intro ended
        rw [gained ended, Round.exchanged, receivedAfter_append]
    · refine ⟨_, Reaches.refl _ _, round_blocks round passes _ _ received, ?_, ?_⟩
      · refine ⟨fun finished => ?_, fun all => absurd all.1 passes⟩
        have first := finished .left
        simp [Exchange.between, sides, Round.left] at first
      · intro finished
        have first := finished .left
        simp [Exchange.between, sides, Round.left] at first

end Exchange

theorem Round.scripts_start (rounds : List Round) :
    Exchange.between (rounds.flatMap left) (rounds.flatMap right) (fun _ => []) =
      Exchange.start (scripts rounds) := rfl

/-- Ends that both send before they receive can always get through all their rounds exactly if
in every round one of the two messages fits into the segment with its length. -/
theorem rounds_complete_iff (segment : Side → SharedMemoryView) (bufSize : UInt32)
    (chunkSize : Side → UInt32) (rounds : List Round) (sized : Sized bufSize chunkSize)
    (fits : ∀ side, (chunkSize side).toNat ≤ bufSize.toNat)
    (short : ∀ side, ∀ body ∈ sent (Round.scripts rounds side), body.length ≤ 2 ^ 31) :
    (∀ reached, Reaches (Duplex.next chunkSize)
        (Duplex.start segment bufSize (Round.scripts rounds)) reached →
      ∃ final, Reaches (Duplex.next chunkSize) reached final ∧
        final.Done (incoming (Round.scripts rounds))) ↔
    ∀ round ∈ rounds, round.Passes bufSize.toNat := by
  obtain ⟨exchange, path, halted, finished, gained⟩ :=
    Exchange.rounds_run rounds bufSize.toNat fun _ => []
  rw [Round.scripts_start] at path
  rw [← finished]
  constructor
  · intro returns
    refine Classical.byContradiction fun unfinished => ?_
    obtain ⟨final, realized, done⟩ := returns _ (Reaches.refl _ _)
    exact sized.stuck segment fits short path halted unfinished final done realized
  · intro ended reached strayed
    have all : exchange.received = incoming (Round.scripts rounds) :=
      (gained ended).trans (receivedAfter_start (Round.scripts rounds))
    obtain ⟨net, run, clean, -⟩ := sized.follows fits short path
    rw [← all]
    exact sized.finishes segment short run clean ended reached strayed

/-- Four bytes each way pass segments of eight, five bytes each way do not. -/
theorem rounds_complete_four_not_five :
    (∀ reached, Reaches (Duplex.next fun _ => 8) (Duplex.start (fun _ => .zeroed) 8
        (Round.scripts [⟨[1, 2, 3, 4], [5, 6, 7, 8], [], []⟩])) reached →
      ∃ final, Reaches (Duplex.next fun _ => 8) reached final ∧
        final.Done (incoming (Round.scripts [⟨[1, 2, 3, 4], [5, 6, 7, 8], [], []⟩]))) ∧
    ¬ ∀ reached, Reaches (Duplex.next fun _ => 8) (Duplex.start (fun _ => .zeroed) 8
        (Round.scripts [⟨[1, 2, 3, 4, 5], [1, 2, 3, 4, 5], [], []⟩])) reached →
      ∃ final, Reaches (Duplex.next fun _ => 8) reached final ∧
        final.Done (incoming (Round.scripts [⟨[1, 2, 3, 4, 5], [1, 2, 3, 4, 5], [], []⟩])) := by
  constructor
  · refine (rounds_complete_iff (fun _ => .zeroed) 8 (fun _ => 8) _ Sized.eight
      (fun _ => by decide) ?_).mpr ?_
    · intro side
      cases side <;> simp [Round.scripts, Round.left, Round.right, sides]
    · simp [Round.Passes]
  · refine mt (rounds_complete_iff (fun _ => .zeroed) 8 (fun _ => 8) _ Sized.eight
      (fun _ => by decide) ?_).mp ?_
    · intro side
      cases side <;> simp [Round.scripts, Round.left, Round.right, sides]
    · simp [Round.Passes]

end GaiaNet.Mem
