import GaiaNet.Lib.Transition

/-! Retransmission over streams that replace each other: numbered items, streams that
each repeat a stretch of them, one log all streams append to, and a reader that takes
the next number and skips the others. -/

namespace Lib.Replay

open Lib.Transition

/-- The number a reader waits for once it has read a log. -/
def wanted (log : List Nat) : Nat :=
  log.foldl (fun next i => if i = next then next + 1 else next) 0

@[simp] theorem wanted_nil : wanted [] = 0 := rfl

theorem wanted_snoc (log : List Nat) (i : Nat) :
    wanted (log ++ [i]) = if i = wanted log then wanted log + 1 else wanted log := by
  unfold wanted
  rw [List.foldl_append]
  rfl

theorem wanted_le_snoc (log : List Nat) (i : Nat) : wanted log ≤ wanted (log ++ [i]) := by
  rw [wanted_snoc]
  split <;> omega

theorem wanted_append (log rest : List Nat) : wanted log ≤ wanted (log ++ rest) := by
  induction rest generalizing log with
  | nil => simp
  | cons i rest ih =>
    have one := wanted_le_snoc log i
    have more := ih (log ++ [i])
    rw [List.append_assoc, List.singleton_append] at more
    exact Nat.le_trans one more

theorem wanted_take (log : List Nat) (n : Nat) : wanted (log.take n) ≤ wanted log := by
  have whole := wanted_append (log.take n) (log.drop n)
  rwa [List.take_append_drop] at whole

/-- The items a reader takes who waits for this number. -/
def accepted : Nat → List (Nat × Item) → List Item
  | _, [] => []
  | next, (i, item) :: rest =>
    if i = next then item :: accepted (next + 1) rest else accepted next rest

theorem accepted_append (next : Nat) (log rest : List (Nat × Item)) :
    accepted next (log ++ rest) =
      accepted next log ++ accepted (next + (accepted next log).length) rest := by
  induction log generalizing next with
  | nil => rfl
  | cons entry log ih =>
    obtain ⟨i, item⟩ := entry
    simp only [List.cons_append, accepted]
    split
    · rw [ih, List.cons_append, List.length_cons, Nat.add_right_comm, Nat.add_assoc]
    · exact ih next

/-- No entry is ahead of a reader that has come to it. -/
def Climbs (log : List Nat) : Prop := ∀ n i, log[n]? = some i → i ≤ wanted (log.take n)

theorem Climbs.snoc (climbs : Climbs log) (fits : i ≤ wanted log) : Climbs (log ++ [i]) := by
  intro n j found
  rcases Nat.lt_trichotomy n log.length with old | last | beyond
  · rw [List.getElem?_append_left old] at found
    rw [List.take_append_of_le_length (Nat.le_of_lt old)]
    exact climbs n j found
  · subst last
    simp only [List.getElem?_concat_length, Option.some.injEq] at found
    subst found
    rwa [List.take_left]
  · have absent : (log ++ [i])[n]? = none := by
      rw [List.getElem?_eq_none_iff, List.length_append, List.length_singleton]
      exact beyond
    rw [absent] at found
    cases found

/-- A stream that starts at item `first` and has appended so many numbers to the log. -/
structure Span where
  first : Nat
  appended : Nat
  deriving DecidableEq, Repr

/-- The streams are listed newest first. -/
structure State (Item : Type u) where
  items : List Item
  acked : Nat
  spans : List Span
  log : List Nat

def State.empty : State Item := ⟨[], 0, [], []⟩

inductive Label (Item : Type u) where
  | accept (item : Item)
  | acknowledge
  | openStream
  | append (k : Nat)

/-- A stream opens at the first item that is not acknowledged; only what the newest
stream has appended is acknowledged. -/
def next : Label Item → State Item → Option (State Item)
  | .accept item, state => some { state with items := state.items ++ [item] }
  | .acknowledge, state =>
    match state.spans with
    | [] => none
    | span :: _ =>
      if state.acked < span.first + span.appended then
        some { state with acked := state.acked + 1 }
      else none
  | .openStream, state => some { state with spans := ⟨state.acked, 0⟩ :: state.spans }
  | .append k, state =>
    match state.spans[k]? with
    | none => none
    | some span =>
      if span.first + span.appended < state.items.length then
        some { state with
          spans := state.spans.set k { span with appended := span.appended + 1 }
          log := state.log ++ [span.first + span.appended] }
      else none

/-- Streams append and are acknowledged within what a reader of the log has had. -/
structure Sound (state : State Item) : Prop where
  climbs : Climbs state.log
  spans : ∀ span ∈ state.spans, span.first + span.appended ≤ wanted state.log
  acked : state.acked ≤ wanted state.log
  items : wanted state.log ≤ state.items.length

theorem Sound.empty : Sound (State.empty : State Item) where
  climbs := by simp [Climbs, State.empty]
  spans := by simp [State.empty]
  acked := Nat.le_refl 0
  items := Nat.le_refl 0

theorem Sound.accept {state : State Item} (sound : Sound state) (item : Item) :
    Sound { state with items := state.items ++ [item] } := by
  have more := sound.items
  refine ⟨sound.climbs, sound.spans, sound.acked, ?_⟩
  simp only [List.length_append, List.length_singleton]
  omega

theorem Sound.acknowledge {state : State Item} (sound : Sound state) (member : span ∈ state.spans)
    (early : state.acked < span.first + span.appended) :
    Sound { state with acked := state.acked + 1 } := by
  have within := sound.spans span member
  exact ⟨sound.climbs, sound.spans, Nat.le_trans early within, sound.items⟩

theorem Sound.openStream {state : State Item} (sound : Sound state) :
    Sound { state with spans := ⟨state.acked, 0⟩ :: state.spans } := by
  refine ⟨sound.climbs, ?_, sound.acked, sound.items⟩
  intro span member
  rcases List.mem_cons.mp member with rfl | old
  · exact sound.acked
  · exact sound.spans span old

theorem Sound.append {state : State Item} (sound : Sound state)
    (found : state.spans[k]? = some span)
    (inside : span.first + span.appended < state.items.length) :
    Sound { state with
      spans := state.spans.set k { span with appended := span.appended + 1 }
      log := state.log ++ [span.first + span.appended] } := by
  have within := sound.spans span (List.mem_of_getElem? found)
  have grown := wanted_le_snoc state.log (span.first + span.appended)
  have afterwards := wanted_snoc state.log (span.first + span.appended)
  refine ⟨sound.climbs.snoc within, ?_, Nat.le_trans sound.acked grown, ?_⟩
  · intro other member
    rcases List.mem_or_eq_of_mem_set member with old | rfl
    · exact Nat.le_trans (sound.spans other old) grown
    · simp only
      split at afterwards <;> omega
  · have bound := sound.items
    simp only
    split at afterwards <;> omega

theorem Sound.step {label : Label Item} (sound : Sound before)
    (moved : next label before = some after) : Sound after := by
  cases label with
  | accept item =>
    cases moved
    exact sound.accept item
  | acknowledge =>
    simp only [next] at moved
    split at moved
    · cases moved
    · rename_i span rest same
      split at moved
      · rename_i early
        cases moved
        exact sound.acknowledge (by simp [same]) early
      · cases moved
  | openStream =>
    cases moved
    exact sound.openStream
  | append k =>
    simp only [next] at moved
    split at moved
    · cases moved
    · rename_i span found
      split at moved
      · rename_i inside
        cases moved
        exact sound.append found inside
      · cases moved

/-- Whatever is accepted, acknowledged, opened and appended in whatever order, the log climbs. -/
theorem reaches_sound {state : State Item} (path : Reaches next State.empty state) : Sound state :=
  path.invariant Sound Sound.empty fun _ _ _ sound moved => sound.step moved

/-- What a reader has taken when it has read `n` entries of the log. -/
def State.taken (n : Nat) (state : State Item) : List Item :=
  state.items.take (wanted (state.log.take n))

theorem State.taken_prefix (n : Nat) (state : State Item) : state.taken n <+: state.items :=
  List.take_prefix _ _

end Lib.Replay
