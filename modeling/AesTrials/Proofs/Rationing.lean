import AesTrials.Session.Basic

/-!
# How a stream of words is used up

A workload takes twenty-two words for its keys and its vector and as many more as cover its
additional data. A suite takes one workload and a sweep seven, whatever is run on them. So after any
steps the next material is found at a position that follows from the sizes of additional data alone,
and every word that was taken is in one piece of material only.
-/

namespace AesTrials

open WordStream (wordAt wordsFor bytesAt)

/-- The stream is made of the blocks of its key, in the order of their counters. -/
theorem WordStream.words_of_block (key : ChaCha.Key) (counter : Nat) :
    (List.range' (16 * counter) 16).map (wordAt key) =
      (ChaCha.block key (UInt64.ofNat counter)).toList := by
  apply List.ext_getElem
  · simp
  · intro i inside _
    have small : i < 16 := by simpa using inside
    have quotient : (16 * counter + i) / 16 = counter := by omega
    have remainder : (16 * counter + i) % 16 = i := by omega
    simp [wordAt, quotient, remainder, Vector.get]

/-- A piece of material: the position of its first word and its length in bytes. -/
structure Piece where
  /-- The position in the stream. -/
  start : Nat
  /-- The length in bytes. -/
  length : Nat
deriving DecidableEq, Repr

namespace Piece

/-- The positions of the words that the piece is made of. -/
def positions (piece : Piece) : List Nat := List.range' piece.start (wordsFor piece.length)

/-- The bytes of the words, least significant first, up to the length of the piece. -/
def bytes (key : ChaCha.Key) (piece : Piece) : Bytes :=
  (piece.positions.flatMap fun position => Bytes.ofLittleWord (wordAt key position)).take
    piece.length

theorem bytesAt_eq_bytes (key : ChaCha.Key) (start length : Nat) :
    bytesAt key start length = bytes key ⟨start, length⟩ := by
  simp only [bytesAt, bytes, positions, List.range'_eq_map_range, List.flatMap_map]

end Piece

/-- The pieces of the material of a workload. -/
structure Plan where
  /-- The key of sixteen bytes. -/
  key128 : Piece
  /-- The key of twenty-four bytes. -/
  key192 : Piece
  /-- The key of thirty-two bytes. -/
  key256 : Piece
  /-- The vector. -/
  iv : Piece
  /-- The additional data. -/
  aad : Piece
deriving DecidableEq, Repr

namespace Plan

/-- The plan of a workload whose words begin at a position. -/
def startingAt (position aadSize : Nat) : Plan where
  key128 := ⟨position, 16⟩
  key192 := ⟨position + 4, 24⟩
  key256 := ⟨position + 10, 32⟩
  iv := ⟨position + 18, 16⟩
  aad := ⟨position + 22, aadSize⟩

/-- The pieces in the order in which they are drawn. -/
def pieces (plan : Plan) : List Piece := [plan.key128, plan.key192, plan.key256, plan.iv, plan.aad]

/-- The words of a workload with additional data of a size. -/
def words (aadSize : Nat) : Nat := 22 + wordsFor aadSize

/-- The workload of the pieces, for a payload of a size. -/
def workload (key : ChaCha.Key) (plan : Plan) (payloadSize : Nat) : Workload where
  key128 := plan.key128.bytes key
  key192 := plan.key192.bytes key
  key256 := plan.key256.bytes key
  iv := plan.iv.bytes key
  plaintext := Workload.pattern payloadSize
  aad := plan.aad.bytes key

/-- Drawing a workload reads it as planned and passes over its words. -/
theorem draw_eq (key : ChaCha.Key) (position payloadSize aadSize : Nat) :
    Workload.draw ⟨key, position⟩ payloadSize aadSize =
      ((startingAt position aadSize).workload key payloadSize,
        ⟨key, position + words aadSize⟩) := by
  have next : position + words aadSize = position + 4 + 6 + 8 + 4 + wordsFor aadSize := by
    unfold words
    omega
  rw [next]
  simp only [Workload.draw, WordStream.take, Aes.blockLength, Piece.bytesAt_eq_bytes, workload,
    startingAt, wordsFor, Nat.add_assoc]

/-- The pieces of a plan follow one another without a gap. -/
theorem positions_pieces (position aadSize : Nat) :
    (startingAt position aadSize).pieces.flatMap Piece.positions =
      List.range' position (words aadSize) := by
  have whole : words aadSize = 4 + (6 + (8 + (4 + wordsFor aadSize))) := by
    unfold words
    omega
  rw [whole]
  iterate 4 rw [← List.range'_append_1]
  simp [pieces, startingAt, Piece.positions, wordsFor, Nat.add_assoc]

end Plan

/-- What can be asked of the owner of a stream. -/
inductive Step where
  /-- Draw the inputs of runs. -/
  | prepare (params : Params)
  /-- Run a suite. -/
  | suite (selectors : List Selector) (params : Params)
  /-- Run a sweep. -/
  | sweep (selector : Selector) (params : Params)
deriving DecidableEq, Repr

namespace Step

/-- The stream left. -/
def left (stream : WordStream) : Step → WordStream
  | .prepare params => (Workload.draw stream params.payloadSize params.aadSize).2
  | .suite selectors params => (Suite.jobs stream selectors params).2
  | .sweep selector params => (Sweep.jobs stream selector params).2

/-- How many workloads are drawn, and the size of additional data in each of them. -/
def draws : Step → Nat × Nat
  | .prepare params | .suite _ params => (1, params.aadSize)
  | .sweep _ params => (7, params.aadSize)

/-- The words taken. -/
def words (step : Step) : Nat := step.draws.1 * Plan.words step.draws.2

/-- The plans of some workloads with additional data of the same size, one behind the other. -/
def consecutive (position aadSize : Nat) : Nat → List Plan
  | 0 => []
  | count + 1 =>
    .startingAt position aadSize :: consecutive (position + Plan.words aadSize) aadSize count

/-- The plans of the workloads of a step that begins at a position. -/
def plans (position : Nat) (step : Step) : List Plan :=
  consecutive position step.draws.2 step.draws.1

/-- How many words steps take together. -/
def taken (steps : List Step) : Nat := (steps.map words).foldr (· + ·) 0

/-- The plans of all workloads of steps that begin at a position. -/
def allPlans : Nat → List Step → List Plan
  | _, [] => []
  | position, step :: steps => step.plans position ++ allPlans (position + step.words) steps

end Step

namespace Sweep

/-- The jobs of a sweep read workloads that lie one behind the other. -/
theorem jobsFor_eq (selector : Selector) (params : Params) (key : ChaCha.Key)
    (sizes : List Nat) (position : Nat) :
    jobsFor selector params sizes ⟨key, position⟩ =
      (List.zipWith (fun plan size =>
          Job.ofSelector (plan.workload key size) params.iterations .once selector)
        (Step.consecutive position params.aadSize sizes.length) sizes,
        ⟨key, position + sizes.length * Plan.words params.aadSize⟩) := by
  induction sizes generalizing position with
  | nil => simp [jobsFor, Step.consecutive]
  | cons size sizes ih =>
    have next : position + (sizes.length + 1) * Plan.words params.aadSize =
        position + Plan.words params.aadSize + sizes.length * Plan.words params.aadSize := by
      rw [Nat.succ_mul]
      omega
    simp only [jobsFor, Plan.draw_eq, ih, List.length_cons, next, Step.consecutive,
      List.zipWith_cons_cons]

end Sweep

namespace Step

/-- A step takes its words and leaves the key of the stream. -/
theorem left_eq (key : ChaCha.Key) (position : Nat) (step : Step) :
    step.left ⟨key, position⟩ = ⟨key, position + step.words⟩ := by
  cases step with
  | prepare params | suite selectors params =>
    simp only [left, Suite.jobs, Plan.draw_eq, words, draws, Nat.one_mul]
  | sweep selector params =>
    simp only [left, Sweep.jobs, Sweep.jobsFor_eq, words, draws]
    rfl

/-- Steps take their words one after the other. -/
theorem foldl_left (key : ChaCha.Key) (position : Nat) (steps : List Step) :
    steps.foldl left ⟨key, position⟩ = ⟨key, position + taken steps⟩ := by
  induction steps generalizing position with
  | nil => rfl
  | cons step steps ih =>
    rw [List.foldl_cons, left_eq, ih, taken, taken, List.map_cons, List.foldr_cons, Nat.add_assoc]

/-- Workloads that lie one behind the other leave no gap. -/
theorem positions_consecutive (position aadSize count : Nat) :
    ((consecutive position aadSize count).flatMap Plan.pieces).flatMap Piece.positions =
      List.range' position (count * Plan.words aadSize) := by
  induction count generalizing position with
  | zero => simp [consecutive]
  | succ count ih =>
    rw [consecutive, List.flatMap_cons, List.flatMap_append, Plan.positions_pieces, ih,
      List.range'_append_1, Nat.succ_mul, Nat.add_comm]

/-- The workloads of steps leave no gap. -/
theorem positions_allPlans (position : Nat) (steps : List Step) :
    ((allPlans position steps).flatMap Plan.pieces).flatMap Piece.positions =
      List.range' position (taken steps) := by
  induction steps generalizing position with
  | nil => rfl
  | cons step steps ih =>
    rw [allPlans, List.flatMap_append, List.flatMap_append, plans, positions_consecutive, ih,
      taken, taken, List.map_cons, List.foldr_cons, words, List.range'_append_1]

/-- Steps that draw as many workloads, with additional data of the same sizes, take as many
words. -/
theorem taken_eq_of_draws_eq {steps other : List Step}
    (same : other.map draws = steps.map draws) : taken other = taken steps := by
  have through : words = (fun drawn => drawn.1 * Plan.words drawn.2) ∘ draws := rfl
  rw [taken, taken, through, ← List.map_map, ← List.map_map, same]

end Step

/-- Positions that come one after the other belong to one piece each. -/
theorem Piece.pairwise_disjoint {pieces : List Piece} {count : Nat}
    (whole : pieces.flatMap positions = List.range count) :
    pieces.Pairwise fun first second =>
      ∀ position ∈ first.positions, position ∉ second.positions := by
  have distinct : (pieces.flatMap positions).Nodup := by
    rw [whole]
    exact List.nodup_range
  refine (List.pairwise_flatMap.mp distinct).2.imp ?_
  intro first second apart position inside again
  exact apart position inside position again rfl

/-- What is drawn after any steps. The stream is keyed once, by the seed or by entropy, and made of
the blocks of its key. The next workload begins behind the words of all workloads before it; a suite
takes one, and a sweep seven, one behind the other. The pieces of all workloads cover the words that
were taken in order and without a gap, so no word is in two of them, and steps that differ in
payloads, iterations or selectors leave the same stream. -/
theorem drawn_after_steps (seed : Option Nat) (entropy : Entropy) (steps : List Step) :
    let supplies := Supplies.start seed entropy
    let key := supplies.stream.key
    let stream := steps.foldl Step.left supplies.stream
    let position := Step.taken steps
    let pieces := (Step.allPlans 0 steps).flatMap Plan.pieces
    (∀ number, seed = some number → supplies = ⟨.ofNumber number, entropy, 0⟩) ∧
      (seed = none →
        supplies = ⟨⟨ChaCha.keyOfBytes (entropy.draw 32).1, 0⟩, (entropy.draw 32).2, 0⟩) ∧
      (∀ counter, (List.range' (16 * counter) 16).map (wordAt key) =
        (ChaCha.block key (UInt64.ofNat counter)).toList) ∧
      stream = ⟨key, position⟩ ∧
      (∀ payloadSize aadSize, Workload.draw stream payloadSize aadSize =
        ((Plan.startingAt position aadSize).workload key payloadSize,
          ⟨key, position + 22 + (aadSize + 3) / 4⟩)) ∧
      (∀ selectors params, Suite.jobs stream selectors params =
        (selectors.map (Job.ofSelector
            ((Plan.startingAt position params.aadSize).workload key params.payloadSize)
            params.iterations .perIteration),
          ⟨key, position + 22 + (params.aadSize + 3) / 4⟩)) ∧
      (∀ selector params, Sweep.jobs stream selector params =
        (List.zipWith (fun plan size =>
            Job.ofSelector (plan.workload key size) params.iterations .once selector)
          (Step.consecutive position params.aadSize 7) Sweep.sizes,
          ⟨key, position + 7 * (22 + (params.aadSize + 3) / 4)⟩)) ∧
      pieces.flatMap Piece.positions = List.range position ∧
      (pieces.Pairwise fun first second =>
        ∀ position ∈ first.positions, position ∉ second.positions) ∧
      ∀ other : List Step, other.map Step.draws = steps.map Step.draws →
        other.foldl Step.left supplies.stream = stream := by
  intro supplies key stream position pieces
  have fresh : supplies.stream = ⟨key, 0⟩ := by
    cases seed <;> rfl
  have reached (steps : List Step) :
      steps.foldl Step.left supplies.stream = ⟨key, Step.taken steps⟩ := by
    rw [fresh, Step.foldl_left, Nat.zero_add]
  have here : stream = ⟨key, position⟩ := reached steps
  have covered : pieces.flatMap Piece.positions = List.range position := by
    rw [List.range_eq_range']
    exact Step.positions_allPlans 0 steps
  refine ⟨?_, ?_, WordStream.words_of_block key, here, ?_, ?_, ?_, covered,
    Piece.pairwise_disjoint covered, ?_⟩
  · rintro number rfl
    rfl
  · rintro rfl
    rfl
  · intro payloadSize aadSize
    rw [here, Plan.draw_eq, Plan.words, Nat.add_assoc]
    rfl
  · intro selectors params
    rw [here, Suite.jobs, Plan.draw_eq, Plan.words, Nat.add_assoc]
    rfl
  · intro selector params
    rw [here, Sweep.jobs, Sweep.jobsFor_eq]
    rfl
  · intro other same
    rw [reached other, here, Step.taken_eq_of_draws_eq same]

end AesTrials
