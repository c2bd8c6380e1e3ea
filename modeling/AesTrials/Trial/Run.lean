import AesTrials.Report.Basic
import AesTrials.Trial.Subject

/-!
# Runs

A run repeats a cycle: encrypt, then decrypt with the lengths that were used, and compare. A
decryption that fails or gives other bytes marks the run as failed and the run goes on; a binding
or an encryption that fails stops it. The first failure and the size of the last message are kept.
-/

namespace AesTrials

/-- When the key is bound. -/
inductive KeySetup where
  /-- Once, before the first cycle. -/
  | once
  /-- At the start of every cycle. -/
  | perIteration
deriving DecidableEq, Repr, Inhabited

/-- What a run is given. -/
structure Inputs where
  /-- The key to bind. -/
  key : Bytes
  /-- The vector, if the caller supplies one. -/
  iv : Option Bytes
  /-- The plaintext of every cycle. -/
  plaintext : Bytes
  /-- The additional data, if any is passed. -/
  aad : Option Bytes
deriving DecidableEq, Repr, Inhabited

namespace Inputs

/-- The vector length that every decryption is told. -/
def ivLength (inputs : Inputs) : Nat := (inputs.iv.getD []).length

/-- The additional data length that every decryption is told. -/
def aadLength (inputs : Inputs) : Nat := (inputs.aad.getD []).length

end Inputs

/-- What a run has seen so far. -/
structure Tally where
  /-- Length of the last message, if there was one. -/
  encryptedSize : Option Nat
  /-- The first failure. -/
  failure : Option Failure
  /-- Cycles that reached the end. -/
  completed : Nat
deriving DecidableEq, Repr, Inhabited

namespace Tally

/-- Nothing seen yet. -/
def empty : Tally := ⟨none, none, 0⟩

/-- The tally with a failure, unless it has one already. -/
def fail (tally : Tally) (failure : Failure) : Tally :=
  { tally with failure := tally.failure.or (some failure) }

/-- The tally after a decryption answered. -/
def check (tally : Tally) (plaintext : Bytes) : Except CipherError Bytes → Tally
  | .ok recovered => if recovered == plaintext then tally else tally.fail .mismatch
  | .error error => tally.fail (.ofError error)

end Tally

/-- What came out of a run, its time apart. -/
structure Outcome where
  /-- Name of the subject after the last call. -/
  name : String
  /-- Name of the subject before the first cycle, if the run got there. -/
  startedAs : Option String
  /-- Plaintext length in bytes. -/
  plainSize : Nat
  /-- Additional data length in bytes. -/
  aadSize : Nat
  /-- What the run saw. -/
  tally : Tally
deriving DecidableEq, Repr, Inhabited

/-- The result of an outcome whose cycles took the given time together. -/
def Outcome.result (outcome : Outcome) (elapsed : Elapsed) : Result :=
  { name := outcome.name
    plainSize := outcome.plainSize
    aadSize := outcome.aadSize
    encryptedSize := outcome.tally.encryptedSize.getD 0
    overheadRatio :=
      outcome.tally.encryptedSize.bind (overheadRatio outcome.plainSize outcome.aadSize)
    averageDuration := elapsed.average outcome.tally.completed
    passed := outcome.tally.failure.isNone
    failure := outcome.tally.failure }

namespace Trial

variable {σ : Type}

/-- The binding at the start of a cycle, if the key is bound in every cycle. -/
def rebind (subject : Subject σ) (inputs : Inputs) (setup : KeySetup) (state : σ) :
    Except CipherError Unit × σ :=
  match setup with
  | .once => (.ok (), state)
  | .perIteration => subject.bind state inputs.key

/-- One cycle: the tally and the state after it, and whether the run goes on. -/
def cycle (subject : Subject σ) (inputs : Inputs) (setup : KeySetup) (tally : Tally) (state : σ) :
    Tally × σ × Bool :=
  match rebind subject inputs setup state with
  | (.error error, state) => (tally.fail (.ofError error), state, false)
  | (.ok (), state) =>
    match subject.encrypt state inputs.plaintext inputs.iv inputs.aad with
    | (.error error, state) => (tally.fail (.ofError error), state, false)
    | (.ok message, state) =>
      let tally := { tally with encryptedSize := some message.length }
      let (answer, state) := subject.decrypt state message inputs.ivLength inputs.aadLength
      let tally := tally.check inputs.plaintext answer
      ({ tally with completed := tally.completed + 1 }, state, true)

/-- The given number of cycles, or fewer if one of them stops the run. -/
def cycles (subject : Subject σ) (inputs : Inputs) (setup : KeySetup) :
    Nat → Tally → σ → Tally × σ
  | 0, tally, state => (tally, state)
  | count + 1, tally, state =>
    match cycle subject inputs setup tally state with
    | (tally, state, true) => cycles subject inputs setup count tally state
    | (tally, state, false) => (tally, state)

/-- The number of cycles of a run: at least one. -/
def cycleCount (iterations : Nat) : Nat := max 1 iterations

/-- The binding before the first cycle, if the key is bound once. -/
def prepare (subject : Subject σ) (inputs : Inputs) (setup : KeySetup) (state : σ) :
    Except CipherError Unit × σ :=
  match setup with
  | .once => subject.bind state inputs.key
  | .perIteration => (.ok (), state)

/-- A whole run and the state after it. -/
def run (subject : Subject σ) (inputs : Inputs) (iterations : Nat) (setup : KeySetup)
    (state : σ) : Outcome × σ :=
  let outcome (startedAs : Option String) (tally : Tally) (state : σ) : Outcome :=
    { name := subject.name state, startedAs, plainSize := inputs.plaintext.length
      aadSize := inputs.aadLength, tally }
  match prepare subject inputs setup state with
  | (.error error, state) =>
    (outcome none (Tally.empty.fail (.ofError error)) state, state)
  | (.ok (), state) =>
    let startedAs := subject.name state
    let (tally, state) := cycles subject inputs setup (cycleCount iterations) .empty state
    (outcome startedAs tally state, state)

end Trial

end AesTrials
