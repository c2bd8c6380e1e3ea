import AesTrials.Trial.Run

/-!
# Journals

A journal lists the calls that a trial makes of its subject, with their answers, in the order in
which they are made. It is kept on the side of the subject, so that it shows what a run does
without a word from the run itself.
-/

namespace AesTrials

/-- A call of a subject, its arguments and its answer. -/
inductive Call where
  /-- A binding. -/
  | bind (key : Bytes) (answer : Except CipherError Unit)
  /-- An encryption. -/
  | encrypt (plaintext : Bytes) (iv aad : Option Bytes) (answer : Except CipherError Bytes)
  /-- A decryption. -/
  | decrypt (message : Bytes) (ivLength aadLength : Nat) (answer : Except CipherError Bytes)

namespace Call

/-- The failure that a call is in a trial of a plaintext, if it is one: every error is, and a
decryption that gives other bytes. -/
def failure? (plaintext : Bytes) : Call → Option Failure
  | .bind _ (.ok ()) => none
  | .bind _ (.error error) => some (.ofError error)
  | .encrypt _ _ _ (.ok _) => none
  | .encrypt _ _ _ (.error error) => some (.ofError error)
  | .decrypt _ _ _ (.ok recovered) => if recovered = plaintext then none else some .mismatch
  | .decrypt _ _ _ (.error error) => some (.ofError error)

/-- The message that a call returns, if it is an encryption that succeeds. -/
def message? : Call → Option Bytes
  | .encrypt _ _ _ (.ok message) => some message
  | _ => none

/-- Whether a call ends a cycle. -/
def isDecrypt : Call → Bool
  | .decrypt .. => true
  | _ => false

end Call

/-- A subject and the calls made of it so far, oldest first. -/
structure Journal (σ : Type) where
  /-- The state of the subject after these calls. -/
  inner : σ
  /-- The calls. -/
  calls : List Call

/-- The journal before the first call. -/
def Journal.start {σ : Type} (inner : σ) : Journal σ := ⟨inner, []⟩

/-- The subject, its calls written down. -/
def Subject.recorded {σ : Type} (subject : Subject σ) : Subject (Journal σ) where
  name journal := subject.name journal.inner
  bind journal key :=
    let (answer, inner) := subject.bind journal.inner key
    (answer, ⟨inner, journal.calls ++ [.bind key answer]⟩)
  encrypt journal plaintext iv aad :=
    let (answer, inner) := subject.encrypt journal.inner plaintext iv aad
    (answer, ⟨inner, journal.calls ++ [.encrypt plaintext iv aad answer]⟩)
  decrypt journal message ivLength aadLength :=
    let (answer, inner) := subject.decrypt journal.inner message ivLength aadLength
    (answer, ⟨inner, journal.calls ++ [.decrypt message ivLength aadLength answer]⟩)

/-- The journal of a whole run. -/
def Trial.journal {σ : Type} (subject : Subject σ) (inputs : Inputs) (iterations : Nat)
    (setup : KeySetup) (state : σ) : Journal σ :=
  (run subject.recorded inputs iterations setup (.start state)).2

end AesTrials
