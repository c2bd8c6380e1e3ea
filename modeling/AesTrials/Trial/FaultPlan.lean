import AesTrials.Trial.Subject

/-!
# Faults on purpose

A fault plan makes chosen calls of a subject go wrong, to show how a trial answers. The calls of
each kind are counted from zero.
-/

namespace AesTrials

/-- Which calls go wrong. -/
structure FaultPlan where
  /-- The binding that is given at most seven bytes of its key. -/
  shortKeyAt : Option Nat
  /-- The encryption that is refused. -/
  refuseAt : Option Nat
  /-- The decryption that is given its message without the last byte. -/
  truncateAt : Option Nat
  /-- The decryption whose answer gets a zero byte more. -/
  corruptAt : Option Nat
deriving DecidableEq, Repr, Inhabited

namespace FaultPlan

/-- A subject and the calls made of it so far. -/
structure Counted (σ : Type) where
  /-- The state of the subject. -/
  inner : σ
  /-- Bindings so far. -/
  binds : Nat
  /-- Encryptions so far. -/
  encrypts : Nat
  /-- Decryptions so far. -/
  decrypts : Nat

/-- The state before the first call. -/
def start {σ : Type} (inner : σ) : Counted σ := ⟨inner, 0, 0, 0⟩

/-- The answer with a zero byte more, if there is one. -/
def lengthen : Except CipherError Bytes → Except CipherError Bytes
  | .error error => .error error
  | .ok plaintext => .ok (plaintext ++ [0])

/-- The subject with the faults of the plan. -/
def apply {σ : Type} (plan : FaultPlan) (subject : Subject σ) : Subject (Counted σ) where
  name state := subject.name state.inner
  bind state key :=
    let key := if plan.shortKeyAt = some state.binds then key.take 7 else key
    let (answer, inner) := subject.bind state.inner key
    (answer, { state with inner, binds := state.binds + 1 })
  encrypt state plaintext iv aad :=
    if plan.refuseAt = some state.encrypts then
      (.error (.invalidArgument .refused), { state with encrypts := state.encrypts + 1 })
    else
      let (answer, inner) := subject.encrypt state.inner plaintext iv aad
      (answer, { state with inner, encrypts := state.encrypts + 1 })
  decrypt state message ivLength aadLength :=
    let truncated := plan.truncateAt = some state.decrypts
    let message := if truncated then message.dropLast else message
    let (answer, inner) := subject.decrypt state.inner message ivLength aadLength
    let answer := if ¬truncated ∧ plan.corruptAt = some state.decrypts then lengthen answer
      else answer
    (answer, { state with inner, decrypts := state.decrypts + 1 })

end FaultPlan

end AesTrials
