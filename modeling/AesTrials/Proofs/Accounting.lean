import AesTrials.Proofs.Journal

/-!
# What the result of a run says

The tally of a run is settled by the calls that were made: it holds the earliest failure among
them, the size of the last message and the number of cycles that ended. Every cycle preserves this,
whatever the subject answers and wherever the run stops.
-/

namespace AesTrials

namespace Tally

/-- A tally accounts for calls if it holds what they tell: the length of the last message, the
earliest failure and the number of decryptions. -/
structure Accounts (plaintext : Bytes) (tally : Tally) (calls : List Call) : Prop where
  /-- The length is that of the last message. -/
  encryptedSize : tally.encryptedSize = (calls.filterMap Call.message?).getLast?.map List.length
  /-- The failure is the earliest. -/
  failure : tally.failure = calls.findSome? (Call.failure? plaintext)
  /-- Every decryption ended a cycle. -/
  completed : tally.completed = calls.countP Call.isDecrypt

/-- The tally after one more call. -/
def note (plaintext : Bytes) (tally : Tally) (call : Call) : Tally :=
  { encryptedSize := (call.message?.map List.length).or tally.encryptedSize
    failure := tally.failure.or (call.failure? plaintext)
    completed := tally.completed + call.isDecrypt.toNat }

variable {plaintext : Bytes} {tally : Tally} {calls : List Call}

/-- The empty tally accounts for no calls. -/
theorem accounts_empty (plaintext : Bytes) : empty.Accounts plaintext [] :=
  ⟨rfl, rfl, rfl⟩

/-- A tally still accounts for the calls when one more is made and noted. -/
theorem Accounts.note (accounts : tally.Accounts plaintext calls) (call : Call) :
    (tally.note plaintext call).Accounts plaintext (calls ++ [call]) where
  encryptedSize := by
    simp only [Tally.note, accounts.encryptedSize, List.filterMap_append, List.filterMap_cons,
      List.filterMap_nil]
    cases call.message? with
    | none => rw [List.append_nil, Option.map_none, Option.none_or]
    | some message => rw [List.getLast?_concat, Option.map_some, Option.some_or]
  failure := by
    simp only [Tally.note, accounts.failure, List.findSome?_append, List.findSome?_cons,
      List.findSome?_nil]
    cases call.failure? plaintext <;> rfl
  completed := by
    rw [List.countP_append, List.countP_singleton]
    simp only [Tally.note, accounts.completed]
    cases call.isDecrypt <;> rfl

/-- A binding that succeeds changes nothing. -/
theorem note_bind_ok (tally : Tally) (plaintext key : Bytes) :
    tally.note plaintext (.bind key (.ok ())) = tally := by
  simp [note, Call.message?, Call.failure?, Call.isDecrypt]

/-- A binding that fails is a failure. -/
theorem note_bind_error (tally : Tally) (plaintext key : Bytes) (error : CipherError) :
    tally.note plaintext (.bind key (.error error)) = tally.fail (.ofError error) := by
  simp [note, fail, Call.message?, Call.failure?, Call.isDecrypt]

/-- An encryption that succeeds sets the size. -/
theorem note_encrypt_ok (tally : Tally) (plaintext given : Bytes) (iv aad : Option Bytes)
    (message : Bytes) :
    tally.note plaintext (.encrypt given iv aad (.ok message)) =
      { tally with encryptedSize := some message.length } := by
  simp [note, Call.message?, Call.failure?, Call.isDecrypt]

/-- An encryption that fails is a failure. -/
theorem note_encrypt_error (tally : Tally) (plaintext given : Bytes) (iv aad : Option Bytes)
    (error : CipherError) :
    tally.note plaintext (.encrypt given iv aad (.error error)) =
      tally.fail (.ofError error) := by
  simp [note, fail, Call.message?, Call.failure?, Call.isDecrypt]

/-- A decryption ends a cycle once its answer is checked. -/
theorem note_decrypt (tally : Tally) (plaintext message : Bytes) (ivLength aadLength : Nat)
    (answer : Except CipherError Bytes) :
    tally.note plaintext (.decrypt message ivLength aadLength answer) =
      { tally.check plaintext answer with
        completed := (tally.check plaintext answer).completed + 1 } := by
  cases answer with
  | error error => simp [note, check, fail, Call.message?, Call.failure?, Call.isDecrypt]
  | ok recovered =>
    by_cases same : recovered = plaintext <;>
      simp [note, check, fail, same, Call.message?, Call.failure?, Call.isDecrypt]

end Tally

namespace Subject

variable {σ : Type} {subject : Subject σ} {journal after : Journal σ}

/-- A binding is written down with its answer, and made of the subject. -/
theorem recorded_bind {key : Bytes} {answer : Except CipherError Unit}
    (ran : subject.recorded.bind journal key = (answer, after)) :
    after.calls = journal.calls ++ [.bind key answer] ∧
      subject.bind journal.inner key = (answer, after.inner) := by
  cases ran
  exact ⟨rfl, rfl⟩

/-- An encryption is written down with its answer, and made of the subject. -/
theorem recorded_encrypt {plaintext : Bytes} {iv aad : Option Bytes}
    {answer : Except CipherError Bytes}
    (ran : subject.recorded.encrypt journal plaintext iv aad = (answer, after)) :
    after.calls = journal.calls ++ [.encrypt plaintext iv aad answer] ∧
      subject.encrypt journal.inner plaintext iv aad = (answer, after.inner) := by
  cases ran
  exact ⟨rfl, rfl⟩

/-- A decryption is written down with its answer, and made of the subject. -/
theorem recorded_decrypt {message : Bytes} {ivLength aadLength : Nat}
    {answer : Except CipherError Bytes}
    (ran : subject.recorded.decrypt journal message ivLength aadLength = (answer, after)) :
    after.calls = journal.calls ++ [.decrypt message ivLength aadLength answer] ∧
      subject.decrypt journal.inner message ivLength aadLength = (answer, after.inner) := by
  cases ran
  exact ⟨rfl, rfl⟩

end Subject

namespace Tally.Accounts

variable {σ : Type} {subject : Subject σ} {journal after : Journal σ} {plaintext : Bytes}
  {tally : Tally}

/-- A tally accounts for one more binding once that is noted. -/
theorem bind (accounts : tally.Accounts plaintext journal.calls) {key : Bytes}
    {answer : Except CipherError Unit}
    (ran : subject.recorded.bind journal key = (answer, after)) :
    (tally.note plaintext (.bind key answer)).Accounts plaintext after.calls := by
  rw [(Subject.recorded_bind ran).1]
  exact accounts.note _

/-- A tally accounts for one more encryption once that is noted. -/
theorem encrypt (accounts : tally.Accounts plaintext journal.calls) {given : Bytes}
    {iv aad : Option Bytes} {answer : Except CipherError Bytes}
    (ran : subject.recorded.encrypt journal given iv aad = (answer, after)) :
    (tally.note plaintext (.encrypt given iv aad answer)).Accounts plaintext after.calls := by
  rw [(Subject.recorded_encrypt ran).1]
  exact accounts.note _

/-- A tally accounts for one more decryption once that is noted. -/
theorem decrypt (accounts : tally.Accounts plaintext journal.calls) {message : Bytes}
    {ivLength aadLength : Nat} {answer : Except CipherError Bytes}
    (ran : subject.recorded.decrypt journal message ivLength aadLength = (answer, after)) :
    (tally.note plaintext (.decrypt message ivLength aadLength answer)).Accounts plaintext
      after.calls := by
  rw [(Subject.recorded_decrypt ran).1]
  exact accounts.note _

end Tally.Accounts

namespace Trial

variable {σ : Type} {subject : Subject σ} {inputs : Inputs} {setup : KeySetup}

/-- What a cycle can do: stop at a binding, stop at an encryption, or end with a decryption. -/
inductive Cycled (subject : Subject σ) (inputs : Inputs) (setup : KeySetup) (tally : Tally)
    (state : σ) : Tally × σ × Bool → Prop where
  /-- The key is refused. -/
  | unbound {error : CipherError} {after : σ}
      (bound : rebind subject inputs setup state = (.error error, after)) :
      Cycled subject inputs setup tally state (tally.fail (.ofError error), after, false)
  /-- The plaintext is refused. -/
  | unsealed {ready after : σ} {error : CipherError}
      (bound : rebind subject inputs setup state = (.ok (), ready))
      (sealed : subject.encrypt ready inputs.plaintext inputs.iv inputs.aad =
        (.error error, after)) :
      Cycled subject inputs setup tally state (tally.fail (.ofError error), after, false)
  /-- The message is decrypted, with whatever answer. -/
  | ended {ready between after : σ} {message : Bytes} {answer : Except CipherError Bytes}
      {sized checked : Tally} (bound : rebind subject inputs setup state = (.ok (), ready))
      (sealed : subject.encrypt ready inputs.plaintext inputs.iv inputs.aad =
        (.ok message, between))
      (opened : subject.decrypt between message inputs.ivLength inputs.aadLength =
        (answer, after))
      (size : sized = { tally with encryptedSize := some message.length })
      (check : checked = sized.check inputs.plaintext answer) :
      Cycled subject inputs setup tally state
        ({ checked with completed := checked.completed + 1 }, after, true)

/-- A cycle does nothing else. -/
theorem cycled_cycle (subject : Subject σ) (inputs : Inputs) (setup : KeySetup) (tally : Tally)
    (state : σ) :
    Cycled subject inputs setup tally state (cycle subject inputs setup tally state) := by
  unfold cycle
  split
  · rename_i bound
    exact .unbound bound
  · rename_i bound
    split
    · rename_i sealed
      exact .unsealed bound sealed
    · rename_i sealed
      exact .ended bound sealed rfl rfl rfl

/-- A cycle does only one thing. -/
theorem Cycled.eq_cycle {tally : Tally} {state : σ} {result : Tally × σ × Bool}
    (cycled : Cycled subject inputs setup tally state result) :
    cycle subject inputs setup tally state = result := by
  unfold cycle
  cases cycled with
  | unbound bound => rw [bound]
  | unsealed bound sealed =>
    simp only [bound, sealed]
  | ended bound sealed opened size check =>
    simp only [bound, sealed, opened, size, check]

/-- A binding at the start of a cycle is made of the subject too. -/
theorem rebind_recorded {journal after : Journal σ} {answer : Except CipherError Unit}
    (bound : rebind subject.recorded inputs setup journal = (answer, after)) :
    rebind subject inputs setup journal.inner = (answer, after.inner) := by
  cases setup with
  | once =>
    cases bound
    rfl
  | perIteration => exact (Subject.recorded_bind bound).2

/-- Once the answer of a binding at the start of a cycle is noted, the tally still accounts for the
calls. -/
theorem accounts_of_rebind {tally : Tally} {plaintext : Bytes} {journal after : Journal σ}
    {answer : Except CipherError Unit} (accounts : tally.Accounts plaintext journal.calls)
    (bound : rebind subject.recorded inputs setup journal = (answer, after)) :
    (tally.note plaintext (.bind inputs.key answer)).Accounts plaintext after.calls := by
  cases setup with
  | once =>
    cases bound
    rw [Tally.note_bind_ok]
    exact accounts
  | perIteration => exact accounts.bind bound

/-- The binding before the first cycle is one at the start of a cycle in the other setup. -/
theorem exists_rebind_eq_prepare (setup : KeySetup) :
    ∃ other : KeySetup, ∀ {σ : Type} (subject : Subject σ) (inputs : Inputs) (state : σ),
      prepare subject inputs setup state = rebind subject inputs other state := by
  cases setup with
  | once => exact ⟨.perIteration, fun _ _ _ => rfl⟩
  | perIteration => exact ⟨.once, fun _ _ _ => rfl⟩

/-- Keeping a journal changes nothing about a cycle. -/
theorem cycle_recorded {tally counted : Tally} {journal after : Journal σ} {goes : Bool}
    (ran : cycle subject.recorded inputs setup tally journal = (counted, after, goes)) :
    cycle subject inputs setup tally journal.inner = (counted, after.inner, goes) := by
  have cycled := cycled_cycle subject.recorded inputs setup tally journal
  rw [ran] at cycled
  apply Cycled.eq_cycle
  cases cycled with
  | unbound bound => exact .unbound (rebind_recorded bound)
  | unsealed bound sealed =>
    exact .unsealed (rebind_recorded bound) (Subject.recorded_encrypt sealed).2
  | ended bound sealed opened size check =>
    exact .ended (rebind_recorded bound) (Subject.recorded_encrypt sealed).2
      (Subject.recorded_decrypt opened).2 size check

/-- After every cycle the tally accounts for the calls made so far, if it did before. -/
theorem accounts_of_cycle {tally counted : Tally} {journal after : Journal σ} {goes : Bool}
    (accounts : tally.Accounts inputs.plaintext journal.calls)
    (ran : cycle subject.recorded inputs setup tally journal = (counted, after, goes)) :
    counted.Accounts inputs.plaintext after.calls := by
  have cycled := cycled_cycle subject.recorded inputs setup tally journal
  rw [ran] at cycled
  cases cycled with
  | unbound bound =>
    have noted := accounts_of_rebind accounts bound
    rwa [Tally.note_bind_error] at noted
  | unsealed bound sealed =>
    have ready := accounts_of_rebind accounts bound
    rw [Tally.note_bind_ok] at ready
    have noted := ready.encrypt sealed
    rwa [Tally.note_encrypt_error] at noted
  | ended bound sealed opened size check =>
    have ready := accounts_of_rebind accounts bound
    rw [Tally.note_bind_ok] at ready
    have between := ready.encrypt sealed
    rw [Tally.note_encrypt_ok, ← size] at between
    have noted := between.decrypt opened
    rwa [Tally.note_decrypt, ← check] at noted

/-- Keeping a journal changes nothing about any number of cycles. -/
theorem cycles_recorded (count : Nat) {tally counted : Tally} {journal after : Journal σ}
    (ran : cycles subject.recorded inputs setup count tally journal = (counted, after)) :
    cycles subject inputs setup count tally journal.inner = (counted, after.inner) := by
  induction count generalizing tally journal with
  | zero =>
    cases ran
    rfl
  | succ count ih =>
    unfold cycles at ran ⊢
    split at ran
    · rename_i step
      rw [cycle_recorded step]
      exact ih ran
    · rename_i step
      rw [cycle_recorded step]
      cases ran
      rfl

/-- After any number of cycles the tally accounts for the calls made so far, if it did before. -/
theorem accounts_of_cycles (count : Nat) {tally counted : Tally} {journal after : Journal σ}
    (accounts : tally.Accounts inputs.plaintext journal.calls)
    (ran : cycles subject.recorded inputs setup count tally journal = (counted, after)) :
    counted.Accounts inputs.plaintext after.calls := by
  induction count generalizing tally journal with
  | zero =>
    cases ran
    exact accounts
  | succ count ih =>
    unfold cycles at ran
    split at ran
    · rename_i step
      exact ih (accounts_of_cycle accounts step) ran
    · rename_i step
      cases ran
      exact accounts_of_cycle accounts step

/-- Keeping a journal changes nothing about a run. -/
theorem run_recorded {iterations : Nat} {outcome : Outcome} {journal after : Journal σ}
    (ran : run subject.recorded inputs iterations setup journal = (outcome, after)) :
    run subject inputs iterations setup journal.inner = (outcome, after.inner) := by
  obtain ⟨other, prepares⟩ := exists_rebind_eq_prepare setup
  simp only [run, prepares] at ran ⊢
  split at ran
  · rename_i bound
    cases ran
    rw [rebind_recorded bound]
    rfl
  · rename_i bound
    cases ran
    rw [rebind_recorded bound]
    simp only [cycles_recorded _ rfl]
    rfl

/-- The tally of a run accounts for the calls that were made. -/
theorem accounts_of_run {iterations : Nat} {outcome : Outcome} {state : σ} {after : Journal σ}
    (ran : run subject.recorded inputs iterations setup (.start state) = (outcome, after)) :
    outcome.tally.Accounts inputs.plaintext after.calls := by
  have start := Tally.accounts_empty inputs.plaintext
  obtain ⟨other, prepares⟩ := exists_rebind_eq_prepare setup
  simp only [run, prepares] at ran
  split at ran
  · rename_i bound
    cases ran
    have noted := accounts_of_rebind start bound
    rwa [Tally.note_bind_error] at noted
  · rename_i bound
    cases ran
    have ready := accounts_of_rebind start bound
    rw [Tally.note_bind_ok] at ready
    exact accounts_of_cycles _ ready rfl

/-- A journal ends where the run ends, and the tally of the run accounts for its calls. -/
theorem journal_spec (subject : Subject σ) (inputs : Inputs) (iterations : Nat)
    (setup : KeySetup) (state : σ) :
    let ended := run subject inputs iterations setup state
    let journal := journal subject inputs iterations setup state
    journal.inner = ended.2 ∧ ended.1.tally.Accounts inputs.plaintext journal.calls := by
  have ran : run subject.recorded inputs iterations setup (.start state) = _ := rfl
  have plain : run subject inputs iterations setup state = _ := run_recorded ran
  rw [plain]
  exact ⟨rfl, accounts_of_run ran⟩

end Trial

end AesTrials
