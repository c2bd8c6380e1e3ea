import AesTrials.Proofs.Accounting
import AesTrials.Proofs.Means

/-!
# The course of a run

The calls of a run are those of cycles that ended, one after the other, and perhaps those of one
that a refusal cut short: a binding or an encryption that fails is the last call. Whatever
decryptions answer, the run goes on, so the number of calls of each kind follows from the place of
that refusal alone.
-/

namespace AesTrials

namespace Call

/-- Whether a call is a binding. -/
def isBind : Call → Bool
  | .bind .. => true
  | _ => false

/-- Whether a call is an encryption. -/
def isEncrypt : Call → Bool
  | .encrypt .. => true
  | _ => false

/-- Whether a call stops a run: a binding or an encryption that fails. -/
def stops : Call → Bool
  | .bind _ (.error _) => true
  | .encrypt _ _ _ (.error _) => true
  | _ => false

end Call

/-- How many bindings a run of as many cycles makes. -/
def KeySetup.binds : KeySetup → Nat → Nat
  | .once, _ => 1
  | .perIteration, cycles => cycles

namespace Trial

/-- A cycle that ended: the message that was made and what its decryption answered. -/
structure Exchange where
  /-- The message. -/
  message : Bytes
  /-- The answer. -/
  answer : Except CipherError Bytes

/-- How the calls of a run end. -/
inductive Ending where
  /-- With the last cycle. -/
  | complete
  /-- With a binding at the start of a cycle. -/
  | unbound (error : CipherError)
  /-- With an encryption. -/
  | unsealed (error : CipherError)

/-- The bindings before the first cycle that succeed. -/
def preparation (inputs : Inputs) : KeySetup → List Call
  | .once => [.bind inputs.key (.ok ())]
  | .perIteration => []

/-- The bindings at the start of a cycle that succeed. -/
def opening (inputs : Inputs) : KeySetup → List Call
  | .once => []
  | .perIteration => [.bind inputs.key (.ok ())]

/-- The calls of a cycle that ended: the message that is decrypted is the one that was made, and it
is decrypted with the lengths of the inputs. -/
def Exchange.calls (inputs : Inputs) (setup : KeySetup) (exchange : Exchange) : List Call :=
  opening inputs setup ++
    [.encrypt inputs.plaintext inputs.iv inputs.aad (.ok exchange.message),
      .decrypt exchange.message inputs.ivLength inputs.aadLength exchange.answer]

/-- The calls behind the cycles that ended. -/
def Ending.calls (inputs : Inputs) (setup : KeySetup) : Ending → List Call
  | .complete => []
  | .unbound error => [.bind inputs.key (.error error)]
  | .unsealed error =>
    opening inputs setup ++ [.encrypt inputs.plaintext inputs.iv inputs.aad (.error error)]

/-- Whether a run of a number of cycles can end so after some of them: with the last one, or short
of it, and with a binding only if the key is bound in every cycle. -/
def Ending.Fits (setup : KeySetup) (count ended : Nat) : Ending → Prop
  | .complete => ended = count
  | .unbound _ => setup = .perIteration ∧ ended < count
  | .unsealed _ => ended < count

/-- The calls of any number of exchanges. -/
def exchangeCalls (inputs : Inputs) (setup : KeySetup) (exchanges : List Exchange) : List Call :=
  exchanges.flatMap (Exchange.calls inputs setup)

/-- The calls that a run of a number of cycles can make. -/
inductive Course (inputs : Inputs) (setup : KeySetup) (count : Nat) : List Call → Prop where
  /-- The only binding is refused. -/
  | refused (once : setup = .once) (error : CipherError) :
      Course inputs setup count [.bind inputs.key (.error error)]
  /-- The cycles begin. -/
  | begun (exchanges : List Exchange) (ending : Ending)
      (fits : ending.Fits setup count exchanges.length) :
      Course inputs setup count (preparation inputs setup ++ exchangeCalls inputs setup exchanges ++
        ending.calls inputs setup)

section Calls

variable {σ : Type} {subject : Subject σ} {inputs : Inputs} {setup : KeySetup}
  {journal after : Journal σ}

/-- A binding at the start of a cycle that succeeds is the only call so far, if the key is bound
there. -/
theorem calls_of_rebind_ok
    (bound : rebind subject.recorded inputs setup journal = (.ok (), after)) :
    after.calls = journal.calls ++ opening inputs setup := by
  cases setup with
  | once =>
    cases bound
    exact (List.append_nil _).symm
  | perIteration => exact (Subject.recorded_bind bound).1

/-- Only where the key is bound in every cycle can a cycle fail to bind it. -/
theorem calls_of_rebind_error {error : CipherError}
    (bound : rebind subject.recorded inputs setup journal = (.error error, after)) :
    setup = .perIteration ∧ after.calls = journal.calls ++ [.bind inputs.key (.error error)] := by
  cases setup with
  | once => cases bound
  | perIteration => exact ⟨rfl, (Subject.recorded_bind bound).1⟩

/-- A cycle after which the run goes on makes the calls of an exchange. -/
theorem calls_of_cycle_goes {tally counted : Tally}
    (ran : cycle subject.recorded inputs setup tally journal = (counted, after, true)) :
    ∃ exchange : Exchange, after.calls = journal.calls ++ exchange.calls inputs setup := by
  have cycled := cycled_cycle subject.recorded inputs setup tally journal
  rw [ran] at cycled
  cases cycled with
  | @ended ready between _ message answer sized checked bound sealed opened size check =>
    refine ⟨⟨message, answer⟩, ?_⟩
    rw [(Subject.recorded_decrypt opened).1, (Subject.recorded_encrypt sealed).1,
      calls_of_rebind_ok bound, Exchange.calls]
    simp only [List.append_assoc, List.cons_append, List.nil_append]

/-- A cycle that stops the run makes the calls of an ending. -/
theorem calls_of_cycle_stops {tally counted : Tally}
    (ran : cycle subject.recorded inputs setup tally journal = (counted, after, false)) :
    ∃ ending : Ending, (∀ count, ending.Fits setup (count + 1) 0) ∧
      after.calls = journal.calls ++ ending.calls inputs setup := by
  have cycled := cycled_cycle subject.recorded inputs setup tally journal
  rw [ran] at cycled
  cases cycled with
  | @unbound error _ bound =>
    obtain ⟨every, calls⟩ := calls_of_rebind_error bound
    exact ⟨.unbound error, fun count => ⟨every, count.succ_pos⟩, calls⟩
  | @unsealed ready _ error bound sealed =>
    refine ⟨.unsealed error, fun count => count.succ_pos, ?_⟩
    rw [(Subject.recorded_encrypt sealed).1, calls_of_rebind_ok bound, Ending.calls,
      List.append_assoc]

/-- An ending that fits fits one cycle more as well. -/
theorem Ending.Fits.succ {count ended : Nat} {ending : Ending}
    (fits : ending.Fits setup count ended) : ending.Fits setup (count + 1) (ended + 1) := by
  cases ending with
  | complete => exact congrArg Nat.succ fits
  | unbound error => exact ⟨fits.1, Nat.succ_lt_succ fits.2⟩
  | unsealed error => exact Nat.succ_lt_succ fits

/-- Any number of cycles makes the calls of exchanges and of an ending that fits. -/
theorem calls_of_cycles (count : Nat) {tally counted : Tally}
    (ran : cycles subject.recorded inputs setup count tally journal = (counted, after)) :
    ∃ (exchanges : List Exchange) (ending : Ending),
      ending.Fits setup count exchanges.length ∧
        after.calls = journal.calls ++ (exchangeCalls inputs setup exchanges ++
          ending.calls inputs setup) := by
  -- On the number of cycles, over every journal so far: an exchange for a cycle that goes on, and
  -- the ending is that of the cycle that does not, or of the empty rest.
  induction count generalizing tally journal with
  | zero =>
    cases ran
    exact ⟨[], .complete, rfl, (List.append_nil _).symm⟩
  | succ count ih =>
    unfold cycles at ran
    split at ran
    · rename_i step
      obtain ⟨exchange, first⟩ := calls_of_cycle_goes step
      obtain ⟨exchanges, ending, fits, later⟩ := ih ran
      refine ⟨exchange :: exchanges, ending, fits.succ, ?_⟩
      rw [later, first, exchangeCalls, exchangeCalls, List.flatMap_cons]
      simp only [List.append_assoc]
    · rename_i step
      cases ran
      obtain ⟨ending, fits, calls⟩ := calls_of_cycle_stops step
      exact ⟨[], ending, fits count, calls⟩

/-- A binding before the first cycle that succeeds is the only call so far, if the key is bound
once. -/
theorem calls_of_prepare_ok
    (bound : prepare subject.recorded inputs setup journal = (.ok (), after)) :
    after.calls = journal.calls ++ preparation inputs setup := by
  cases setup with
  | once => exact (Subject.recorded_bind bound).1
  | perIteration =>
    cases bound
    exact (List.append_nil _).symm

/-- Only a run that binds the key once can fail to bind it before the first cycle. -/
theorem calls_of_prepare_error {error : CipherError}
    (bound : prepare subject.recorded inputs setup journal = (.error error, after)) :
    setup = .once ∧ after.calls = journal.calls ++ [.bind inputs.key (.error error)] := by
  cases setup with
  | once => exact ⟨rfl, (Subject.recorded_bind bound).1⟩
  | perIteration => cases bound

/-- The calls of a run are those that a run of as many cycles can make. -/
theorem course_of_run {iterations : Nat} {outcome : Outcome} {state : σ}
    (ran : run subject.recorded inputs iterations setup (.start state) = (outcome, after)) :
    Course inputs setup (cycleCount iterations) after.calls := by
  simp only [run] at ran
  split at ran
  · rename_i error ready bound
    cases ran
    obtain ⟨once, calls⟩ := calls_of_prepare_error bound
    rw [calls]
    exact .refused once error
  · rename_i ready bound
    cases ran
    obtain ⟨exchanges, ending, fits, calls⟩ :=
      calls_of_cycles (cycleCount iterations) rfl
    rw [calls, calls_of_prepare_ok bound, ← List.append_assoc]
    exact .begun exchanges ending fits

end Calls

/-- Calls none of which stops a run: some bindings, and as many encryptions as decryptions. -/
structure Unstopped (binds cycles : Nat) (calls : List Call) : Prop where
  /-- No call stops the run. -/
  go : ∀ call ∈ calls, call.stops = false
  /-- The number of bindings. -/
  binds : calls.countP Call.isBind = binds
  /-- The number of encryptions. -/
  encrypts : calls.countP Call.isEncrypt = cycles
  /-- The number of decryptions. -/
  decrypts : calls.countP Call.isDecrypt = cycles

/-- The numbers of calls one after the other add up. -/
theorem Unstopped.append {binds cycles moreBinds moreCycles : Nat} {front back : List Call}
    (first : Unstopped binds cycles front) (later : Unstopped moreBinds moreCycles back) :
    Unstopped (binds + moreBinds) (cycles + moreCycles) (front ++ back) where
  go := List.forall_mem_append.mpr ⟨first.go, later.go⟩
  binds := by rw [List.countP_append, first.binds, later.binds]
  encrypts := by rw [List.countP_append, first.encrypts, later.encrypts]
  decrypts := by rw [List.countP_append, first.decrypts, later.decrypts]

/-- Where nothing before the last call stops the run, a call that does is the last. -/
theorem Unstopped.last_of_stops {binds cycles : Nat} {front before after : List Call}
    {last call : Call} (unstopped : Unstopped binds cycles front)
    (same : front ++ [last] = before ++ call :: after) (stops : call.stops = true) :
    before = front ∧ call = last ∧ after = [] := by
  -- Anything behind the call would have to end with the last one, and leave the call in front of
  -- it.
  rcases List.eq_nil_or_concat after with rfl | ⟨later, final, rfl⟩
  · obtain ⟨rfl, single⟩ := List.append_inj' same rfl
    cases single
    exact ⟨rfl, rfl, rfl⟩
  · have parts : front ++ [last] = before ++ call :: later ++ [final] := by
      rw [same, List.concat_eq_append, List.append_assoc, List.cons_append]
    obtain ⟨rfl, _⟩ := List.append_inj' parts rfl
    have goes := unstopped.go call (List.mem_append_right before List.mem_cons_self)
    rw [stops] at goes
    contradiction

section Counts

variable (inputs : Inputs) (setup : KeySetup)

/-- A binding that succeeds does not stop a run. -/
theorem unstopped_bind (key : Bytes) : Unstopped 1 0 [.bind key (.ok ())] :=
  ⟨by simp [Call.stops], rfl, rfl, rfl⟩

/-- No call stops a run. -/
theorem unstopped_nil : Unstopped 0 0 [] :=
  ⟨nofun, rfl, rfl, rfl⟩

/-- The calls at the start of a cycle are at most a binding. -/
theorem unstopped_opening :
    Unstopped (opening inputs setup).length 0 (opening inputs setup) := by
  cases setup with
  | once => exact unstopped_nil
  | perIteration => exact unstopped_bind inputs.key

/-- A cycle that ended is one encryption and one decryption behind its binding. -/
theorem unstopped_exchange (exchange : Exchange) :
    Unstopped (opening inputs setup).length 1 (exchange.calls inputs setup) := by
  have pair : Unstopped 0 1
      [.encrypt inputs.plaintext inputs.iv inputs.aad (.ok exchange.message),
        .decrypt exchange.message inputs.ivLength inputs.aadLength exchange.answer] :=
    ⟨by simp [Call.stops], rfl, rfl, rfl⟩
  exact (unstopped_opening inputs setup).append pair

/-- Cycles that ended are as many encryptions and decryptions. -/
theorem unstopped_exchangeCalls (exchanges : List Exchange) :
    Unstopped (exchanges.length * (opening inputs setup).length) exchanges.length
      (exchangeCalls inputs setup exchanges) := by
  induction exchanges with
  | nil =>
    rw [List.length_nil, Nat.zero_mul]
    exact unstopped_nil
  | cons exchange exchanges ih =>
    have both := (unstopped_exchange inputs setup exchange).append ih
    rw [Nat.add_comm, ← Nat.succ_mul, Nat.add_comm 1] at both
    exact both

/-- Before the cycles and in those that ended the key is bound once, or once for each. -/
theorem unstopped_begun (exchanges : List Exchange) :
    Unstopped (setup.binds exchanges.length) exchanges.length
      (preparation inputs setup ++ exchangeCalls inputs setup exchanges) := by
  have ended := unstopped_exchangeCalls inputs setup exchanges
  cases setup with
  | once =>
    have both := (unstopped_bind inputs.key).append ended
    rwa [Nat.zero_add] at both
  | perIteration =>
    have every : exchanges.length * (opening inputs .perIteration).length = exchanges.length :=
      Nat.mul_one _
    rwa [every] at ended

/-- Up to the encryption of another cycle the key is bound once, or once for each cycle with it. -/
theorem unstopped_opened (exchanges : List Exchange) :
    Unstopped (setup.binds (exchanges.length + 1)) exchanges.length
      (preparation inputs setup ++ exchangeCalls inputs setup exchanges ++
        opening inputs setup) := by
  have both := (unstopped_begun inputs setup exchanges).append (unstopped_opening inputs setup)
  cases setup <;> exact both

end Counts

namespace Course

variable {inputs : Inputs} {setup : KeySetup} {count : Nat} {calls before after : List Call}

/-- Either nothing stops the run, or its last call does. -/
theorem unstopped_or_stopped (course : Course inputs setup count calls) :
    Unstopped (setup.binds count) count calls ∨
      (∃ front cycles error, Unstopped (setup.binds (cycles + 1)) cycles front ∧
        calls = front ++ [.encrypt inputs.plaintext inputs.iv inputs.aad (.error error)]) ∨
      ∃ front cycles error, Unstopped cycles cycles front ∧ (setup = .once → cycles = 0) ∧
        calls = front ++ [.bind inputs.key (.error error)] := by
  cases course with
  | refused once error => exact .inr (.inr ⟨[], 0, error, unstopped_nil, fun _ => rfl, rfl⟩)
  | begun exchanges ending fits =>
    have begun := unstopped_begun inputs setup exchanges
    cases ending with
    | complete =>
      left
      rw [show exchanges.length = count from fits] at begun
      rwa [Ending.calls, List.append_nil]
    | unsealed error =>
      refine .inr (.inl ⟨_, _, error, unstopped_opened inputs setup exchanges, ?_⟩)
      rw [Ending.calls, List.append_assoc, List.append_assoc, List.append_assoc]
    | unbound error =>
      obtain ⟨rfl, _⟩ := fits
      exact .inr (.inr ⟨_, _, error, begun, nofun, rfl⟩)

/-- Without a refusal every cycle is made. -/
theorem counts_of_go (course : Course inputs setup count calls)
    (go : ∀ call ∈ calls, call.stops = false) :
    calls.countP Call.isBind = setup.binds count ∧ calls.countP Call.isEncrypt = count ∧
      calls.countP Call.isDecrypt = count := by
  rcases course.unstopped_or_stopped with unstopped | ⟨front, _, error, _, rfl⟩ |
    ⟨front, _, error, _, _, rfl⟩
  · exact ⟨unstopped.binds, unstopped.encrypts, unstopped.decrypts⟩
  · exact absurd (go _ (List.mem_append_right front (List.mem_singleton_self _))) nofun
  · exact absurd (go _ (List.mem_append_right front (List.mem_singleton_self _))) nofun

/-- An encryption that fails is the last call, behind as many cycles as encryptions before it. -/
theorem counts_of_unsealed (course : Course inputs setup count calls) {plaintext : Bytes}
    {iv aad : Option Bytes} {error : CipherError}
    (parts : calls = before ++ .encrypt plaintext iv aad (.error error) :: after) :
    let cycles := before.countP Call.isEncrypt
    after = [] ∧ calls.countP Call.isBind = setup.binds (cycles + 1) ∧
      calls.countP Call.isEncrypt = cycles + 1 ∧ calls.countP Call.isDecrypt = cycles := by
  rcases course.unstopped_or_stopped with unstopped | ⟨front, cycles, _, unstopped, rfl⟩ |
    ⟨front, cycles, _, unstopped, _, rfl⟩
  · have stops := unstopped.go (.encrypt plaintext iv aad (.error error))
      (by rw [parts]; exact List.mem_append_right before List.mem_cons_self)
    contradiction
  · obtain ⟨rfl, _, rfl⟩ := unstopped.last_of_stops parts rfl
    refine ⟨rfl, ?_, ?_, ?_⟩
    · rw [List.countP_append, unstopped.binds, unstopped.encrypts]
      rfl
    · rw [List.countP_append]
      rfl
    · rw [List.countP_append, unstopped.decrypts, unstopped.encrypts]
      rfl
  · obtain ⟨_, other, _⟩ := unstopped.last_of_stops parts rfl
    contradiction

/-- A binding that fails is the last call, behind as many cycles as bindings before it; if the key
is bound once, it is the only call. -/
theorem counts_of_unbound (course : Course inputs setup count calls) {key : Bytes}
    {error : CipherError} (parts : calls = before ++ .bind key (.error error) :: after) :
    let cycles := before.countP Call.isBind
    after = [] ∧ calls.countP Call.isBind = cycles + 1 ∧ calls.countP Call.isEncrypt = cycles ∧
      calls.countP Call.isDecrypt = cycles ∧ (setup = .once → cycles = 0) := by
  rcases course.unstopped_or_stopped with unstopped | ⟨front, cycles, _, unstopped, rfl⟩ |
    ⟨front, cycles, _, unstopped, only, rfl⟩
  · have stops := unstopped.go (.bind key (.error error))
      (by rw [parts]; exact List.mem_append_right before List.mem_cons_self)
    contradiction
  · obtain ⟨_, other, _⟩ := unstopped.last_of_stops parts rfl
    contradiction
  · obtain ⟨rfl, _, rfl⟩ := unstopped.last_of_stops parts rfl
    rw [unstopped.binds]
    refine ⟨rfl, ?_, ?_, ?_, only⟩
    · rw [List.countP_append, unstopped.binds]
      rfl
    · rw [List.countP_append, unstopped.encrypts]
      rfl
    · rw [List.countP_append, unstopped.decrypts]
      rfl

end Course

/-- What calls a run makes, and in which order: only a binding or an encryption that fails stops it,
and is its last call; every other run makes all its cycles, whatever decryptions answer. The numbers
of calls follow. The mean time is always a duration. Without a decryption it is zero, where a
division would have no answer; with some it is the exact mean of as many cycles, but for
roundings. -/
theorem calls_run {σ : Type} (subject : Subject σ) (inputs : Inputs) (iterations : Nat)
    (setup : KeySetup) (state : σ) (elapsed : Elapsed) :
    let calls := (journal subject inputs iterations setup state).calls
    let count := max 1 iterations
    let binds := calls.countP Call.isBind
    let encrypts := calls.countP Call.isEncrypt
    let decrypts := calls.countP Call.isDecrypt
    Course inputs setup count calls ∧
      ((∀ call ∈ calls, call.stops = false) →
        binds = setup.binds count ∧ encrypts = count ∧ decrypts = count) ∧
      (∀ before plaintext iv aad error after,
        calls = before ++ .encrypt plaintext iv aad (.error error) :: after →
          let cycles := before.countP Call.isEncrypt
          after = [] ∧ binds = setup.binds (cycles + 1) ∧ encrypts = cycles + 1 ∧
            decrypts = cycles) ∧
      (∀ before key error after, calls = before ++ .bind key (.error error) :: after →
        let cycles := before.countP Call.isBind
        after = [] ∧ binds = cycles + 1 ∧ encrypts = cycles ∧ decrypts = cycles ∧
          (setup = .once → cycles = 0)) ∧
      let outcome := (run subject inputs iterations setup state).1
      let mean := (outcome.result elapsed).averageDuration
      elapsed.duration.average? outcome.tally.completed = some mean ∧
        (decrypts = 0 → mean = .zero ∧
          elapsed.duration.divide? (UInt64.ofNatClamp outcome.tally.completed).toFloat = none) ∧
        (0 < decrypts → decrypts < 2 ^ 64 →
          |(mean.nanoseconds - elapsed.duration.nanoseconds / decrypts : ℚ)| ≤
            1 / 2 + elapsed.duration.nanoseconds / decrypts / 2 ^ 50) := by
  intro calls count binds encrypts decrypts
  have course : Course inputs setup count calls := course_of_run rfl
  have completed : (run subject inputs iterations setup state).1.tally.completed = decrypts :=
    (journal_spec subject inputs iterations setup state).2.completed
  refine ⟨course, course.counts_of_go, ?_, ?_, elapsed.average?_eq_some _, ?_, ?_⟩
  · intro before plaintext iv aad error after parts
    exact course.counts_of_unsealed parts
  · intro before key error after parts
    exact course.counts_of_unbound parts
  · intro none
    rw [Outcome.result, completed, none]
    exact elapsed.average_zero
  · intro some fits
    rw [Outcome.result, completed]
    exact elapsed.average_near some fits

end Trial

end AesTrials
