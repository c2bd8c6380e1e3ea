import AesTrials.Proofs.Forecast
import AesTrials.Session.Basic
import Mathlib.Data.List.Forall2

/-!
# Runs side by side

The runs of a suite share a workload and draw their vectors one after the other from one supply of
entropy, and still none shows in the result of another. Whatever vector is drawn, encrypting the
same inputs fails in the same way or makes a message of the same length whose decryption gives the
same answer, so that the outcome of a run does not depend on the entropy that runs before it left.
-/

namespace AesTrials

/-- Lengths that the family does not take are refused under every vector. -/
theorem Family.encrypt_eq_error {family : Family} {plaintext aad : Bytes}
    (beyond : ¬ family.AdmitsLengths plaintext.length aad.length) (keyed : Keyed) (iv : Bytes) :
    family.encrypt keyed iv aad plaintext = .error .authenticationFailure := by
  obtain ⟨aead, long⟩ := Classical.not_imp.mp beyond
  have long : Gcm.sizeBound < plaintext.length ∨ Gcm.sizeBound < aad.length := by omega
  cases family with
  | cbc | cbcRaw | cbcHmac => contradiction
  | gcm | gcmWide => simp only [encrypt, Gcm.encrypt, if_pos long]
  | gcmSiv => simp only [encrypt, GcmSiv.encrypt, if_pos long]

/-- Which lengths a family takes can be decided. -/
instance (family : Family) (plainLength aadLength : Nat) :
    Decidable (family.AdmitsLengths plainLength aadLength) :=
  inferInstanceAs (Decidable (_ → _))

/-- What encrypting a plaintext beside additional data of a length and decrypting the message comes
to, under any key and any vector that the family takes. -/
def Family.exchanged (family : Family) (plaintext : Bytes) (aadLength : Nat) : Exchanged :=
  if family.AdmitsLengths plaintext.length aadLength then
    .ok (family.messageLength plaintext.length aadLength,
      if aadLength + family.nonceLength + family.tagLength < sizeLimit then .ok plaintext
      else .error (.corruptFraming .lengthsOverflow))
  else .error .authenticationFailure

/-- The tally after a number of cycles whose exchanges all come to the same, or after fewer if one
of them stops the run. -/
def Tally.exchangeAll (plaintext : Bytes) (exchanged : Exchanged) : Nat → Tally → Tally
  | 0, tally => tally
  | count + 1, tally =>
    match tally.exchange plaintext exchanged with
    | (tally, true) => exchangeAll plaintext exchanged count tally
    | (tally, false) => tally

namespace Variant

section Exchange

variable {variant : Variant} {inputs : Inputs}

/-- An encryption that fails is all that an exchange comes to. -/
theorem exchange_of_error {entropy : Entropy} {error : CipherError}
    (unsealed : (variant.encrypt entropy inputs.plaintext inputs.iv inputs.aad).1 =
      .error error) : variant.exchange inputs entropy = .error error := by
  rw [exchange, unsealed]
  rfl

/-- Neither the key nor the vector shows in the length of a message or in what decrypting it
gives. -/
theorem exchange_of_accepted {keyed : Keyed} (bound : variant.keyed = some keyed)
    (fits : variant.NonceFits) (accepted : variant.family.AcceptsVector inputs.iv)
    (entropy : Entropy) :
    variant.exchange inputs entropy =
      variant.family.exchanged inputs.plaintext inputs.aadLength := by
  by_cases admitted : variant.family.AdmitsLengths inputs.plaintext.length inputs.aadLength
  · rw [exchange_of_admitted bound fits accepted admitted, Family.exchanged, if_pos admitted]
  · rw [Family.exchanged, if_neg admitted]
    apply exchange_of_error
    rw [encrypt_of_keyed bound accepted, Family.encrypt_eq_error admitted]
    rfl

end Exchange

end Variant

namespace Trial

section Cycles

variable {variant bound : Variant} {inputs : Inputs} {setup : KeySetup}

/-- Cycles that start from a variant whose exchanges all come to the same add them up. -/
theorem cycles_eq_exchangeAll {exchanged : Exchanged}
    (same : ∀ entropy, bound.exchange inputs entropy = exchanged)
    (again : ∀ entropy,
      rebind Variant.subject inputs setup (bound, entropy) = (.ok (), bound, entropy))
    (count : Nat) {entropy : Entropy}
    (starts : rebind Variant.subject inputs setup (variant, entropy) = (.ok (), bound, entropy))
    (tally : Tally) :
    ∃ left, cycles Variant.subject inputs setup (count + 1) tally (variant, entropy) =
      (tally.exchangeAll inputs.plaintext exchanged (count + 1), bound, left) := by
  -- Every later cycle starts from the bound variant, whatever entropy the first one left.
  induction count generalizing variant entropy tally with
  | zero =>
    obtain ⟨left, only⟩ := cycle_eq_exchange starts tally
    rw [same] at only
    refine ⟨left, ?_⟩
    rw [cycles, only, Tally.exchangeAll]
    cases tally.exchange inputs.plaintext exchanged with
    | mk counted goes => cases goes <;> rfl
  | succ count ih =>
    obtain ⟨between, first⟩ := cycle_eq_exchange starts tally
    rw [same] at first
    cases exchange : tally.exchange inputs.plaintext exchanged with
    | mk counted goes =>
      rw [exchange] at first
      cases goes with
      | false =>
        refine ⟨between, ?_⟩
        rw [cycles_of_stops first, Tally.exchangeAll, exchange]
      | true =>
        obtain ⟨left, rest⟩ := ih (again between) counted
        refine ⟨left, ?_⟩
        rw [cycles, first, Tally.exchangeAll, exchange]
        exact rest

/-- The outcome of a run whose key is bound bears the name of the bound variant and adds up what its
exchanges come to, whatever there is of entropy and whenever the key is bound. -/
theorem exists_outcome (accepted : variant.bind inputs.key = (.ok (), bound))
    {exchanged : Exchanged} (same : ∀ entropy, bound.exchange inputs entropy = exchanged)
    (iterations : Nat) (setup : KeySetup) :
    ∃ startedAs, ∀ entropy,
      (run Variant.subject inputs iterations setup (variant, entropy)).1 =
        ⟨bound.name, startedAs, inputs.plaintext.length, inputs.aadLength,
          Tally.empty.exchangeAll inputs.plaintext exchanged (cycleCount iterations)⟩ := by
  obtain ⟨first, ready⟩ := exists_prepare accepted setup
  obtain ⟨count, least⟩ := exists_cycleCount_eq iterations
  refine ⟨first.name, ?_⟩
  intro entropy
  obtain ⟨prepared, starts, _⟩ := ready entropy
  obtain ⟨left, rest⟩ :=
    cycles_eq_exchangeAll same (fun entropy => (ready entropy).2.2) count starts .empty
  simp only [run, prepared, least, rest]
  rfl

end Cycles

end Trial

/-- The results of a report, their times left out. -/
def Report.untimed (report : Report) : List Result := report.results.map Result.untimed

namespace Workload

variable (stream : WordStream) (payloadSize aadSize : Nat)

/-- The key that is drawn for a width is as long as the width says. -/
theorem length_key_draw (width : KeyWidth) :
    ((draw stream payloadSize aadSize).1.key width).bytes.length = width.byteLength := by
  cases width <;> exact WordStream.length_bytesAt _ _ _

/-- The additional data of a run is as long as it was asked for, passed or not. -/
theorem aadLength_inputs_draw (width : KeyWidth) (source : NonceSource) :
    ((draw stream payloadSize aadSize).1.inputs width source).aadLength = aadSize := by
  have drawn : (draw stream payloadSize aadSize).1.aad.length = aadSize :=
    WordStream.length_bytesAt _ _ _
  simp only [Inputs.aadLength, inputs]
  split
  · rename_i empty
    rw [List.isEmpty_iff.mp empty] at drawn
    exact drawn
  · exact drawn

/-- The plaintext of a run is as long as it was asked for. -/
theorem length_plaintext_inputs_draw (width : KeyWidth) (source : NonceSource) :
    ((draw stream payloadSize aadSize).1.inputs width source).plaintext.length = payloadSize := by
  simp only [inputs, draw, pattern, List.length_map, List.length_range]

/-- The vector is routed to the families that take one. -/
theorem acceptsVector_inputs_draw (width : KeyWidth) (family : Family) :
    family.AcceptsVector
      ((draw stream payloadSize aadSize).1.inputs width family.nonceSource).iv := by
  have drawn : (draw stream payloadSize aadSize).1.iv.length = Aes.blockLength :=
    WordStream.length_bytesAt _ _ _
  cases family with
  | cbcRaw => exact ⟨_, rfl, drawn⟩
  | cbc | cbcHmac | gcm | gcmWide | gcmSiv => rfl

end Workload

/-- What the runs of a selector see, whatever keys, vectors and additional data are drawn. -/
def Selector.tally (selector : Selector) (params : Params) : Tally :=
  let plaintext := Workload.pattern params.payloadSize
  Tally.empty.exchangeAll plaintext (selector.family.exchanged plaintext params.aadSize)
    (Trial.cycleCount params.iterations)

/-- The result, its time left out, of a run of the selector at the sizes of the parameters. -/
def Selector.result (selector : Selector) (params : Params) : Result :=
  let outcome : Outcome :=
    { name := selector.family.displayName (some selector.width), startedAs := none
      plainSize := params.payloadSize, aadSize := params.aadSize, tally := selector.tally params }
  (outcome.result .zero).untimed

namespace Job

section Drawn

variable (stream : WordStream) (params : Params) (setup : KeySetup) (selector : Selector)

/-- The job of a selector on a workload that was drawn. -/
def drawn : Job :=
  ofSelector (Workload.draw stream params.payloadSize params.aadSize).1 params.iterations setup
    selector

/-- The job of a selector binds the key of its width. -/
theorem exists_bind_drawn :
    ∃ keyed, keyed.cipher.width = selector.width ∧
      (Variant.new selector.family).bind (drawn stream params setup selector).inputs.key =
        (.ok (), ⟨selector.family, none, some keyed⟩) :=
  (Variant.new selector.family).exists_bind (Workload.length_key_draw _ _ _ selector.width)

/-- The job of a selector has an outcome that bears its name and depends neither on entropy nor, but
for the name at the start, on when the key is bound. -/
theorem exists_startedAs_drawn :
    ∃ startedAs, ∀ entropy, ((drawn stream params setup selector).run entropy).1 =
      ⟨selector.family.displayName (some selector.width), startedAs, params.payloadSize,
        params.aadSize, selector.tally params⟩ := by
  obtain ⟨keyed, width, accepted⟩ := exists_bind_drawn stream params setup selector
  let bound : Variant := ⟨selector.family, none, some keyed⟩
  let inputs := (drawn stream params setup selector).inputs
  have aadLength : inputs.aadLength = params.aadSize := Workload.aadLength_inputs_draw _ _ _ _ _
  have plainLength : inputs.plaintext.length = params.payloadSize :=
    Workload.length_plaintext_inputs_draw _ _ _ _ _
  have fits : (Variant.mk selector.family none (some keyed)).NonceFits := nofun
  have taken : bound.family.AcceptsVector inputs.iv :=
    Workload.acceptsVector_inputs_draw stream _ _ selector.width selector.family
  have same (entropy : Entropy) : bound.exchange inputs entropy =
      selector.family.exchanged (Workload.pattern params.payloadSize) params.aadSize := by
    rw [← aadLength]
    exact Variant.exchange_of_accepted rfl fits taken entropy
  obtain ⟨startedAs, outcome⟩ := Trial.exists_outcome accepted same params.iterations setup
  refine ⟨startedAs, ?_⟩
  intro entropy
  have named : bound.name = selector.family.displayName (some selector.width) := by
    rw [← width]
    rfl
  rw [← named, ← plainLength, ← aadLength]
  exact outcome entropy

end Drawn

/-- Whether the job was drawn for a selector and parameters. -/
def Made (entry : Selector × Params) (job : Job) : Prop :=
  ∃ stream setup, job = drawn stream entry.2 setup entry.1

/-- A job comes to what is expected of its selector and its parameters. -/
theorem Made.untimed_run {entry : Selector × Params} {job : Job} (made : Made entry job)
    (entropy : Entropy) (elapsed : Elapsed) :
    ((job.run entropy).1.result elapsed).untimed = entry.1.result entry.2 := by
  obtain ⟨stream, setup, rfl⟩ := made
  obtain ⟨startedAs, same⟩ := exists_startedAs_drawn stream entry.2 setup entry.1
  rw [same]
  rfl

/-- Jobs that run one after the other come to what is expected of each of them. -/
theorem results_runAll {entries : List (Selector × Params)} {jobs : List Job}
    (made : List.Forall₂ Made entries jobs) (entropy : Entropy) :
    ((runAll entropy jobs).1.map fun outcome => (outcome.result .zero).untimed) =
      entries.map fun entry => entry.1.result entry.2 := by
  induction made generalizing entropy with
  | nil => rfl
  | @cons entry job entries jobs first _ ih =>
    have later := ih (job.run entropy).2
    rw [List.map_cons, ← first.untimed_run entropy .zero, ← later]
    rfl

end Job

/-- The jobs of a suite are drawn for its selectors. -/
theorem Suite.made_jobs (stream : WordStream) (selectors : List Selector) (params : Params) :
    List.Forall₂ Job.Made (selectors.map fun selector => (selector, params))
      (jobs stream selectors params).1 := by
  simp only [jobs, List.forall₂_map_left_iff, List.forall₂_map_right_iff]
  exact List.forall₂_same.mpr fun _ _ => ⟨stream, .perIteration, rfl⟩

/-- The results of outcomes do not differ but for the times that were measured. -/
theorem Report.untimed_ofOutcomes (params : Params) (outcomes : List Outcome)
    (times : List Elapsed) (measured : times.length = outcomes.length) :
    (ofOutcomes params outcomes times).untimed =
      outcomes.map fun outcome => (outcome.result .zero).untimed := by
  induction outcomes generalizing times with
  | nil => rfl
  | cons outcome outcomes ih =>
    cases times with
    | nil => contradiction
    | cons time times =>
      rw [List.map_cons, ← ih times (Nat.succ_inj.mp measured)]
      rfl

namespace Session

/-- What a suite finds around it beside the stream of its inputs. -/
structure Surroundings where
  /-- How long runs take. -/
  clock : Clock
  /-- What is left of entropy. -/
  entropy : Entropy
  /-- Runs made before. -/
  runs : Nat

variable (settings : Settings) (params : Params) (stream : WordStream)

/-- The report of a suite of the given selectors and the supplies left. -/
def suite (around : Surroundings) (selectors : List Selector) : Report × Supplies :=
  let supplies := ⟨stream, around.entropy, around.runs⟩
  let (report, _, left) :=
    perform { settings with selectors } around.clock supplies (.suite params)
  (report, left)

end Session

end AesTrials
