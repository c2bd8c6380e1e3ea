import AesTrials.Proofs.Layout
import AesTrials.Variant.Text

/-!
# The vectors of a history

Entropy is spent on messages only. Whatever is asked of a variant that draws its vectors, on bytes
or on texts, the messages that it makes carry the blocks of its entropy in order, none of them
skipped and none used again; a call that makes no message draws nothing. A variant with a fixed
nonce and one that takes its vectors from the caller never draw.
-/

namespace AesTrials

/-- A call that is still to be made, on bytes or on texts. -/
inductive Operation where
  /-- A call on bytes. -/
  | plain (request : Request)
  /-- Encrypt a text, with optional additional data. -/
  | encryptText (plaintext : String) (aad : Option String)
  /-- Decrypt a message in Base64, given the length of its additional data. -/
  | decryptText (message : String) (aadLength : Nat)
deriving DecidableEq, Repr, Inhabited

namespace Operation

/-- The call on bytes that an operation makes, if it makes one. -/
def request? : Operation → Option Request
  | .plain request => some request
  | .encryptText plaintext aad =>
    some (.encrypt (Bytes.ofText plaintext) none (aad.map Bytes.ofText))
  | .decryptText message aadLength =>
    (Base64.decode? message.toList).map fun bytes => .decrypt bytes 0 aadLength

/-- The vector that the caller supplies. -/
def iv? : Operation → Option Bytes
  | .plain (.encrypt _ iv _) => iv
  | _ => none

/-- Whether the family takes what the operation encrypts, if it encrypts anything. -/
def Admitted (family : Family) (operation : Operation) : Prop :=
  ∀ plaintext iv aad, operation.request? = some (.encrypt plaintext iv aad) →
    family.AdmitsLengths plaintext.length (aad.getD []).length

end Operation

/-- The vector that a message of the family carries behind its additional data. -/
def Family.vectorOf (family : Family) (aadLength : Nat) (message : Bytes) : Bytes :=
  (message.drop aadLength).take family.nonceLength

namespace Entropy

variable (entropy : Entropy) (length count : Nat)

/-- The next blocks of a length, one behind the other. -/
def blocks : List Bytes :=
  (List.range count).map fun j =>
    (List.range length).map fun i => entropy.source (entropy.drawn + j * length + i)

/-- The supply behind the next blocks of a length. -/
def behind : Entropy := { entropy with drawn := entropy.drawn + count * length }

/-- The first block is what a draw gives, and the others are those behind the draw. -/
theorem blocks_succ :
    entropy.blocks length (count + 1) =
      (entropy.draw length).1 :: (entropy.draw length).2.blocks length count := by
  rw [blocks, List.range_succ_eq_map, List.map_cons, List.map_map, Nat.zero_mul]
  refine congrArg ((entropy.draw length).1 :: ·) (List.map_congr_left fun j _ => ?_)
  simp only [Function.comp_apply, draw, Nat.succ_mul, Nat.add_assoc, Nat.add_comm length]

theorem behind_succ :
    entropy.behind length (count + 1) = (entropy.draw length).2.behind length count := by
  simp only [behind, draw, Nat.succ_mul, Nat.add_assoc, Nat.add_comm length]

end Entropy

/-- A family that draws its vectors takes none from its caller. -/
theorem Family.AcceptsVector.eq_none {family : Family} {iv : Option Bytes}
    (accepted : family.AcceptsVector iv) (internal : family.nonceSource = .internal) :
    iv = none := by
  simpa only [AcceptsVector, internal] using accepted

namespace Variant

/-- The state after an operation. -/
def operated (state : Variant × Entropy) : Operation → Variant × Entropy
  | .plain request => subject.after state request
  | .encryptText plaintext aad => (state.1, (state.1.encryptText state.2 plaintext aad).2)
  | .decryptText _ _ => state

/-- The vector of the message that an operation gives, if it gives one. -/
def carried? (state : Variant × Entropy) : Operation → Option Bytes
  | .plain (.encrypt plaintext iv aad) =>
    (state.1.encrypt state.2 plaintext iv aad).1.toOption.map
      (state.1.family.vectorOf (aad.getD []).length)
  | .encryptText plaintext aad =>
    ((state.1.encryptText state.2 plaintext aad).1.toOption.bind fun text =>
      Base64.decode? text.toList).map
        (state.1.family.vectorOf ((aad.map Bytes.ofText).getD []).length)
  | _ => none

/-- The vectors of the messages that operations give. -/
def vectors (state : Variant × Entropy) : List Operation → List Bytes
  | [] => []
  | operation :: operations =>
    (carried? state operation).toList ++ vectors (operated state operation) operations

/-- The text layer makes its call on bytes. -/
theorem operated_eq_after (state : Variant × Entropy) (operation : Operation) :
    operated state operation = operation.request?.elim state (subject.after state) := by
  cases operation with
  | plain request => rfl
  | encryptText plaintext aad =>
    have same : (state.1.encryptText state.2 plaintext aad).2 =
        (state.1.encrypt state.2 (Bytes.ofText plaintext) none (aad.map Bytes.ofText)).2 := by
      unfold encryptText
      split <;> rename_i answered <;> rw [answered]
    rw [operated, same]
    rfl
  | decryptText message aadLength =>
    simp only [operated, Operation.request?]
    cases Base64.decode? message.toList <;> rfl

/-- The message behind a text is the one that the call on bytes gives. -/
theorem carried?_encryptText (state : Variant × Entropy) (plaintext : String)
    (aad : Option String) :
    carried? state (.encryptText plaintext aad) =
      carried? state
        (.plain (.encrypt (Bytes.ofText plaintext) none (aad.map Bytes.ofText))) := by
  simp only [carried?, encryptText]
  cases state.1.encrypt state.2 (Bytes.ofText plaintext) none (aad.map Bytes.ofText) with
  | mk answer left =>
    cases answer with
    | error error => rfl
    | ok message => simp [Except.toOption, Base64.decode?_encode]

/-- An encryption of lengths that the family takes fails before it draws, or carries the next vector
and uses up what that vector took. -/
theorem encrypt_carries {variant : Variant} (fits : variant.NonceFits) {plaintext : Bytes}
    {aad : Option Bytes}
    (admitted : variant.family.AdmitsLengths plaintext.length (aad.getD []).length)
    (iv : Option Bytes) (entropy : Entropy) :
    (∃ error, variant.encrypt entropy plaintext iv aad = (.error error, entropy)) ∨
      variant.family.AcceptsVector iv ∧
        ∃ message, variant.encrypt entropy plaintext iv aad =
            (.ok message, (variant.nextVector iv entropy).2) ∧
          variant.family.vectorOf (aad.getD []).length message =
            (variant.nextVector iv entropy).1 := by
  have ends := encrypted_encrypt fits admitted iv entropy
  generalize variant.encrypt entropy plaintext iv aad = answer at ends ⊢
  cases ends with
  | vector foreign fault => exact .inl ⟨_, rfl⟩
  | key accepted unkeyed => exact .inl ⟨_, rfl⟩
  | @message accepted _ frame laid =>
    refine .inr ⟨accepted, frame.join, rfl, ?_⟩
    have behind : frame.join.drop (aad.getD []).length = frame.iv ++ (frame.body ++ frame.tag) := by
      rw [← laid.aad, Frame.join, List.append_assoc, List.append_assoc, List.drop_left]
    rw [Family.vectorOf, behind, ← laid.ivLength, List.take_left, laid.iv_eq]

/-- What an operation does to entropy: nothing if it gives no message, and else what the next vector
takes, which the message carries. -/
theorem operated_carries {state : Variant × Entropy} (fits : state.1.NonceFits)
    {operation : Operation} (admitted : operation.Admitted state.1.family) :
    (carried? state operation = none ∧ (operated state operation).2 = state.2) ∨
      state.1.family.AcceptsVector operation.iv? ∧
        carried? state operation = some (state.1.nextVector operation.iv? state.2).1 ∧
        (operated state operation).2 = (state.1.nextVector operation.iv? state.2).2 := by
  have encrypts {plaintext : Bytes} {iv aad : Option Bytes}
      (asked : operation.request? = some (.encrypt plaintext iv aad)) :
      (carried? state (.plain (.encrypt plaintext iv aad)) = none ∧
          (operated state operation).2 = state.2) ∨
        state.1.family.AcceptsVector iv ∧
          carried? state (.plain (.encrypt plaintext iv aad)) =
            some (state.1.nextVector iv state.2).1 ∧
          (operated state operation).2 = (state.1.nextVector iv state.2).2 := by
    have after : (operated state operation).2 =
        (state.1.encrypt state.2 plaintext iv aad).2 := by
      rw [operated_eq_after, asked]
      rfl
    rw [after]
    rcases encrypt_carries fits (admitted plaintext iv aad asked) iv state.2 with
      ⟨error, failed⟩ | ⟨accepted, message, made, vector⟩
    · left
      simp [carried?, failed, Except.toOption]
    · right
      exact ⟨accepted, by simp [carried?, made, Except.toOption, vector], by rw [made]⟩
  cases operation with
  | plain request =>
    cases request with
    | bind key => exact .inl ⟨rfl, rfl⟩
    | encrypt plaintext iv aad => exact encrypts rfl
    | decrypt message ivLength aadLength => exact .inl ⟨rfl, rfl⟩
  | encryptText plaintext aad =>
    rw [carried?_encryptText]
    exact encrypts rfl
  | decryptText message aadLength => exact .inl ⟨rfl, rfl⟩

/-- An operation changes neither the family nor the fixed nonce. -/
theorem operated_labels (state : Variant × Entropy) (operation : Operation) :
    (operated state operation).1.family = state.1.family ∧
      (operated state operation).1.fixedNonce = state.1.fixedNonce := by
  obtain ⟨variant, entropy⟩ := state
  rw [operated_eq_after]
  cases operation.request? with
  | none => exact ⟨rfl, rfl⟩
  | some request =>
    rw [Option.elim_some, after_eq_rekeyed]
    exact variant.rekeyed_labels request.key?

/-- Operations change neither the family nor the fixed nonce. -/
theorem foldl_operated_labels (state : Variant × Entropy) (operations : List Operation) :
    (operations.foldl operated state).1.family = state.1.family ∧
      (operations.foldl operated state).1.fixedNonce = state.1.fixedNonce := by
  induction operations generalizing state with
  | nil => exact ⟨rfl, rfl⟩
  | cons operation operations ih =>
    obtain ⟨family, nonce⟩ := ih (operated state operation)
    obtain ⟨family', nonce'⟩ := operated_labels state operation
    exact ⟨family.trans family', nonce.trans nonce'⟩

/-- Operations leave what their calls on bytes leave. -/
theorem foldl_operated_eq_afterAll (state : Variant × Entropy) (operations : List Operation) :
    operations.foldl operated state =
      subject.afterAll state (operations.filterMap Operation.request?) := by
  induction operations generalizing state with
  | nil => rfl
  | cons operation operations ih =>
    rw [List.foldl_cons, ih, operated_eq_after]
    cases asked : operation.request? with
    | none => rw [List.filterMap_cons_none asked, Option.elim_none]
    | some request =>
      rw [List.filterMap_cons_some asked, Option.elim_some]
      rfl

section Histories

variable {state : Variant × Entropy} {operations : List Operation}

/-- A vector that is not drawn uses up no entropy. -/
theorem nextVector_of_still {variant : Variant}
    (still : variant.fixedNonce ≠ none ∨ variant.family = .cbcRaw) {iv : Option Bytes}
    (accepted : variant.family.AcceptsVector iv) (entropy : Entropy) :
    (variant.nextVector iv entropy).2 = entropy := by
  cases iv with
  | some vector => rfl
  | none =>
    rcases still with fixed | raw
    · obtain ⟨nonce, given⟩ := Option.ne_none_iff_exists'.mp fixed
      simp only [nextVector, given]
    · rw [raw] at accepted
      obtain ⟨_, absurd, _⟩ := accepted
      contradiction

/-- A fixed nonce is the next vector, and a vector that is supplied to a family that takes one. -/
theorem nextVector_given {variant : Variant} {iv : Option Bytes}
    (accepted : variant.family.AcceptsVector iv) (entropy : Entropy) :
    (∀ nonce, variant.fixedNonce = some nonce → variant.family.nonceSource = .internal →
        (variant.nextVector iv entropy).1 = nonce) ∧
      (variant.family = .cbcRaw → iv = some (variant.nextVector iv entropy).1) := by
  constructor
  · intro nonce fixed internal
    simp only [accepted.eq_none internal, nextVector, fixed]
  · intro raw
    rw [raw] at accepted
    obtain ⟨vector, rfl, _⟩ := accepted
    rfl

/-- Only a family that draws its vectors is constructed with a fixed nonce. -/
theorem Constructed.internal_of_fixed {variant : Variant} (constructed : variant.Constructed)
    {nonce : Bytes} (fixed : variant.fixedNonce = some nonce) :
    variant.family.nonceSource = .internal := by
  cases family : variant.family with
  | cbcRaw =>
    have drawing := constructed.drawing_of_not_aead (by rw [family]; rfl)
    rw [fixed] at drawing
    contradiction
  | cbc | cbcHmac | gcm | gcmWide | gcmSiv => rfl

/-- Where no vector is drawn no operation uses up entropy. -/
theorem entropy_of_still (still : state.1.fixedNonce ≠ none ∨ state.1.family = .cbcRaw)
    (fits : state.1.NonceFits)
    (admitted : ∀ operation ∈ operations, operation.Admitted state.1.family) :
    (operations.foldl operated state).2 = state.2 := by
  induction operations generalizing state with
  | nil => rfl
  | cons operation operations ih =>
    obtain ⟨family, nonce⟩ := operated_labels state operation
    rw [← family, ← nonce] at still
    have later := ih still (fits.of_eq family nonce) (by
      rw [family]
      exact fun next listed => admitted next (List.mem_cons_of_mem _ listed))
    rw [List.foldl_cons, later]
    rcases operated_carries fits (admitted operation List.mem_cons_self) with
      ⟨_, kept⟩ | ⟨accepted, _, spent⟩
    · exact kept
    · rw [family, nonce] at still
      rw [spent, nextVector_of_still still accepted]

/-- A variant that draws its vectors puts the blocks of its entropy into its messages in order, and
draws no more. -/
theorem vectors_of_drawing (internal : state.1.family.nonceSource = .internal)
    (drawing : state.1.fixedNonce = none)
    (admitted : ∀ operation ∈ operations, operation.Admitted state.1.family) :
    let count := (vectors state operations).length
    vectors state operations = state.2.blocks state.1.family.nonceLength count ∧
      (operations.foldl operated state).2 =
        state.2.behind state.1.family.nonceLength count := by
  induction operations generalizing state with
  | nil => simp [vectors, Entropy.blocks, Entropy.behind]
  | cons operation operations ih =>
    have fits : state.1.NonceFits := by
      intro nonce given
      rw [drawing] at given
      contradiction
    obtain ⟨family, nonce⟩ := operated_labels state operation
    have later := ih (family ▸ internal) (nonce ▸ drawing) (by
      rw [family]
      exact fun next listed => admitted next (List.mem_cons_of_mem _ listed))
    rw [family] at later
    rcases operated_carries fits (admitted operation List.mem_cons_self) with
      ⟨nothing, kept⟩ | ⟨accepted, carried, spent⟩
    · simp only [vectors, nothing, Option.toList_none, List.nil_append, List.foldl_cons]
      rwa [kept] at later
    · -- The block at hand goes into the message, and the rest starts behind it.
      have drawn : state.1.nextVector operation.iv? state.2 =
          state.2.draw state.1.family.nonceLength := by
        simp only [accepted.eq_none internal, nextVector, drawing]
      rw [drawn] at carried spent
      rw [spent] at later
      simp only [vectors, carried, Option.toList_some, List.cons_append, List.nil_append,
        List.foldl_cons, List.length_cons, Entropy.blocks_succ, Entropy.behind_succ]
      exact ⟨congrArg _ later.1, later.2⟩

end Histories

/-- What becomes of entropy over a history. A variant that draws its vectors puts the blocks of its
entropy into the messages that it gives, in order, and leaves what is behind them. One with a fixed
nonce, or one that takes its vectors, leaves all of it, and its messages carry that nonce or the
vectors supplied. No operation that gives no message draws. The layers of a variant with a message
code, asked the same on bytes, leave the same and make the same messages. -/
theorem vectors_history {variant : Variant} (constructed : variant.Constructed)
    (entropy : Entropy) (operations : List Operation)
    (admitted : ∀ operation ∈ operations, operation.Admitted variant.family) :
    let start := (variant, entropy)
    let left := operations.foldl operated start
    let count := (vectors start operations).length
    (variant.family.nonceSource = .internal → variant.fixedNonce = none →
        vectors start operations = entropy.blocks variant.family.nonceLength count ∧
          left.2 = entropy.behind variant.family.nonceLength count) ∧
      (variant.fixedNonce ≠ none ∨ variant.family = .cbcRaw → left.2 = entropy) ∧
      (∀ before operation after, operations = before ++ operation :: after →
        let state := before.foldl operated start
        (carried? state operation = none → (operated state operation).2 = state.2) ∧
          ∀ vector, carried? state operation = some vector →
            (∀ nonce, variant.fixedNonce = some nonce → vector = nonce) ∧
              (variant.family = .cbcRaw → operation.iv? = some vector)) ∧
      (variant.family = .cbcHmac →
        let layers := EncryptThenMac.subject.afterAll (.new, entropy)
          (operations.filterMap Operation.request?)
        layers.2 = left.2 ∧ ∀ supply plaintext iv aad,
          layers.1.encrypt supply plaintext iv aad = left.1.encrypt supply plaintext iv aad) := by
  intro start left count
  refine ⟨fun internal drawing => vectors_of_drawing internal drawing admitted,
    fun still => entropy_of_still still constructed.nonceFits admitted, ?_, ?_⟩
  · intro before operation after parts state
    have labels := foldl_operated_labels start before
    have fits : state.1.NonceFits := constructed.nonceFits.of_eq labels.1 labels.2
    have listed : operation ∈ operations := by
      rw [parts]
      exact List.mem_append_right before List.mem_cons_self
    have taken : operation.Admitted state.1.family := by
      rw [labels.1]
      exact admitted operation listed
    rcases operated_carries fits taken with ⟨nothing, kept⟩ | ⟨accepted, carried, _⟩
    · refine ⟨fun _ => kept, ?_⟩
      intro vector given
      rw [nothing] at given
      contradiction
    · refine ⟨fun nothing => by rw [carried] at nothing; contradiction, ?_⟩
      intro vector given
      rw [carried] at given
      cases given
      obtain ⟨fixed, raw⟩ := nextVector_given accepted state.2
      rw [labels.1, labels.2] at fixed
      rw [labels.1] at raw
      exact ⟨fun nonce given => fixed nonce given (constructed.internal_of_fixed given), raw⟩
  · intro hmac layers
    have drawing := constructed.drawing_of_not_aead (by rw [hmac]; rfl)
    have fresh : variant.layers = .new := by
      simp only [Variant.layers, constructed.unkeyed]
      rfl
    have same := afterAll_layers hmac drawing entropy (operations.filterMap Operation.request?)
    rw [fresh, ← foldl_operated_eq_afterAll] at same
    have labels := foldl_operated_labels start operations
    have asked : layers = (left.1.layers, left.2) := same
    rw [asked]
    exact ⟨rfl, encrypt_layers (labels.1.trans hmac) (labels.2.trans drawing)⟩

/-- Two messages, one of a text, between an encryption without a key and one with a vector. -/
theorem vectors_history_gcm :
    let operations : List Operation :=
      [.encryptText "a" none, .plain (.bind (List.replicate 16 0)),
        .plain (.encrypt [1, 2] none (some [3])), .plain (.encrypt [1, 2] (some [4]) none),
        .encryptText "b" (some "c")]
    let start := (Variant.new .gcm, Entropy.cycle [1, 2, 3, 4, 5])
    (∀ operation ∈ operations, operation.Admitted .gcm) ∧
      vectors start operations =
        [[1, 2, 3, 4, 5, 1, 2, 3, 4, 5, 1, 2], [3, 4, 5, 1, 2, 3, 4, 5, 1, 2, 3, 4]] := by
  intro operations start
  have admitted : ∀ operation ∈ operations, operation.Admitted .gcm := by
    intro operation listed plaintext iv aad asked _
    simp only [operations, List.mem_cons, List.not_mem_nil, or_false] at listed
    rcases listed with rfl | rfl | rfl | rfl | rfl <;> cases asked <;> decide
  have history := (vectors_history (.drawing .gcm) (.cycle [1, 2, 3, 4, 5]) operations admitted).1
    rfl rfl
  have count : (vectors start operations).length = 2 := by
    simp only [operations, vectors, carried?_encryptText]
    rfl
  refine ⟨admitted, history.1.trans ?_⟩
  rw [count]
  rfl

end Variant

end AesTrials
