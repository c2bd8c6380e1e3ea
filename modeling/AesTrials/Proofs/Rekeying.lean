import AesTrials.Proofs.Layers
import AesTrials.Trial.Subject

/-!
# The life of a key

Whatever was asked of a variant, it stands as if only the last key had been bound, and without a key
if that one was refused: no older key survives, and nothing but a binding changes the variant. In
the layers of a variant with a message code, whose parts are set one after the other, all of them
are absent or all of them come from one key.
-/

namespace AesTrials

/-- A call that is still to be made. -/
inductive Request where
  /-- Bind a key. -/
  | bind (key : Bytes)
  /-- Encrypt a plaintext, given an optional vector and optional additional data. -/
  | encrypt (plaintext : Bytes) (iv aad : Option Bytes)
  /-- Decrypt a message, given the lengths of its vector and its additional data. -/
  | decrypt (message : Bytes) (ivLength aadLength : Nat)
deriving DecidableEq, Repr, Inhabited

namespace Request

/-- The key that a request binds, if it is a binding. -/
def key? : Request → Option Bytes
  | .bind key => some key
  | .encrypt .. | .decrypt .. => none

/-- The last key that requests bind, if there is one. -/
def lastKey? (requests : List Request) : Option Bytes := (requests.filterMap key?).getLast?

/-- The last key is the first request's only if no later request binds one. -/
theorem lastKey?_cons (request : Request) (requests : List Request) :
    lastKey? (request :: requests) = (lastKey? requests).or request.key? := by
  unfold lastKey?
  -- A later key replaces the first one, which is the only one otherwise.
  cases given : request.key? with
  | none => rw [List.filterMap_cons_none given, Option.or_none]
  | some key =>
    rw [List.filterMap_cons_some given, List.getLast?_cons]
    cases (requests.filterMap key?).getLast? <;> rfl

end Request

namespace Subject

variable {σ : Type}

/-- The state after a request, whatever the answer. -/
def after (subject : Subject σ) (state : σ) : Request → σ
  | .bind key => (subject.bind state key).2
  | .encrypt plaintext iv aad => (subject.encrypt state plaintext iv aad).2
  | .decrypt message ivLength aadLength => (subject.decrypt state message ivLength aadLength).2

/-- The state after requests in order. -/
def afterAll (subject : Subject σ) (state : σ) (requests : List Request) : σ :=
  requests.foldl subject.after state

end Subject

namespace Variant

/-- The variant after at most one binding. -/
def rekeyed (variant : Variant) : Option Bytes → Variant
  | none => variant
  | some key => (variant.bind key).2

/-- A binding leaves nothing of the binding before it. -/
theorem bind_bind (variant : Variant) (first second : Bytes) :
    (variant.bind first).2.bind second = variant.bind second := by
  unfold bind
  cases variant.family.derive first <;> rfl

/-- Of two bindings the later one counts. -/
theorem rekeyed_rekeyed (variant : Variant) (first second : Option Bytes) :
    (variant.rekeyed first).rekeyed second = variant.rekeyed (second.or first) := by
  cases second with
  | none => rfl
  | some second =>
    cases first with
    | none => rfl
    | some first => exact congrArg Prod.snd (variant.bind_bind first second)

/-- A binding changes neither the family nor the fixed nonce. -/
theorem rekeyed_labels (variant : Variant) (key : Option Bytes) :
    (variant.rekeyed key).family = variant.family ∧
      (variant.rekeyed key).fixedNonce = variant.fixedNonce := by
  cases key with
  | none => exact ⟨rfl, rfl⟩
  | some key =>
    simp only [rekeyed, bind]
    cases variant.family.derive key <;> exact ⟨rfl, rfl⟩

/-- A key that is refused leaves a variant without a key. -/
theorem bind_of_refused {variant : Variant} (unkeyed : variant.keyed = none) {key : Bytes}
    {error : CipherError} (refused : (variant.bind key).1 = .error error) :
    (variant.bind key).2 = variant := by
  unfold bind at refused ⊢
  cases derived : variant.family.derive key with
  | ok keyed =>
    rw [derived] at refused
    contradiction
  | error error => rw [← unkeyed]

/-- A constructed variant has no key. -/
theorem Constructed.unkeyed {variant : Variant} (constructed : variant.Constructed) :
    variant.keyed = none := by
  cases constructed with
  | drawing family => rfl
  | fixed aead accepted =>
    unfold withNonce at accepted
    split at accepted
    · cases accepted
      rfl
    · contradiction

/-- Only a family that encrypts and authenticates in one is constructed with a fixed nonce. -/
theorem Constructed.drawing_of_not_aead {variant : Variant} (constructed : variant.Constructed)
    (other : variant.family.isAead = false) : variant.fixedNonce = none := by
  cases constructed with
  | drawing family => rfl
  | fixed aead accepted =>
    unfold withNonce at accepted
    split at accepted
    · cases accepted
      rw [aead] at other
      contradiction
    · contradiction

/-- Of a request only the key that it binds changes the variant. -/
theorem after_eq_rekeyed (variant : Variant) (entropy : Entropy) (request : Request) :
    (subject.after (variant, entropy) request).1 = variant.rekeyed request.key? := by
  cases request <;> rfl

/-- Of requests only the last key that they bind changes the variant. -/
theorem afterAll_eq_rekeyed (variant : Variant) (entropy : Entropy) (requests : List Request) :
    (subject.afterAll (variant, entropy) requests).1 =
      variant.rekeyed (Request.lastKey? requests) := by
  -- From the front, over every variant: the rest binds its last key to a variant that may already
  -- be bound, and there the two bindings fall together.
  induction requests generalizing variant entropy with
  | nil => rfl
  | cons request requests ih =>
    calc (subject.afterAll (variant, entropy) (request :: requests)).1
        = (subject.after (variant, entropy) request).1.rekeyed (Request.lastKey? requests) :=
          ih _ _
      _ = (variant.rekeyed request.key?).rekeyed (Request.lastKey? requests) := by
          rw [after_eq_rekeyed]
      _ = variant.rekeyed (Request.lastKey? (request :: requests)) := by
          rw [rekeyed_rekeyed, Request.lastKey?_cons]

/-- Entropy reaches a message only through its vector. -/
theorem encrypt_eq_of_nextVector_eq (variant : Variant) {supply other : Entropy}
    {iv : Option Bytes} (same : (variant.nextVector iv supply).1 = (variant.nextVector iv other).1)
    (plaintext : Bytes) (aad : Option Bytes) :
    (variant.encrypt supply plaintext iv aad).1 = (variant.encrypt other plaintext iv aad).1 := by
  unfold encrypt
  cases variant.family.vectorFault? iv with
  | some fault => rfl
  | none =>
    cases variant.keyed with
    | none => rfl
    | some keyed =>
      simp only [same]
      cases variant.family.encrypt keyed (variant.nextVector iv other).1 (aad.getD []) plaintext <;>
        rfl

end Variant

namespace EncryptThenMac

/-- The layers as a key leaves them: all parts absent, or all derived from that key. -/
inductive Coherent : Option Bytes → EncryptThenMac → Prop where
  /-- No key is bound, or it was refused. -/
  | absent {key : Option Bytes}
      (refused : ∀ bytes ∈ key, ∀ width : KeyWidth, bytes.length ≠ width.byteLength) :
      Coherent key ⟨.new .cbc, none, none⟩
  /-- The key has a width. -/
  | derived {key : Bytes} {width : KeyWidth} (length : key.length = width.byteLength) :
      Coherent (some key)
        ⟨((Variant.new .cbc).bind key).2, some (Hmac.tag key macKeyLabel), some width⟩

end EncryptThenMac

namespace Variant

variable {variant : Variant}

/-- A request of the layers leaves those of the variant after the request. -/
theorem after_layers (hmac : variant.family = .cbcHmac) (drawing : variant.fixedNonce = none)
    (entropy : Entropy) (request : Request) :
    EncryptThenMac.subject.after (variant.layers, entropy) request =
      ((subject.after (variant, entropy) request).1.layers,
        (subject.after (variant, entropy) request).2) := by
  cases request with
  | bind key =>
    change ((variant.layers.bind key).2, entropy) = ((variant.bind key).2.layers, entropy)
    rw [bind_layers hmac]
  | encrypt plaintext iv aad =>
    change (variant.layers, (variant.layers.encrypt entropy plaintext iv aad).2) =
      (variant.layers, (variant.encrypt entropy plaintext iv aad).2)
    rw [encrypt_layers hmac drawing]
  | decrypt message ivLength aadLength => rfl

/-- Requests of the layers leave those of the variant after the requests. -/
theorem afterAll_layers (hmac : variant.family = .cbcHmac) (drawing : variant.fixedNonce = none)
    (entropy : Entropy) (requests : List Request) :
    EncryptThenMac.subject.afterAll (variant.layers, entropy) requests =
      ((subject.afterAll (variant, entropy) requests).1.layers,
        (subject.afterAll (variant, entropy) requests).2) := by
  induction requests generalizing variant entropy with
  | nil => rfl
  | cons request requests ih =>
    -- A request changes neither the family nor the fixed nonce, so the rest starts from the layers
    -- of such a variant again.
    have labels := variant.rekeyed_labels request.key?
    rw [← after_eq_rekeyed variant entropy request, hmac, drawing] at labels
    have first := after_layers hmac drawing entropy request
    have later := ih labels.1 labels.2 (subject.after (variant, entropy) request).2
    rw [← first] at later
    exact later

/-- The layers of a variant to which at most one key was bound are as that key leaves them. -/
theorem coherent_layers_rekeyed (hmac : variant.family = .cbcHmac)
    (unkeyed : variant.keyed = none) (key : Option Bytes) :
    EncryptThenMac.Coherent key (variant.rekeyed key).layers := by
  cases key with
  | none =>
    simp only [rekeyed, layers, unkeyed, Option.map_none]
    exact .absent fun bytes given => absurd given (Option.not_mem_none bytes)
  | some key =>
    simp only [rekeyed, bind, Family.derive, hmac]
    cases measured : KeyWidth.ofByteLength key.length with
    | error error =>
      refine .absent ?_
      intro bytes given width same
      cases given
      rw [same, KeyWidth.ofByteLength_byteLength] at measured
      contradiction
    | ok width =>
      have length := (KeyWidth.byteLength_of_ofByteLength measured).symm
      have inner : ((Variant.new .cbc).bind key).2 =
          ⟨.cbc, none, some ⟨Aes.Cipher.ofKey width key, []⟩⟩ := by
        simp [bind, new, Family.derive, measured]
      have derived := EncryptThenMac.Coherent.derived length
      rw [inner] at derived
      exact derived

/-- After any requests a constructed variant has the name of one to which only their last key was
bound, decrypts as that one does, and encrypts as that one does under the same vector. If the key
was refused it is the variant as constructed. A fixed nonce survives, and requests without a key
change nothing. The layers of a variant with a message code answer the same, and have all their
parts from that key. -/
theorem answers_afterAll (constructed : variant.Constructed) (entropy : Entropy)
    (requests : List Request) :
    let after := (subject.afterAll (variant, entropy) requests).1
    let lastKey := Request.lastKey? requests
    let fresh := variant.rekeyed lastKey
    (after.name = fresh.name ∧
        (∀ message ivLength aadLength,
          after.decrypt message ivLength aadLength = fresh.decrypt message ivLength aadLength) ∧
        ∀ supply other plaintext iv aad,
          (after.nextVector iv supply).1 = (fresh.nextVector iv other).1 →
            (after.encrypt supply plaintext iv aad).1 = (fresh.encrypt other plaintext iv aad).1) ∧
      (∀ key ∈ lastKey, ∀ error, (variant.bind key).1 = .error error →
        after = variant ∧ after.name = variant.family.displayName none) ∧
      after.fixedNonce = variant.fixedNonce ∧
      (∀ request : Request, request.key? = none → ∀ supply,
        (subject.after (after, supply) request).1 = after) ∧
      (variant.family = .cbcHmac →
        let layers := (EncryptThenMac.subject.afterAll (.new, entropy) requests).1
        EncryptThenMac.Coherent lastKey layers ∧
          layers.name = after.name ∧
          (∀ message ivLength aadLength,
            layers.decrypt message ivLength aadLength =
              after.decrypt message ivLength aadLength) ∧
          ∀ supply plaintext iv aad,
            layers.encrypt supply plaintext iv aad = after.encrypt supply plaintext iv aad) := by
  intro after lastKey fresh
  have same : after = fresh := afterAll_eq_rekeyed variant entropy requests
  have unkeyed := constructed.unkeyed
  have labels := variant.rekeyed_labels lastKey
  refine ⟨⟨by rw [same], fun _ _ _ => by rw [same], ?_⟩, ?_, ?_, ?_, ?_⟩
  · intro supply other plaintext iv aad vectors
    rw [same] at vectors ⊢
    exact fresh.encrypt_eq_of_nextVector_eq vectors plaintext aad
  · intro key last error refused
    have back : fresh = variant := by
      simp only [fresh, Option.mem_def.mp last, rekeyed]
      exact bind_of_refused unkeyed refused
    rw [same, back, name, unkeyed]
    exact ⟨rfl, rfl⟩
  · rw [same]
    exact labels.2
  · intro request keyless supply
    rw [after_eq_rekeyed, keyless]
    rfl
  · intro hmac layers
    have drawing := constructed.drawing_of_not_aead (by rw [hmac]; rfl)
    have start : variant.layers = .new := by
      simp only [Variant.layers, unkeyed]
      rfl
    have ran := afterAll_layers hmac drawing entropy requests
    rw [start] at ran
    have layered : layers = fresh.layers := by
      rw [← same]
      exact congrArg Prod.fst ran
    have family : fresh.family = .cbcHmac := labels.1.trans hmac
    have draws : fresh.fixedNonce = none := labels.2.trans drawing
    rw [same, layered]
    exact ⟨coherent_layers_rekeyed hmac unkeyed lastKey, name_layers family,
      decrypt_layers family, encrypt_layers family draws⟩

/-- A key of sixteen bytes, a message, and then a key of three: nothing is left but the nonce. -/
theorem answers_afterAll_refused :
    let variant : Variant := ⟨.gcm, some (List.replicate 12 7), none⟩
    (subject.afterAll (variant, .cycle [])
      [.bind (List.replicate 16 0), .encrypt [1, 2] none none, .bind [1, 2, 3]]).1 = variant := by
  intro variant
  have constructed : variant.Constructed := by
    have accepted : withNonce .gcm (List.replicate 12 7) = .ok variant := rfl
    exact .fixed rfl accepted
  have answers := answers_afterAll constructed (.cycle [])
    [.bind (List.replicate 16 0), .encrypt [1, 2] none none, .bind [1, 2, 3]]
  exact (answers.2.1 [1, 2, 3] rfl _ rfl).1

end Variant

end AesTrials
