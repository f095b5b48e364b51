import Buildbarn.Blobstore.Digest

/-! How `shardingBlobAccess` picks a backend: it hashes the digest's key and lets a
`ShardSelector` offer slots until one is not drained. The hash loop ranges over the key's runes, so
it is the FNV-1a hash, which is over bytes, only on keys whose characters are ASCII. -/

namespace Buildbarn.Blobstore.Sharding

def fnvPrime : UInt64 := 1099511628211

/-- The hash loop of `getBackend`: `range` over the key gives its runes, each converted to a
`uint64`, xored in and multiplied by the prime. -/
def hashKey (hashInitialization : UInt64) (key : String) : UInt64 :=
  key.data.foldl (fun h c => (h ^^^ c.val.toUInt64) * fnvPrime) hashInitialization

/-- Modelled from the spec: FNV-1a over a byte sequence, from the offset basis `basis`. -/
def fnv1a (basis : UInt64) (bytes : List UInt8) : UInt64 :=
  bytes.foldl (fun h b => (h ^^^ b.toUInt64) * fnvPrime) basis

def utf8Bytes (s : String) : List UInt8 := s.data.flatMap String.utf8EncodeChar

/-- A `ShardSelector` (this source calls it but does not contain it): the slot indices that
`GetShard` offers its callback for a hash, in order, until the callback returns false. -/
structure ShardSelector where
  candidates : UInt64 → List Nat

/-- A `shardingBlobAccess` over backends of type `β`; a drained slot is `none`, Go's nil. -/
structure ShardingBlobAccess (β : Type) where
  backends : List (Option β)
  shardSelector : ShardSelector
  digestKeyFormat : DigestKeyFormat
  hashInitialization : UInt64

variable {β α : Type}

/-- `GetShard` calling `getBackend`'s callback on the candidates: each call sets `backend` to the
slot's backend and asks for another slot while it is nil; a slot past the end panics. `backend` is
nil when no candidate is live. -/
def getShard (backends : List (Option β)) : List Nat → Outcome (Option β)
  | [] => .returns none
  | index :: rest =>
    match backends.get? index with
    | none => .aborts "index out of range"
    | some none => getShard backends rest
    | some (some backend) => .returns (some backend)

/-- `shardingBlobAccess.getBackend`. -/
def getBackend (ba : ShardingBlobAccess β) (digest : UtilDigest) : Outcome (Option β) :=
  getShard ba.backends
    (ba.shardSelector.candidates (hashKey ba.hashInitialization (digest.getKey ba.digestKeyFormat)))

/-- `Get`, `Put` and `Delete` call the backend `getBackend` picks; a nil one panics. -/
def forward (ba : ShardingBlobAccess β) (call : β → α) (digest : UtilDigest) : Outcome α :=
  match getBackend ba digest with
  | .returns (some backend) => .returns (call backend)
  | .returns none => .aborts "invalid memory address or nil pointer dereference"
  | .aborts reason => .aborts reason

/-- `shardingBlobAccess.Get`. -/
def get (ba : ShardingBlobAccess β) (backendGet : β → UtilDigest → α) (digest : UtilDigest) :
    Outcome α :=
  forward ba (backendGet · digest) digest

/-- `shardingBlobAccess.Put`. -/
def put {ρ : Type} (ba : ShardingBlobAccess β) (backendPut : β → UtilDigest → Int → ρ → α)
    (digest : UtilDigest) (sizeBytes : Int) (r : ρ) : Outcome α :=
  forward ba (backendPut · digest sizeBytes r) digest

/-- `shardingBlobAccess.Delete`. -/
def delete (ba : ShardingBlobAccess β) (backendDelete : β → UtilDigest → α) (digest : UtilDigest) :
    Outcome α :=
  forward ba (backendDelete · digest) digest

theorem getShard_cases (backends : List (Option β)) : ∀ candidates : List Nat,
    (∃ pre index rest backend, candidates = pre ++ index :: rest ∧
        (∀ i ∈ pre, backends.get? i = some none) ∧ backends.get? index = some (some backend) ∧
        getShard backends candidates = .returns (some backend)) ∨
      (∃ pre index rest, candidates = pre ++ index :: rest ∧
        (∀ i ∈ pre, backends.get? i = some none) ∧ backends.length ≤ index ∧
        getShard backends candidates = .aborts "index out of range") ∨
      ((∀ i ∈ candidates, backends.get? i = some none) ∧
        getShard backends candidates = .returns none)
  | [] => .inr (.inr ⟨by simp, rfl⟩)
  | index :: rest => by
    cases h : backends.get? index with
    | none =>
      exact .inr (.inl ⟨[], index, rest, rfl, by simp, List.get?_eq_none.mp h, by rw [getShard, h]⟩)
    | some slot =>
      cases slot with
      | some backend => exact .inl ⟨[], index, rest, backend, rfl, by simp, h, by rw [getShard, h]⟩
      | none =>
        have hstep : getShard backends (index :: rest) = getShard backends rest := by
          rw [getShard, h]
        rw [hstep]
        rcases getShard_cases backends rest with ⟨pre, i, r, b, rfl, hpre, hi, hg⟩ |
          ⟨pre, i, r, rfl, hpre, hi, hg⟩ | ⟨hall, hg⟩
        · exact .inl ⟨index :: pre, i, r, b, rfl, List.forall_mem_cons.mpr ⟨h, hpre⟩, hi, hg⟩
        · exact .inr (.inl ⟨index :: pre, i, r, rfl, List.forall_mem_cons.mpr ⟨h, hpre⟩, hi, hg⟩)
        · exact .inr (.inr ⟨List.forall_mem_cons.mpr ⟨h, hall⟩, hg⟩)

/-! ### The hash of a key -/

theorem ascii_rune : ∀ n < 128,
    UInt32.ofNat n ≤ 0x7f ∧ ((UInt32.ofNat n).toUInt8).toUInt64 = (UInt32.ofNat n).toUInt64 := by
  decide

theorem val_eq_ofNat (c : Char) : c.val = UInt32.ofNat c.toNat :=
  UInt32.toNat.inj (UInt32.toNat_ofNat_of_lt c.val.toNat_lt_size).symm

theorem utf8EncodeChar_of_lt {c : Char} (h : c.toNat < 128) :
    String.utf8EncodeChar c = [c.val.toUInt8] ∧ c.val.toUInt8.toUInt64 = c.val.toUInt64 := by
  obtain ⟨hle, heq⟩ := ascii_rune c.toNat h
  rw [← val_eq_ofNat] at hle heq
  exact ⟨by simp [String.utf8EncodeChar, hle], heq⟩

/-- On a key of ASCII characters the rune loop of `getBackend` is FNV-1a over the key's bytes. -/
theorem hashKey_eq_fnv1a (basis : UInt64) (key : String) (h : ∀ c ∈ key.data, c.toNat < 128) :
    hashKey basis key = fnv1a basis (utf8Bytes key) := by
  obtain ⟨cs⟩ := key
  simp only [hashKey, fnv1a, utf8Bytes] at h ⊢
  induction cs generalizing basis with
  | nil => rfl
  | cons c cs ih =>
    obtain ⟨he, hv⟩ := utf8EncodeChar_of_lt (h c (List.mem_cons_self c cs))
    simp only [List.foldl_cons, List.flatMap_cons, he, List.singleton_append, hv]
    exact ih _ fun c' hc' => h c' (List.mem_cons_of_mem c hc')

theorem getKey_ascii (d : UtilDigest) (format : DigestKeyFormat)
    (h : format = .withoutInstance ∨ ∀ c ∈ d.instanceName.data, c.toNat < 128) :
    ∀ c ∈ (d.getKey format).data, c.toNat < 128 := by
  have hhex : ∀ c ∈ (hexEncodeToString d.hash).data, c.toNat < 128 := fun c hc =>
    toNat_lt_of_isLowerHexDigit (isLowerHexDigit_of_mem_hexEncodeToString hc)
  have hint : ∀ c ∈ (formatInt d.sizeBytes).data, c.toNat < 128 := fun c hc => by
    rcases (formatInt_chars d.sizeBytes).2 c hc with rfl | hd
    · decide
    · simp only [Char.isDigit, Bool.and_eq_true, decide_eq_true_eq, char_le_iff] at hd
      exact lt_of_le_of_lt hd.2 (by decide)
  have hcolon : ∀ c ∈ ":".data, c.toNat < 128 := by decide
  cases format
  · simp only [UtilDigest.getKey, String.data_append, List.forall_mem_append]
    exact ⟨⟨hhex, hcolon⟩, hint⟩
  · simp only [UtilDigest.getKey, String.data_append, List.forall_mem_append]
    exact ⟨⟨⟨⟨h.resolve_left nofun, hcolon⟩, hhex⟩, hcolon⟩, hint⟩

theorem getBackend_hash (ba : ShardingBlobAccess β) (digest : UtilDigest)
    (h : ba.digestKeyFormat = .withoutInstance ∨ ∀ c ∈ digest.instanceName.data, c.toNat < 128) :
    getBackend ba digest =
      getShard ba.backends (ba.shardSelector.candidates
        (fnv1a ba.hashInitialization (utf8Bytes (digest.getKey ba.digestKeyFormat)))) := by
  rw [getBackend, hashKey_eq_fnv1a _ _ (getKey_ascii digest ba.digestKeyFormat h)]

theorem getBackend_hash_with_instance :
    let ba : ShardingBlobAccess Nat := ⟨[some 0], ⟨fun h => [(h % 2).toNat]⟩, .withInstance, 7⟩
    let digest : UtilDigest := ⟨"main", [0xab], 1, by decide⟩
    (ba.digestKeyFormat = .withoutInstance ∨ ∀ c ∈ digest.instanceName.data, c.toNat < 128) ∧
      getBackend ba digest =
        getShard ba.backends (ba.shardSelector.candidates
          (fnv1a ba.hashInitialization (utf8Bytes (digest.getKey ba.digestKeyFormat)))) := by
  intro ba digest
  have h : ba.digestKeyFormat = .withoutInstance ∨ ∀ c ∈ digest.instanceName.data, c.toNat < 128 :=
    .inr (by decide)
  exact ⟨h, getBackend_hash ba digest h⟩

/-- A key whose instance name is not ASCII: the rune loop and FNV-1a over the key's bytes give
different hashes, and a selector on the hash's parity sends the digest to another backend. -/
theorem getBackend_hash_non_ascii :
    let ba : ShardingBlobAccess Nat :=
      ⟨[some 0, some 1], ⟨fun h => [(h % 2).toNat]⟩, .withInstance, 14695981039346656037⟩
    let digest : UtilDigest := ⟨"é", [0xab], 1, by decide⟩
    digest.getKey ba.digestKeyFormat = "é:ab:1" ∧
      hashKey ba.hashInitialization "é:ab:1" = 16557432467459756504 ∧
      fnv1a ba.hashInitialization (utf8Bytes "é:ab:1") = 6165539597738805919 ∧
      getBackend ba digest = .returns (some 0) ∧
      getShard ba.backends
          (ba.shardSelector.candidates (fnv1a ba.hashInitialization (utf8Bytes "é:ab:1"))) =
        .returns (some 1) := by
  decide

/-- `Get`, `Put` and `Delete` of `shardingBlobAccess`, for every digest and every selector: the call
goes to the backend of the first candidate slot that is not drained; the process stops with an
index out of range when a candidate past the last slot comes first, and with a nil dereference when
every candidate is drained. -/
theorem shardingBlobAccess_forward (ba : ShardingBlobAccess β) (call : β → α) (digest : UtilDigest) :
    let candidates :=
      ba.shardSelector.candidates (hashKey ba.hashInitialization (digest.getKey ba.digestKeyFormat))
    (∃ pre index rest backend, candidates = pre ++ index :: rest ∧
        (∀ i ∈ pre, ba.backends.get? i = some none) ∧ ba.backends.get? index = some (some backend) ∧
        forward ba call digest = .returns (call backend)) ∨
      (∃ pre index rest, candidates = pre ++ index :: rest ∧
        (∀ i ∈ pre, ba.backends.get? i = some none) ∧ ba.backends.length ≤ index ∧
        forward ba call digest = .aborts "index out of range") ∨
      ((∀ i ∈ candidates, ba.backends.get? i = some none) ∧
        forward ba call digest = .aborts "invalid memory address or nil pointer dereference") := by
  intro candidates
  have hb : getBackend ba digest = getShard ba.backends candidates := rfl
  rcases getShard_cases ba.backends candidates with ⟨pre, i, r, b, hc, hpre, hi, hg⟩ |
    ⟨pre, i, r, hc, hpre, hi, hg⟩ | ⟨hall, hg⟩
  · exact .inl ⟨pre, i, r, b, hc, hpre, hi, by rw [forward, hb, hg]⟩
  · exact .inr (.inl ⟨pre, i, r, hc, hpre, hi, by rw [forward, hb, hg]⟩)
  · exact .inr (.inr ⟨hall, by rw [forward, hb, hg]⟩)

end Buildbarn.Blobstore.Sharding
