import Buildbarn.Blobstore.Frontend

/-! What the frontend's store is for: a content-addressable store, a map from digests to blobs in
which each blob is one its digest names. When the keyer gives distinct digests distinct keys, each
instance's view of a sound Redis keyspace is such a store, and every completed `Write` acts on that
view as storing a blob under the digest that names it, or not at all; so every run of the frontend
is a run of the abstract store. -/

namespace Buildbarn.Blobstore

def Names (formats : DigestFormats) (digest : Digest) (blob : List UInt8) : Prop :=
  ∃ digestFormat, validateDigest formats digest = .ok digestFormat ∧
    (blob.length : Int) = digest.sizeBytes ∧ digestFormat blob = hexDecodeString digest.hash

/-- A content-addressable store: a map from digests to blobs that holds only blobs their digests
name. -/
@[ext] structure Cas (formats : DigestFormats) where
  blobs : Digest → Option (List UInt8)
  named : ∀ digest blob, blobs digest = some blob → Names formats digest blob

namespace Cas
variable {formats : DigestFormats}

def put (s : Cas formats) (digest : Digest) (blob : List UInt8) (h : Names formats digest blob) :
    Cas formats where
  blobs := Function.update s.blobs digest (some blob)
  named d b hb := by
    by_cases hd : d = digest
    · subst hd
      rw [Function.update_same] at hb
      exact Option.some.inj hb ▸ h
    · rw [Function.update_noteq hd] at hb
      exact s.named d b hb

inductive Run : Cas formats → Cas formats → Prop
  | done (s : Cas formats) : Run s s
  | put {s t : Cas formats} (digest : Digest) (blob : List UInt8) (h : Names formats digest blob) :
      Run (s.put digest blob h) t → Run s t

end Cas

def KeysDigests (keyer : String → Digest → Except Error String) : Prop :=
  ∀ i i' d d' key, keyer i d = .ok key → keyer i' d' = .ok key → d = d'

namespace Frontend
variable {formats : DigestFormats}

def view (ba : RedisBlobAccess) (instanceName : String) (digest : Digest) : Option (List UInt8) :=
  match ba.blobKeyer instanceName digest with
  | .ok key => ba.keyspace key
  | .error _ => none

/-- The abstraction: a sound store, under a keyer that keeps digests apart, as an instance sees it. -/
def cas {ba : RedisBlobAccess} (hs : Sound formats ba) (hk : KeysDigests ba.blobKeyer)
    (instanceName : String) : Cas formats where
  blobs := view ba instanceName
  named d blob h := by
    simp only [view] at h
    split at h
    · next key hkey =>
      obtain ⟨i', d', f, hv, hkey', hsize, hsum⟩ := hs key blob h
      obtain rfl := hk _ _ _ _ _ hkey' hkey
      exact ⟨f, hv, hsize, hsum⟩
    · cases h

theorem view_set_of_eq {ba : RedisBlobAccess} {instanceName : String} {digest : Digest}
    {key : String} (blob : List UInt8) (h : ba.blobKeyer instanceName digest = .ok key) :
    view { ba with keyspace := ba.keyspace.set key blob } instanceName digest = some blob := by
  simp [view, h]

theorem view_set_of_ne {ba : RedisBlobAccess} {instanceName : String} {digest : Digest}
    {key : String} (blob : List UInt8) (h : ba.blobKeyer instanceName digest ≠ .ok key) :
    view { ba with keyspace := ba.keyspace.set key blob } instanceName digest =
      view ba instanceName digest := by
  simp only [view]
  split
  · next k hk => rw [Keyspace.set_of_ne _ _ (fun e => h (by rw [← e]; exact hk))]
  · rfl

/-- One completed `Write`, on any stream, acts on every instance's view as storing a blob under the
digest that names it, or not at all. -/
theorem cas_write {ba ba' : RedisBlobAccess} {bufs : List Nat} {stream : WriteStream}
    {err : Option Error} (hs : Sound formats ba) (hk : KeysDigests ba.blobKeyer)
    (h : write formats bufs ba stream = .returns (some (err, ba'))) (hs' : Sound formats ba')
    (hk' : KeysDigests ba'.blobKeyer) (instanceName : String) :
    cas hs' hk' instanceName = cas hs hk instanceName ∨
      ∃ digest blob, ∃ hn : Names formats digest blob,
        cas hs' hk' instanceName = (cas hs hk instanceName).put digest blob hn := by
  rcases write_stores h with rfl | ⟨i, digest, f, key, blob, hv, hkey, hsize, hsum, rfl⟩
  · exact .inl rfl
  -- a digest that shares the written key is the written digest
  have hsame : ∀ d, ba.blobKeyer instanceName d = .ok key → d = digest :=
    fun d hd => hk _ _ _ _ _ hd hkey
  by_cases hki : ba.blobKeyer instanceName digest = .ok key
  · refine .inr ⟨digest, blob, ⟨f, hv, hsize, hsum⟩, Cas.ext (funext fun d => ?_)⟩
    simp only [cas, Cas.put]
    by_cases hd : d = digest
    · subst hd
      rw [view_set_of_eq blob hki, Function.update_same]
    · rw [Function.update_noteq hd, view_set_of_ne blob (fun h => hd (hsame d h))]
  · refine .inl (Cas.ext (funext fun d => ?_))
    exact view_set_of_ne blob (fun h => hki (hsame d h ▸ h))

end Frontend

open Frontend in
/-- Every run of the frontend's `Write` calls, on any streams, from a sound store under a keyer that
gives distinct digests distinct keys, keeps the store sound and is, in every instance's view, a run
of the abstract content-addressable store: blobs stored one after another, each under the digest
that names it. -/
theorem frontend_refines_cas {formats : DigestFormats} {ba₀ ba : RedisBlobAccess}
    (hrun : Frontend.Run formats ba₀ ba) (hs₀ : Sound formats ba₀)
    (hk₀ : KeysDigests ba₀.blobKeyer) (instanceName : String) :
    ∃ (hs : Sound formats ba) (hk : KeysDigests ba.blobKeyer),
      Cas.Run (cas hs₀ hk₀ instanceName) (cas hs hk instanceName) := by
  induction hrun with
  | done => exact ⟨hs₀, hk₀, .done _⟩
  | write bufs stream err h _ ih =>
    obtain ⟨hs', hkeyer', -⟩ := Sound.write hs₀ h
    have hk' : KeysDigests _ := hkeyer' ▸ hk₀
    obtain ⟨hs, hk, hcas⟩ := ih hs' hk'
    refine ⟨hs, hk, ?_⟩
    rcases cas_write hs₀ hk₀ h hs' hk' instanceName with heq | ⟨digest, blob, hn, heq⟩
    · exact heq ▸ hcas
    · exact .put digest blob hn (heq ▸ hcas)

theorem frontend_refines_cas_one_write :
    let ba : RedisBlobAccess := ⟨fun _ => none,
      fun _ d => if d = ⟨"ab", 1⟩ then .ok "ab" else .error (.other "unknown digest")⟩
    let ba' : RedisBlobAccess := { ba with keyspace := ba.keyspace.set "ab" [0x61] }
    ∃ (_ : Frontend.Run MerkleOverRedis.constFormats ba ba')
      (hs₀ : Frontend.Sound MerkleOverRedis.constFormats ba) (hk₀ : KeysDigests ba.blobKeyer)
      (hs : Frontend.Sound MerkleOverRedis.constFormats ba') (hk : KeysDigests ba'.blobKeyer),
      Cas.Run (Frontend.cas hs₀ hk₀ "") (Frontend.cas hs hk "") := by
  intro ba ba'
  have hp : parseResourceNameWrite "uploads/u/blobs/ab/1" = ("", some ⟨"ab", 1⟩) := by decide
  have hw : Frontend.write MerkleOverRedis.constFormats [1, 1, 1] ba
      ⟨[⟨"uploads/u/blobs/ab/1", 0, true, [0x61]⟩], .eof⟩ = .returns (some (none, ba')) := by
    simp only [Frontend.write, ByteStreamServer.write, WriteStream.recv, hp]
    rfl
  have hrun : Frontend.Run MerkleOverRedis.constFormats ba ba' := .write _ _ _ hw (.done ba')
  have hs₀ : Frontend.Sound MerkleOverRedis.constFormats ba := fun _ _ h => by cases h
  have hk₀ : KeysDigests ba.blobKeyer := by
    intro i i' d d' key h h'
    simp only [ba] at h h'
    split_ifs at h h' with hd hd'
    exact hd.trans hd'.symm
  obtain ⟨hs, hk, hcas⟩ := frontend_refines_cas hrun hs₀ hk₀ ""
  exact ⟨hrun, hs₀, hk₀, hs, hk, hcas⟩

end Buildbarn.Blobstore
