import Buildbarn.Blobstore.RedisBlobAccess

/-! `blobAccessActionCache`: the action cache kept in a blob store. `PutActionResult` stores the
marshalled action result under the action's digest and `GetActionResult` reads the blob back and
unmarshals it; the protocol buffer codec is a parameter. Over `redisBlobAccess` the cache gives
back, for a digest that was put, the unmarshalled bytes of the result put. -/

namespace Buildbarn.Ac
open Blobstore

variable {α ρ σ : Type}

/-- `blobAccessActionCache.GetActionResult`, given the reader `r` that the blob access's `Get`
returned: `ioutil.ReadAll` with buffers of lengths `bufs`, `Close`, then `proto.Unmarshal`. -/
def getActionResult (read : ρ → Nat → ReadResult × ρ) (close : ρ → ρ)
    (unmarshal : List UInt8 → Except Error α) (bufs : List Nat) (r : ρ) :
    Option (Except Error α × ρ) :=
  (readAll read bufs r).map fun (data, r) => (data >>= unmarshal, close r)

/-- `blobAccessActionCache.PutActionResult` over a store of state `σ`; `put` is the blob access's
`Put` of `ioutil.NopCloser(bytes.NewBuffer(data))`. -/
def putActionResult (marshal : α → Except Error (List UInt8))
    (put : σ → List UInt8 → Option (Option Error × σ)) (store : σ) (result : α) :
    Option (Option Error × σ) :=
  match marshal result with
  | .error err => some (some err, store)
  | .ok data => put store data

/-- `redisBlobAccess.Put` of the buffer `PutActionResult` hands it, reading it with `bufs`. -/
def redisPut (bufs : List Nat) (ctxErr : Option Error) (instanceName : String) (digest : Digest)
    (ba : RedisBlobAccess) (data : List UInt8) : Option (Option Error × RedisBlobAccess) :=
  (ba.put bufferRead id bufs ctxErr instanceName digest data).map fun (err, ba, _) => (err, ba)

/-- `GetActionResult` over `redisBlobAccess.Get`. -/
def redisGetActionResult (unmarshal : List UInt8 → Except Error α) (bufs : List Nat)
    (ba : RedisBlobAccess) (ctxErr : Option Error) (instanceName : String) (digest : Digest) :
    Option (Except Error α) :=
  (getActionResult (readOrFail bufferRead) id unmarshal bufs
    (ba.get ctxErr instanceName digest)).map Prod.fst

theorem getActionResult_of_source {read : ρ → Nat → ReadResult × ρ} (src : ByteSource read)
    (close : ρ → ρ) (unmarshal : List UInt8 → Except Error α) {bufs : List Nat} {r : ρ}
    (hg : src.good r) (hb : src.measure r < bufs.countP (0 < ·)) :
    (getActionResult read close unmarshal bufs r).map Prod.fst =
      some (if src.ending r = .eof then unmarshal (src.content r) else .error (src.ending r)) := by
  obtain ⟨r', h⟩ := readAll_of_source src hg hb
  rw [getActionResult, h]
  split_ifs <;> rfl

/-- Over `redisBlobAccess` with a live context and a keyer that accepts the digest, a result that
marshals is stored under the digest's key; `GetActionResult` then unmarshals exactly the bytes
stored, and before, while the key is absent, it fails with `NotFound`. Each `ReadAll` needs more
non-empty buffers than the result has bytes. -/
theorem blobAccessActionCache_roundTrip (marshal : α → Except Error (List UInt8))
    (unmarshal : List UInt8 → Except Error α) (ba : RedisBlobAccess) (instanceName : String)
    (digest : Digest) (key : String) (hkey : ba.blobKeyer instanceName digest = .ok key)
    (result : α) (data : List UInt8) (hdata : marshal result = .ok data)
    (putBufs getBufs : List Nat) (hput : data.length < putBufs.countP (0 < ·))
    (hget : data.length < getBufs.countP (0 < ·)) :
    putActionResult marshal (redisPut putBufs none instanceName digest) ba result =
        some (none, { ba with keyspace := ba.keyspace.set key data }) ∧
      redisGetActionResult unmarshal getBufs { ba with keyspace := ba.keyspace.set key data } none
        instanceName digest = some (unmarshal data) ∧
      (ba.keyspace key = none →
        redisGetActionResult unmarshal getBufs ba none instanceName digest =
          some (.error RedisBlobAccess.notFound)) := by
  obtain ⟨r', hr⟩ := readAll_of_source bufferSource (r := data) trivial hput
  refine ⟨?_, ?_, fun habsent => ?_⟩
  · simp only [putActionResult, hdata, redisPut, RedisBlobAccess.put, hkey]
    rw [hr]
    rfl
  · have hg : ({ ba with keyspace := ba.keyspace.set key data } : RedisBlobAccess).get none
        instanceName digest = .ok data := by
      simp [RedisBlobAccess.get, hkey]
    rw [redisGetActionResult, hg,
      getActionResult_of_source bufferSource.orFail id unmarshal (r := .ok data) trivial hget]
    rfl
  · have hg : ba.get none instanceName digest = .error RedisBlobAccess.notFound := by
      simp [RedisBlobAccess.get, hkey, habsent]
    rw [redisGetActionResult, hg, getActionResult_of_source bufferSource.orFail id unmarshal
      (r := .error _) trivial (Nat.lt_of_le_of_lt (Nat.zero_le _) hget)]
    rfl

theorem blobAccessActionCache_roundTrip_one_byte :
    let ba : RedisBlobAccess := ⟨fun _ => none, fun _ d => .ok d.hash⟩
    let ba' : RedisBlobAccess := { ba with keyspace := ba.keyspace.set "ab" [7] }
    putActionResult .ok (redisPut [1, 1] none "" ⟨"ab", 1⟩) ba [7] = some (none, ba') ∧
      redisGetActionResult .ok [1, 1] ba' none "" ⟨"ab", 1⟩ = some (.ok [7]) := by
  intro ba ba'
  obtain ⟨hput, hget, -⟩ := blobAccessActionCache_roundTrip (.ok : List UInt8 → Except Error _) .ok
    ba "" ⟨"ab", 1⟩ "ab" rfl [7] [7] rfl [1, 1] [1, 1] (by decide) (by decide)
  exact ⟨hput, hget⟩

end Buildbarn.Ac
