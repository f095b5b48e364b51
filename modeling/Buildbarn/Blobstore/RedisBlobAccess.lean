import Buildbarn.Blobstore.Digest

/-! `redisBlobAccess`: a blob store over a Redis keyspace. `Get` reads the value under the digest's
key, `Put` reads its reader to the end with `ioutil.ReadAll` and sets the key, and `FindMissing`
pipelines one `EXISTS` per digest. The Redis client is modelled as a keyspace that answers every
command; its own transport errors are left out. -/

namespace Buildbarn.Blobstore

/-- The Redis keyspace: the value stored under each key, if any. -/
def Keyspace := String → Option (List UInt8)

namespace Keyspace

/-- `SET key value`. -/
def set (ks : Keyspace) (key : String) (value : List UInt8) : Keyspace :=
  fun k => if k = key then some value else ks k

@[simp] theorem set_same (ks : Keyspace) (key : String) (value : List UInt8) :
    ks.set key value key = some value := if_pos rfl

@[simp] theorem set_of_ne (ks : Keyspace) {key k : String} (value : List UInt8) (h : k ≠ key) :
    ks.set key value k = ks k := if_neg h

@[simp] theorem set_set (ks : Keyspace) (key : String) (value value' : List UInt8) :
    (ks.set key value).set key value' = ks.set key value' := by
  funext k
  by_cases h : k = key <;> simp [set, h]

/-- The reply to `EXISTS key`: the number of the given keys that exist. -/
def existsReply (ks : Keyspace) (key : String) : Nat := if (ks key).isSome then 1 else 0

end Keyspace

/-- `ioutil.ReadAll`, calling `Read` with buffers of lengths `bufs`: the bytes up to `io.EOF`, or
the first other error. `none` when no read has failed by the last buffer, so that `ReadAll` would
still be reading. -/
def readAll {ρ : Type} (read : ρ → Nat → ReadResult × ρ) (bufs : List Nat) (r : ρ) :
    Option (Except Error (List UInt8) × ρ) :=
  let d := drain read bufs r
  match d.err with
  | none => none
  | some .eof => some (.ok d.data, d.state)
  | some err => some (.error err, d.state)

theorem readAll_of_eof {ρ : Type} {read : ρ → Nat → ReadResult × ρ} {bufs : List Nat} {r : ρ}
    (h : (drain read bufs r).err = some .eof) :
    readAll read bufs r = some (.ok (drain read bufs r).data, (drain read bufs r).state) := by
  simp only [readAll, h]

theorem readAll_of_err {ρ : Type} {read : ρ → Nat → ReadResult × ρ} {bufs : List Nat} {r : ρ}
    {err : Error} (h : (drain read bufs r).err = some err) (he : err ≠ .eof) :
    readAll read bufs r = some (.error err, (drain read bufs r).state) := by
  cases err <;> simp_all [readAll]

theorem readAll_of_source {ρ : Type} {read : ρ → Nat → ReadResult × ρ} (src : ByteSource read)
    {bufs : List Nat} {r : ρ} (hg : src.good r) (hb : src.measure r < bufs.countP (0 < ·)) :
    ∃ r', readAll read bufs r =
      some (if src.ending r = .eof then .ok (src.content r) else .error (src.ending r), r') := by
  obtain ⟨-, hend, hfin⟩ := src.delivers bufs r hg
  obtain ⟨e, he⟩ := Option.ne_none_iff_exists'.mp (hfin hb)
  obtain ⟨hdata, rfl⟩ := hend e he
  refine ⟨(drain read bufs r).state, ?_⟩
  by_cases heof : src.ending r = .eof
  · rw [if_pos heof, readAll_of_eof (heof ▸ he), hdata]
  · rw [if_neg heof, readAll_of_err he heof]

theorem readAll_eq_ok {ρ : Type} {read : ρ → Nat → ReadResult × ρ} {bufs : List Nat} {r r' : ρ}
    {value : List UInt8} (h : readAll read bufs r = some (.ok value, r')) :
    (drain read bufs r).err = some .eof ∧ value = (drain read bufs r).data := by
  simp only [readAll] at h
  split at h
  · cases h
  · next he => cases h; exact ⟨he, rfl⟩
  · cases h

/-- A `redisBlobAccess`: the keyspace its client talks to, and its `blobKeyer`. -/
structure RedisBlobAccess where
  keyspace : Keyspace
  blobKeyer : String → Digest → Except Error String

namespace RedisBlobAccess

/-- The error `Get` returns for a missing key: `redis.Nil` wrapped as `NotFound`. -/
def notFound : Error := .status .notFound "redis: nil"

/-- `redisBlobAccess.Get`: the value under the key (read through `bytes.Buffer`), or the error
that every `Read` of the returned `errorReader` gives. `ctxErr` is `ctx.Err()`. -/
def get (ba : RedisBlobAccess) (ctxErr : Option Error) (instanceName : String) (digest : Digest) :
    Except Error (List UInt8) :=
  match ctxErr with
  | some err => .error err
  | none =>
    match ba.blobKeyer instanceName digest with
    | .error err => .error err
    | .ok key =>
      match ba.keyspace key with
      | none => .error notFound
      | some value => .ok value

/-- `redisBlobAccess.Put`, reading `r` with `ioutil.ReadAll` and closing it; it returns the error,
the store, and the reader's state. -/
def put {ρ : Type} (read : ρ → Nat → ReadResult × ρ) (close : ρ → ρ) (bufs : List Nat)
    (ba : RedisBlobAccess) (ctxErr : Option Error) (instanceName : String) (digest : Digest)
    (r : ρ) : Option (Option Error × RedisBlobAccess × ρ) :=
  match ctxErr with
  | some err => some (some err, ba, r)
  | none =>
    (readAll read bufs r).map fun (value, r) =>
      match value with
      | .error err => (some err, ba, close r)
      | .ok value =>
        match ba.blobKeyer instanceName digest with
        | .error err => (some err, ba, close r)
        | .ok key => (none, { ba with keyspace := ba.keyspace.set key value }, close r)

/-- The loop over the `EXISTS` replies: the digests whose reply is zero. -/
def collectMissing : List Digest → List Nat → List Digest
  | d :: ds, c :: cs => if c = 0 then d :: collectMissing ds cs else collectMissing ds cs
  | _, _ => []

/-- `redisBlobAccess.FindMissing`. -/
def findMissing (ba : RedisBlobAccess) (ctxErr : Option Error) (instanceName : String)
    (digests : List Digest) : Except Error (List Digest) :=
  match ctxErr with
  | some err => .error err
  | none =>
    if digests = [] then .ok []
    else
      match digests.mapM (ba.blobKeyer instanceName) with
      | .error err => .error err
      | .ok keys => .ok (collectMissing digests (keys.map ba.keyspace.existsReply))

/-! ### Properties -/

def absent (ba : RedisBlobAccess) (instanceName : String) (d : Digest) : Bool :=
  match ba.blobKeyer instanceName d with
  | .ok key => (ba.keyspace key).isNone
  | .error _ => false

theorem collectMissing_map (ba : RedisBlobAccess) (instanceName : String) :
    ∀ (digests : List Digest) (keys : List String),
      digests.mapM (ba.blobKeyer instanceName) = .ok keys →
        collectMissing digests (keys.map ba.keyspace.existsReply) =
          digests.filter (ba.absent instanceName)
  | [], _, _ => by simp [collectMissing]
  | d :: ds, keys, h => by
    rw [List.mapM_cons] at h
    cases hk : ba.blobKeyer instanceName d with
    | error err => rw [hk] at h; cases h
    | ok key =>
      cases hks : ds.mapM (ba.blobKeyer instanceName) with
      | error err => rw [hk, hks] at h; cases h
      | ok keys' =>
        rw [hk, hks] at h
        obtain rfl : keys = key :: keys' := (Except.ok.inj h).symm
        have ih := collectMissing_map ba instanceName ds keys' hks
        cases hv : ba.keyspace key <;>
          simp [collectMissing, Keyspace.existsReply, absent, hk, hv, ih, List.filter_cons]

theorem findMissing_eq_filter {ba : RedisBlobAccess} {instanceName : String}
    {digests missing : List Digest} (h : ba.findMissing none instanceName digests = .ok missing) :
    missing = digests.filter (ba.absent instanceName) := by
  simp only [findMissing] at h
  split_ifs at h with hnil
  · cases h; simp [hnil]
  · cases hk : digests.mapM (ba.blobKeyer instanceName) with
    | error err => rw [hk] at h; cases h
    | ok keys =>
      rw [hk] at h
      cases h
      exact collectMissing_map ba instanceName digests keys hk

theorem put_eq_some_none {ρ : Type} {read : ρ → Nat → ReadResult × ρ} {close : ρ → ρ}
    {bufs : List Nat} {ba ba' : RedisBlobAccess} {instanceName : String} {digest : Digest}
    {r r' : ρ} (h : ba.put read close bufs none instanceName digest r = some (none, ba', r')) :
    ∃ value key r₁, readAll read bufs r = some (.ok value, r₁) ∧
      ba.blobKeyer instanceName digest = .ok key ∧
      ba' = { ba with keyspace := ba.keyspace.set key value } ∧ r' = close r₁ := by
  simp only [put] at h
  obtain ⟨⟨value, r₁⟩, hr, h⟩ := Option.map_eq_some'.mp h
  cases value with
  | error err => simp at h
  | ok value =>
    cases hk : ba.blobKeyer instanceName digest with
    | error err => simp [hk] at h
    | ok key =>
      simp only [hk, Prod.mk.injEq, true_and] at h
      exact ⟨value, key, r₁, hr, rfl, h.1.symm, h.2.symm⟩

theorem put_eq_none_or {ρ : Type} {read : ρ → Nat → ReadResult × ρ} {close : ρ → ρ}
    {bufs : List Nat} {ba ba' : RedisBlobAccess} {ctxErr err : Option Error} {instanceName : String}
    {digest : Digest} {r r' : ρ}
    (h : ba.put read close bufs ctxErr instanceName digest r = some (err, ba', r')) :
    err = none ∨ ba' = ba := by
  simp only [put] at h
  split at h
  · cases h; exact .inr rfl
  · obtain ⟨⟨value, r₁⟩, -, h⟩ := Option.map_eq_some'.mp h
    split at h
    · cases h; exact .inr rfl
    · split at h <;> cases h
      exacts [.inr rfl, .inl rfl]

theorem findMissing_of_keys {ba : RedisBlobAccess} {instanceName : String} {digests : List Digest}
    {keys : List String} (hkeys : digests.mapM (ba.blobKeyer instanceName) = .ok keys) :
    ba.findMissing none instanceName digests = .ok (digests.filter (ba.absent instanceName)) := by
  simp only [findMissing]
  split_ifs with hnil
  · simp [hnil]
  · rw [hkeys]
    exact congrArg Except.ok (collectMissing_map ba instanceName digests keys hkeys)

theorem get_eq_notFound_iff (ba : RedisBlobAccess) {instanceName : String} {d : Digest}
    {key : String} (hkey : ba.blobKeyer instanceName d = .ok key) :
    ba.get none instanceName d = .error notFound ↔ ba.absent instanceName d = true := by
  cases hv : ba.keyspace key <;> simp [get, absent, hkey, hv]

end RedisBlobAccess

open RedisBlobAccess in
/-- With a live context and a keyer that accepts every digest, `FindMissing` is the input filtered
by the keyspace; a digest is reported missing exactly when `Get` fails with `NotFound`; and after a
successful `Put` the digest is not missing and `Get` reads back what `Put` read. -/
theorem redisBlobAccess_findMissing (ba : RedisBlobAccess) (instanceName : String)
    (digests : List Digest) (keys : List String)
    (hkeys : digests.mapM (ba.blobKeyer instanceName) = .ok keys) :
    ba.findMissing none instanceName digests = .ok (digests.filter (ba.absent instanceName)) ∧
      (∀ d ∈ digests, d ∈ digests.filter (ba.absent instanceName) ↔
        ba.get none instanceName d = .error notFound) ∧
      ∀ {ρ : Type} (read : ρ → Nat → ReadResult × ρ) (close : ρ → ρ) (bufs : List Nat)
        (d : Digest) (r r' : ρ) (ba' : RedisBlobAccess),
        ba.put read close bufs none instanceName d r = some (none, ba', r') →
          ∃ value, (∃ r₁, readAll read bufs r = some (.ok value, r₁)) ∧
            ba'.get none instanceName d = .ok value ∧
            (∀ ds missing, ba'.findMissing none instanceName ds = .ok missing → d ∉ missing) ∧
            ∀ lens, Delivers (readOrFail bufferRead) lens (ba'.get none instanceName d) value .eof
              value.length := by
  refine ⟨findMissing_of_keys hkeys, fun d hd => ?_, fun read close bufs d r r' ba' h => ?_⟩
  · obtain ⟨key, hkey⟩ := exists_ok_of_mapM hkeys d hd
    rw [List.mem_filter, get_eq_notFound_iff ba hkey]
    exact and_iff_right hd
  · obtain ⟨value, key, r₁, hr, hkey, rfl, -⟩ := put_eq_some_none h
    have hget : ({ ba with keyspace := ba.keyspace.set key value } : RedisBlobAccess).get none
        instanceName d = .ok value := by
      simp [RedisBlobAccess.get, hkey]
    refine ⟨value, ⟨r₁, hr⟩, hget, fun ds missing hm hd => ?_, fun lens => ?_⟩
    · rw [findMissing_eq_filter hm, List.mem_filter] at hd
      simp [absent, hkey] at hd
    · rw [hget]
      exact bufferSource.orFail.delivers lens (.ok value) trivial

/-- The keyer accepts the digest and its key is absent, yet with a cancelled context `FindMissing`
fails instead of reporting it missing. -/
theorem redisBlobAccess_findMissing_canceled :
    let ba : RedisBlobAccess := ⟨fun _ => none, fun _ d => .ok d.hash⟩
    ([⟨"ab", 1⟩] : List Digest).mapM (ba.blobKeyer "") = .ok ["ab"] ∧
      ba.findMissing (some (.other "context canceled")) "" [⟨"ab", 1⟩] =
        .error (.other "context canceled") :=
  ⟨rfl, rfl⟩

theorem redisBlobAccess_findMissing_applies :
    let ba : RedisBlobAccess := ⟨fun k => if k = "ab" then some [1] else none, fun _ d => .ok d.hash⟩
    ([⟨"ab", 1⟩, ⟨"cd", 1⟩, ⟨"cd", 1⟩] : List Digest).mapM (ba.blobKeyer "") = .ok ["ab", "cd", "cd"] ∧
      ba.findMissing none "" [⟨"ab", 1⟩, ⟨"cd", 1⟩, ⟨"cd", 1⟩] =
        .ok ([⟨"ab", 1⟩, ⟨"cd", 1⟩, ⟨"cd", 1⟩].filter (ba.absent "")) := by
  intro ba
  exact ⟨rfl, (redisBlobAccess_findMissing ba "" [⟨"ab", 1⟩, ⟨"cd", 1⟩, ⟨"cd", 1⟩]
    ["ab", "cd", "cd"] rfl).1⟩

end Buildbarn.Blobstore
