import Buildbarn.Blobstore.Digest

/-! `checksumValidatingReader`, which `merkleBlobAccess` puts in front of every blob it reads or
writes. `verdict` says what the integrity check requires a caller to end with, given the whole
stream; the run lemma shows the reader reaches exactly that verdict, whatever the stream's
chunking, and over a stream that is the expected blob the reader is transparent. -/

namespace Buildbarn.Blobstore

variable {σ : Type}

/-- The effect of an `invalidator` closure: nothing for `Put`, a `Delete` of the blob for `Get`. -/
inductive Invalidator
  | noop
  | delete (instanceName : String) (digest : Digest)
  deriving DecidableEq, Repr

/-- A running `hash.Hash`: its family's hash function and the bytes written to it so far. -/
structure HashState where
  family : List UInt8 → List UInt8
  written : List UInt8

namespace HashState

def write (h : HashState) (bs : List UInt8) : HashState := { h with written := h.written ++ bs }

/-- `Sum(nil)`. -/
def sum (h : HashState) : List UInt8 := h.family h.written

@[simp] theorem write_write (h : HashState) (a b : List UInt8) :
    (h.write a).write b = h.write (a ++ b) := by
  simp [write]

end HashState

/-- The state of a `checksumValidatingReader` over a reader with states `σ`; `invalidations`
records the calls of `invalidator` made so far. -/
structure ChecksumValidatingReader (σ : Type) where
  readCloser : σ
  expectedChecksum : List UInt8
  partialChecksum : HashState
  sizeLeft : Int
  invalidator : Invalidator
  errorCode : Code
  invalidations : List Invalidator

def longerError (code : Code) : Error := .status code "Blob is longer than expected"

def shorterError (code : Code) (left : Int) : Error :=
  .status code ("Blob is " ++ formatInt left ++ " bytes shorter than expected")

def checksumError (code : Code) (actual expected : List UInt8) : Error :=
  .status code ("Checksum of blob is " ++ hexEncodeToString actual ++ ", while " ++
    hexEncodeToString expected ++ " was expected")

namespace ChecksumValidatingReader

/-- The reader as `merkleBlobAccess` sets it up, before any read. -/
def start (readCloser : σ) (expectedChecksum : List UInt8) (family : List UInt8 → List UInt8)
    (sizeBytes : Int) (invalidator : Invalidator) (errorCode : Code) :
    ChecksumValidatingReader σ :=
  ⟨readCloser, expectedChecksum, ⟨family, []⟩, sizeBytes, invalidator, errorCode, []⟩

def invalidate (r : ChecksumValidatingReader σ) : ChecksumValidatingReader σ :=
  { r with invalidations := r.invalidations ++ [r.invalidator] }

/-- `checksumValidatingReader.Read`: the bytes the wrapped reader returns go through the running
hash (`io.TeeReader`) and are counted against `sizeLeft`. -/
def read (readInner : σ → Nat → ReadResult × σ) (r : ChecksumValidatingReader σ) (k : Nat) :
    ReadResult × ChecksumValidatingReader σ :=
  let res := (readInner r.readCloser k).1
  let r := { r with readCloser := (readInner r.readCloser k).2,
                    partialChecksum := r.partialChecksum.write res.data }
  if r.sizeLeft < (res.data.length : Int) then
    (⟨[], some (longerError r.errorCode)⟩, r.invalidate)
  else
    let r := { r with sizeLeft := r.sizeLeft - (res.data.length : Int) }
    if res.err = some .eof then
      if r.sizeLeft ≠ 0 then
        (⟨[], some (shorterError r.errorCode r.sizeLeft)⟩, r.invalidate)
      else if r.partialChecksum.sum ≠ r.expectedChecksum then
        (⟨[], some (checksumError r.errorCode r.partialChecksum.sum r.expectedChecksum)⟩,
          r.invalidate)
      else (res, r)
    else (res, r)

/-- `Close` goes to the embedded `io.ReadCloser`. -/
def close (closeInner : σ → σ) (r : ChecksumValidatingReader σ) : ChecksumValidatingReader σ :=
  { r with readCloser := closeInner r.readCloser }

section Read
variable {readInner : σ → Nat → ReadResult × σ}

theorem read_snd (r : ChecksumValidatingReader σ) (k : Nat) :
    ∃ sizeLeft invalidations, (read readInner r k).2 =
      { r with readCloser := (readInner r.readCloser k).2,
               partialChecksum := r.partialChecksum.write (readInner r.readCloser k).1.data,
               sizeLeft := sizeLeft, invalidations := invalidations } := by
  simp only [read, invalidate]
  split_ifs <;> exact ⟨_, _, rfl⟩

@[simp] theorem read_expectedChecksum (r : ChecksumValidatingReader σ) (k : Nat) :
    (read readInner r k).2.expectedChecksum = r.expectedChecksum := by
  obtain ⟨_, _, h⟩ := @read_snd _ readInner r k
  rw [h]

@[simp] theorem read_invalidator (r : ChecksumValidatingReader σ) (k : Nat) :
    (read readInner r k).2.invalidator = r.invalidator := by
  obtain ⟨_, _, h⟩ := @read_snd _ readInner r k
  rw [h]

@[simp] theorem read_errorCode (r : ChecksumValidatingReader σ) (k : Nat) :
    (read readInner r k).2.errorCode = r.errorCode := by
  obtain ⟨_, _, h⟩ := @read_snd _ readInner r k
  rw [h]

@[simp] theorem read_readCloser (r : ChecksumValidatingReader σ) (k : Nat) :
    (read readInner r k).2.readCloser = (readInner r.readCloser k).2 := by
  obtain ⟨_, _, h⟩ := @read_snd _ readInner r k
  rw [h]

theorem read_sizeLeft_nonneg {r : ChecksumValidatingReader σ} (k : Nat) (h : 0 ≤ r.sizeLeft) :
    0 ≤ (read readInner r k).2.sizeLeft := by
  simp only [read, invalidate]
  split_ifs <;> simp only <;> omega

theorem read_of_ok {r : ChecksumValidatingReader σ} {k : Nat}
    (h : (read readInner r k).1.err = none) :
    (read readInner r k).1 = (readInner r.readCloser k).1 ∧
      (read readInner r k).2.sizeLeft = r.sizeLeft - (readInner r.readCloser k).1.data.length ∧
      (read readInner r k).2.invalidations = r.invalidations := by
  simp only [read, invalidate] at *
  split_ifs at * <;> simp_all

theorem drain_sizeLeft :
    ∀ (lens : List Nat) (r : ChecksumValidatingReader σ),
      (drain (read readInner) lens r).err = none →
        (drain (read readInner) lens r).state.sizeLeft =
          r.sizeLeft - (drain (read readInner) lens r).data.length
  | [], _, _ => by simp
  | k :: lens, r, h => by
    cases hk : (read readInner r k).1.err with
    | some e => rw [drain_cons_of_err lens hk] at h; cases h
    | none =>
      rw [drain_cons_of_ok lens hk] at h ⊢
      obtain ⟨hres, hsize, -⟩ := read_of_ok hk
      simp only [drain_sizeLeft lens _ h, hsize, hres, List.length_append, Int.natCast_add]
      omega

end Read

end ChecksumValidatingReader

/-! ### The verdict on a whole stream -/

/-- What a caller of the reader ends with according to the integrity check. -/
inductive Verdict
  | longer
  | shorter (left : Int)
  | checksumMismatch (actual : List UInt8)
  | passes (err : Error)

/-- The verdict on a stream whose remaining bytes are `content`, ending in `final`, with `hash`
written so far and `sizeLeft` bytes still expected. -/
def verdict (hash : HashState) (expected : List UInt8) (sizeLeft : Int) (content : List UInt8)
    (final : Error) : Verdict :=
  if sizeLeft < content.length then .longer
  else if final = .eof then
    if sizeLeft - content.length ≠ 0 then .shorter (sizeLeft - content.length)
    else if (hash.write content).sum ≠ expected then .checksumMismatch (hash.write content).sum
    else .passes .eof
  else .passes final

namespace Verdict

def toError (code : Code) (expected : List UInt8) : Verdict → Error
  | longer => longerError code
  | shorter left => shorterError code left
  | checksumMismatch actual => checksumError code actual expected
  | passes err => err

def corrupt : Verdict → Bool
  | passes _ => false
  | _ => true

end Verdict

theorem verdict_append (hash : HashState) (expected : List UInt8) (sizeLeft : Int)
    (c rest : List UInt8) (final : Error) :
    verdict hash expected sizeLeft (c ++ rest) final =
      verdict (hash.write c) expected (sizeLeft - c.length) rest final := by
  simp only [verdict, List.length_append, Int.natCast_add, HashState.write_write]
  have e₁ : sizeLeft < ↑c.length + ↑rest.length ↔ sizeLeft - ↑c.length < ↑rest.length := by omega
  have e₂ : sizeLeft - (↑c.length + ↑rest.length) = sizeLeft - ↑c.length - ↑rest.length := by omega
  simp only [e₁, e₂]

namespace ChecksumValidatingReader

def over (chunks : List (List UInt8)) (last : List UInt8) (final : Error) (closed : Bool)
    (expected : List UInt8) (hash : HashState) (sizeLeft : Int) (inv : Invalidator) (code : Code)
    (invs : List Invalidator) : ChecksumValidatingReader Script :=
  ⟨⟨chunks, last, final, closed⟩, expected, hash, sizeLeft, inv, code, invs⟩

theorem read_over_last (last : List UInt8) (final : Error) (cl : Bool) (expected : List UInt8)
    (hash : HashState) (sizeLeft : Int) (inv : Invalidator) (code : Code)
    (invs : List Invalidator) (k : Nat) :
    let v := verdict hash expected sizeLeft last final
    (read Script.read (over [] last final cl expected hash sizeLeft inv code invs) k).1 =
        ⟨if v.corrupt then [] else last, some (v.toError code expected)⟩ ∧
      (read Script.read (over [] last final cl expected hash sizeLeft inv code invs) k).2.invalidations =
        invs ++ (if v.corrupt then [inv] else []) := by
  intro v
  have hv : v = verdict hash expected sizeLeft last final := rfl
  simp only [read, over, Script.read, invalidate, Option.some.injEq]
  rw [verdict] at hv
  split_ifs at hv <;> simp [*, Verdict.corrupt, Verdict.toError]

theorem read_over_cons (c : List UInt8) (cs : List (List UInt8)) (last : List UInt8)
    (final : Error) (cl : Bool) (expected : List UInt8) (hash : HashState) (sizeLeft : Int)
    (inv : Invalidator) (code : Code) (invs : List Invalidator) (k : Nat) :
    read Script.read (over (c :: cs) last final cl expected hash sizeLeft inv code invs) k =
      if sizeLeft < c.length then
        (⟨[], some (longerError code)⟩,
          over cs last final cl expected (hash.write c) sizeLeft inv code (invs ++ [inv]))
      else (⟨c, none⟩, over cs last final cl expected (hash.write c) (sizeLeft - c.length) inv code
        invs) := by
  simp only [read, over, Script.read, invalidate]
  split_ifs <;> simp_all

theorem drain_over :
    ∀ (chunks : List (List UInt8)) (lens : List Nat) (hash : HashState) (sizeLeft : Int)
      (invs : List Invalidator) (last : List UInt8) (final : Error) (cl : Bool)
      (expected : List UInt8) (inv : Invalidator) (code : Code),
      chunks.length < lens.length →
      let v := verdict hash expected sizeLeft (chunks.flatten ++ last) final
      let d := drain (read Script.read) lens
        (over chunks last final cl expected hash sizeLeft inv code invs)
      d.err = some (v.toError code expected) ∧
        d.state.invalidations = invs ++ (if v.corrupt then [inv] else []) ∧
        d.data <+: chunks.flatten ++ last ∧ (0 ≤ sizeLeft → (d.data.length : Int) ≤ sizeLeft) ∧
        (v.corrupt = false → d.data = chunks.flatten ++ last) := by
  intro chunks
  induction chunks with
  | nil =>
    intro lens hash sizeLeft invs last final cl expected inv code hlen
    obtain _ | ⟨k, lens⟩ := lens
    · exact absurd hlen (Nat.lt_irrefl 0)
    obtain ⟨h₁, h₂⟩ := read_over_last last final cl expected hash sizeLeft inv code invs k
    have herr : (read Script.read (over [] last final cl expected hash sizeLeft inv code invs) k).1.err
        = some ((verdict hash expected sizeLeft last final).toError code expected) := by
      rw [h₁]
    simp only [List.flatten_nil, List.nil_append, drain_cons_of_err lens herr, h₁, h₂, true_and]
    cases hv : verdict hash expected sizeLeft last final with
    | passes err =>
      have hle : (last.length : Int) ≤ sizeLeft := by
        by_contra hlt
        simp only [verdict, show sizeLeft < last.length by omega, if_true] at hv
        cases hv
      simp [Verdict.corrupt, hle]
    | _ => simp [Verdict.corrupt]
  | cons c cs ih =>
    intro lens hash sizeLeft invs last final cl expected inv code hlen
    obtain _ | ⟨k, lens⟩ := lens
    · exact absurd hlen (Nat.not_lt_zero _)
    have hr := read_over_cons c cs last final cl expected hash sizeLeft inv code invs k
    by_cases hc : sizeLeft < c.length
    · rw [if_pos hc] at hr
      have herr : (read Script.read
          (over (c :: cs) last final cl expected hash sizeLeft inv code invs) k).1.err =
            some (longerError code) := by rw [hr]
      have hv : verdict hash expected sizeLeft ((c :: cs).flatten ++ last) final = .longer := by
        simp only [verdict, List.flatten_cons, List.append_assoc, List.length_append, Int.natCast_add]
        rw [if_pos (by omega)]
      simp only [drain_cons_of_err lens herr, hr, hv, Verdict.toError, Verdict.corrupt]
      simp [over]
    · rw [if_neg hc] at hr
      have hok : (read Script.read
          (over (c :: cs) last final cl expected hash sizeLeft inv code invs) k).1.err = none := by
        rw [hr]
      have hv := verdict_append hash expected sizeLeft c (cs.flatten ++ last) final
      obtain ⟨ih₁, ih₂, ih₃, ih₄, ih₅⟩ := ih lens (hash.write c) (sizeLeft - c.length)
        invs last final cl expected inv code (by simpa using hlen)
      rw [drain_cons_of_ok lens hok, hr]
      simp only [List.flatten_cons, List.append_assoc, hv]
      refine ⟨ih₁, ih₂, (List.prefix_append_right_inj c).mpr ih₃, fun hs => ?_, fun h => ?_⟩
      · have := ih₄ (by omega)
        simp only [List.length_append, Int.natCast_add]
        omega
      · rw [ih₅ h]

theorem drain_data_of_ok {readInner : σ → Nat → ReadResult × σ} :
    ∀ (lens : List Nat) (r : ChecksumValidatingReader σ),
      (drain (read readInner) lens r).err = none →
        (drain readInner lens r.readCloser).err = none ∧
          (drain (read readInner) lens r).data = (drain readInner lens r.readCloser).data
  | [], _, _ => by simp
  | k :: lens, r, h => by
    cases hk : (read readInner r k).1.err with
    | some e => rw [drain_cons_of_err lens hk] at h; cases h
    | none =>
      obtain ⟨hres, -, -⟩ := read_of_ok hk
      have hk' : (readInner r.readCloser k).1.err = none := by rw [← hres, hk]
      rw [drain_cons_of_ok lens hk] at h ⊢
      obtain ⟨ih₁, ih₂⟩ := drain_data_of_ok lens _ h
      rw [read_readCloser] at ih₁ ih₂
      rw [drain_cons_of_ok lens hk', hres, ih₂]
      exact ⟨ih₁, rfl⟩

theorem start_script (src : Script) (expected : List UInt8) (family : List UInt8 → List UInt8)
    (size : Int) (inv : Invalidator) (code : Code) :
    start src expected family size inv code =
      over src.chunks src.last src.final src.closed expected ⟨family, []⟩ size inv code [] := rfl

end ChecksumValidatingReader

namespace Verdict

theorem toError_eq_eof_iff {family : List UInt8 → List UInt8} {expected : List UInt8}
    {size : Int} {content : List UInt8} {final : Error} (code : Code) :
    (verdict ⟨family, []⟩ expected size content final).toError code expected = .eof ↔
      final = .eof ∧ (content.length : Int) = size ∧ family content = expected := by
  constructor
  · intro h
    simp only [verdict, HashState.write, HashState.sum, List.nil_append] at h
    split_ifs at h with h₁ h₂ h₃ h₄ <;>
      simp only [toError, longerError, shorterError, checksumError, reduceCtorEq] at h
    · exact ⟨h₂, by omega, not_not.mp h₄⟩
    · exact absurd h h₂
  · rintro ⟨rfl, hl, hf⟩
    simp [verdict, HashState.write, HashState.sum, hl, hf, toError]

theorem corrupt_of_bad {family : List UInt8 → List UInt8} {expected : List UInt8} {size : Int}
    {content : List UInt8} {final : Error}
    (h : size < content.length ∨ (final = .eof ∧ (content.length : Int) < size) ∨
      (final = .eof ∧ (content.length : Int) = size ∧ family content ≠ expected)) :
    (verdict ⟨family, []⟩ expected size content final).corrupt = true := by
  simp only [verdict, HashState.write, HashState.sum, List.nil_append]
  rcases h with h | ⟨rfl, h⟩ | ⟨rfl, h, hf⟩
  · simp [h, corrupt]
  · rw [if_neg (by omega), if_pos rfl, if_pos (by omega)]; rfl
  · rw [if_neg (by omega), if_pos rfl, if_neg (by omega), if_pos hf]; rfl

theorem corrupt_eq_false_of_toError {v : Verdict} {code : Code} {expected : List UInt8}
    (h : v.toError code expected = .eof) : v.corrupt = false := by
  cases v <;> first | rfl | cases h

theorem toError_of_corrupt {v : Verdict} (h : v.corrupt = true) (code : Code)
    (expected : List UInt8) : ∃ msg, v.toError code expected = .status code msg := by
  cases v with
  | longer => exact ⟨_, rfl⟩
  | shorter => exact ⟨_, rfl⟩
  | checksumMismatch => exact ⟨_, rfl⟩
  | passes => cases h

theorem verdict_of_not_eof (hash : HashState) (expected : List UInt8) {size : Int}
    {content : List UInt8} {final : Error} (hs : (content.length : Int) ≤ size)
    (hf : final ≠ .eof) : verdict hash expected size content final = .passes final := by
  simp only [verdict, hf, if_false]
  rw [if_neg (by omega)]

end Verdict

namespace ChecksumValidatingReader

theorem drain_start_bounded {s : Int} (hs : 0 ≤ s) (c : List UInt8)
    (family : List UInt8 → List UInt8) (inv : Invalidator) (code : Code) (src : Script)
    (lens : List Nat) :
    let d := drain (read Script.read) lens (start src c family s inv code)
    0 ≤ d.state.sizeLeft ∧ (d.err = none → d.state.sizeLeft = s - d.data.length) ∧
      d.data <+: src.content ∧ (d.data.length : Int) ≤ s := by
  intro d
  have hnonneg : 0 ≤ d.state.sizeLeft :=
    @drain_state_of _ _ (fun r : ChecksumValidatingReader Script => 0 ≤ r.sizeLeft)
      (fun _ k h => read_sizeLeft_nonneg k h) lens _ hs
  have hsize : d.err = none → d.state.sizeLeft = s - d.data.length := drain_sizeLeft lens _
  refine ⟨hnonneg, hsize, ?_⟩
  cases he : d.err with
  | none =>
    obtain ⟨hin, hdata⟩ := drain_data_of_ok lens _ he
    refine ⟨hdata ▸ (Script.source.delivers lens src trivial).1 hin, ?_⟩
    have := hsize he
    omega
  | some e =>
    -- a failed run ends the same with more buffers, so it is a run to the end of the stream
    let more := List.replicate (src.chunks.length + 1) 0
    have hmore : src.chunks.length < (lens ++ more).length := by
      simp only [more, List.length_append, List.length_replicate]; omega
    obtain ⟨-, -, h₃, h₄, -⟩ := drain_over src.chunks (lens ++ more) ⟨family, []⟩ s []
      src.last src.final src.closed c inv code hmore
    rw [← start_script, drain_append_of_err lens more _ he] at h₃ h₄
    exact ⟨h₃, h₄ hs⟩

theorem drain_start_err_ne_none (s : Int) (c : List UInt8) (family : List UInt8 → List UInt8)
    (inv : Invalidator) (code : Code) (src : Script) {lens : List Nat}
    (hlen : src.chunks.length < lens.length) :
    (drain (read Script.read) lens (start src c family s inv code)).err ≠ none := by
  obtain ⟨h₁, -⟩ := drain_over src.chunks lens ⟨family, []⟩ s [] src.last src.final src.closed c
    inv code hlen
  rw [← start_script] at h₁
  simp [h₁]

/-- A caller that reads to the end of the stream gets `io.EOF` exactly when the stream is the
blob, and then all of it; a corrupt stream fails with `errorCode` after one call of the
invalidator; a stream that fails otherwise, and is not too long, passes its error on. -/
theorem drain_start_end (s : Int) (c : List UInt8) (family : List UInt8 → List UInt8)
    (inv : Invalidator) (code : Code) (src : Script) {lens : List Nat}
    (hlen : src.chunks.length < lens.length) :
    let d := drain (read Script.read) lens (start src c family s inv code)
    (d.err = some .eof ↔
        src.final = .eof ∧ (src.content.length : Int) = s ∧ family src.content = c) ∧
      (d.err = some .eof → d.data = src.content) ∧
      ((s < src.content.length ∨ (src.final = .eof ∧ (src.content.length : Int) < s) ∨
          (src.final = .eof ∧ (src.content.length : Int) = s ∧ family src.content ≠ c)) →
        (∃ msg, d.err = some (.status code msg)) ∧ d.state.invalidations = [inv]) ∧
      ((src.content.length : Int) ≤ s ∧ src.final ≠ .eof →
        d.err = some src.final ∧ d.state.invalidations = []) := by
  obtain ⟨h₁, h₂, -, -, h₅⟩ := drain_over src.chunks lens ⟨family, []⟩ s [] src.last src.final
    src.closed c inv code hlen
  have hcontent : src.chunks.flatten ++ src.last = src.content := rfl
  rw [← start_script, hcontent] at h₁ h₂ h₅
  refine ⟨?_, fun h => h₅ ?_, fun hbad => ?_, fun ⟨hle, hf⟩ => ?_⟩
  · rw [h₁, Option.some_inj]
    exact Verdict.toError_eq_eof_iff code
  · rw [h₁, Option.some_inj] at h
    exact Verdict.corrupt_eq_false_of_toError h
  · have hc := Verdict.corrupt_of_bad hbad
    obtain ⟨msg, hmsg⟩ := Verdict.toError_of_corrupt hc code c
    rw [hc] at h₂
    exact ⟨⟨msg, by rw [h₁, hmsg]⟩, h₂⟩
  · have hv := Verdict.verdict_of_not_eof ⟨family, []⟩ c hle hf
    rw [hv] at h₁ h₂
    exact ⟨h₁, h₂⟩

/-! ### Over any reader: the reader sees the stream only through what it returns -/

section Replay
variable {τ : Type} {readInner : σ → Nat → ReadResult × σ}

theorem read_congr {readOther : τ → Nat → ReadResult × τ} (r : ChecksumValidatingReader σ) (t : τ)
    {k : Nat} (h : (readOther t k).1 = (readInner r.readCloser k).1) :
    read readOther { r with readCloser := t } k =
      ((read readInner r k).1, { (read readInner r k).2 with readCloser := (readOther t k).2 }) := by
  simp only [read, h, invalidate]
  split_ifs <;> rfl

/-- A caller gets the same bytes and error from the reader as from the reader over the record of
the stream it wraps, and the two end in states that differ only in the reader they wrap. -/
theorem drain_record : ∀ (lens : List Nat) (r : ChecksumValidatingReader σ),
    let d := drain (read readInner) lens r
    let d' := drain (read Script.read) lens { r with readCloser := record readInner lens r.readCloser }
    d'.data = d.data ∧ d'.err = d.err ∧ ∃ t, d'.state = { d.state with readCloser := t }
  | [], _ => ⟨rfl, rfl, _, rfl⟩
  | k :: lens, r => by
    obtain ⟨h₁, h₂⟩ := @read_record _ readInner k lens r.readCloser k
    have hstep := read_congr r (record readInner (k :: lens) r.readCloser) h₁
    cases hk : (read readInner r k).1.err with
    | some e =>
      have hk' : (read Script.read { r with readCloser := record readInner (k :: lens) r.readCloser }
          k).1.err = some e := by rw [hstep, hk]
      rw [drain_cons_of_err lens hk, drain_cons_of_err lens hk', hstep]
      exact ⟨rfl, rfl, _, rfl⟩
    | none =>
      have hin : (readInner r.readCloser k).1.err = none := by rw [← (read_of_ok hk).1, hk]
      have hk' : (read Script.read { r with readCloser := record readInner (k :: lens) r.readCloser }
          k).1.err = none := by rw [hstep, hk]
      obtain ⟨ih₁, ih₂, t, ih₃⟩ := drain_record lens (read readInner r k).2
      rw [read_readCloser] at ih₁ ih₂ ih₃
      rw [drain_cons_of_ok lens hk, drain_cons_of_ok lens hk', hstep, h₂ hin]
      exact ⟨by rw [ih₁], ih₂, t, ih₃⟩

/-- Over any reader that keeps the reader contract, read to its end: the caller gets `io.EOF`
exactly when the reader's content is the blob, and then all of it; a corrupt stream fails with
`errorCode` after one call of the invalidator; another error of a stream that is not too long is
passed on with no call. -/
theorem drain_start_source (src : ByteSource readInner) {s : σ} (hg : src.good s)
    {lens : List Nat} (hb : src.measure s < lens.countP (0 < ·)) (S : Int) (c : List UInt8)
    (family : List UInt8 → List UInt8) (inv : Invalidator) (code : Code) :
    let d := drain (read readInner) lens (start s c family S inv code)
    d.err ≠ none ∧
    (d.err = some .eof ↔ src.ending s = .eof ∧ ((src.content s).length : Int) = S ∧
        family (src.content s) = c) ∧
      (d.err = some .eof → d.data = src.content s) ∧
      ((S < (src.content s).length ∨ (src.ending s = .eof ∧ ((src.content s).length : Int) < S) ∨
          (src.ending s = .eof ∧ ((src.content s).length : Int) = S ∧ family (src.content s) ≠ c)) →
        (∃ msg, d.err = some (.status code msg)) ∧ d.state.invalidations = [inv]) ∧
      (((src.content s).length : Int) ≤ S ∧ src.ending s ≠ .eof →
        d.err = some (src.ending s) ∧ d.state.invalidations = []) := by
  obtain ⟨-, hend, hfin⟩ := src.delivers lens s hg
  obtain ⟨e, he⟩ := Option.ne_none_iff_exists'.mp (hfin hb)
  obtain ⟨hdata, rfl⟩ := hend e he
  obtain ⟨hc, hf, hlen⟩ := record_of_err lens s _ he
  obtain ⟨h₁, h₂, t, h₃⟩ := @drain_record _ readInner lens (start s c family S inv code)
  have key := drain_start_end S c family inv code (record readInner lens s) hlen
  have hne := drain_start_err_ne_none S c family inv code (record readInner lens s) hlen
  simp only [start] at h₁ h₂ h₃ key hne ⊢
  rw [hc, hdata, hf, h₁, h₂, h₃] at key
  rw [h₂] at hne
  exact ⟨hne, key⟩

theorem drain_start_of_eof (lens : List Nat) (s : σ) (c : List UInt8)
    (family : List UInt8 → List UInt8) (S : Int) (inv : Invalidator) (code : Code)
    (h : (drain (read readInner) lens (start s c family S inv code)).err = some .eof) :
    ((drain (read readInner) lens (start s c family S inv code)).data.length : Int) = S ∧
      family (drain (read readInner) lens (start s c family S inv code)).data = c := by
  obtain ⟨h₁, h₂, -⟩ := @drain_record _ readInner lens (start s c family S inv code)
  simp only [start] at h₁ h₂ h ⊢
  rw [← h₂] at h
  rw [← h₁]
  -- the run over the record fails within the buffers, so one buffer more reaches its end
  have hext := drain_append_of_err lens [1] _ h
  have hlen : (record readInner lens s).chunks.length < (lens ++ [1]).length := by
    have := @record_chunks_length_le _ readInner lens s
    simp only [List.length_append, List.length_singleton]
    omega
  obtain ⟨hiff, hdata, -, -⟩ := drain_start_end S c family inv code (record readInner lens s) hlen
  simp only [start] at hiff hdata
  rw [hext] at hiff hdata
  obtain ⟨-, hsize, hsum⟩ := hiff.mp h
  rw [hdata h]
  exact ⟨hsize, hsum⟩

end Replay

/-! ### Refinement: over an intact stream the reader is transparent -/

section Intact
variable {readInner : σ → Nat → ReadResult × σ} (src : ByteSource readInner)

/-- The states in which the rest of the wrapped stream completes the blob: it ends in `io.EOF`,
has `sizeLeft` bytes, and brings the running hash to the expected checksum. -/
def Intact (r : ChecksumValidatingReader σ) : Prop :=
  src.good r.readCloser ∧ src.ending r.readCloser = .eof ∧
    r.sizeLeft = (src.content r.readCloser).length ∧
    (r.partialChecksum.write (src.content r.readCloser)).sum = r.expectedChecksum

theorem read_of_intact {r : ChecksumValidatingReader σ} (h : Intact src r) (k : Nat) :
    read readInner r k = ((readInner r.readCloser k).1,
      { r with readCloser := (readInner r.readCloser k).2,
               partialChecksum := r.partialChecksum.write (readInner r.readCloser k).1.data,
               sizeLeft := r.sizeLeft - (readInner r.readCloser k).1.data.length }) := by
  obtain ⟨hgood, hend, hsize, hsum⟩ := h
  cases he : (readInner r.readCloser k).1.err with
  | none =>
    obtain ⟨-, hc, -⟩ := src.read_ok _ k hgood he
    have : ((readInner r.readCloser k).1.data.length : Int) ≤ r.sizeLeft := by
      rw [hsize, hc, List.length_append, Int.natCast_add]; omega
    simp only [read, he, reduceCtorEq, if_false]
    rw [if_neg (by omega)]
  | some e =>
    obtain ⟨hd, rfl⟩ := src.read_err _ k e hgood he
    simp [read, he, hd, hend, ← hsize, hsum]

def intactSource : ByteSource (read readInner) where
  good := Intact src
  content r := src.content r.readCloser
  ending _ := .eof
  measure r := src.measure r.readCloser
  read_ok r k h he := by
    rw [read_of_intact src h k] at he ⊢
    obtain ⟨hgood, hc, hend, hle, hlt⟩ := src.read_ok _ k h.1 he
    refine ⟨⟨hgood, hend ▸ h.2.1, ?_, ?_⟩, hc, rfl, hle, hlt⟩
    · have := h.2.2.1
      rw [hc, List.length_append, Int.natCast_add] at this
      simp only
      omega
    · rw [← h.2.2.2, hc]
      simp
  read_err r k e h he := by
    rw [read_of_intact src h k] at he ⊢
    obtain ⟨hd, he'⟩ := src.read_err _ k e h.1 he
    exact ⟨hd, he'.trans h.2.1⟩

theorem read_invalidations_of_intact {r : ChecksumValidatingReader σ} (h : Intact src r)
    (k : Nat) : (read readInner r k).2.invalidations = r.invalidations := by
  rw [read_of_intact src h k]

/-- Over a stream that hands out a blob of the expected size and checksum and then `io.EOF`, in
any chunks, a caller of the verifying reader gets exactly what it would get from the stream
itself, and the invalidator is never called. -/
theorem checksumValidatingReader_intact (r : σ) (hg : src.good r) (hend : src.ending r = .eof)
    (expectedChecksum : List UInt8) (family : List UInt8 → List UInt8)
    (hsum : family (src.content r) = expectedChecksum) (invalidator : Invalidator)
    (errorCode : Code) (lens : List Nat) :
    let v := start r expectedChecksum family (src.content r).length invalidator errorCode
    Delivers (read readInner) lens v (src.content r) .eof (src.measure r) ∧
      (drain (read readInner) lens v).state.invalidations = [] := by
  intro v
  have hv : Intact src v := ⟨hg, hend, rfl, by simpa [start, HashState.write, HashState.sum]⟩
  exact ⟨(intactSource src).delivers lens v hv,
    @ByteSource.drain_state _ _ (intactSource src) (fun r => r.invalidations = [])
      (fun r k h hr => (read_invalidations_of_intact src h k).trans hr) lens v hv rfl⟩

end Intact

theorem checksumValidatingReader_intact_script :
    Script.source.good ⟨[[1, 2]], [3], .eof, false⟩ ∧
      Script.source.ending ⟨[[1, 2]], [3], .eof, false⟩ = .eof ∧
      (drain (read Script.read) [4, 4]
        (start ⟨[[1, 2]], [3], .eof, false⟩ [0xab] (fun _ => [0xab]) 3 .noop .internal)).data =
        [1, 2, 3] := by
  obtain ⟨⟨-, hend, -⟩, -⟩ := checksumValidatingReader_intact Script.source
    ⟨[[1, 2]], [3], .eof, false⟩ trivial rfl [0xab] (fun _ => [0xab]) rfl .noop .internal [4, 4]
  refine ⟨trivial, rfl, ?_⟩
  exact (hend .eof (by decide)).1

end ChecksumValidatingReader

end Buildbarn.Blobstore
