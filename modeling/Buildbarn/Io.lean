import Mathlib

/-! Go's `io.Reader` as the blob store uses it. A reader is a step function on its state, `drain`
is a caller that reads until the first non-nil error, and `ByteSource` is the contract of a reader
that hands out a fixed content in order and then fails with a fixed error. -/

namespace Buildbarn

/-- The `codes.Code` values the modelled code returns. -/
inductive Code
  | invalidArgument
  | notFound
  | internal
  | unimplemented
  | unknown
  deriving DecidableEq, Repr

/-- A Go `error`: `io.EOF`, a gRPC status, or an error the code only passes along. -/
inductive Error
  | eof
  | status (code : Code) (message : String)
  | other (message : String)
  deriving DecidableEq, Repr

/-- What one `Read(p)` returns: the bytes it wrote into `p` and its error. -/
structure ReadResult where
  data : List UInt8
  err : Option Error
  deriving DecidableEq, Repr

/-- How a Go call ends: it returns, or it stops the process (`log.Fatal`, a nil dereference). -/
inductive Outcome (α : Type)
  | returns (a : α)
  | aborts (reason : String)
  deriving DecidableEq, Repr

/-- What a caller that reads until the first non-nil error ends with. -/
structure Drained (σ : Type) where
  data : List UInt8
  err : Option Error
  state : σ

variable {σ : Type}

/-- A caller that calls `Read` with buffers of the lengths `lens` until the first non-nil error;
`err = none` when the buffers run out first. -/
def drain (read : σ → Nat → ReadResult × σ) : List Nat → σ → Drained σ
  | [], s => ⟨[], none, s⟩
  | k :: lens, s =>
    match (read s k).1.err with
    | some e => ⟨(read s k).1.data, some e, (read s k).2⟩
    | none =>
      let d := drain read lens (read s k).2
      ⟨(read s k).1.data ++ d.data, d.err, d.state⟩

section Drain
variable {read : σ → Nat → ReadResult × σ}

@[simp] theorem drain_nil (s : σ) : drain read [] s = ⟨[], none, s⟩ := rfl

theorem drain_cons_of_err {s : σ} {k : Nat} {e : Error} (lens : List Nat)
    (h : (read s k).1.err = some e) :
    drain read (k :: lens) s = ⟨(read s k).1.data, some e, (read s k).2⟩ := by
  simp only [drain, h]

theorem drain_cons_of_ok {s : σ} {k : Nat} (lens : List Nat) (h : (read s k).1.err = none) :
    drain read (k :: lens) s =
      ⟨(read s k).1.data ++ (drain read lens (read s k).2).data,
        (drain read lens (read s k).2).err, (drain read lens (read s k).2).state⟩ := by
  simp only [drain, h]

theorem drain_state_of {P : σ → Prop} (hP : ∀ s k, P s → P (read s k).2) :
    ∀ (lens : List Nat) (s : σ), P s → P (drain read lens s).state
  | [], _, hs => hs
  | k :: lens, s, hs => by
    cases h : (read s k).1.err with
    | some e => rw [drain_cons_of_err lens h]; exact hP s k hs
    | none => rw [drain_cons_of_ok lens h]; exact drain_state_of hP lens _ (hP s k hs)

theorem drain_append_of_err {e : Error} :
    ∀ (lens more : List Nat) (s : σ), (drain read lens s).err = some e →
      drain read (lens ++ more) s = drain read lens s
  | [], _, _, h => by simp at h
  | k :: lens, more, s, h => by
    cases hk : (read s k).1.err with
    | some e' => rw [List.cons_append, drain_cons_of_err _ hk, drain_cons_of_err _ hk]
    | none =>
      rw [drain_cons_of_ok lens hk] at h
      rw [List.cons_append, drain_cons_of_ok _ hk, drain_cons_of_ok _ hk,
        drain_append_of_err lens more _ h]

end Drain

theorem exists_ok_of_mapM {α β : Type} {f : α → Except Error β} :
    ∀ {as : List α} {bs : List β}, as.mapM f = .ok bs → ∀ a ∈ as, ∃ b, f a = .ok b
  | [], _, _ => by simp
  | a :: as, bs, h => by
    rw [List.mapM_cons] at h
    cases ha : f a with
    | error err => rw [ha] at h; cases h
    | ok b =>
      cases has : as.mapM f with
      | error err => rw [ha, has] at h; cases h
      | ok bs' =>
        rintro a' (_ | ⟨_, ha'⟩)
        · exact ⟨b, ha⟩
        · exact exists_ok_of_mapM has a' ha'

theorem mapM_eq_ok_of_forall {α β : Type} {f : α → Except Error β} :
    ∀ {as : List α}, (∀ a ∈ as, ∃ b, f a = .ok b) → ∃ bs, as.mapM f = .ok bs
  | [], _ => ⟨[], rfl⟩
  | a :: as, h => by
    obtain ⟨b, hb⟩ := h a (List.mem_cons_self a as)
    obtain ⟨bs, hbs⟩ := mapM_eq_ok_of_forall fun a' ha' => h a' (List.mem_cons_of_mem a ha')
    exact ⟨b :: bs, by rw [List.mapM_cons, hb, hbs]; rfl⟩

/-- A reader that may have failed to open: `.error err` is `util.NewErrorReader(err)` (or an
`errorReader`), whose every `Read` fails with `err`. -/
def readOrFail (read : σ → Nat → ReadResult × σ) :
    Except Error σ → Nat → ReadResult × Except Error σ
  | .error err, _ => (⟨[], some err⟩, .error err)
  | .ok s, k => ((read s k).1, .ok (read s k).2)

theorem drain_readOrFail_ok {read : σ → Nat → ReadResult × σ} : ∀ (lens : List Nat) (s : σ),
    drain (readOrFail read) lens (.ok s) =
      ⟨(drain read lens s).data, (drain read lens s).err, .ok (drain read lens s).state⟩
  | [], _ => rfl
  | k :: lens, s => by
    cases h : (read s k).1.err with
    | some e => simp only [drain, readOrFail, h]
    | none => simp only [drain, readOrFail, h, drain_readOrFail_ok lens]

/-- `bytes.Buffer.Read` (behind `ioutil.NopCloser`), on the unread bytes of the buffer. -/
def bufferRead (buf : List UInt8) (k : Nat) : ReadResult × List UInt8 :=
  if buf = [] then (if k = 0 then (⟨[], none⟩, []) else (⟨[], some .eof⟩, []))
  else (⟨buf.take k, none⟩, buf.drop k)

/-- A byte source whose successive `Read` calls answer from a script: the chunks it returns with a
nil error, then the data it returns together with its terminal error (`io.EOF` or another). It is
any stream a caller can meet, whatever its chunking; `closed` records a call of `Close`. -/
structure Script where
  chunks : List (List UInt8)
  last : List UInt8
  final : Error
  closed : Bool
  deriving DecidableEq, Repr

namespace Script

def content (s : Script) : List UInt8 := s.chunks.flatten ++ s.last

def read : Script → Nat → ReadResult × Script
  | ⟨c :: cs, l, e, cl⟩, _ => (⟨c, none⟩, ⟨cs, l, e, cl⟩)
  | ⟨[], l, e, cl⟩, _ => (⟨l, some e⟩, ⟨[], [], e, cl⟩)

def close (s : Script) : Script := { s with closed := true }

@[simp] theorem read_closed (s : Script) (k : Nat) : (read s k).2.closed = s.closed := by
  obtain ⟨_ | _, _, _, _⟩ := s <;> rfl

@[simp] theorem close_closed (s : Script) : (close s).closed = true := rfl

end Script

/-- A caller reading with buffers `lens` from `s` gets a prefix of `content` while it has not
failed, all of `content` and then `ending` once it has, and fails once more than `bound` of its
buffers are non-empty. -/
def Delivers (read : σ → Nat → ReadResult × σ) (lens : List Nat) (s : σ)
    (content : List UInt8) (ending : Error) (bound : Nat) : Prop :=
  ((drain read lens s).err = none → (drain read lens s).data <+: content) ∧
  (∀ e, (drain read lens s).err = some e → (drain read lens s).data = content ∧ e = ending) ∧
  (bound < lens.countP (0 < ·) → (drain read lens s).err ≠ none)

/-- The contract of a reader that, from the states satisfying `good`, hands out `content` in order
and then fails with `ending`: a nil-error read returns the next bytes of `content`, a failing read
returns all that is left with `ending`, and `measure` drops at each nil-error read of a non-empty
buffer. -/
structure ByteSource (read : σ → Nat → ReadResult × σ) where
  good : σ → Prop
  content : σ → List UInt8
  ending : σ → Error
  measure : σ → Nat
  read_ok : ∀ s k, good s → (read s k).1.err = none →
    good (read s k).2 ∧ content s = (read s k).1.data ++ content (read s k).2 ∧
      ending (read s k).2 = ending s ∧ measure (read s k).2 ≤ measure s ∧
      (0 < k → measure (read s k).2 < measure s)
  read_err : ∀ s k e, good s → (read s k).1.err = some e →
    (read s k).1.data = content s ∧ e = ending s

namespace ByteSource
variable {read : σ → Nat → ReadResult × σ}

theorem delivers (src : ByteSource read) :
    ∀ (lens : List Nat) (s : σ), src.good s →
      Delivers read lens s (src.content s) (src.ending s) (src.measure s)
  | [], _, _ => by simp [Delivers]
  | k :: lens, s, hs => by
    cases h : (read s k).1.err with
    | some e =>
      obtain ⟨hd, he⟩ := src.read_err s k e hs h
      simp [Delivers, drain_cons_of_err lens h, hd, he]
    | none =>
      obtain ⟨hgood, hc, he, hle, hlt⟩ := src.read_ok s k hs h
      obtain ⟨ih₁, ih₂, ih₃⟩ := delivers src lens _ hgood
      rw [he] at ih₂
      simp only [Delivers, drain_cons_of_ok lens h, hc, List.prefix_append_right_inj,
        List.append_cancel_left_eq]
      refine ⟨ih₁, ih₂, fun hb => ih₃ ?_⟩
      rw [List.countP_cons] at hb
      by_cases hk : 0 < k
      · have := hlt hk
        simp only [hk, decide_True, ite_true] at hb
        omega
      · simp [hk] at hb
        omega

theorem drain_state (src : ByteSource read) {P : σ → Prop}
    (hP : ∀ s k, src.good s → P s → P (read s k).2) :
    ∀ (lens : List Nat) (s : σ), src.good s → P s → P (drain read lens s).state
  | [], _, _, hs => hs
  | k :: lens, s, hg, hs => by
    cases h : (read s k).1.err with
    | some e => rw [drain_cons_of_err lens h]; exact hP s k hg hs
    | none =>
      rw [drain_cons_of_ok lens h]
      exact drain_state src hP lens _ (src.read_ok s k hg h).1 (hP s k hg hs)

def orFail (src : ByteSource read) : ByteSource (readOrFail read) where
  good := fun | .ok s => src.good s | .error _ => True
  content := fun | .ok s => src.content s | .error _ => []
  ending := fun | .ok s => src.ending s | .error e => e
  measure := fun | .ok s => src.measure s | .error _ => 0
  read_ok s k hs h := by
    cases s with
    | error e => simp [readOrFail] at h
    | ok s => exact src.read_ok s k hs h
  read_err s k e hs h := by
    cases s with
    | error e' => simp_all [readOrFail]
    | ok s => exact src.read_err s k e hs h

end ByteSource

def Script.source : ByteSource Script.read where
  good _ := True
  content := Script.content
  ending := Script.final
  measure s := s.chunks.length
  read_ok s k _ h := by
    obtain ⟨_ | ⟨c, cs⟩, l, e, cl⟩ := s
    · simp [Script.read] at h
    · simp [Script.read, Script.content]
  read_err s k e _ h := by
    obtain ⟨_ | ⟨c, cs⟩, l, e', cl⟩ := s
    · simp_all [Script.read, Script.content]
    · simp [Script.read] at h

def bufferSource : ByteSource bufferRead where
  good _ := True
  content buf := buf
  ending _ := .eof
  measure buf := buf.length
  read_ok buf k _ h := by
    by_cases hb : buf = []
    · subst hb
      by_cases hk : k = 0
      · simp [bufferRead, hk]
      · simp [bufferRead, hk] at h
    · simp only [bufferRead, hb, if_false] at h ⊢
      refine ⟨trivial, by simp, trivial, by simp, fun hk => ?_⟩
      have : 0 < buf.length := List.length_pos.mpr hb
      simp only [List.length_drop]
      omega
  read_err buf k e _ h := by
    unfold bufferRead at h ⊢
    split_ifs at h ⊢
    simp_all

/-! ### Recording a reader -/

/-- The script a reader plays to a caller that reads with buffers `lens`: the data of each read
that does not fail, then the data and error of the first that does (`io.EOF` if the buffers run
out first). -/
def record (read : σ → Nat → ReadResult × σ) : List Nat → σ → Script
  | [], _ => ⟨[], [], .eof, false⟩
  | k :: lens, s =>
    match (read s k).1.err with
    | some e => ⟨[], (read s k).1.data, e, false⟩
    | none =>
      let t := record read lens (read s k).2
      ⟨(read s k).1.data :: t.chunks, t.last, t.final, t.closed⟩

section Record
variable {read : σ → Nat → ReadResult × σ}

theorem read_record (k : Nat) (lens : List Nat) (s : σ) (k' : Nat) :
    (Script.read (record read (k :: lens) s) k').1 = (read s k).1 ∧
      ((read s k).1.err = none →
        (Script.read (record read (k :: lens) s) k').2 = record read lens (read s k).2) := by
  rcases hres : (read s k).1 with ⟨data, _ | e⟩ <;> simp [record, hres, Script.read]

theorem record_of_err : ∀ (lens : List Nat) (s : σ) (e : Error),
    (drain read lens s).err = some e →
      (record read lens s).content = (drain read lens s).data ∧ (record read lens s).final = e ∧
        (record read lens s).chunks.length < lens.length
  | [], _, _, h => by cases h
  | k :: lens, s, e, h => by
    cases hk : (read s k).1.err with
    | some e' =>
      rw [drain_cons_of_err lens hk] at h ⊢
      cases h
      simp [record, hk, Script.content]
    | none =>
      rw [drain_cons_of_ok lens hk] at h ⊢
      obtain ⟨h₁, h₂, h₃⟩ := record_of_err lens _ e h
      simp only [record, hk, Script.content, List.flatten_cons, List.append_assoc,
        List.length_cons] at h₁ h₂ h₃ ⊢
      exact ⟨by rw [h₁], h₂, by omega⟩

theorem record_chunks_length_le : ∀ (lens : List Nat) (s : σ),
    (record read lens s).chunks.length ≤ lens.length
  | [], _ => Nat.zero_le _
  | k :: lens, s => by
    cases hk : (read s k).1.err with
    | some e => simp [record, hk]
    | none =>
      simp only [record, hk, List.length_cons]
      exact Nat.succ_le_succ (record_chunks_length_le lens _)

end Record

end Buildbarn
