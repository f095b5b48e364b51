import Mathlib

/-! The conversions between text and values that the blob store takes from Go's standard library:
decimal integers (`strconv`, `%d`), hexadecimal bytes (`encoding/hex`) and `strings.FieldsFunc`.
Each comes with the round trip the resource names and digests rely on. -/

namespace Buildbarn

/-! ### Decimal integers -/

def digitValue (c : Char) : Nat := c.toNat - '0'.toNat

/-- `strconv.ParseUint(s, 10, 64)` without its range check: the value of a non-empty run of
decimal digits. -/
def parseDigits (ds : List Char) : Option Nat :=
  if ds ≠ [] ∧ ∀ c ∈ ds, c.isDigit then some (ds.foldl (fun n c => 10 * n + digitValue c) 0)
  else none

/-- The sign `strconv.ParseInt` takes off the front, and the rest. -/
def splitSign : List Char → Bool × List Char
  | c :: ds => if c = '+' then (false, ds) else if c = '-' then (true, ds) else (false, c :: ds)
  | [] => (false, [])

/-- The range check of `strconv.ParseInt(s, 10, 64)`: the value fits in an `int64`. -/
def int64 : Int → Option Int
  | .ofNat n => if n < 2 ^ 63 then some (.ofNat n) else none
  | .negSucc n => if n < 2 ^ 63 then some (.negSucc n) else none

/-- `strconv.ParseInt(s, 10, 64)`: an optional sign, then decimal digits, whose value fits in an
`int64`. -/
def parseInt (s : String) : Option Int :=
  let sign := splitSign s.toList
  (parseDigits sign.2).bind fun n => int64 (if sign.1 then -n else n)

/-- `strconv.FormatInt(n, 10)`, the `%d` verb of `fmt`. -/
def formatInt : Int → String
  | .ofNat n => String.mk (Nat.toDigits 10 n)
  | .negSucc n => String.mk ('-' :: Nat.toDigits 10 (n + 1))

/-- `fmt`'s `%#U` of a printable rune: `U+`, at least four uppercase hexadecimal digits, and the
rune between single quotes. -/
def formatRune (c : Char) : String :=
  String.mk ("U+".toList ++ List.leftpad 4 '0' ((Nat.toDigits 16 c.toNat).map Char.toUpper) ++
    [' ', Char.ofNat 39, c, Char.ofNat 39])

theorem digitChar_decimal : ∀ d < 10, (Nat.digitChar d).isDigit ∧ digitValue (Nat.digitChar d) = d
  := by decide

theorem toDigitsCore_decimal :
    ∀ (fuel n : Nat) (ds : List Char), n < fuel →
      ∃ l, Nat.toDigitsCore 10 fuel n ds = l ++ ds ∧ l ≠ [] ∧ (∀ c ∈ l, c.isDigit) ∧
        l.foldl (fun n c => 10 * n + digitValue c) 0 = n
  | 0, _, _, h => absurd h (Nat.not_lt_zero _)
  | fuel + 1, n, ds, h => by
    obtain ⟨hd, hv⟩ := digitChar_decimal (n % 10) (Nat.mod_lt _ (by decide))
    by_cases hn : n / 10 = 0
    · refine ⟨[Nat.digitChar (n % 10)], by simp [Nat.toDigitsCore, hn], by simp, by simp [hd], ?_⟩
      simp only [List.foldl_cons, List.foldl_nil, hv]
      omega
    · obtain ⟨l, hl, hne, hdig, hval⟩ := toDigitsCore_decimal fuel (n / 10)
        (Nat.digitChar (n % 10) :: ds) (by omega)
      refine ⟨l ++ [Nat.digitChar (n % 10)], by simp [Nat.toDigitsCore, hn, hl], by simp, ?_, ?_⟩
      · simp only [List.mem_append, List.mem_singleton]
        rintro c (hc | rfl)
        exacts [hdig c hc, hd]
      · simp only [List.foldl_append, hval, List.foldl_cons, List.foldl_nil, hv]
        omega

theorem toDigits_decimal (n : Nat) :
    ∃ c l, Nat.toDigits 10 n = c :: l ∧ c.isDigit ∧ parseDigits (c :: l) = some n := by
  obtain ⟨l, hl, hne, hdig, hval⟩ := toDigitsCore_decimal (n + 1) n [] (Nat.lt_succ_self n)
  obtain ⟨c, l, rfl⟩ := List.exists_cons_of_ne_nil hne
  refine ⟨c, l, by simpa [Nat.toDigits] using hl, hdig c (List.mem_cons_self c l), ?_⟩
  simp only [parseDigits, ne_eq, reduceCtorEq, not_false_eq_true, true_and, hval]
  exact if_pos hdig

theorem isDigit_of_parseDigits {ds : List Char} {n : Nat} (h : parseDigits ds = some n) :
    ds ≠ [] ∧ ∀ c ∈ ds, c.isDigit := by
  unfold parseDigits at h
  split_ifs at h with hc
  exact hc

theorem splitSign_of_isDigit {c : Char} (hc : c.isDigit) (l : List Char) :
    splitSign (c :: l) = (false, c :: l) := by
  have h₁ : c ≠ '+' := by rintro rfl; exact absurd hc (by decide)
  have h₂ : c ≠ '-' := by rintro rfl; exact absurd hc (by decide)
  simp [splitSign, h₁, h₂]

theorem int64_eq_some {v w : Int} : int64 v = some w ↔ w = v ∧ -2 ^ 63 ≤ v ∧ v < 2 ^ 63 := by
  cases v with
  | ofNat n =>
    by_cases h : n < 2 ^ 63
    · simp only [int64, h, if_true, Option.some.injEq, eq_comm, Int.ofNat_eq_coe]
      omega
    · simp only [int64, h, if_false, reduceCtorEq, false_iff, Int.ofNat_eq_coe]
      omega
  | negSucc n =>
    by_cases h : n < 2 ^ 63
    · simp only [int64, h, if_true, Option.some.injEq, eq_comm, Int.negSucc_eq]
      omega
    · simp only [int64, h, if_false, reduceCtorEq, false_iff, Int.negSucc_eq]
      omega

theorem toList_mk (l : List Char) : (String.mk l).toList = l := rfl

theorem parseInt_formatInt (n : Int) (h : -2 ^ 63 ≤ n ∧ n < 2 ^ 63) :
    parseInt (formatInt n) = some n := by
  cases n with
  | ofNat m =>
    obtain ⟨c, l, hl, hc, hp⟩ := toDigits_decimal m
    simp only [formatInt, hl, parseInt, toList_mk, splitSign_of_isDigit hc, hp, Option.some_bind,
      Bool.false_eq_true, if_false]
    exact int64_eq_some.mpr ⟨rfl, h⟩
  | negSucc m =>
    obtain ⟨c, l, hl, hc, hp⟩ := toDigits_decimal (m + 1)
    have hs : splitSign ('-' :: c :: l) = (true, c :: l) := rfl
    simp only [formatInt, hl, parseInt, toList_mk, hs, hp, Option.some_bind, if_true]
    rw [int64_eq_some]
    exact ⟨by simp [Int.negSucc_eq], by simpa [Int.negSucc_eq] using h⟩

theorem parseInt_range {s : String} {v : Int} (h : parseInt s = some v) :
    -2 ^ 63 ≤ v ∧ v < 2 ^ 63 := by
  simp only [parseInt, Option.bind_eq_some] at h
  obtain ⟨n, -, hv⟩ := h
  obtain ⟨rfl, hr⟩ := int64_eq_some.mp hv
  exact hr

theorem formatInt_chars (n : Int) :
    (formatInt n).toList ≠ [] ∧ ∀ c ∈ (formatInt n).toList, c = '-' ∨ c.isDigit := by
  cases n with
  | ofNat m =>
    obtain ⟨c, l, hl, -, hp⟩ := toDigits_decimal m
    have := isDigit_of_parseDigits hp
    simp only [formatInt, hl, toList_mk]
    exact ⟨by simp, fun x hx => .inr (this.2 x hx)⟩
  | negSucc m =>
    obtain ⟨c, l, hl, -, hp⟩ := toDigits_decimal (m + 1)
    have := isDigit_of_parseDigits hp
    simp only [formatInt, hl, toList_mk]
    refine ⟨by simp, fun x hx => ?_⟩
    rcases List.mem_cons.mp hx with rfl | hx
    exacts [.inl rfl, .inr (this.2 x hx)]

/-! ### Hexadecimal bytes -/

/-- A lowercase hexadecimal digit, the only kind `validateDigest` lets through. -/
def isLowerHexDigit (c : Char) : Prop := ('0' ≤ c ∧ c ≤ '9') ∨ ('a' ≤ c ∧ c ≤ 'f')

instance : DecidablePred isLowerHexDigit := fun c => by unfold isLowerHexDigit; infer_instance

/-- The two lowercase hexadecimal digits `hex.Encode` writes for a byte. -/
def hexDigits (b : UInt8) : List Char := [Nat.digitChar (b.toNat / 16), Nat.digitChar (b.toNat % 16)]

/-- `hex.EncodeToString`. -/
def hexEncodeToString (bs : List UInt8) : String := String.mk (bs.flatMap hexDigits)

/-- The value of a hexadecimal digit of either case, as `hex`'s `reverseHexTable` gives it. -/
def hexValue (c : Char) : Option Nat :=
  if '0' ≤ c ∧ c ≤ '9' then some (c.toNat - '0'.toNat)
  else if 'a' ≤ c ∧ c ≤ 'f' then some (c.toNat - 'a'.toNat + 10)
  else if 'A' ≤ c ∧ c ≤ 'F' then some (c.toNat - 'A'.toNat + 10)
  else none

/-- `hex.Decode`: the bytes decoded before the first invalid digit or a final odd one. -/
def hexDecode : List Char → List UInt8
  | a :: b :: rest =>
    match hexValue a, hexValue b with
    | some x, some y => (16 * x + y).toUInt8 :: hexDecode rest
    | _, _ => []
  | _ => []

/-- `hex.DecodeString`, whose error the blob store discards. -/
def hexDecodeString (s : String) : List UInt8 := hexDecode s.toList

theorem char_le_iff (a b : Char) : a ≤ b ↔ a.toNat ≤ b.toNat := by
  simp only [Char.le_def, UInt32.le_def, Char.toNat, UInt32.toNat, BitVec.le_def]

theorem char_lt_iff (a b : Char) : a < b ↔ a.toNat < b.toNat := by
  simp only [Char.lt_def, UInt32.lt_def, Char.toNat, UInt32.toNat, BitVec.lt_def]

theorem utf8Size_of_lt {c : Char} (h : c.toNat < 128) : c.utf8Size = 1 := by
  have : c.val ≤ UInt32.ofNatCore 0x7F (by decide) := by
    rw [UInt32.le_def, BitVec.le_def]; exact Nat.lt_succ_iff.mp h
  rw [Char.utf8Size]; exact if_pos this

theorem utf8ByteSize_of_lt {s : String} (h : ∀ c ∈ s.toList, c.toNat < 128) :
    s.utf8ByteSize = s.toList.length := by
  obtain ⟨l⟩ := s
  induction l with
  | nil => rfl
  | cons c l ih =>
    have hc := utf8Size_of_lt (h c (List.mem_cons_self c l))
    have := ih (fun x hx => h x (List.mem_cons_of_mem c hx))
    simp only [String.utf8ByteSize, String.utf8ByteSize.go, toList_mk, List.length_cons] at this ⊢
    omega

theorem toNat_lt_of_isLowerHexDigit {c : Char} (hc : isLowerHexDigit c) : c.toNat < 128 := by
  simp only [isLowerHexDigit, char_le_iff] at hc
  simp at hc
  omega

theorem digitChar_hex : ∀ d < 16, hexValue (Nat.digitChar d) = some d ∧
    isLowerHexDigit (Nat.digitChar d) := by decide

theorem digitChar_eq_ofNat :
    (∀ d < 10, Nat.digitChar d = Char.ofNat (48 + d)) ∧
      ∀ d < 6, Nat.digitChar (10 + d) = Char.ofNat (97 + d) := by decide

theorem hexValue_of_isLowerHexDigit {c : Char} (hc : isLowerHexDigit c) :
    ∃ x < 16, hexValue c = some x ∧ Nat.digitChar x = c := by
  have hc' : (48 ≤ c.toNat ∧ c.toNat ≤ 57) ∨ (97 ≤ c.toNat ∧ c.toNat ≤ 102) := by
    simpa [isLowerHexDigit, char_le_iff] using hc
  rcases hc' with ⟨h₁, h₂⟩ | ⟨h₁, h₂⟩
  · refine ⟨c.toNat - 48, by omega, by simp [hexValue, char_le_iff, h₁, h₂], ?_⟩
    have e : c.toNat = 48 + (c.toNat - 48) := by omega
    rw [digitChar_eq_ofNat.1 _ (by omega), ← e, Char.ofNat_toNat]
  · have h₀ : ¬ c.toNat ≤ 57 := by omega
    refine ⟨c.toNat - 87, by omega, ?_, ?_⟩
    · simp only [hexValue, char_le_iff]
      simp [h₀, h₁, h₂]
      omega
    · have e : c.toNat = 97 + (c.toNat - 97) := by omega
      have e' : c.toNat - 87 = 10 + (c.toNat - 97) := by omega
      rw [e', digitChar_eq_ofNat.2 _ (by omega), ← e, Char.ofNat_toNat]

theorem hexDecode_encode (bs : List UInt8) : hexDecodeString (hexEncodeToString bs) = bs := by
  induction bs with
  | nil => rfl
  | cons b bs ih =>
    have hb : b.toNat < 256 := b.toNat_lt_size
    obtain ⟨hhi, -⟩ := digitChar_hex (b.toNat / 16) (by omega)
    obtain ⟨hlo, -⟩ := digitChar_hex (b.toNat % 16) (by omega)
    have hbyte : (16 * (b.toNat / 16) + b.toNat % 16).toUInt8 = b := by
      rw [Nat.div_add_mod]
      apply UInt8.eq_of_toBitVec_eq
      simp [Nat.toUInt8, UInt8.ofNat, UInt8.toNat]
    simp only [hexDecodeString, hexEncodeToString, toList_mk] at ih ⊢
    simp only [List.flatMap_cons, hexDigits, List.cons_append, hexDecode, hhi, hlo, hbyte]
    exact congrArg (b :: ·) ih

theorem isLowerHexDigit_of_mem_hexEncodeToString {bs : List UInt8} {c : Char}
    (hc : c ∈ (hexEncodeToString bs).toList) : isLowerHexDigit c := by
  simp only [hexEncodeToString, toList_mk, List.mem_flatMap, hexDigits, List.mem_cons,
    List.mem_singleton, List.not_mem_nil, or_false] at hc
  obtain ⟨b, -, rfl | rfl⟩ := hc
  · exact (digitChar_hex _ (by have := b.toNat_lt_size; unfold UInt8.size at this; omega)).2
  · exact (digitChar_hex _ (Nat.mod_lt _ (by decide))).2

@[simp] theorem length_hexEncodeToString (bs : List UInt8) :
    (hexEncodeToString bs).toList.length = 2 * bs.length := by
  induction bs with
  | nil => rfl
  | cons b bs ih =>
    simp only [hexEncodeToString, toList_mk] at ih ⊢
    simp only [List.flatMap_cons, List.length_append, ih, hexDigits, List.length_cons,
      List.length_nil]
    omega

theorem hexEncode_decode :
    ∀ (cs : List Char), (∀ c ∈ cs, isLowerHexDigit c) → cs.length % 2 = 0 →
      (hexDecode cs).flatMap hexDigits = cs
  | [], _, _ => rfl
  | [_], _, h => by simp at h
  | a :: b :: rest, hcs, hlen => by
    obtain ⟨x, hx, hxa, hax⟩ := hexValue_of_isLowerHexDigit (hcs a (by simp))
    obtain ⟨y, hy, hyb, hby⟩ := hexValue_of_isLowerHexDigit (hcs b (by simp))
    have ih := hexEncode_decode rest (fun c hc => hcs c (by simp [hc]))
      (by simp at hlen; omega)
    have hv : (16 * x + y).toUInt8.toNat = 16 * x + y :=
      UInt8.toNat_ofNat_of_lt (by unfold UInt8.size; omega)
    have hx' : (16 * x + y) / 16 = x := by omega
    have hy' : (16 * x + y) % 16 = y := by omega
    simp [hexDecode, hxa, hyb, hexDigits, hv, hx', hy', hax, hby, ih]

/-! ### Splitting on a separator -/

/-- `strings.FieldsFunc(s, f)`: the maximal non-empty runs of characters that do not satisfy `f`. -/
def fieldsFunc (s : String) (f : Char → Bool) : List String :=
  ((s.toList.splitOnP f).filter (· ≠ [])).map String.mk

theorem not_of_mem_splitOnP (p : Char → Bool) :
    ∀ (cs : List Char), ∀ l ∈ cs.splitOnP p, ∀ c ∈ l, p c = false
  | [] => by simp
  | a :: cs => by
    have ih := not_of_mem_splitOnP p cs
    rw [List.splitOnP_cons]
    split_ifs with ha
    · simpa using ih
    · obtain ⟨h, t, ht⟩ := List.exists_cons_of_ne_nil (List.splitOnP_ne_nil p cs)
      rw [ht] at ih ⊢
      simp only [List.modifyHead_cons, List.mem_cons, forall_eq_or_imp, List.mem_cons] at ih ⊢
      exact ⟨⟨by simpa using ha, ih.1⟩, ih.2⟩

theorem mem_fieldsFunc {s t : String} {f : Char → Bool} (ht : t ∈ fieldsFunc s f) :
    t.toList ≠ [] ∧ ∀ c ∈ t.toList, f c = false := by
  simp only [fieldsFunc, List.mem_map, List.mem_filter] at ht
  obtain ⟨l, ⟨hl, hne⟩, rfl⟩ := ht
  exact ⟨by simpa using hne, not_of_mem_splitOnP f _ l hl⟩

theorem splitOnP_append_cons {α : Type} (p : α → Bool) {sep : α} (hsep : p sep = true)
    (ys : List α) : ∀ xs : List α, (xs ++ sep :: ys).splitOnP p = xs.splitOnP p ++ ys.splitOnP p
  | [] => by simp [hsep]
  | x :: xs => by
    obtain ⟨h, t, ht⟩ := List.exists_cons_of_ne_nil (List.splitOnP_ne_nil p xs)
    rw [List.cons_append, List.splitOnP_cons, List.splitOnP_cons, splitOnP_append_cons p hsep ys xs,
      ht]
    split_ifs <;> rfl

theorem fieldsFunc_append_cons (f : Char → Bool) {sep : Char} (hsep : f sep = true)
    (a b : List Char) : fieldsFunc ⟨a ++ sep :: b⟩ f = fieldsFunc ⟨a⟩ f ++ fieldsFunc ⟨b⟩ f := by
  simp only [fieldsFunc, toList_mk, splitOnP_append_cons f hsep, List.filter_append,
    List.map_append]

end Buildbarn
