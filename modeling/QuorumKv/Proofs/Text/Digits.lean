import Mathlib.Algebra.Ring.Nat
import QuorumKv.Proofs.Text.Blank
import QuorumKv.Proofs.Text.Utf8
import QuorumKv.Revision
import QuorumKv.Text.Digits

/-! Numbers that were printed are read back, as long as they are within the bounds of their type. -/
namespace QuorumKv.Text

theorem digit?_of_isDigit {c : Char} (digit : c.isDigit = true) :
    digit? 10 c = some (c.toNat - 48) := by
  obtain ⟨low, high⟩ := Char.isDigit_iff_toNat.mp digit
  change 48 ≤ c.toNat at low
  change c.toNat ≤ 57 at high
  unfold digit?
  simp only [low, high, decide_true, Bool.and_self, if_true]
  rw [if_pos (by omega)]

theorem digit?_digitChar {d : Nat} (small : d < 10) : digit? 10 d.digitChar = some d := by
  rw [digit?_of_isDigit (by simp [Nat.isDigit_digitChar, small]),
    Nat.toNat_digitChar_sub_48_of_lt_ten small]

/-- What reading some digits makes of the digits before them. -/
theorem foldlM_digits (n m : Nat) :
    (Nat.toDigits 10 n).foldlM (fun n c => (digit? 10 c).map (n * 10 + ·)) m =
      some (m * 10 ^ (Nat.toDigits 10 n).length + n) := by
  induction n using Nat.strongRecOn generalizing m with
  | ind n ih =>
    by_cases small : n < 10
    · rw [Nat.toDigits_of_lt_base small]
      simp [digit?_digitChar small]
    · have last : n % 10 < 10 := Nat.mod_lt n (by decide)
      rw [Nat.toDigits_of_base_le (by decide) (by omega), List.foldlM_append,
        ih (n / 10) (by omega)]
      simp only [Option.bind_eq_bind, Option.bind_some, List.foldlM_cons, List.foldlM_nil,
        digit?_digitChar last, Option.map_some, Option.pure_def, List.length_append,
        List.length_singleton, Nat.pow_succ, Option.some.injEq, Nat.add_mul, Nat.mul_assoc]
      omega

theorem digits?_toDigits (n : Nat) : digits? 10 (Nat.toDigits 10 n) = some n := by
  have read := foldlM_digits n 0
  cases digits : Nat.toDigits 10 n with
  | nil => exact absurd digits Nat.toDigits_ne_nil
  | cons c cs =>
    rw [digits] at read
    simpa [digits?] using read

/-- A printed number begins with a digit, which is no sign. -/
theorem head_toDigits (n : Nat) : ∃ c cs, Nat.toDigits 10 n = c :: cs ∧ c.isDigit = true := by
  cases digits : Nat.toDigits 10 n with
  | nil => exact absurd digits Nat.toDigits_ne_nil
  | cons c cs =>
    have listed : c ∈ Nat.toDigits 10 n := digits ▸ List.mem_cons_self
    exact ⟨c, cs, rfl, Nat.isDigit_of_mem_toDigits (by decide) (by decide) listed⟩

theorem unsigned?_toDigits (bound n : Nat) :
    unsigned? 10 bound (Nat.toDigits 10 n) = if n < bound then some n else none := by
  obtain ⟨c, cs, digits, digit⟩ := head_toDigits n
  have plain : c ≠ '+' := by rintro rfl; exact absurd digit (by decide)
  have read := digits?_toDigits n
  rw [digits] at read ⊢
  unfold unsigned?
  split
  · rename_i signed
    simp only [List.cons.injEq] at signed
    exact absurd signed.1 plain
  · simp only [read]

theorem uint32?_toString (n : UInt32) : uint32? (toString n.toNat) = some n := by
  have small : n.toNat < bound32 := n.toNat_lt
  simp [uint32?, unsigned?_toDigits, small]

theorem uint64?_toString (n : Nat) :
    uint64? (toString n) = if n < bound64 then some n else none := by
  simp [uint64?, unsigned?_toDigits]

theorem signed?_toDigits (bound n : Nat) :
    signed? bound (Nat.toDigits 10 n) = if n < bound then some (n : Int) else none := by
  have read := unsigned?_toDigits bound n
  obtain ⟨c, cs, digits, digit⟩ := head_toDigits n
  have plain : c ≠ '-' := by rintro rfl; exact absurd digit (by decide)
  rw [digits] at read ⊢
  unfold signed?
  split
  · rename_i signed
    simp only [List.cons.injEq] at signed
    exact absurd signed.1 plain
  · rw [read]
    split <;> rfl

theorem toList_toString_negSucc (n : Nat) :
    (toString (Int.negSucc n)).toList = '-' :: Nat.toDigits 10 (n + 1) := by
  have printed : (Int.negSucc n).repr = "-" ++ (n + 1).repr := rfl
  simp [Int.toString_eq_repr, printed]

theorem toList_toString_ofNat (n : Nat) :
    (toString (Int.ofNat n)).toList = Nat.toDigits 10 n := by
  have printed : (Int.ofNat n).repr = n.repr := rfl
  rw [Int.toString_eq_repr, printed, Nat.toList_repr]

theorem int64?_toString (i : Int) (low : -(bound63 : Int) ≤ i) (high : i < bound63) :
    int64? (toString i) = some i := by
  unfold int64?
  cases i with
  | ofNat n =>
    rw [toList_toString_ofNat, signed?_toDigits, if_pos (Int.ofNat_lt.mp high)]
    rfl
  | negSucc n =>
    have small : n + 1 ≤ bound63 := by
      rw [Int.negSucc_eq] at low
      omega
    rw [toList_toString_negSucc, signed?, digits?_toDigits]
    simp only [small, if_true, Int.negSucc_eq]
    rfl

theorem revision_toString (r : Revision) :
    (int64? (toString r.val)).bind Revision.ofInt? = some r := by
  have low := r.least_le
  have high := r.le_greatest
  have read : int64? (toString r.val) = some r.val :=
    int64?_toString r.val low (Int.lt_of_le_of_lt high (by decide))
  rw [read, Option.bind_some, Revision.ofInt?, dif_pos ⟨low, high⟩]

theorem isBlank_of_isDigit {c : Char} (digit : c.isDigit = true) : isBlank c = false := by
  obtain ⟨low, high⟩ := Char.isDigit_iff_toNat.mp digit
  change 48 ≤ c.toNat at low
  change c.toNat ≤ 57 at high
  simp only [isBlank]
  simp
  omega

theorem isWord_toString_nat (n : Nat) : IsWord (toString n) where
  filled := by simp
  whole := by
    intro c listed
    rw [Nat.toString_eq_repr, Nat.toList_repr] at listed
    exact isBlank_of_isDigit (Nat.isDigit_of_mem_toDigits (by decide) (by decide) listed)

theorem isWord_toString_int (i : Int) : IsWord (toString i) := by
  have digit {n : Nat} {c : Char} (listed : c ∈ Nat.toDigits 10 n) : isBlank c = false :=
    isBlank_of_isDigit (Nat.isDigit_of_mem_toDigits (by decide) (by decide) listed)
  cases i with
  | ofNat n =>
    refine ⟨?_, fun c listed => digit (toList_toString_ofNat n ▸ listed)⟩
    rw [Ne, ← String.toList_inj, toList_toString_ofNat]
    exact Nat.toDigits_ne_nil
  | negSucc n =>
    refine ⟨?_, fun c listed => ?_⟩
    · rw [Ne, ← String.toList_inj, toList_toString_negSucc]
      simp
    · rw [toList_toString_negSucc, List.mem_cons] at listed
      obtain rfl | listed := listed
      · decide
      · exact digit listed

theorem foldlM_digits_ge {cs : List Char} {m n : Nat}
    (read : cs.foldlM (fun n c => (digit? 10 c).map (n * 10 + ·)) m = some n) :
    m * 10 ^ cs.length ≤ n := by
  induction cs generalizing m with
  | nil =>
    simp only [List.foldlM_nil, Option.pure_def, Option.some.injEq] at read
    simp [read]
  | cons c cs ih =>
    rw [List.foldlM_cons] at read
    cases digit : digit? 10 c with
    | none => simp [digit] at read
    | some d =>
      rw [digit] at read
      have more := ih (m := m * 10 + d) read
      have grown : m * 10 * 10 ^ cs.length ≤ (m * 10 + d) * 10 ^ cs.length :=
        Nat.mul_le_mul_right _ (Nat.le_add_right _ _)
      rw [List.length_cons, Nat.pow_succ, Nat.mul_comm (10 ^ cs.length), ← Nat.mul_assoc]
      exact Nat.le_trans grown more

theorem digits?_ge {c : Char} {cs : List Char} {n : Nat} (digit : c.isDigit = true)
    (leading : c ≠ '0') (read : digits? 10 (c :: cs) = some n) : 10 ^ cs.length ≤ n := by
  obtain ⟨low, high⟩ := Char.isDigit_iff_toNat.mp digit
  have nonzero : c.toNat ≠ 48 := fun zero => leading (Char.toNat_inj.mp zero)
  change 48 ≤ c.toNat at low
  change c.toNat ≤ 57 at high
  rw [digits?, List.foldlM_cons, digit?_of_isDigit digit] at read
  have more := foldlM_digits_ge (m := 0 * 10 + (c.toNat - 48)) read
  exact Nat.le_trans (Nat.le_mul_of_pos_left _ (by omega)) more

/-- A number of more than twenty digits is none of 64 bits. -/
theorem unsigned?_long {c : Char} {cs : List Char} (digit : c.isDigit = true) (leading : c ≠ '0')
    (long : 20 ≤ cs.length) : unsigned? 10 bound64 (c :: cs) = none := by
  have plain : c ≠ '+' := by rintro rfl; exact absurd digit (by decide)
  unfold unsigned?
  split
  · rename_i signed
    simp only [List.cons.injEq] at signed
    exact absurd signed.1 plain
  · cases read : digits? 10 (c :: cs) with
    | none => simp only [read]
    | some n =>
      have large : bound64 ≤ n :=
        Nat.le_trans (Nat.le_trans (by decide) (Nat.pow_le_pow_right (by decide) long))
          (digits?_ge digit leading read)
      simp only [read, Nat.not_lt.mpr large, if_false]

/-- A printed number does not begin with a zero, unless it is zero. -/
theorem head_toDigits_ne_zero {n : Nat} (positive : 0 < n) :
    (Nat.toDigits 10 n).head? ≠ some '0' := by
  induction n using Nat.strongRecOn with
  | ind n ih =>
    by_cases small : n < 10
    · rw [Nat.toDigits_of_lt_base small, List.head?_cons]
      simp
      omega
    · have first := ih (n / 10) (by omega) (by omega)
      obtain ⟨c, cs, digits, -⟩ := head_toDigits (n / 10)
      rw [Nat.toDigits_of_base_le (by decide) (by omega)]
      rwa [digits] at first ⊢

theorem utf8ByteSize_of_ascii (text : String) (ascii : ∀ c ∈ text.toList, c.utf8Size = 1) :
    text.utf8ByteSize = text.toList.length := by
  have each : ∀ cs : List Char, (∀ c ∈ cs, c.utf8Size = 1) →
      (cs.flatMap String.utf8EncodeChar).length = cs.length := by
    intro cs one
    induction cs with
    | nil => rfl
    | cons c cs ih =>
      rw [List.flatMap_cons, List.length_append, String.length_utf8EncodeChar,
        one c List.mem_cons_self, ih fun d later => one d (List.mem_cons_of_mem c later),
        List.length_cons, Nat.add_comm]
  rw [← Utf8.length_encode, Utf8.encode, each _ ascii]

theorem utf8Size_of_isDigit {c : Char} (digit : c.isDigit = true) : c.utf8Size = 1 := by
  rw [Char.utf8Size_eq_one_iff, UInt32.le_iff_toNat_le]
  exact Nat.le_trans (Char.isDigit_iff_toNat.mp digit).2 (by decide)

theorem ascii_toDigits {n : Nat} {c : Char} (listed : c ∈ Nat.toDigits 10 n) : c.utf8Size = 1 :=
  utf8Size_of_isDigit (Nat.isDigit_of_mem_toDigits (by decide) (by decide) listed)

theorem ascii_toString_int (i : Int) : ∀ c ∈ (toString i).toList, c.utf8Size = 1 := by
  intro c listed
  cases i with
  | ofNat n => exact ascii_toDigits (toList_toString_ofNat n ▸ listed)
  | negSucc n =>
    rw [toList_toString_negSucc, List.mem_cons] at listed
    obtain rfl | listed := listed
    · decide
    · exact ascii_toDigits listed

theorem utf8ByteSize_toString_le {n k : Nat} (some_place : 0 < k) (small : n < 10 ^ k) :
    (toString n).utf8ByteSize ≤ k := by
  rw [Nat.toString_eq_repr, utf8ByteSize_of_ascii, Nat.toList_repr]
  · exact (Nat.length_toDigits_le_iff (by decide) some_place).mpr small
  · intro c listed
    rw [Nat.toList_repr] at listed
    exact ascii_toDigits listed

theorem utf8ByteSize_revision_le (r : Revision) : (toString r.val).utf8ByteSize ≤ 20 := by
  have low := r.least_le
  have high := r.le_greatest
  rw [utf8ByteSize_of_ascii _ (ascii_toString_int r.val)]
  cases value : r.val with
  | ofNat n =>
    have small : n < 10 ^ 20 := by
      simp only [value, Revision.greatest, Int.ofNat_eq_natCast] at high
      omega
    rw [toList_toString_ofNat]
    exact (Nat.length_toDigits_le_iff (by decide) (by decide)).mpr small
  | negSucc n =>
    have small : n + 1 < 10 ^ 19 := by
      simp only [value, Revision.least, Int.negSucc_eq] at low
      omega
    rw [toList_toString_negSucc, List.length_cons]
    exact Nat.succ_le_succ ((Nat.length_toDigits_le_iff (by decide) (by decide)).mpr small)

end QuorumKv.Text
