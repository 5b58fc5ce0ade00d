import Mathlib.Data.Nat.Digits.Defs
import Mathlib.Tactic.Ring
import QuorumKv.Proofs.Text.Blank
import QuorumKv.Text.Digits

/-! Which texts are read as numbers: digits of a base, the most significant first, behind a sign
that may be left out. -/
namespace QuorumKv.Text

/-- What the digits behind a number make of it. -/
theorem foldlM_digits_iff {base m n : Nat} {cs : List Char} :
    cs.foldlM (fun n c => (digit? base c).map (n * base + ·)) m = some n ↔
      ∃ values : List Nat, cs.map (digit? base) = values.map some ∧
        m * base ^ values.length + Nat.ofDigits base values.reverse = n := by
  induction cs generalizing m with
  | nil =>
    constructor
    · intro read
      exact ⟨[], rfl, by simpa using read⟩
    · rintro ⟨values, none, rfl⟩
      obtain rfl : values = [] := List.map_eq_nil_iff.mp none.symm
      simp
  | cons c cs ih =>
    have more (d : Nat) (values : List Nat) :
        (m * base + d) * base ^ values.length + Nat.ofDigits base values.reverse =
          m * base ^ (d :: values).length + Nat.ofDigits base (d :: values).reverse := by
      rw [List.reverse_cons, Nat.ofDigits_append, Nat.ofDigits_singleton, List.length_reverse,
        List.length_cons, Nat.pow_succ]
      ring
    rw [List.foldlM_cons]
    cases digit : digit? base c with
    | none =>
      constructor
      · exact nofun
      · rintro ⟨values, same, -⟩
        cases values <;> simp [digit] at same
    | some d =>
      simp only [Option.map_some, Option.bind_eq_bind, Option.bind_some, ih, List.map_cons, digit]
      constructor
      · rintro ⟨values, same, rfl⟩
        exact ⟨d :: values, by rw [same, List.map_cons], (more d values).symm⟩
      · rintro ⟨values, same, rfl⟩
        cases values with
        | nil => cases same
        | cons v values =>
          obtain ⟨one, others⟩ := List.cons.inj same
          obtain rfl := Option.some.inj one
          exact ⟨values, others, more d values⟩

/-- Whether some characters are the digits of a number in a base. -/
def Writes (base : Nat) (cs : List Char) (n : Nat) : Prop :=
  cs ≠ [] ∧ ∃ values : List Nat,
    cs.map (digit? base) = values.map some ∧ Nat.ofDigits base values.reverse = n

theorem digits?_eq_some_iff {base n : Nat} {cs : List Char} :
    digits? base cs = some n ↔ Writes base cs n := by
  cases cs with
  | nil => simp [digits?, Writes]
  | cons c cs =>
    rw [digits?, foldlM_digits_iff]
    simp [Writes]

/-- Digits are neither signs nor blanks. -/
theorem Writes.plain {base n : Nat} {cs : List Char} (writes : Writes base cs n) :
    ∀ c ∈ cs, c ≠ '+' ∧ c ≠ '-' ∧ isBlank c = false := by
  obtain ⟨-, values, same, -⟩ := writes
  intro c listed
  have read : digit? base c ∈ values.map some := same ▸ List.mem_map_of_mem listed
  obtain ⟨d, -, known⟩ := List.mem_map.mp read
  have place : (48 ≤ c.toNat ∧ c.toNat ≤ 57) ∨ (97 ≤ c.toNat ∧ c.toNat ≤ 102) ∨
      65 ≤ c.toNat ∧ c.toNat ≤ 70 := by
    by_contra other
    have out : digit? base c = none := by
      have outside {low high : Nat} (not_in : ¬(low ≤ c.toNat ∧ c.toNat ≤ high)) :
          ¬(decide (low ≤ c.toNat) && decide (c.toNat ≤ high)) = true := by
        simpa only [Bool.and_eq_true, decide_eq_true_eq] using not_in
      unfold digit?
      dsimp only
      rw [if_neg (outside fun inside => other (.inl inside)),
        if_neg (outside fun inside => other (.inr (.inl inside))),
        if_neg (outside fun inside => other (.inr (.inr inside)))]
      exact if_neg (Nat.lt_irrefl base)
    rw [out] at known
    cases known
  have apart {d : Char} (other : d.toNat < 48) : c ≠ d := by
    rintro rfl
    omega
  refine ⟨apart (by decide), apart (by decide), ?_⟩
  simp only [isBlank]
  simp
  omega

theorem unsigned?_plus (base bound : Nat) (rest : List Char) :
    unsigned? base bound ('+' :: rest) = (digits? base rest).filter (· < bound) := by
  simp only [unsigned?]
  cases digits? base rest <;> simp [Option.filter_some]

theorem unsigned?_bare (base bound : Nat) {cs : List Char} (bare : ∀ rest, cs ≠ '+' :: rest) :
    unsigned? base bound cs = (digits? base cs).filter (· < bound) := by
  simp only [unsigned?]
  cases digits? base cs <;> simp [Option.filter_some]

theorem unsigned?_eq_some_iff {base bound n : Nat} {cs : List Char} :
    unsigned? base bound cs = some n ↔ n < bound ∧
      ∃ sign digits, cs = sign ++ digits ∧ (sign = [] ∨ sign = ['+']) ∧ Writes base digits n := by
  by_cases signed : ∃ rest, cs = '+' :: rest
  · obtain ⟨rest, rfl⟩ := signed
    rw [unsigned?_plus, Option.filter_eq_some_iff, digits?_eq_some_iff, decide_eq_true_eq, and_comm]
    refine and_congr_right fun _ => ?_
    constructor
    · exact fun writes => ⟨['+'], rest, rfl, .inr rfl, writes⟩
    · rintro ⟨sign, digits, parts, rfl | rfl, writes⟩
      · obtain rfl : '+' :: rest = digits := parts
        exact absurd rfl (writes.plain '+' List.mem_cons_self).1
      · obtain rfl := (List.cons.inj parts).2
        exact writes
  · have bare (rest : List Char) (same : cs = '+' :: rest) : False := signed ⟨rest, same⟩
    rw [unsigned?_bare base bound bare, Option.filter_eq_some_iff, digits?_eq_some_iff,
      decide_eq_true_eq, and_comm]
    refine and_congr_right fun _ => ?_
    constructor
    · exact fun writes => ⟨[], cs, rfl, .inl rfl, writes⟩
    · rintro ⟨sign, digits, parts, rfl | rfl, writes⟩
      · exact parts ▸ writes
      · exact absurd parts (bare digits)

/-- Whether some characters are a number below a bound, with nothing but blanks around it. A plus
sign may stand in front. -/
def Shows (base bound : Nat) (cs : List Char) (n : Nat) : Prop :=
  n < bound ∧ ∃ before sign digits after, cs = before ++ (sign ++ digits) ++ after ∧
    (∀ c ∈ before, isBlank c = true) ∧ (∀ c ∈ after, isBlank c = true) ∧
    (sign = [] ∨ sign = ['+']) ∧ Writes base digits n

theorem unsigned?_trimList_iff {base bound n : Nat} {cs : List Char} :
    unsigned? base bound (trimList isBlank cs) = some n ↔ Shows base bound cs n := by
  rw [unsigned?_eq_some_iff]
  constructor
  · rintro ⟨small, sign, digits, parts, signed, writes⟩
    obtain ⟨before, after, whole, first, last⟩ := exists_trimList isBlank cs
    exact ⟨small, before, sign, digits, after, parts ▸ whole, first, last, signed, writes⟩
  · rintro ⟨small, before, sign, digits, after, rfl, first, last, signed, writes⟩
    have filled : sign ++ digits ≠ [] := by simp [writes.1]
    have kept : ∀ c ∈ sign ++ digits, isBlank c = false := by
      intro c listed
      obtain signs | listed := List.mem_append.mp listed
      · obtain rfl | rfl := signed
        · cases signs
        · obtain rfl := List.mem_singleton.mp signs
          decide
      · exact (writes.plain c listed).2.2
    exact ⟨small, sign, digits, trimList_eq filled kept first last, signed, writes⟩

instance (base bound n : Nat) (cs : List Char) : Decidable (Shows base bound cs n) :=
  decidable_of_iff _ unsigned?_trimList_iff

theorem Shows.functional {base bound m n : Nat} {cs : List Char} (one : Shows base bound cs m)
    (other : Shows base bound cs n) : m = n :=
  Option.some.inj ((unsigned?_trimList_iff.mpr one).symm.trans (unsigned?_trimList_iff.mpr other))

/-- No minus sign stands in front of a number that is shown. -/
theorem Shows.unsigned {base bound n : Nat} {cs : List Char} (shows : Shows base bound cs n) :
    cs.head? ≠ some '-' := by
  obtain ⟨-, before, sign, digits, after, rfl, first, -, signed, writes⟩ := shows
  intro minus
  cases before with
  | cons c before =>
    obtain rfl := Option.some.inj minus
    exact absurd (first '-' List.mem_cons_self) (by decide)
  | nil =>
    obtain rfl | rfl := signed
    · obtain ⟨c, cs, rfl⟩ := List.exists_cons_of_ne_nil writes.1
      obtain rfl := Option.some.inj minus
      exact (writes.plain '-' List.mem_cons_self).2.1 rfl
    · exact absurd (Option.some.inj minus) (by decide)

end QuorumKv.Text
